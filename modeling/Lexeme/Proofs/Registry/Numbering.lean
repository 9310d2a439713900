import Lexeme.Proofs.Registry.Independence
import Lexeme.Proofs.Registry.Snapshot

/-!
# Tags numbered above the reserved range

A language numbers its tags by their steps above the reserved range, and names each of them once.
Main statement: every such registration finds its tag free, whatever the settings, and the names of
the language stand beside those of the reserved tags. Offsets lead to different tags, except that
zero counts for one, and that all lead to the last tag from the offset on that reaches it.
-/

namespace Lexeme
namespace Tag

theorem isReserved_custom (offset : UInt32) : (custom offset).isReserved = false := by
  rw [← Bool.not_eq_true, isReserved_iff, UInt32.le_iff_toNat_le, toNat_custom, UInt32.size]
  have two : (2 : UInt32).toNat = 2 := rfl
  omega

theorem custom_eq_custom_iff {a b : UInt32} :
    custom a = custom b ↔
      a = b ∨ (a.toNat ≤ 1 ∧ b.toNat ≤ 1) ∨
        (UInt32.size - 3 ≤ a.toNat ∧ UInt32.size - 3 ≤ b.toNat) := by
  rw [← value_inj, ← UInt32.toNat_inj, toNat_custom, toNat_custom, ← UInt32.toNat_inj, UInt32.size]
  have ha := a.toNat_lt_size
  have hb := b.toNat_lt_size
  rw [UInt32.size] at ha hb
  omega

theorem custom_le_custom {a b : UInt32} (h : a ≤ b) : (custom a).value ≤ (custom b).value := by
  rw [UInt32.le_iff_toNat_le] at h ⊢
  rw [toNat_custom, toNat_custom]
  omega

end Tag

namespace Registry

section

variable {r : Registry} {t u : Tag} {name : String} {calls : List (Tag × String)}

structure Free (r : Registry) (t : Tag) : Prop where
  keeps : r.config.keeps t = false
  names : r.names[t]? = none

theorem register_of_free (h : r.Free t) :
    r.register t name = ⟨.ok none, r.store t name, [.registered t name]⟩ :=
  (Registers.fresh h.keeps h.names).eq

theorem Free.store (h : r.Free u) (hne : t ≠ u) : (r.store t name).Free u where
  keeps := h.keeps
  names := by rw [getElem?_names_store, if_neg hne, h.names]

theorem snapshot_store_perm (name : String) (hn : r.names[t]? = none) :
    (r.store t name).snapshot.Perm ((t, name) :: r.snapshot) := by
  have hnew : (t, name) ∉ r.snapshot := by simp [mem_snapshot_iff, hn]
  refine (List.perm_ext_iff_of_nodup (nodup_snapshot _)
    (List.nodup_cons.2 ⟨hnew, r.nodup_snapshot⟩)).2 ?_
  rintro ⟨u, m⟩
  rw [mem_snapshot_iff, getElem?_names_store, List.mem_cons, mem_snapshot_iff, Prod.mk.injEq]
  by_cases h : t = u
  · subst h
    simp [hn, eq_comm]
  · simp [h, Ne.symm h]

/-- Registrations for different tags, all of them free, are all taken. -/
theorem entries_of_free (hn : (calls.map Prod.fst).Nodup)
    (hf : ∀ call ∈ calls, r.Free call.1) :
    (r.run (calls.map .naming)).1 =
      calls.map fun call => (.registered (.ok none), [.registered call.1 call.2]) := by
  rw [run_of_nodup r hn]
  refine List.map_congr_left fun call hcall => ?_
  have hstep : r.answer (.naming call) =
      (Step.mk (.ok none) (r.store call.1 call.2) [.registered call.1 call.2]).map
        Reply.registered := congrArg (Step.map _) (register_of_free (hf call hcall))
  rw [entry, hstep]
  rfl

theorem snapshot_run_perm (hn : (calls.map Prod.fst).Nodup)
    (hf : ∀ call ∈ calls, r.Free call.1) :
    (r.run (calls.map .naming)).2.snapshot.Perm (r.snapshot ++ calls) := by
  induction calls generalizing r with
  | nil => simp
  | cons call calls ih =>
    obtain ⟨hcall, hrest⟩ := List.forall_mem_cons.1 hf
    rw [List.map_cons, List.nodup_cons] at hn
    have hstep : (r.answer (.naming call)).registry = r.store call.1 call.2 :=
      congrArg Step.registry (register_of_free hcall)
    have hfree : ∀ other ∈ calls, (r.store call.1 call.2).Free other.1 := by
      intro other hother
      refine (hrest other hother).store fun he => hn.1 ?_
      exact he ▸ List.mem_map_of_mem hother
    have hstore := (snapshot_store_perm call.2 hcall.names).append_right calls
    rw [List.map_cons, run_cons, hstep]
    exact ((ih hn.2 hfree).trans hstore).trans List.perm_middle.symm

end

theorem free_custom (c : Config) (offset : UInt32) : (new c).Free (.custom offset) where
  keeps := by simp [Config.keeps, Tag.isReserved_custom]
  names := by
    have h := Tag.isReserved_custom offset
    rw [← Bool.not_eq_true, Tag.isReserved_iff] at h
    rw [getElem?_names_new, if_neg h]

def customNames (pairs : List (UInt32 × String)) : List (Tag × String) :=
  pairs.map fun p => (.custom p.1, p.2)

theorem free_customNames (c : Config) (pairs : List (UInt32 × String)) :
    ∀ call ∈ customNames pairs, (new c).Free call.1 := by
  intro call hcall
  obtain ⟨p, -, rfl⟩ := List.mem_map.1 hcall
  exact free_custom c p.1

theorem nodup_customNames {pairs : List (UInt32 × String)} (hd : (pairs.map Prod.fst).Nodup)
    (ho : ∀ p ∈ pairs, 1 ≤ p.1.toNat ∧ p.1.toNat ≤ UInt32.size - 3) :
    ((customNames pairs).map Prod.fst).Nodup := by
  have hmap : (customNames pairs).map Prod.fst = (pairs.map Prod.fst).map Tag.custom := by
    simp [customNames]
  rw [hmap]
  refine hd.map_on ?_
  intro a ha b hb hab
  obtain ⟨p, hp, rfl⟩ := List.mem_map.1 ha
  obtain ⟨q, hq, rfl⟩ := List.mem_map.1 hb
  have hpo := ho p hp
  have hqo := ho q hq
  rw [Tag.custom_eq_custom_iff] at hab
  rcases hab with h | h | h
  · exact h
  · exact UInt32.toNat_inj.1 (by omega)
  · exact UInt32.toNat_inj.1 (by omega)

theorem pairwise_customNames (pairs : List (UInt32 × String)) :
    (reservedNames ++ customNames (pairs.mergeSort fun a b => a.1 ≤ b.1)).Pairwise
      fun a b => a.1.value ≤ b.1.value := by
  refine List.pairwise_append.2 ⟨by decide, ?_, ?_⟩
  · rw [customNames, List.pairwise_map]
    exact (pairwise_sortBy Prod.fst pairs).imp Tag.custom_le_custom
  · intro a ha b hb
    obtain ⟨p, -, rfl⟩ := List.mem_map.1 hb
    have hreserved : ∀ e ∈ reservedNames, e.1.isReserved = true := by decide
    have ha := Tag.isReserved_iff.1 (hreserved a ha)
    have hb := Tag.isReserved_custom p.1
    rw [← Bool.not_eq_true, Tag.isReserved_iff, UInt32.not_le] at hb
    exact UInt32.le_trans ha (UInt32.le_of_lt hb)

/-- A language that names the tags of different offsets, each of which leads to a tag of its own,
has all its names taken and none replaced, whatever the settings; each tag goes by its name, and the
snapshot has the reserved names and behind them those of the language by their offsets. Such tags
are never reserved. Different offsets lead to one tag only if they are zero and one, or lead to the
last tag. -/
theorem custom_names_stand :
    (∀ (c : Config) (pairs : List (UInt32 × String)),
      (pairs.map Prod.fst).Nodup →
      (∀ p ∈ pairs, 1 ≤ p.1.toNat ∧ p.1.toNat ≤ UInt32.size - 3) →
      let run := (new c).run (pairs.map fun p => .register (.custom p.1) p.2)
      run.1.map Prod.fst = pairs.map (fun _ => .registered (.ok none)) ∧
      (∀ p ∈ pairs, run.2.nameOf (.custom p.1) = p.2) ∧
      run.2.size = 3 + pairs.length ∧
      run.2.snapshot =
        [(.eof, "EOF"), (.error, "Error"), (.lastReserved, "Special (DefaultMax)")] ++
          (pairs.mergeSort fun a b => a.1 ≤ b.1).map fun p => (.custom p.1, p.2)) ∧
    (∀ offset, (Tag.custom offset).isReserved = false) ∧
    ∀ a b, a ≠ b → (Tag.custom a = Tag.custom b ↔
      a.toNat ≤ 1 ∧ b.toNat ≤ 1 ∨ UInt32.size - 3 ≤ a.toNat ∧ UInt32.size - 3 ≤ b.toNat) := by
  refine ⟨?_, Tag.isReserved_custom, ?_⟩
  · intro c pairs hd ho run
    have hn := nodup_customNames hd ho
    have hf := free_customNames c pairs
    have hcalls : run = (new c).run ((customNames pairs).map .naming) := by
      rw [customNames, List.map_map]
      rfl
    have hperm : run.2.snapshot.Perm (reservedNames ++ customNames pairs) := by
      rw [hcalls, ← snapshot_new c]
      exact snapshot_run_perm hn hf
    refine ⟨?_, ?_, ?_, ?_⟩
    · rw [hcalls, entries_of_free hn hf, customNames, List.map_map, List.map_map]
      rfl
    · intro p hp
      refine nameOf_of_mem_snapshot (hperm.mem_iff.2 (List.mem_append_right _ ?_))
      exact List.mem_map_of_mem hp
    · rw [← length_snapshot, hperm.length_eq, List.length_append, customNames, List.length_map]
      rfl
    · refine (eq_snapshot_iff.2 ⟨?_, pairwise_customNames pairs⟩).symm
      have hsorted := (sortBy_perm Prod.fst pairs).map fun p => (Tag.custom p.1, p.2)
      exact (hsorted.append_left reservedNames).trans hperm.symm
  · intro a b hne
    rw [Tag.custom_eq_custom_iff]
    exact or_iff_right hne

/-- The offset of the last tag, named before the first one. -/
theorem custom_names_stand_last :
    let pairs : List (UInt32 × String) := [(4294967293, "last"), (1, "first"), (7, "seventh")]
    let run := (new .strict).run (pairs.map fun p => .register (.custom p.1) p.2)
    (pairs.map Prod.fst).Nodup ∧
      (∀ p ∈ pairs, 1 ≤ p.1.toNat ∧ p.1.toNat ≤ UInt32.size - 3) ∧
      run.2.size = 6 ∧ run.2.nameOf ⟨4294967295⟩ = "last" := by
  intro pairs run
  have hd : (pairs.map Prod.fst).Nodup := by decide
  have ho : ∀ p ∈ pairs, 1 ≤ p.1.toNat ∧ p.1.toNat ≤ UInt32.size - 3 := by decide
  obtain ⟨-, hnames, hsize, -⟩ := custom_names_stand.1 .strict pairs hd ho
  exact ⟨hd, ho, hsize, hnames (4294967293, "last") (by decide)⟩

end Registry
end Lexeme
