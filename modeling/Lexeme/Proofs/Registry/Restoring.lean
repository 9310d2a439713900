import Lexeme.Proofs.Registry.Independence
import Lexeme.Proofs.Registry.Snapshot

/-!
# Registries restored from their names

Main statement: the entries of a snapshot, registered in any order in a new registry of the same
settings, give the same snapshot again. Only the reserved tags stand in the way, and only where the
settings keep their names; these are the same then anyway.
-/

namespace Lexeme
namespace Registry

section

variable {r : Registry} {t : Tag} {name : String}

theorem getElem?_names_answer_of_stands (q : Request)
    (hs : r.config.keeps t = true ∨ r.config.collision = .reject) (hn : r.names[t]? = some name) :
    (r.answer q).registry.names[t]? = some name := by
  cases q with
  | register u given =>
    have hstep : (r.answer (.register u given)).registry.names[t]? =
        if u = t then r.config.settle u r.names[u]? given else r.names[t]? :=
      r.getElem?_names_register u t given
    rw [hstep]
    split
    · rename_i hut
      subst hut
      rcases hs with hk | hc
      · simp [Config.settle, hk, hn]
      · simp [Config.settle, hc, hn]
    · exact hn
  | _ => exact hn

theorem getElem?_names_run_of_stands (qs : List Request)
    (hs : r.config.keeps t = true ∨ r.config.collision = .reject) (hn : r.names[t]? = some name) :
    (r.run qs).2.names[t]? = some name := by
  induction qs generalizing r with
  | nil => exact hn
  | cons q qs ih =>
    have hstep := getElem?_names_answer_of_stands q hs hn
    exact ih (by rwa [answer_config]) hstep

end

theorem getElem?_names_reserved {c : Config} {t : Tag} (qs : List Request) (ht : t.value ≤ 2)
    (hs : c.keeps t = true ∨ c.collision = .reject) :
    ((new c).run qs).2.names[t]? = some (initialName t) := by
  refine getElem?_names_run_of_stands qs hs ?_
  rw [getElem?_names_new, if_pos ht]

theorem contains_reserved {c : Config} {t : Tag} (qs : List Request) (ht : t.value ≤ 2) :
    ((new c).run qs).2.contains t = true :=
  contains_run qs (contains_new.2 ht)

section

variable {r : Registry} {entries : List (Tag × String)}

theorem nodup_tags_of_perm (h : entries.Perm r.snapshot) : (entries.map Prod.fst).Nodup :=
  (h.map Prod.fst).nodup_iff.2 r.nodup_tags_snapshot

/-- In whatever order the entries come, they give a tag the name it has, and no other. -/
theorem valuesFor_of_perm (h : entries.Perm r.snapshot) (t : Tag) :
    valuesFor t entries = r.names[t]?.toList :=
  valuesFor_eq_toList (nodup_tags_of_perm h) fun _ => h.mem_iff.trans mem_snapshot_iff

end

section

variable {c : Config} {qs : List Request} {entries : List (Tag × String)} {t : Tag}
  {name : String}

/-- From the start on, an entry of a later snapshot settles the name of its tag as it says there. -/
theorem settle_restored (h : ((new c).run qs).2.names[t]? = some name) :
    c.settle t (new c).names[t]? name = some name := by
  by_cases hs : c.keeps t = true ∨ c.collision = .reject
  · by_cases ht : t.value ≤ 2
    · -- the name has never been replaced
      have hn := getElem?_names_reserved qs ht hs
      obtain rfl : initialName t = name := Option.some.inj (hn.symm.trans h)
      rw [getElem?_names_new, if_pos ht]
      rcases hs with hk | hc
      · simp [Config.settle, hk]
      · simp [Config.settle, hc]
    · have hk : c.keeps t = false := by
        rw [← Bool.not_eq_true, Config.keeps_iff]
        exact fun hk => ht hk.2
      rw [getElem?_names_new, if_neg ht]
      cases hc : c.collision <;> simp [Config.settle, hk, hc]
  · rw [not_or, Bool.not_eq_true] at hs
    obtain ⟨hk, hc⟩ := hs
    cases hcoll : c.collision with
    | overwrite | warn => simp [Config.settle, hk, hcoll]
    | reject => exact absurd hcoll hc

theorem names_restored (h : entries.Perm ((new c).run qs).2.snapshot) (t : Tag) :
    ((new c).run (entries.map .naming)).2.names[t]? = ((new c).run qs).2.names[t]? := by
  have hc : (new c).config = c := rfl
  rw [getElem?_names_run, valuesFor_of_perm h, hc]
  cases hn : ((new c).run qs).2.names[t]? with
  | none =>
    have ht : ¬t.value ≤ 2 := by
      intro ht
      have hcontains := contains_reserved (c := c) qs ht
      simp [contains_eq_isSome, hn] at hcontains
    rw [getElem?_names_new, if_neg ht]
    rfl
  | some name => exact settle_restored hn

/-- What a new registry answers to an entry of a snapshot: it keeps the names of the reserved tags
if its settings say so, and else hands the first names of those back that have another by then. -/
def restored (c : Config) (t : Tag) (name : String) : Except Refusal (Option String) :=
  if c.protectReserved = true ∧ t.value ≤ 2 then .error (.reserved t name)
  else if t.value ≤ 2 ∧ name ≠ initialName t then .ok (some (initialName t))
  else .ok none

theorem register_restored (h : ((new c).run qs).2.names[t]? = some name) :
    ((new c).register t name).answer = restored c t name := by
  have hc : (new c).config = c := rfl
  unfold restored
  split
  · rename_i hk
    rw [register_eq_reserved_iff, hc, Config.keeps_iff]
    exact hk
  · rename_i hk
    rw [← Config.keeps_iff, Bool.not_eq_true] at hk
    split
    · rename_i ht
      rw [register_eq_replaced_iff, hc, getElem?_names_new, if_pos ht.1]
      refine ⟨hk, ?_, rfl, ht.2.symm⟩
      intro hreject
      have hn := getElem?_names_reserved qs ht.1 (.inr hreject)
      exact ht.2 (Option.some.inj (h.symm.trans hn))
    · rename_i ht
      rw [register_eq_none_iff, hc, getElem?_names_new]
      refine ⟨hk, ?_⟩
      split
      · rename_i hle
        have hname : name = initialName t := by
          by_contra hne
          exact ht ⟨hle, hne⟩
        exact .inr (congrArg some hname.symm)
      · exact .inl rfl

theorem reserved_entries (h : entries.Perm ((new c).run qs).2.snapshot) :
    ((entries.map Prod.fst).filter fun t => t.value ≤ 2).Perm [.eof, .error, .lastReserved] := by
  refine (List.perm_ext_iff_of_nodup ((nodup_tags_of_perm h).filter _) (by decide)).2 fun t => ?_
  have hmem : t ∈ entries.map Prod.fst ↔ ((new c).run qs).2.contains t = true := by
    rw [(h.map Prod.fst).mem_iff, contains_iff]
    simp
  rw [List.mem_filter, hmem, decide_eq_true_eq, Tag.le_two_iff]
  constructor
  · rintro ⟨-, ht⟩
    simpa using ht
  · intro ht
    have ht : t = .eof ∨ t = .error ∨ t = .lastReserved := by simpa using ht
    exact ⟨contains_reserved qs (Tag.le_two_iff.2 ht), ht⟩

end

/-- The entries of a snapshot, registered in any order in a new registry of the same settings, give
the same snapshot. All of them are taken, but for those of the three reserved tags where the
settings keep their names: these are refused. -/
theorem snapshot_restored (c : Config) (qs : List Request) (entries : List (Tag × String))
    (h : entries.Perm ((new c).run qs).2.snapshot) :
    let run := (new c).run (entries.map .naming)
    run.2.snapshot = ((new c).run qs).2.snapshot ∧
    run.1.map Prod.fst = entries.map (fun e => .registered
      (if c.protectReserved = true ∧ e.1.value ≤ 2 then .error (.reserved e.1 e.2)
      else if e.1.value ≤ 2 ∧ e.2 ≠ initialName e.1 then .ok (some (initialName e.1))
      else .ok none)) ∧
    ((entries.map Prod.fst).filter fun t => t.value ≤ 2).Perm [.eof, .error, .lastReserved] := by
  intro run
  refine ⟨?_, ?_, reserved_entries h⟩
  · have hrun : run.2 = ((new c).run qs).2 :=
      ext_names (by rw [run_config, run_config]) (names_restored h)
    rw [hrun]
  · rw [run_of_nodup _ (nodup_tags_of_perm h), List.map_map]
    refine List.map_congr_left fun e he => ?_
    have hn := mem_snapshot_iff.1 (h.mem_iff.1 he)
    exact congrArg Reply.registered (register_restored hn)

/-- A reserved tag that goes by another name by then, and entries that come in descending order. -/
theorem snapshot_restored_renamed :
    let c : Config := ⟨.warn, false⟩
    let qs : List Request := [.register ⟨7⟩ "number", .lookup ⟨9⟩, .register .eof "end"]
    let entries : List (Tag × String) :=
      [(⟨7⟩, "number"), (.lastReserved, "Special (DefaultMax)"), (.error, "Error"), (.eof, "end")]
    entries.Perm ((new c).run qs).2.snapshot ∧
      ((new c).run (entries.map .naming)).2.snapshot = ((new c).run qs).2.snapshot := by
  intro c qs entries
  have hs : ((new c).run qs).2.snapshot = entries.reverse := by
    rw [snapshot_eq_toList]
    decide
  have h : entries.Perm ((new c).run qs).2.snapshot := hs ▸ entries.reverse_perm.symm
  exact ⟨h, (snapshot_restored c qs entries h).1⟩

end Registry
end Lexeme
