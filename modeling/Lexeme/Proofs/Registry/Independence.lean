import Lexeme.Proofs.Registry.Log
import Mathlib.Data.List.FinRange
import Mathlib.Data.List.Sort

/-!
# Calls in another order, and made twice

What comes of a call is told by the settings and the name its tag goes by, so calls for other tags
have no say in it. Main statements: when the calls of a run come in another order that leaves the
calls for each tag in theirs, the same comes of every call, and the registry ends the same; a run of
registrations that is made a second time leaves every name as the first run left it, and where no
name is replaced, each registration is also answered as it was the first time.
-/

namespace Lexeme
namespace Registry

def entry (r : Registry) (call : Tag × String) : Entry :=
  ((r.answer (.naming call)).answer, (r.answer (.naming call)).events)

theorem entry_congr {r s : Registry} {call : Tag × String} (hc : r.config = s.config)
    (hn : r.names[call.1]? = s.names[call.1]?) : r.entry call = s.entry call := by
  obtain ⟨t, name⟩ := call
  simp only [entry, answer, Request.naming, Step.map, register, hc, hn]
  split
  · rfl
  · split
    · rfl
    · split
      · rfl
      · split <;> rfl

theorem ext_names {r s : Registry} (hc : r.config = s.config)
    (hn : ∀ t : Tag, r.names[t]? = s.names[t]?) : r = s := by
  have hnames : r.names = s.names := Std.ExtTreeMap.ext_getElem? fun {t} => hn t
  cases r
  cases s
  exact congr (congrArg mk hc) hnames

theorem getElem?_run_namings (r : Registry) (calls : List (Tag × String))
    (i : Fin calls.length) :
    (r.run (calls.map .naming)).1[i.val]? =
      some ((r.run ((calls.take i).map .naming)).2.entry calls[i]) := by
  have hsplit : calls.map .naming =
      (calls.take i).map .naming ++
        Request.naming calls[i] :: (calls.drop (i + 1)).map .naming := by
    rw [← List.map_cons, ← List.map_append, Fin.getElem_fin, List.getElem_cons_drop,
      List.take_append_drop]
  have hlen : ((calls.take i).map Request.naming).length = i := by
    simp [Nat.le_of_lt i.isLt]
  have h := r.getElem?_run ((calls.take i).map .naming) ((calls.drop (i + 1)).map .naming)
    (.naming calls[i])
  rwa [← hsplit, hlen] at h

theorem run_of_nodup (r : Registry) {calls : List (Tag × String)}
    (h : (calls.map Prod.fst).Nodup) : (r.run (calls.map .naming)).1 = calls.map r.entry := by
  induction calls generalizing r with
  | nil => rfl
  | cons call calls ih =>
    rw [List.map_cons, List.nodup_cons] at h
    obtain ⟨hcall, hcalls⟩ := h
    rw [List.map_cons, run_cons, ih _ hcalls, List.map_cons]
    refine congrArg (r.entry call :: ·) (List.map_congr_left fun other hother => ?_)
    have hne : call.1 ≠ other.1 := fun he => hcall (he ▸ List.mem_map_of_mem hother)
    refine entry_congr (answer_config _ _) ?_
    rw [getElem?_names_naming, if_neg hne]

def placesFor (t : Tag) (calls : List (Tag × String)) (n : Nat) : List (Fin calls.length) :=
  ((List.finRange calls.length).take n).filter fun i => calls[i].1 = t

theorem mem_placesFor {t : Tag} {calls : List (Tag × String)} {n : Nat} {i : Fin calls.length} :
    i ∈ placesFor t calls n ↔ i.val < n ∧ calls[i].1 = t := by
  have htake : i ∈ (List.finRange calls.length).take n ↔ i.val < n := by
    rw [List.mem_take_iff_getElem]
    constructor
    · rintro ⟨k, hk, rfl⟩
      simp at hk ⊢
      omega
    · intro hi
      exact ⟨i.val, by simp [hi], by simp⟩
  simp [placesFor, htake]

theorem pairwise_placesFor (t : Tag) (calls : List (Tag × String)) (n : Nat) :
    (placesFor t calls n).Pairwise (· < ·) :=
  (List.sortedLT_finRange _).pairwise.sublist
    (List.filter_sublist.trans (List.take_sublist _ _))

theorem valuesFor_take (t : Tag) (calls : List (Tag × String)) (n : Nat) :
    valuesFor t (calls.take n) = (placesFor t calls n).map fun i => calls[i].2 := by
  have hcalls : calls.take n = ((List.finRange calls.length).take n).map fun i => calls[i] := by
    rw [List.map_take]
    exact congrArg (List.take n) (List.map_getElem_finRange calls).symm
  rw [valuesFor, hcalls, List.filter_map, List.map_map]
  rfl

section

variable {xs ys : List (Tag × String)} {place : Fin xs.length ≃ Fin ys.length}

/-- The calls of `ys` are those of `xs` in another order: `place` tells where each of them has gone.
Calls for one tag stay in their order. -/
structure Reorders (place : Fin xs.length ≃ Fin ys.length) : Prop where
  call : ∀ i, ys[place i] = xs[i]
  order : ∀ i j, xs[i].1 = xs[j].1 → i < j → place i < place j

theorem Reorders.lt_iff (h : Reorders place) {i j : Fin xs.length} (ht : xs[i].1 = xs[j].1) :
    place i < place j ↔ i < j := by
  constructor
  · intro hlt
    by_contra hle
    rcases (not_lt.1 hle).eq_or_lt with rfl | hji
    · exact lt_irrefl _ hlt
    · exact lt_asymm hlt (h.order j i ht.symm hji)
  · exact h.order i j ht

/-- Up to places that agree on a tag, its calls give it the same names in the same order. -/
theorem Reorders.valuesFor_take_eq (h : Reorders place) {t : Tag} {m n : Nat}
    (hmn : ∀ i, xs[i].1 = t → (i.val < m ↔ (place i).val < n)) :
    valuesFor t (ys.take n) = valuesFor t (xs.take m) := by
  have hplaces : placesFor t ys n = (placesFor t xs m).map place := by
    refine (pairwise_placesFor t ys n).eq_of_mem_iff ?_ ?_
    · rw [List.pairwise_map]
      refine (pairwise_placesFor t xs m).imp_of_mem ?_
      intro i j hi hj hij
      exact h.order i j ((mem_placesFor.1 hi).2.trans (mem_placesFor.1 hj).2.symm) hij
    · intro k
      obtain ⟨i, rfl⟩ := place.surjective k
      rw [List.mem_map_of_injective place.injective, mem_placesFor, mem_placesFor, h.call]
      constructor
      · rintro ⟨hn, ht⟩
        exact ⟨(hmn i ht).2 hn, ht⟩
      · rintro ⟨hm, ht⟩
        exact ⟨(hmn i ht).1 hm, ht⟩
  rw [valuesFor_take, valuesFor_take, hplaces, List.map_map]
  exact List.map_congr_left fun i _ => congrArg Prod.snd (h.call i)

end

/-- From any registry on, calls that come in another order, those for each tag in theirs, give each
call the same answer and the same events, and leave the same registry. -/
theorem run_of_reorders (r : Registry) (xs ys : List (Tag × String))
    (place : Fin xs.length ≃ Fin ys.length) (h : Reorders place) :
    (∀ i, ∃ entry, (r.run (xs.map .naming)).1[i.val]? = some entry ∧
      (r.run (ys.map .naming)).1[(place i).val]? = some entry) ∧
    (r.run (ys.map .naming)).2 = (r.run (xs.map .naming)).2 := by
  constructor
  · intro i
    refine ⟨_, r.getElem?_run_namings xs i, ?_⟩
    have hnames : valuesFor xs[i].1 (ys.take (place i)) = valuesFor xs[i].1 (xs.take i) :=
      h.valuesFor_take_eq fun j hj => (h.lt_iff hj).symm
    rw [getElem?_run_namings, h.call]
    congr 1
    refine entry_congr (by rw [run_config, run_config]) ?_
    rw [getElem?_names_run, getElem?_names_run, hnames]
  · refine ext_names (by rw [run_config, run_config]) fun t => ?_
    have hnames : valuesFor t (ys.take ys.length) = valuesFor t (xs.take xs.length) :=
      h.valuesFor_take_eq fun j _ => by simp
    rw [List.take_length, List.take_length] at hnames
    rw [getElem?_names_run, getElem?_names_run, hnames]

/-- Two languages that share a registry may give their names in either order. -/
theorem run_of_reorders_three :
    let xs : List (Tag × String) := [(⟨5⟩, "a"), (.eof, "end"), (⟨5⟩, "b")]
    let ys : List (Tag × String) := [(.eof, "end"), (⟨5⟩, "a"), (⟨5⟩, "b")]
    @Reorders xs ys (Equiv.swap 0 1) ∧
      (∃ entry, ((new .strict).run (xs.map .naming)).1[0]? = some entry ∧
        ((new .strict).run (ys.map .naming)).1[1]? = some entry) ∧
      ((new .strict).run (ys.map .naming)).2 = ((new .strict).run (xs.map .naming)).2 := by
  intro xs ys
  have h : @Reorders xs ys (Equiv.swap 0 1) := ⟨by decide, by decide⟩
  obtain ⟨hentries, hlast⟩ := run_of_reorders (new .strict) xs ys (Equiv.swap 0 1) h
  exact ⟨h, hentries 0, hlast⟩

end Registry

theorem Config.foldl_settle_twice (c : Config) (t : Tag) (old? : Option String)
    (names : List String) :
    names.foldl (c.settle t) (names.foldl (c.settle t) old?) = names.foldl (c.settle t) old? := by
  rw [foldl_settle, foldl_settle]
  split
  · rfl
  · cases c.collision with
    | overwrite | warn => cases names.getLast? <;> rfl
    | reject => cases old? <;> cases names.head? <;> rfl

namespace Registry

theorem run_run (r : Registry) (calls : List (Tag × String)) :
    ((r.run (calls.map .naming)).2.run (calls.map .naming)).2 =
      (r.run (calls.map .naming)).2 := by
  refine ext_names (run_config _ _) fun t => ?_
  rw [getElem?_names_run, getElem?_names_run, run_config, Config.foldl_settle_twice]

section

variable {r s : Registry} {t : Tag} {name : String}

theorem register_again (hc : r.config.collision = .reject) (hs : s.config = r.config)
    (hn : s.names[t]? = (r.register t name).registry.names[t]?) :
    (s.register t name).answer = (r.register t name).answer ∧
      (s.register t name).registry = s ∧
      ∀ e ∈ (s.register t name).events, e.level ≠ .debug := by
  have h := r.registers t name
  generalize r.register t name = first at h hn
  cases h with
  | kept hk =>
    rw [(Registers.kept (hs ▸ hk)).eq]
    exact ⟨rfl, rfl, by simp [Event.level]⟩
  | fresh hk =>
    have hname : s.names[t]? = some name := by simpa using hn
    rw [(Registers.same (hs ▸ hk) hname).eq]
    exact ⟨rfl, rfl, by simp⟩
  | same hk hr =>
    rw [(Registers.same (hs ▸ hk) (hn.trans hr)).eq]
    exact ⟨rfl, rfl, by simp⟩
  | renamed hk hr he hc' => exact absurd hc hc'
  | refused hk hr he =>
    rw [(Registers.refused (hs ▸ hk) (hn.trans hr) he (hs ▸ hc)).eq]
    exact ⟨rfl, rfl, by simp [Event.level]⟩

theorem getElem?_names_run_of_reject (hc : r.config.collision = .reject) (call : Tag × String)
    (calls : List (Tag × String)) :
    (r.run ((call :: calls).map .naming)).2.names[call.1]? =
      (r.register call.1 call.2).registry.names[call.1]? := by
  have hstep : (r.register call.1 call.2).registry.names[call.1]? =
      r.config.settle call.1 r.names[call.1]? call.2 := by
    rw [getElem?_names_register, if_pos rfl]
  rw [getElem?_names_run, valuesFor_cons, if_pos rfl, List.foldl_cons, ← hstep,
    Config.foldl_settle, hstep]
  by_cases hk : r.config.keeps call.1 = true
  · simp [hk]
  · cases r.names[call.1]? <;> simp [hk, hc, Config.settle]

/-- A registry with the names which a run left answers this run as before, and enters nothing. -/
theorem run_again {calls : List (Tag × String)} (hc : r.config.collision = .reject)
    (hs : s.config = r.config)
    (hn : ∀ call ∈ calls, s.names[call.1]? = (r.run (calls.map .naming)).2.names[call.1]?) :
    (s.run (calls.map .naming)).1.map Prod.fst = (r.run (calls.map .naming)).1.map Prod.fst ∧
      ∀ e ∈ log (s.run (calls.map .naming)).1, e.level ≠ .debug := by
  induction calls generalizing r with
  | nil => exact ⟨rfl, by simp [log]⟩
  | cons call calls ih =>
    obtain ⟨hcall, hrest⟩ := List.forall_mem_cons.1 hn
    rw [getElem?_names_run_of_reject hc] at hcall
    obtain ⟨hanswer, hregistry, hevents⟩ := register_again hc hs hcall
    have hnext : (s.answer (.naming call)).registry = s := hregistry
    obtain ⟨hanswers, hlog⟩ := ih (r := (r.answer (.naming call)).registry)
      (by rwa [answer_config]) (by rwa [answer_config]) hrest
    rw [List.map_cons, run_cons, run_cons, hnext]
    constructor
    · rw [List.map_cons, List.map_cons, hanswers]
      exact congrArg (· :: _) (congrArg Reply.registered hanswer)
    · intro e he
      rw [log_cons, List.mem_append] at he
      exact he.elim (hevents e) (hlog e)

end

/-- From any registry on, a run of registrations that is made a second time leaves the registry as
the first run left it. Where no name is replaced, the second run gets the answers of the first, call
by call, and reports no name entered. -/
theorem run_repeated (r : Registry) (calls : List (Tag × String)) :
    let first := r.run (calls.map .naming)
    let second := first.2.run (calls.map .naming)
    second.2 = first.2 ∧ second.2.snapshot = first.2.snapshot ∧
    (r.config.collision = .reject →
      second.1.map Prod.fst = first.1.map Prod.fst ∧ ∀ e ∈ log second.1, e.level ≠ .debug) := by
  intro first second
  have hlast : second.2 = first.2 := r.run_run calls
  exact ⟨hlast, congrArg snapshot hlast, fun hc => run_again hc (run_config _ _) fun _ _ => rfl⟩

/-- Another name for the tag is refused in both runs, as is any for a reserved tag. -/
theorem run_repeated_strict :
    let calls : List (Tag × String) := [(⟨5⟩, "a"), (⟨5⟩, "b"), (.eof, "end")]
    let first := (new .strict).run (calls.map .naming)
    let second := first.2.run (calls.map .naming)
    (new .strict).config.collision = .reject ∧
      second.2.snapshot = first.2.snapshot ∧
      second.1.map Prod.fst =
        [.registered (.ok none), .registered (.error (.collision ⟨5⟩ "a" "b")),
          .registered (.error (.reserved .eof "end"))] := by
  intro calls first second
  obtain ⟨-, hsnapshot, hreject⟩ := run_repeated (new .strict) calls
  refine ⟨rfl, hsnapshot, ?_⟩
  rw [(hreject rfl).1]
  rfl

end Registry
end Lexeme
