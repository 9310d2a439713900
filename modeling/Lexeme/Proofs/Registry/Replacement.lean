import Lexeme.Proofs.Registry.Log
import Lexeme.Proofs.Registry.Snapshot
import Mathlib.Data.List.Destutter

/-!
# Names handed back

A registration that replaces a name answers with it. Main statement: where the settings let new
names through, the names handed back for a tag, and behind them the one it goes by, are all the
names it ever had, each as often as it had it.
-/

namespace Lexeme
namespace Registry

def Reply.replaced? : Reply → Option String
  | .registered (.ok name?) => name?
  | _ => none

/-- The names that the calls for a tag hand back, in the order of the calls. -/
def replacedFor (t : Tag) (calls : List (Tag × String)) (entries : List Entry) : List String :=
  (calls.zip entries).filterMap fun e => if e.1.1 = t then e.2.1.replaced? else none

def enteredFor (t : Tag) (events : List Event) : List String :=
  valuesFor t (events.filterMap Event.entered?)

@[simp] theorem replacedFor_nil (t : Tag) (entries : List Entry) :
    replacedFor t [] entries = [] := rfl

theorem replacedFor_cons (t : Tag) (call : Tag × String) (calls : List (Tag × String))
    (entry : Entry) (entries : List Entry) :
    replacedFor t (call :: calls) (entry :: entries) =
      (if call.1 = t then entry.1.replaced?.toList else []) ++ replacedFor t calls entries := by
  by_cases h : call.1 = t
  · cases hr : entry.1.replaced? <;> simp [replacedFor, h, hr]
  · simp [replacedFor, h]

@[simp] theorem enteredFor_nil (t : Tag) : enteredFor t [] = [] := rfl

theorem enteredFor_append (t : Tag) (es fs : List Event) :
    enteredFor t (es ++ fs) = enteredFor t es ++ enteredFor t fs := by
  simp [enteredFor, valuesFor]

section

variable (r : Registry) (t : Tag)

/-- A registration enters its name just when it changes the one that the tag has. -/
theorem enteredFor_register (u : Tag) (name : String) :
    enteredFor t (r.register u name).events =
      if u = t ∧ (r.register u name).registry.names[t]? ≠ r.names[t]? then [name] else [] := by
  have h := r.registers u name
  generalize r.register u name = s at h
  rw [enteredFor]
  cases h with
  | kept | refused =>
    rw [Event.filterMap_entered?_of_level_ne (by simp [Event.level])]
    simp
  | same => simp
  | fresh hk hn =>
    by_cases hut : u = t
    · subst hut
      simp [Event.entered?_registered, hn]
    · simp [Event.entered?_registered, hut]
  | renamed hk hn he =>
    rw [List.filterMap_append,
      Event.filterMap_entered?_of_level_ne fun _ => level_of_mem_warning, List.nil_append]
    by_cases hut : u = t
    · subst hut
      simp [Event.entered?_registered, hn, Ne.symm he]
    · simp [Event.entered?_registered, hut]

theorem names_balance_register (u : Tag) (name : String) :
    r.names[t]?.toList ++ enteredFor t (r.register u name).events =
      (if u = t then (Reply.registered (r.register u name).answer).replaced?.toList else []) ++
        (r.register u name).registry.names[t]?.toList := by
  rw [enteredFor_register]
  by_cases hut : u = t
  · subst hut
    have h := r.registers u name
    generalize r.register u name = s at h
    cases h with
    | kept | refused | same => simp [Reply.replaced?]
    | fresh hk hn => simp [Reply.replaced?, hn]
    | renamed hk hn he => simp [Reply.replaced?, hn, Ne.symm he]
  · simp [hut, getElem?_names_register]

variable (call : Tag × String) (calls : List (Tag × String))

/-- Over a run, the name a tag went by and those entered for it are those handed back and the one it
goes by at the end, whatever the settings. -/
theorem names_balance_run :
    r.names[t]?.toList ++ enteredFor t (log (r.run (calls.map .naming)).1) =
      replacedFor t calls (r.run (calls.map .naming)).1 ++
        (r.run (calls.map .naming)).2.names[t]?.toList := by
  induction calls generalizing r with
  | nil => simp [log]
  | cons call calls ih =>
    have hcall : r.names[t]?.toList ++ enteredFor t (r.answer (.naming call)).events =
        (if call.1 = t then (r.answer (.naming call)).answer.replaced?.toList else []) ++
          (r.answer (.naming call)).registry.names[t]?.toList :=
      r.names_balance_register t call.1 call.2
    rw [List.map_cons, run_cons, log_cons, enteredFor_append, replacedFor_cons,
      ← List.append_assoc, hcall, List.append_assoc, ih, List.append_assoc]

variable {r t}

theorem getElem?_names_call (hc : r.config.collision ≠ .reject) (hk : r.config.keeps t = false) :
    (r.answer (.naming call)).registry.names[t]? =
      if call.1 = t then some call.2 else r.names[t]? := by
  rw [getElem?_names_naming]
  split
  · rename_i htu
    rw [htu]
    cases hcoll : r.config.collision <;> simp_all [Config.settle]
  · rfl

theorem enteredFor_call (hc : r.config.collision ≠ .reject) (hk : r.config.keeps t = false) :
    enteredFor t (r.answer (.naming call)).events =
      if call.1 = t ∧ r.names[t]? ≠ some call.2 then [call.2] else [] := by
  have hentered : enteredFor t (r.answer (.naming call)).events =
      if call.1 = t ∧ (r.answer (.naming call)).registry.names[t]? ≠ r.names[t]? then [call.2]
      else [] := r.enteredFor_register t call.1 call.2
  rw [hentered, getElem?_names_call call hc hk]
  by_cases htu : call.1 = t
  · simp [htu, eq_comm]
  · simp [htu]

theorem destutter_cons_cons_ne (a b : String) (names : List String) :
    (a :: b :: names).destutter (· ≠ ·) =
      if a = b then (b :: names).destutter (· ≠ ·) else a :: (b :: names).destutter (· ≠ ·) := by
  rw [List.destutter_cons_cons, List.destutter_cons']
  by_cases h : a = b
  · simp [h]
  · simp [h]

/-- The name a tag went by and those entered for it are the names given, each run of one name told
once. -/
theorem entered_eq_destutter (hc : r.config.collision ≠ .reject) (hk : r.config.keeps t = false) :
    r.names[t]?.toList ++ enteredFor t (log (r.run (calls.map .naming)).1) =
      (r.names[t]?.toList ++ valuesFor t calls).destutter (· ≠ ·) := by
  induction calls generalizing r with
  | nil => cases r.names[t]? <;> simp [log]
  | cons call calls ih =>
    have hstep := getElem?_names_call call hc hk
    have hrest := ih (r := (r.answer (.naming call)).registry)
      (by rwa [answer_config]) (by rwa [answer_config])
    rw [hstep] at hrest
    rw [List.map_cons, run_cons, log_cons, enteredFor_append, enteredFor_call call hc hk,
      valuesFor_cons]
    by_cases htu : call.1 = t
    · rw [if_pos htu] at hrest ⊢
      simp only [Option.toList_some, List.singleton_append] at hrest
      rcases hn : r.names[t]? with _ | old
      · simpa [htu] using hrest
      · simp only [htu, Option.toList_some, List.singleton_append,
          destutter_cons_cons_ne, ← hrest]
        by_cases he : old = call.2
        · simp [he]
        · simp [he]
    · simpa [htu] using hrest

end

/-- Where the settings let a tag be renamed, the names that its calls hand back, and behind them the
name it goes by at the end, are its first name and the names given, each run of one name told once.
They are also all the names that were ever entered for it: each is handed back once, or is the one
it goes by. -/
theorem replaced_append_name (c : Config) (calls : List (Tag × String)) (t : Tag)
    (hc : c.collision = .overwrite ∨ c.collision = .warn)
    (hk : ¬(c.protectReserved = true ∧ t.value ≤ 2))
    (ht : ((new c).run (calls.map .naming)).2.contains t = true) :
    let run := (new c).run (calls.map .naming)
    let first := if t.value ≤ 2 then [initialName t] else []
    replacedFor t calls run.1 ++ [run.2.nameOf t] =
        (first ++ valuesFor t calls).destutter (· ≠ ·) ∧
      replacedFor t calls run.1 ++ [run.2.nameOf t] = first ++ enteredFor t (log run.1) := by
  intro run first
  have hfirst : (new c).names[t]?.toList = first := by
    rw [getElem?_names_new]
    split <;> simp_all [first]
  have hlast : run.2.names[t]?.toList = [run.2.nameOf t] := by
    obtain ⟨name, hname⟩ := contains_iff.1 ht
    rw [nameOf_of_mem_snapshot hname, mem_snapshot_iff.1 hname, Option.toList_some]
  have hreject : (new c).config.collision ≠ .reject := by
    rcases hc with hc | hc <;> simp [new, hc]
  have hkeeps : (new c).config.keeps t = false := by
    rw [← Bool.not_eq_true, Config.keeps_iff]
    exact hk
  have hbalance := (new c).names_balance_run t calls
  have hentered := entered_eq_destutter calls hreject hkeeps
  rw [hfirst, hlast] at hbalance
  rw [hfirst] at hentered
  exact ⟨hbalance.symm.trans hentered, hbalance.symm⟩

/-- One name twice in a row, then another, and the first again; a reserved tag in between. -/
theorem replaced_append_name_five :
    let calls : List (Tag × String) :=
      [(⟨5⟩, "a"), (.eof, "end"), (⟨5⟩, "a"), (⟨5⟩, "b"), (⟨5⟩, "a")]
    let run := (new ⟨.warn, true⟩).run (calls.map .naming)
    run.2.contains ⟨5⟩ = true ∧
      replacedFor ⟨5⟩ calls run.1 ++ [run.2.nameOf ⟨5⟩] = ["a", "b", "a"] := by
  intro calls run
  have ht : run.2.contains ⟨5⟩ = true := contains_after_namings.2 (.inr (by decide))
  refine ⟨ht, ?_⟩
  rw [(replaced_append_name ⟨.warn, true⟩ calls ⟨5⟩ (.inr rfl) (by decide) ht).1]
  decide

end Registry
end Lexeme
