import Lexeme.Proofs.Keyed
import Lexeme.Session

/-!
# Registrations and the names they leave

The five ways a registration can go, told by the settings and the name that the tag had. Main
statements: in whatever state a run has left a registry, the answer is fixed by these two, a refusal
leaves no trace, and a name that is taken concerns its own tag only; the name of a tag after a run
is the first or the last one that was given, or the one at the start, and the settings tell which.
-/

namespace Lexeme
namespace Config

def keeps (c : Config) (t : Tag) : Bool := c.protectReserved && t.isReserved

theorem keeps_iff {c : Config} {t : Tag} :
    c.keeps t = true ↔ c.protectReserved = true ∧ t.value ≤ 2 := by
  rw [keeps, Bool.and_eq_true, Tag.isReserved_iff]

def warning (c : Config) (t : Tag) (existing name : String) : List Event :=
  if c.collision = .warn then [.renamed t existing name] else []

/-- The name a tag has after a registration for it, from the one it had. -/
def settle (c : Config) (t : Tag) (old? : Option String) (name : String) : Option String :=
  if c.keeps t then old?
  else
    match c.collision with
    | .overwrite | .warn => some name
    | .reject => old?.or (some name)

/-- Many registrations for one tag: the settings let none, the last or the first of them stand. -/
theorem foldl_settle (c : Config) (t : Tag) (old? : Option String) (names : List String) :
    names.foldl (c.settle t) old? =
      if c.keeps t then old?
      else
        match c.collision with
        | .overwrite | .warn => names.getLast?.or old?
        | .reject => old?.or names.head? := by
  induction names generalizing old? with
  | nil => cases hc : c.collision <;> simp
  | cons name names ih =>
    rw [List.foldl_cons, ih]
    by_cases hk : c.keeps t = true
    · simp [settle, hk]
    · cases hc : c.collision with
      | overwrite | warn =>
        cases h : names.getLast? <;> simp [settle, hk, hc, List.getLast?_cons, h]
      | reject => cases old? <;> simp [settle, hk, hc]

end Config

namespace Registry

/-- The five ways a registration can go, each with all that comes of it. -/
inductive Registers (r : Registry) (t : Tag) (name : String) :
    Step (Except Refusal (Option String)) → Prop
  | kept (hk : r.config.keeps t = true) :
    Registers r t name ⟨.error (.reserved t name), r, [.reservedRefused t name]⟩
  | fresh (hk : r.config.keeps t = false) (hn : r.names[t]? = none) :
    Registers r t name ⟨.ok none, r.store t name, [.registered t name]⟩
  | same (hk : r.config.keeps t = false) (hn : r.names[t]? = some name) :
    Registers r t name ⟨.ok none, r, []⟩
  | renamed {existing : String} (hk : r.config.keeps t = false)
      (hn : r.names[t]? = some existing) (he : existing ≠ name)
      (hc : r.config.collision ≠ .reject) :
    Registers r t name ⟨.ok (some existing), r.store t name,
      r.config.warning t existing name ++ [.registered t name]⟩
  | refused {existing : String} (hk : r.config.keeps t = false)
      (hn : r.names[t]? = some existing) (he : existing ≠ name)
      (hc : r.config.collision = .reject) :
    Registers r t name ⟨.error (.collision t existing name), r,
      [.collisionRefused t existing name]⟩

variable (r : Registry) (t : Tag) (name : String)

theorem registers : r.Registers t name (r.register t name) := by
  unfold register
  split
  · rename_i hk
    exact .kept hk
  · rename_i hk
    have hk : r.config.keeps t = false := by simpa [Config.keeps] using hk
    split
    · rename_i hn
      exact .fresh hk hn
    · rename_i existing hn
      split
      · rename_i he
        exact .same hk (he ▸ hn)
      · rename_i he
        split
        · rename_i hc
          have := Registers.renamed hk hn he (by simp [hc])
          simpa [Config.warning, hc] using this
        · rename_i hc
          have := Registers.renamed hk hn he (by simp [hc])
          simpa [Config.warning, hc] using this
        · rename_i hc
          exact .refused hk hn he hc

variable {r t name}

/-- A registration goes in one of these ways only. -/
theorem Registers.eq {s : Step (Except Refusal (Option String))} (h : r.Registers t name s) :
    r.register t name = s := by
  have hr := r.registers t name
  generalize r.register t name = s' at hr
  cases h <;> cases hr <;> grind

theorem register_eq_reserved_iff :
    (r.register t name).answer = .error (.reserved t name) ↔ r.config.keeps t = true := by
  have h := r.registers t name
  generalize r.register t name = s at h
  cases h <;> grind

theorem register_eq_collision_iff {existing : String} :
    (r.register t name).answer = .error (.collision t existing name) ↔
      r.config.keeps t = false ∧ r.config.collision = .reject ∧
        r.names[t]? = some existing ∧ existing ≠ name := by
  have h := r.registers t name
  generalize r.register t name = s at h
  cases h <;> grind

theorem register_eq_replaced_iff {existing : String} :
    (r.register t name).answer = .ok (some existing) ↔
      r.config.keeps t = false ∧ r.config.collision ≠ .reject ∧
        r.names[t]? = some existing ∧ existing ≠ name := by
  have h := r.registers t name
  generalize r.register t name = s at h
  cases h <;> grind

theorem register_eq_none_iff :
    (r.register t name).answer = .ok none ↔
      r.config.keeps t = false ∧ (r.names[t]? = none ∨ r.names[t]? = some name) := by
  have h := r.registers t name
  generalize r.register t name = s at h
  cases h <;> grind

theorem eq_of_register_eq_error {e : Refusal} (h : (r.register t name).answer = .error e) :
    e = .reserved t name ∨ ∃ existing, e = .collision t existing name := by
  have hr := r.registers t name
  generalize r.register t name = s at h hr
  cases hr with
  | kept => exact .inl (Except.error.inj h).symm
  | refused => exact .inr ⟨_, (Except.error.inj h).symm⟩
  | fresh | same | renamed => cases h

theorem register_registry_eq_self
    (h : (∃ e, (r.register t name).answer = .error e) ∨ r.names[t]? = some name) :
    (r.register t name).registry = r := by
  have hr := r.registers t name
  generalize r.register t name = s at h hr
  cases hr with
  | kept | same | refused => rfl
  | fresh hk hn => simp [hn] at h
  | renamed hk hn he => simp [hn, he] at h

theorem register_registry_eq_store {o : Option String} (h : (r.register t name).answer = .ok o)
    (hn : r.names[t]? ≠ some name) : (r.register t name).registry = r.store t name := by
  have hr := r.registers t name
  generalize r.register t name = s at h hr
  cases hr with
  | fresh | renamed => rfl
  | same hk hs => exact absurd hs hn
  | kept | refused => cases h

theorem exists_register_eq_ok (h : r.config = .default) :
    ∃ o, (r.register t name).answer = .ok o := by
  have hr := r.registers t name
  generalize r.register t name = s at hr
  cases hr with
  | fresh | same | renamed => exact ⟨_, rfl⟩
  | kept hk => simp [h, Config.keeps, Config.default] at hk
  | refused hk hn he hc => simp [h, Config.default, RenamePolicy.default] at hc

/-- After any run: when a registration gives which answer, that a refusal or a name repeated leaves
the registry as it was, and that any other name is entered for its tag alone. -/
theorem register_after_run (c : Config) (qs : List Request) (t : Tag) (name : String) :
    let r := ((new c).run qs).2
    let s := r.register t name
    (s.answer = .error (.reserved t name) ↔ c.protectReserved = true ∧ t.value ≤ 2) ∧
    (∀ existing, s.answer = .error (.collision t existing name) ↔
      ¬(c.protectReserved = true ∧ t.value ≤ 2) ∧ c.collision = .reject ∧
        r.names[t]? = some existing ∧ existing ≠ name) ∧
    (∀ existing, s.answer = .ok (some existing) ↔
      ¬(c.protectReserved = true ∧ t.value ≤ 2) ∧ c.collision ≠ .reject ∧
        r.names[t]? = some existing ∧ existing ≠ name) ∧
    (s.answer = .ok none ↔
      ¬(c.protectReserved = true ∧ t.value ≤ 2) ∧
        (r.names[t]? = none ∨ r.names[t]? = some name)) ∧
    (∀ e, s.answer = .error e → e = .reserved t name ∨ ∃ existing, e = .collision t existing name) ∧
    ((∃ e, s.answer = .error e) ∨ r.names[t]? = some name → s.registry = r) ∧
    (∀ o, s.answer = .ok o → r.names[t]? ≠ some name →
      s.registry.config = c ∧
        ∀ u, s.registry.names[u]? = if u = t then some name else r.names[u]?) ∧
    (c = .default → ∃ o, s.answer = .ok o) := by
  intro r s
  have hc : r.config = c := run_config _ _
  have hk : r.config.keeps t = false ↔ ¬(c.protectReserved = true ∧ t.value ≤ 2) := by
    rw [hc, ← Config.keeps_iff, Bool.not_eq_true]
  refine ⟨?_, ?_, ?_, ?_, ?_, ?_, ?_, ?_⟩
  · rw [register_eq_reserved_iff, hc, Config.keeps_iff]
  · intro existing
    rw [register_eq_collision_iff, hk, hc]
  · intro existing
    rw [register_eq_replaced_iff, hk, hc]
  · rw [register_eq_none_iff, hk]
  · intro e
    exact eq_of_register_eq_error
  · exact register_registry_eq_self
  · intro o ho hn
    rw [register_registry_eq_store ho hn]
    exact ⟨hc, fun u => by simp [eq_comm]⟩
  · rintro rfl
    exact exists_register_eq_ok hc

def Request.naming (call : Tag × String) : Request := .register call.1 call.2

/-- A registration settles the name of its own tag and touches no other. -/
theorem getElem?_names_register (r : Registry) (t u : Tag) (name : String) :
    (r.register t name).registry.names[u]? =
      if t = u then r.config.settle t r.names[t]? name else r.names[u]? := by
  have h := r.registers t name
  generalize r.register t name = s at h
  by_cases htu : t = u
  · subst htu
    cases h with
    | kept hk => simp [Config.settle, hk]
    | fresh hk hn => cases hc : r.config.collision <;> simp [Config.settle, hk, hn, hc]
    | same hk hn => cases hc : r.config.collision <;> simp [Config.settle, hk, hn, hc]
    | renamed hk hn he hc => cases hc' : r.config.collision <;> simp_all [Config.settle]
    | refused hk hn he hc => simp [Config.settle, hk, hn, hc]
  · cases h <;> simp [htu]

theorem getElem?_names_naming (r : Registry) (call : Tag × String) (t : Tag) :
    (r.answer (.naming call)).registry.names[t]? =
      if call.1 = t then r.config.settle call.1 r.names[call.1]? call.2 else r.names[t]? :=
  r.getElem?_names_register call.1 t call.2

theorem getElem?_names_run (r : Registry) (calls : List (Tag × String)) (t : Tag) :
    (r.run (calls.map .naming)).2.names[t]? =
      (valuesFor t calls).foldl (r.config.settle t) r.names[t]? := by
  induction calls generalizing r with
  | nil => rfl
  | cons call calls ih =>
    rw [List.map_cons, run_cons, ih, answer_config, getElem?_names_naming, valuesFor_cons]
    by_cases h : call.1 = t
    · simp [h]
    · simp [h]

def initialName (t : Tag) : String :=
  match t.value.toNat with
  | 0 => "EOF"
  | 1 => "Error"
  | 2 => "Special (DefaultMax)"
  | n => "Unknown Item (" ++ n.repr ++ ")"

theorem initialName_of_not_le {t : Tag} (h : ¬t.value ≤ 2) : initialName t = fallback t := by
  unfold initialName
  split
  · rename_i hv
    simp [UInt32.le_iff_toNat_le, hv] at h
  · rename_i hv
    simp [UInt32.le_iff_toNat_le, hv] at h
  · rename_i hv
    simp [UInt32.le_iff_toNat_le, hv] at h
  · rfl

theorem getElem?_names_new (c : Config) (t : Tag) :
    (new c).names[t]? = if t.value ≤ 2 then some (initialName t) else none := by
  have key : (new c).names[t]? =
      if Tag.lastReserved = t then some "Special (DefaultMax)"
      else if Tag.error = t then some "Error"
      else if Tag.eof = t then some "EOF" else none := by
    simp [new, reservedNames, Std.ExtTreeMap.ofList_cons, Std.ExtTreeMap.insertMany_cons,
      Std.ExtTreeMap.getElem?_insert]
  rw [key]
  by_cases h : t.value ≤ 2
  · obtain rfl | rfl | rfl := Tag.le_two_iff.1 h <;> rfl
  · rw [Tag.le_two_iff, not_or, not_or] at h
    simp [Tag.le_two_iff, h, eq_comm]

/-- What a run of registrations leaves a tag to be called: the name at the start where the settings
keep it; the last name given, or the first one if none is to be replaced; and where none was given,
the reserved name or the number of the tag. -/
theorem lookup_after_namings (c : Config) (calls : List (Tag × String)) (t : Tag) :
    (((new c).run (calls.map .naming)).2.lookup t).answer =
      if c.protectReserved = true ∧ t.value ≤ 2 then initialName t
      else
        match c.collision with
        | .overwrite | .warn => (valuesFor t calls).getLast?.getD (initialName t)
        | .reject =>
          if t.value ≤ 2 then initialName t
          else (valuesFor t calls).head?.getD (initialName t) := by
  have hrun := (new c).getElem?_names_run calls t
  have hc : (new c).config = c := rfl
  rw [Config.foldl_settle, getElem?_names_new, hc] at hrun
  simp only [lookup_answer, nameOf, hrun, ← Config.keeps_iff]
  by_cases hk : c.keeps t = true
  · simp [hk, (Config.keeps_iff.1 hk).2]
  · by_cases ht : t.value ≤ 2
    · cases c.collision <;> simp [hk, ht]
    · cases c.collision <;> simp [hk, ht, initialName_of_not_le]

end Registry
end Lexeme
