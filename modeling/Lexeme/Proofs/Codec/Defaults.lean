import Lexeme.Proofs.Codec.Accepted

/-!
# Settings and what they are without

Main statement: settings are the values that a document gives laid over the defaults. A value that
is given must be good, and one that is null is given.
-/

namespace Lexeme

def Json.IsPolicy (j : Json) (p : RenamePolicy) : Prop :=
  ∃ name, (name, p) ∈ [("overwrite", .overwrite), ("warn", .warn), ("reject", .reject)] ∧
    (j = .string name ∨ j = .object [(name, .null)])

theorem Json.isPolicy_iff {j : Json} {p : RenamePolicy} : j.IsPolicy p ↔ decode j = .ok p := by
  have hread : (decode j : Except DecodeError RenamePolicy) = RenamePolicy.ofJson j := rfl
  rw [hread, RenamePolicy.ofJson_eq_ok_iff, IsPolicy]
  cases p <;> simp [RenamePolicy.name]

theorem Json.not_isPolicy_null {p : RenamePolicy} : ¬Json.null.IsPolicy p := by
  simp [IsPolicy]

theorem Json.flag_eq_ok_iff {j : Json} {b : Bool} : j.flag = .ok b ↔ j = .boolean b := by
  cases j <;> simp [flag]

theorem overlaid_toList_iff {α : Type} {read : Json → Except DecodeError α} {standard a : α}
    {value? : Option Json} :
    Overlaid read standard value?.toList a ↔
      value?.elim (a = standard) fun j => read j = .ok a := by
  cases value? <;> simp

namespace Config

/-- The values that a document gives for the settings: those of their keys in an object, which may
have others, or the elements of an array, which may end before either. -/
inductive Gives : Json → Option Json → Option Json → Prop
  | members (ms : List (String × Json)) :
    Gives (.object ms) ((Json.object ms).get? "collision")
      ((Json.object ms).get? "protect_reserved")
  | neither : Gives (.array []) none none
  | first (a : Json) : Gives (.array [a]) (some a) none
  | both (a b : Json) : Gives (.array [a, b]) (some a) (some b)

theorem Gives.eq {j : Json} {collision? collision?' protect? protect?' : Option Json}
    (h : Gives j collision? protect?) (h' : Gives j collision?' protect?') :
    collision? = collision?' ∧ protect? = protect?' := by
  cases h <;> cases h' <;> exact ⟨rfl, rfl⟩

/-- The settings have the values that are given, which are a policy and a flag, and their defaults
where none is. -/
def Overlays (c : Config) (collision? protect? : Option Json) : Prop :=
  (collision?.elim (c.collision = .overwrite) fun j => j.IsPolicy c.collision) ∧
    protect?.elim (c.protectReserved = false) fun j => j = .boolean c.protectReserved

theorem overlays_iff {c : Config} {collision? protect? : Option Json} :
    c.Overlays collision? protect? ↔
      Overlaid decode default.collision collision?.toList c.collision ∧
      Overlaid Json.flag default.protectReserved protect?.toList c.protectReserved := by
  simp only [Overlays, overlaid_toList_iff, Json.isPolicy_iff, Json.flag_eq_ok_iff]
  rfl

theorem not_overlays_of_null {c : Config} {collision? protect? : Option Json}
    (h : collision? = some .null ∨ protect? = some .null) : ¬c.Overlays collision? protect? := by
  rintro ⟨hcollision, hprotect⟩
  rcases h with rfl | rfl
  · exact Json.not_isPolicy_null hcollision
  · cases hprotect

theorem decodeValue_eq_ok_iff {j : Json} {c : Config} :
    decodeValue j = .ok c ↔
      ∃ collision? protect?, Gives j.value collision? protect? ∧
        c.Overlays collision? protect? := by
  have hread : (decodeValue j : Except DecodeError Config) = ofJson j.value := rfl
  rw [hread]
  simp only [overlays_iff]
  cases j with
  | object ms =>
    rw [Json.value, ofJson_object_eq_ok_iff, Json.valuesFor_eq_get?, Json.valuesFor_eq_get?]
    constructor
    · intro h
      exact ⟨_, _, .members _, h⟩
    · rintro ⟨_, _, ⟨⟩, h⟩
      exact h
  | array xs =>
    rw [Json.value, ofJson_array_eq_ok_iff]
    generalize Json.values xs = ys
    constructor
    · intro h
      rcases ys with _ | ⟨a, _ | ⟨b, _ | ⟨x, rest⟩⟩⟩
      · exact ⟨none, none, .neither, h⟩
      · exact ⟨some a, none, .first a, h⟩
      · exact ⟨some a, some b, .both a b, h⟩
      · exact absurd h.2 not_overlaid_cons_cons
    · rintro ⟨_, _, ⟨⟩, h⟩ <;> exact h
  | _ =>
    constructor
    · rintro ⟨⟩
    · rintro ⟨_, _, ⟨⟩, _⟩

theorem exists_overlays_iff {collision? protect? : Option Json} :
    (∃ c : Config, c.Overlays collision? protect?) ↔
      (∀ j ∈ collision?, ∃ p, j.IsPolicy p) ∧ ∀ j ∈ protect?, ∃ b, j = .boolean b := by
  constructor
  · rintro ⟨c, hcollision, hprotect⟩
    constructor
    · rintro j rfl
      exact ⟨_, hcollision⟩
    · rintro j rfl
      exact ⟨_, hprotect⟩
  · rintro ⟨hcollision, hprotect⟩
    have hpolicy : ∃ p, collision?.elim (p = .overwrite) fun j => j.IsPolicy p := by
      cases collision? with
      | none => exact ⟨_, rfl⟩
      | some j => exact hcollision j rfl
    have hflag : ∃ b, protect?.elim (b = false) fun j => j = .boolean b := by
      cases protect? with
      | none => exact ⟨_, rfl⟩
      | some j => exact hprotect j rfl
    obtain ⟨p, hp⟩ := hpolicy
    obtain ⟨b, hb⟩ := hflag
    exact ⟨⟨p, b⟩, hp, hb⟩

/-- Settings are read off the value of a document if what it gives for them is a policy and a flag.
They are what it gives, and the defaults where it gives nothing: no policy but overwriting, and no
protection. Null is nothing good, and not the same as nothing. Members of other keys change neither
the settings nor the error. -/
theorem decodeValue_by_defaults :
    (∀ (j : Json) (c : Config), decodeValue j = .ok c ↔
      ∃ collision? protect?, Gives j.value collision? protect? ∧
        c.Overlays collision? protect?) ∧
    (∀ j : Json, (∃ c : Config, decodeValue j = .ok c) ↔
      ∃ collision? protect?, Gives j.value collision? protect? ∧
        (∀ k ∈ collision?, ∃ p, k.IsPolicy p) ∧ ∀ k ∈ protect?, ∃ b, k = .boolean b) ∧
    (∀ (j : Json) (collision? protect? : Option Json), Gives j.value collision? protect? →
      collision? = some .null ∨ protect? = some .null →
      ∃ e, (decodeValue j : Except DecodeError Config) = .error e) ∧
    ∀ ms ns : List (String × Json),
      Json.AgreeOn ["collision", "protect_reserved"] (Json.object ms).value
        (Json.object ns).value →
      (decodeValue (.object ms) : Except DecodeError Config) = decodeValue (.object ns) := by
  have hok (j : Json) : (∃ c : Config, decodeValue j = .ok c) ↔
      ∃ collision? protect?, Gives j.value collision? protect? ∧
        (∀ k ∈ collision?, ∃ p, k.IsPolicy p) ∧ ∀ k ∈ protect?, ∃ b, k = .boolean b := by
    simp only [decodeValue_eq_ok_iff, ← exists_overlays_iff]
    grind
  refine ⟨fun j c => decodeValue_eq_ok_iff, hok, ?_, fun ms ns => decodeValue_congr⟩
  intro j collision? protect? hgives hnull
  refine exists_error_of_ne_ok fun c hc => ?_
  obtain ⟨_, _, hgives', hc⟩ := decodeValue_eq_ok_iff.1 hc
  obtain ⟨rfl, rfl⟩ := hgives.eq hgives'
  exact not_overlays_of_null hnull hc

/-- Null in the place of a flag, next to a member of another key: the object is no settings, and
fails as it does without that member. -/
theorem decodeValue_by_defaults_null :
    let j := Json.object [("protect_reserved", .null), ("collision", .string "reject")]
    let k := Json.object
      [("collision", .string "reject"), ("kind", .boolean true), ("protect_reserved", .null)]
    Gives j.value (some (.string "reject")) (some .null) ∧
      Json.AgreeOn ["collision", "protect_reserved"] j.value k.value ∧
      (∃ e, (decodeValue j : Except DecodeError Config) = .error e) ∧
      (decodeValue j : Except DecodeError Config) = decodeValue k := by
  intro j k
  have hgives : Gives j.value (some (.string "reject")) (some .null) := .members _
  have hagree : Json.AgreeOn ["collision", "protect_reserved"] j.value k.value :=
    List.forall_mem_cons.2 ⟨rfl, List.forall_mem_singleton.2 rfl⟩
  obtain ⟨-, -, hnull, hkeys⟩ := decodeValue_by_defaults
  exact ⟨hgives, hagree, hnull j _ _ hgives (.inr rfl), hkeys _ _ hagree⟩

end Config
end Lexeme
