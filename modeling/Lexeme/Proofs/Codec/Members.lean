import Lexeme.Codec
import Lexeme.Proofs.Keyed

/-!
# What is read off the parts of a document

The reader of an object goes over its members and fills a place for each field, once. Main
statements: which documents are policies; which values a field may have for an object to be a token,
or settings; and which elements a list may have.
-/

namespace Lexeme

theorem map_eq_ok_iff {ε α β : Type} {f : α → β} {x : Except ε α} {b : β} :
    x.map f = .ok b ↔ ∃ a, x = .ok a ∧ f a = b := by
  cases x <;> simp [Except.map]

theorem exists_map_ok_iff {ε α β : Type} {f : α → β} {x : Except ε α} {p : β → Prop} :
    (∃ b, x.map f = .ok b ∧ p b) ↔ ∃ a, x = .ok a ∧ p (f a) := by
  cases x <;> simp [Except.map]

theorem bind_eq_ok_iff {ε α β : Type} {f : α → Except ε β} {x : Except ε α} {b : β} :
    (x >>= f) = .ok b ↔ ∃ a, x = .ok a ∧ f a = .ok b := by
  cases x <;> simp [bind, Except.bind]

theorem map_eq_error_iff {ε α β : Type} {f : α → β} {x : Except ε α} {e : ε} :
    x.map f = .error e ↔ x = .error e := by
  cases x <;> simp [Except.map]

theorem bind_eq_error_iff {ε α β : Type} {f : α → Except ε β} {x : Except ε α} {e : ε} :
    (x >>= f) = .error e ↔ x = .error e ∨ ∃ a, x = .ok a ∧ f a = .error e := by
  cases x <;> simp [bind, Except.bind]

theorem exists_eq_ok_iff {ε α : Type} {x : Except ε α} :
    (∃ a, x = .ok a) ↔ ∀ e, x ≠ .error e := by
  cases x <;> simp

section

variable {α : Type} {read : Json → Except DecodeError α} {place place' : Option α}
  {j : Json} {js : List Json} {a : α}

/-- The place of a field before and after its values are read: it stays as it is if there is none,
and takes one if it is free. -/
inductive Filled (read : Json → Except DecodeError α) : Option α → List Json → Option α → Prop
  | untouched (place : Option α) : Filled read place [] place
  | once {j : Json} {a : α} (h : read j = .ok a) : Filled read none [j] (some a)

theorem filled_nil_iff : Filled read place [] place' ↔ place = place' := by
  constructor
  · rintro ⟨⟩
    rfl
  · rintro rfl
    exact .untouched place

theorem fill_eq_ok_iff {field : String} {value : Except DecodeError α} :
    Json.fill field place value = .ok place' ↔
      place = none ∧ ∃ a, value = .ok a ∧ place' = some a := by
  cases place with
  | none =>
    rw [Json.fill, Option.isSome_none, if_neg Bool.false_ne_true, map_eq_ok_iff]
    simp [eq_comm]
  | some a => simp [Json.fill]

theorem filled_cons_iff :
    Filled read place (j :: js) place' ↔
      place = none ∧ ∃ a, read j = .ok a ∧ Filled read (some a) js place' := by
  constructor
  · rintro ⟨⟩
    exact ⟨rfl, _, ‹_›, .untouched _⟩
  · rintro ⟨rfl, a, ha, ⟨⟩⟩
    exact .once ha

theorem require_eq_ok_iff {field : String} : Json.require field place = .ok a ↔ place = some a := by
  cases place <;> simp [Json.require]

def Given (read : Json → Except DecodeError α) (js : List Json) (a : α) : Prop :=
  ∃ j, js = [j] ∧ read j = .ok a

/-- A field that may be missing has one value, or none and then its default. -/
def Overlaid (read : Json → Except DecodeError α) (standard : α) (js : List Json) (a : α) : Prop :=
  js = [] ∧ a = standard ∨ Given read js a

@[simp] theorem overlaid_nil_iff {standard : α} : Overlaid read standard [] a ↔ a = standard := by
  simp [Overlaid, Given]

@[simp] theorem overlaid_singleton_iff {standard : α} :
    Overlaid read standard [j] a ↔ read j = .ok a := by
  simp [Overlaid, Given]

@[simp] theorem not_overlaid_cons_cons {standard : α} {i : Json} :
    ¬Overlaid read standard (i :: j :: js) a := by
  simp [Overlaid, Given]

theorem filled_some_iff : Filled read none js (some a) ↔ Given read js a := by
  constructor
  · rintro ⟨⟩
    exact ⟨_, rfl, ‹_›⟩
  · rintro ⟨j, rfl, h⟩
    exact .once h

theorem exists_filled_iff {standard : α} :
    (∃ place, Filled read none js place ∧ place.getD standard = a) ↔
      Overlaid read standard js a := by
  constructor
  · rintro ⟨place, hfilled, rfl⟩
    cases place with
    | none =>
      cases hfilled
      exact .inl ⟨rfl, rfl⟩
    | some a => exact .inr (filled_some_iff.1 hfilled)
  · rintro (⟨rfl, rfl⟩ | h)
    · exact ⟨none, .untouched none, rfl⟩
    · exact ⟨some a, filled_some_iff.2 h, rfl⟩

end

namespace Token

def keys : List String := ["item_type", "pos", "line", "value"]

theorem mem_keys_iff {key : String} :
    key ∈ keys ↔ key = "item_type" ∨ key = "pos" ∨ key = "line" ∨ key = "value" := by
  simp [keys]

theorem Draft.putAll_eq_ok_iff {d e : Draft} {ms : List (String × Json)} :
    Json.putAll put d ms = .ok e ↔
      Filled decode d.tag (valuesFor "item_type" ms) e.tag ∧
      Filled Json.offset d.position (valuesFor "pos" ms) e.position ∧
      Filled Json.offset d.line (valuesFor "line" ms) e.line ∧
      Filled Json.text d.text (valuesFor "value" ms) e.text := by
  induction ms generalizing d with
  | nil =>
    cases d
    cases e
    simp [filled_nil_iff]
  | cons m ms ih =>
    obtain ⟨key, j⟩ := m
    rw [Json.putAll_cons, bind_eq_ok_iff]
    by_cases hkey : key ∈ keys
    · -- a member fills the place of its own field and leaves the others as they are
      rcases mem_keys_iff.1 hkey with rfl | rfl | rfl | rfl
      all_goals
        simp only [put, reduceIte, String.reduceEq, exists_map_ok_iff, fill_eq_ok_iff, ih,
          valuesFor_cons, filled_cons_iff]
        grind
    · rw [mem_keys_iff, not_or, not_or, not_or] at hkey
      simp [put, hkey, ih]

theorem Draft.finish_eq_ok_iff {d : Draft} {t : Token} :
    d.finish = .ok t ↔ d = ⟨some t.tag, some t.position, some t.line, some t.text⟩ := by
  obtain ⟨tag?, position?, line?, text?⟩ := d
  simp only [finish, bind_eq_ok_iff, require_eq_ok_iff, mk.injEq]
  constructor
  · rintro ⟨tag, rfl, position, rfl, line, rfl, text, rfl, h⟩
    cases h
    exact ⟨rfl, rfl, rfl, rfl⟩
  · rintro ⟨rfl, rfl, rfl, rfl⟩
    exact ⟨_, rfl, _, rfl, _, rfl, _, rfl, rfl⟩

/-- An object is a token if each field stands in it once, with a value of its kind. -/
theorem ofJson_object_eq_ok_iff {ms : List (String × Json)} {t : Token} :
    ofJson (.object ms) = .ok t ↔
      Given decode (valuesFor "item_type" ms) t.tag ∧
      Given Json.offset (valuesFor "pos" ms) t.position ∧
      Given Json.offset (valuesFor "line" ms) t.line ∧
      Given Json.text (valuesFor "value" ms) t.text := by
  have hread : ofJson (.object ms) = .ok t ↔
      ∃ d, Json.putAll Draft.put {} ms = .ok d ∧ d.finish = .ok t := bind_eq_ok_iff
  simp only [hread, Draft.finish_eq_ok_iff, exists_eq_right, Draft.putAll_eq_ok_iff,
    filled_some_iff]

theorem element_eq_ok_iff {xs : List Json} {i : Nat} {j : Json} :
    element xs i = .ok j ↔ xs[i]? = some j := by
  rw [element]
  cases xs[i]? <;> simp

theorem ofJson_array_eq_ok_iff {xs : List Json} {t : Token} :
    ofJson (.array xs) = .ok t ↔
      ∃ a b c d, xs = [a, b, c, d] ∧ decode a = .ok t.tag ∧ b.offset = .ok t.position ∧
        c.offset = .ok t.line ∧ d.text = .ok t.text := by
  simp only [ofJson, ofElements, bind_eq_ok_iff, element_eq_ok_iff]
  constructor
  · rintro ⟨a, ha, tag, htag, b, hb, position, hposition, c, hc, line, hline, d, hd, text, htext, h⟩
    split at h
    · rename_i hlen
      cases h
      refine ⟨a, b, c, d, ?_, htag, hposition, hline, htext⟩
      match xs, hlen with
      | [w, x, y, z], _ => simp_all
    · cases h
  · rintro ⟨a, b, c, d, rfl, htag, hposition, hline, htext⟩
    exact ⟨a, rfl, _, htag, b, rfl, _, hposition, c, rfl, _, hline, d, rfl, _, htext, rfl⟩

end Token

namespace RenamePolicy

theorem ofJsonName_eq_ok_iff {s : String} {p : RenamePolicy} :
    ofJsonName s = .ok p ↔ s = p.name := by
  rw [ofJsonName, ← ofName?_eq_some_iff]
  cases ofName? s <;> simp

theorem ofJson_eq_ok_iff {j : Json} {p : RenamePolicy} :
    ofJson j = .ok p ↔ j = .string p.name ∨ j = .object [(p.name, .null)] := by
  cases j with
  | string s => simp [ofJson, ofJsonName_eq_ok_iff]
  | object ms =>
    match ms with
    | [] => simp [ofJson]
    | [(key, j)] =>
      simp only [ofJson, reduceCtorEq, false_or, Json.object.injEq, List.cons.injEq, and_true,
        Prod.mk.injEq, ← ofJsonName_eq_ok_iff]
      cases ofJsonName key <;> cases j <;> simp
    | _ :: _ :: _ => simp [ofJson]
  | _ => simp [ofJson]

end RenamePolicy

namespace Config

def keys : List String := ["collision", "protect_reserved"]

theorem mem_keys_iff {key : String} :
    key ∈ keys ↔ key = "collision" ∨ key = "protect_reserved" := by
  simp [keys]

theorem Draft.putAll_eq_ok_iff {d e : Draft} {ms : List (String × Json)} :
    Json.putAll put d ms = .ok e ↔
      Filled decode d.collision (valuesFor "collision" ms) e.collision ∧
      Filled Json.flag d.protectReserved (valuesFor "protect_reserved" ms) e.protectReserved := by
  induction ms generalizing d with
  | nil =>
    cases d
    cases e
    simp [filled_nil_iff]
  | cons m ms ih =>
    obtain ⟨key, j⟩ := m
    rw [Json.putAll_cons, bind_eq_ok_iff]
    by_cases hkey : key ∈ keys
    · rcases mem_keys_iff.1 hkey with rfl | rfl
      all_goals
        simp only [put, reduceIte, String.reduceEq, exists_map_ok_iff, fill_eq_ok_iff, ih,
          valuesFor_cons, filled_cons_iff]
        grind
    · rw [mem_keys_iff, not_or] at hkey
      simp [put, hkey, ih]

/-- An object is settings if each field stands in it once or not at all, and then has its
default. -/
theorem ofJson_object_eq_ok_iff {ms : List (String × Json)} {c : Config} :
    ofJson (.object ms) = .ok c ↔
      Overlaid decode default.collision (valuesFor "collision" ms) c.collision ∧
      Overlaid Json.flag default.protectReserved (valuesFor "protect_reserved" ms)
        c.protectReserved := by
  simp only [ofJson, map_eq_ok_iff, Draft.putAll_eq_ok_iff, ← exists_filled_iff]
  constructor
  · rintro ⟨d, ⟨hc, hp⟩, rfl⟩
    exact ⟨⟨d.collision, hc, rfl⟩, ⟨d.protectReserved, hp, rfl⟩⟩
  · rintro ⟨⟨collision?, hc, hcollision⟩, ⟨protect?, hp, hprotect⟩⟩
    refine ⟨⟨collision?, protect?⟩, ⟨hc, hp⟩, ?_⟩
    rw [Draft.finish, hcollision, hprotect]

theorem ofJson_array_eq_ok_iff {xs : List Json} {c : Config} :
    ofJson (.array xs) = .ok c ↔
      Overlaid decode default.collision (xs.take 1) c.collision ∧
      Overlaid Json.flag default.protectReserved (xs.drop 1) c.protectReserved := by
  obtain ⟨collision, protectReserved⟩ := c
  match xs with
  | [] => simp [ofJson, ofElements, default, eq_comm]
  | [a] =>
    simp only [ofJson, ofElements, bind_eq_ok_iff]
    simp [default, pure, Except.pure, ← and_assoc]
  | [a, b] =>
    simp only [ofJson, ofElements, bind_eq_ok_iff]
    simp [pure, Except.pure]
  | a :: b :: x :: rest =>
    simp only [ofJson, ofElements, bind_eq_ok_iff]
    simp

end Config
end Lexeme
