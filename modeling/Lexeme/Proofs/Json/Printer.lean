import Lexeme.Proofs.Json.Grammar

/-!
# Documents read back

The compact text of a document is one of its texts. Main statements: the document is read back from
it, member for member, and no control character stands in it.
-/

namespace Lexeme
namespace Json

inductive WellFormed : Json → Prop
  | null : WellFormed .null
  | boolean (b : Bool) : WellFormed (.boolean b)
  | number {n : Number} (h : n.WellFormed) : WellFormed (.number n)
  | string (s : String) : WellFormed (.string s)
  | array {xs : List Json} (h : ∀ x ∈ xs, WellFormed x) : WellFormed (.array xs)
  | object {ms : List (String × Json)} (h : ∀ m ∈ ms, WellFormed m.2) : WellFormed (.object ms)
  | unpaired : WellFormed .unpaired

theorem wellFormed_ofNat (n : Nat) : (ofNat n).WellFormed := .number (Number.wellFormed_ofNat n)

theorem spellsString_write (s : String) : SpellsString (Quoting.json.write s.toList) s :=
  ⟨_, Escaped.json_goesBy.forall₂_piece s.toList, by rw [Quoting.write, List.flatMap_def]⟩

theorem spellsKey_write (s : String) : SpellsKey (Quoting.json.write s.toList) s :=
  ⟨[], _, [], blank_nil, spellsString_write s, blank_nil, by simp⟩

/-- A member as it is written. -/
def spelled (m : String × Json) : Spelled := ⟨m.1, Quoting.json.write m.1.toList, m.2, m.2.print⟩

@[simp] theorem member_spelled (m : String × Json) : (spelled m).member = m := rfl

theorem print_array (x : Json) (xs : List Json) :
    (array (x :: xs)).print = '[' :: (listed ((x :: xs).map print) ++ [']']) := by
  have helements : x.print ++ printElements xs = listed ((x :: xs).map print) ++ [']'] := by
    induction xs generalizing x with
    | nil => simp [printElements]
    | cons y ys ih => simpa [printElements, listed_cons_cons] using ih y
  rw [print, helements]

theorem print_object (m : String × Json) (ms : List (String × Json)) :
    (object (m :: ms)).print =
      '\x7b' :: (listed ((m :: ms).map fun m => (spelled m).text) ++ ['\x7d']) := by
  have hmembers : Quoting.json.write m.1.toList ++ ':' :: (m.2.print ++ printMembers ms) =
      listed ((m :: ms).map fun m => (spelled m).text) ++ ['\x7d'] := by
    induction ms generalizing m with
    | nil => simp [printMembers, spelled, Spelled.text]
    | cons n ns ih => simpa [printMembers, listed_cons_cons, spelled, Spelled.text] using ih n
  rw [print, hmembers]

theorem WellFormed.opens {j : Json} (hj : j.WellFormed) : Opens j.print := by
  cases hj with
  | null => exact Spells.null.opens
  | boolean b => cases b <;> exact opens_cons (by decide) (by decide) _
  | number h => exact (Spells.number h.spells).opens
  | string s => exact (spellsString_write s).opens
  | @array xs => cases xs <;> exact opens_cons (by decide) (by decide) _
  | @object ms => cases ms <;> exact opens_cons (by decide) (by decide) _
  | unpaired => exact opens_cons (by decide) (by decide) _

theorem string?_unpaired (rest : List Char) :
    string? (unpaired.print ++ rest) = some (none, rest) := by
  let half : List Char := Hex.fixed 4 0xd800 ++ '"' :: rest
  have hescape : Escapes.json.ofLetter? 'u' = none := by decide
  have hunit : Escaped.unit? ('u' :: half) = some (0xd800, '"' :: rest) :=
    Hex.take?_fixed_of_lt Hex.either?_digitChar (by decide) _
  -- the other half would have to follow, and a quote stands in its place
  have hpair : Escaped.ofCode? ('u' :: half) = none := by
    rw [Escaped.ofCode?, hunit]
    rfl
  have hwhole : Quoting.json.token? ('\\' :: 'u' :: half) = none :=
    (Escapes.json.token?_code hescape half).trans hpair
  have hsingle : Escaped.ofUnit? ('u' :: half) = some ('\ufffd', '"' :: rest) := by
    rw [Escaped.ofUnit?, hunit]
    rfl
  have hhalf : Quoting.unitwise.token? ('\\' :: 'u' :: half) = some ('\ufffd', '"' :: rest) :=
    (Escapes.unitwise.token?_code (e := 'u') hescape half).trans hsingle
  simp [print, string?, Quoting.read?, Quoting.body?_of_token?_none hwhole, Quoting.close?,
    Quoting.body?_of_token? hhalf, Quoting.body?_quote, half]

theorem scalar?_unpaired (rest : List Char) :
    scalar? (unpaired.print ++ rest) = some (unpaired, rest) := by
  have h := string?_unpaired rest
  rw [print, List.cons_append] at h ⊢
  rw [scalar?, h]
  rfl

theorem WellFormed.readFrom {j : Json} (hj : j.WellFormed) : ReadFrom j.print j := by
  induction hj with
  | null => exact Spells.null.readFrom
  | boolean b =>
    cases b with
    | true => exact Spells.true.readFrom
    | false => exact Spells.false.readFrom
  | number h => exact (Spells.number h.spells).readFrom
  | string s => exact (Spells.string (spellsString_write s)).readFrom
  | @array xs h ih =>
    cases xs with
    | nil => exact (Spells.noElements blank_nil).readFrom
    | cons x xs =>
      have hopens : ∀ y ∈ (x :: xs).map (fun x => (x.print, x)), Opens y.1 :=
        List.forall_mem_map.2 fun y hy => (h y hy).opens
      have hread : ∀ y ∈ (x :: xs).map (fun x => (x.print, x)), ReadFrom y.1 y.2 :=
        List.forall_mem_map.2 ih
      rw [print_array]
      simpa [Function.comp_def] using readFrom_array (by simp) hopens hread
  | @object ms h ih =>
    cases ms with
    | nil => exact (Spells.noMembers blank_nil).readFrom
    | cons m ms =>
      have hkeys : ∀ n ∈ (m :: ms).map spelled, SpellsKey n.keyText n.key :=
        List.forall_mem_map.2 fun n _ => spellsKey_write n.1
      have hread : ∀ n ∈ (m :: ms).map spelled, ReadFrom n.valueText n.value :=
        List.forall_mem_map.2 ih
      rw [print_object]
      simpa [Function.comp_def] using readFrom_object (by simp) hkeys hread
  | unpaired =>
    exact readFrom_of_scalar? rfl (by decide) (by decide) fun rest _ => scalar?_unpaired rest

/-- A document is read back from its compact text. -/
theorem parse?_compact {j : Json} (hj : j.WellFormed) : parse? j.compact = some j := by
  refine parse?_of_readFrom ?_
  rw [compact, String.toList_ofList]
  exact hj.readFrom

def Clear (s : List Char) : Prop := ∀ c ∈ s, Escaped.isControl c = false

@[simp] theorem clear_nil : Clear [] := fun _ h => absurd h List.not_mem_nil

@[simp] theorem clear_cons {c : Char} {s : List Char} :
    Clear (c :: s) ↔ Escaped.isControl c = false ∧ Clear s := List.forall_mem_cons

@[simp] theorem clear_append {s t : List Char} : Clear (s ++ t) ↔ Clear s ∧ Clear t :=
  List.forall_mem_append

theorem not_isControl_of_isDigit {c : Char} (h : c.isDigit = true) :
    Escaped.isControl c = false := by
  have h32 : 32 ≤ c.toNat := Nat.le_trans (by decide) (Char.isDigit_iff_toNat.1 h).1
  simpa [Escaped.isControl] using h32

theorem clear_toDigits (n : Nat) : Clear (Nat.toDigits 10 n) := fun _ h =>
  not_isControl_of_isDigit (Number.isDigit_of_mem_toDigits h)

theorem clear_fixed (w n : Nat) : Clear (Hex.fixed w n) := by
  intro c hc
  obtain ⟨d, hd, rfl⟩ := Hex.exists_digitChar_of_mem_fixed hc
  have key : ∀ d < 16, Escaped.isControl (Nat.digitChar d) = false := by decide
  exact key d hd

theorem clear_piece (c : Char) : Clear (Quoting.json.piece c) := by
  have key : ∀ p ∈ Escaped.letters, Escaped.isControl p.2 = false := by decide
  refine Escapes.forall_mem_piece (x := Escapes.json) (by decide) ?_ ?_ ?_
  · intro e he
    exact key (c, e) (mem_of_lookup he)
  · intro e he
    simp only [Escapes.json, Escaped.code?] at he
    split at he
    · cases he
      exact clear_cons.2 ⟨by decide, clear_fixed 4 c.toNat⟩
    · cases he
  · intro hl hc
    simpa [Escapes.json] using (Escapes.json.bare hl hc).1

theorem clear_write (s : List Char) : Clear (Quoting.json.write s) := by
  have hs : Clear (s.flatMap Quoting.json.piece) := by
    induction s with
    | nil => exact clear_nil
    | cons c s ih => simp [clear_piece c, ih]
  simp [Quoting.write, hs, Escaped.isControl]

theorem clear_number {n : Number} (h : n.WellFormed) : Clear n.text := by
  have hf : Clear (Number.fractionText n.fraction) := by
    unfold Number.fractionText
    split
    · exact clear_nil
    · exact clear_cons.2 ⟨by decide, fun c hc => not_isControl_of_isDigit (h c hc)⟩
  have he : Clear (Number.exponentText n.exponent?) := by
    cases n.exponent? with
    | none => exact clear_nil
    | some e =>
      by_cases hneg : e < 0 <;>
        simp [Number.exponentText, hneg, clear_toDigits, Escaped.isControl]
  rw [Number.text_eq]
  cases n.negative <;> simp [clear_toDigits, hf, he, Escaped.isControl]

theorem clear_printElements {xs : List Json} (h : ∀ x ∈ xs, Clear x.print) :
    Clear (printElements xs) := by
  induction xs with
  | nil => simp [printElements, Escaped.isControl]
  | cons x xs ih =>
    obtain ⟨hx, hxs⟩ := List.forall_mem_cons.1 h
    simp [printElements, hx, ih hxs, Escaped.isControl]

theorem clear_printMembers {ms : List (String × Json)} (h : ∀ m ∈ ms, Clear m.2.print) :
    Clear (printMembers ms) := by
  induction ms with
  | nil => simp [printMembers, Escaped.isControl]
  | cons m ms ih =>
    obtain ⟨hm, hms⟩ := List.forall_mem_cons.1 h
    simp [printMembers, clear_write, hm, ih hms, Escaped.isControl]

theorem WellFormed.clear_print {j : Json} (hj : j.WellFormed) : Clear j.print := by
  induction hj with
  | null => simp [print, Escaped.isControl]
  | boolean b => cases b <;> simp [print, Escaped.isControl]
  | number h => exact clear_number h
  | string s => exact clear_write s.toList
  | @array xs _ ih =>
    cases xs with
    | nil => simp [print, Escaped.isControl]
    | cons x xs =>
      obtain ⟨hx, hxs⟩ := List.forall_mem_cons.1 ih
      simp [print, hx, clear_printElements hxs, Escaped.isControl]
  | @object ms _ ih =>
    cases ms with
    | nil => simp [print, Escaped.isControl]
    | cons m ms =>
      obtain ⟨hm, hms⟩ := List.forall_mem_cons.1 ih
      simp [print, clear_write, hm, clear_printMembers hms, Escaped.isControl]
  | unpaired => simp [print, clear_fixed, Escaped.isControl]

end Json
end Lexeme
