import Lexeme.Proofs.Json.Spelling
import Lexeme.Proofs.Text.Shown
import Lexeme.Session

/-!
# What messages and displayed tokens tell

A name stands quoted in a message, and raw in front of the text of a token, and may hold anything,
also words of the message and quotes. Main statements: still the message of a refusal tells the
refusal, the tag and every name; and the displayed form tells the name and the text apart.
-/

namespace Lexeme

theorem Tag.digits_append_inj {t u : Tag} {x y : String} (hx : Number.NoDigit x.toList)
    (hy : Number.NoDigit y.toList) (h : t.digits ++ x = u.digits ++ y) : t = u ∧ x = y := by
  have hl := congrArg String.toList h
  simp only [digits, String.toList_append, Nat.toList_repr] at hl
  have hread := congrArg Number.whole? hl
  rw [Number.whole?_toDigits _ hx, Number.whole?_toDigits _ hy] at hread
  simp only [Option.some.injEq, Prod.mk.injEq, String.toList_inj, UInt32.toNat_inj,
    Tag.value_inj] at hread
  exact hread

namespace Refusal

def reason : Refusal → String
  | collision _ existing attempted =>
    " is already registered as " ++ (Quoting.braced.quote existing
      ++ (", refusing " ++ Quoting.braced.quote attempted))
  | reserved _ name => " is reserved, refusing " ++ Quoting.braced.quote name

theorem reason_collision (t : Tag) (existing attempted : String) :
    (collision t existing attempted).reason =
      " is already registered as " ++ (Quoting.braced.quote existing
        ++ (", refusing " ++ Quoting.braced.quote attempted)) := rfl

theorem reason_reserved (t : Tag) (name : String) :
    (reserved t name).reason = " is reserved, refusing " ++ Quoting.braced.quote name := rfl

theorem message_eq (e : Refusal) : e.message = "item type " ++ (e.tag.digits ++ e.reason) := by
  cases e with
  | collision t existing attempted =>
    show "item type " ++ t.digits ++ " is already registered as " ++ Quoting.braced.quote existing
      ++ ", refusing " ++ Quoting.braced.quote attempted = _
    simp only [tag, reason_collision, String.append_assoc]
  | reserved t name =>
    show "item type " ++ t.digits ++ " is reserved, refusing " ++ Quoting.braced.quote name = _
    simp only [tag, reason_reserved, String.append_assoc]

theorem noDigit_reason_append (e : Refusal) (x : String) :
    Number.NoDigit (e.reason ++ x).toList := by
  intro c hc
  have hspace : (e.reason ++ x).toList.head? = some ' ' := by
    cases e with
    | collision t existing attempted => simp [reason_collision]
    | reserved t name => simp [reason_reserved]
  rw [hspace] at hc
  cases hc
  decide

theorem reason_append_ne {t u : Tag} {existing attempted name x y : String} :
    (collision t existing attempted).reason ++ x ≠ (reserved u name).reason ++ y := by
  intro h
  have hword := congrArg (fun s => s.toList[4]?) h
  simp [reason_collision, reason_reserved] at hword

theorem reason_append_inj {e f : Refusal} {x y : String} (ht : e.tag = f.tag)
    (h : e.reason ++ x = f.reason ++ y) : e = f ∧ x = y := by
  cases e with
  | collision t existing attempted =>
    cases f with
    | collision u existing' attempted' =>
      obtain rfl : t = u := ht
      simp only [reason_collision, String.append_assoc, String.append_right_inj,
        Quoting.quote_append_inj] at h
      obtain ⟨rfl, rfl, rfl⟩ := h
      exact ⟨rfl, rfl⟩
    | reserved u name => exact absurd h reason_append_ne
  | reserved t name =>
    cases f with
    | collision u existing attempted => exact absurd h.symm reason_append_ne
    | reserved u name' =>
      obtain rfl : t = u := ht
      simp only [reason_reserved, String.append_assoc, String.append_right_inj,
        Quoting.quote_append_inj] at h
      obtain ⟨rfl, rfl⟩ := h
      exact ⟨rfl, rfl⟩

/-- A message is told from whatever stands behind it, and tells its refusal. -/
theorem message_append_inj {e f : Refusal} {x y : String} (h : e.message ++ x = f.message ++ y) :
    e = f ∧ x = y := by
  rw [message_eq, message_eq] at h
  simp only [String.append_assoc, String.append_right_inj] at h
  obtain ⟨ht, hreason⟩ :=
    Tag.digits_append_inj (noDigit_reason_append e x) (noDigit_reason_append f y) h
  exact reason_append_inj ht hreason

/-- Two refusals have one message just when they are the same: of one kind, for one tag, with the
same names. -/
theorem message_eq_message_iff (e f : Refusal) : e.message = f.message ↔ e = f := by
  constructor
  · intro h
    have happend : e.message ++ "" = f.message ++ "" := by rw [h]
    exact (message_append_inj happend).1
  · rintro rfl
    rfl

end Refusal

theorem View.toList_display (name : String) (v : View) :
    (v.display name).toList =
      (name.toList ++ [' ', '(']) ++
        '"' :: (v.text.toList.flatMap Quoting.shown.piece ++ ['"', ')']) := by
  simp [display, Quoting.write]

theorem View.display_inj {name name' : String} {v w : View} :
    v.display name = w.display name' ↔ name = name' ∧ v.text = w.text := by
  constructor
  · intro h
    have hl := congrArg String.toList h
    rw [toList_display, toList_display, ← List.cons_append, ← List.cons_append,
      ← List.append_assoc, ← List.append_assoc] at hl
    -- the opening bracket is no backslash, so the quote behind it is told from those of the text
    have bracket (s : List Char) : backslashes (s ++ [' ', '(']) = 0 := by
      rw [backslashes_append_cons (by decide)]
      rfl
    obtain ⟨hn, ht⟩ := eq_of_append_quote (bracket _) (bracket _)
      (Shown.quotesEscaped_flatMap_piece _) (Shown.quotesEscaped_flatMap_piece _)
      (List.append_cancel_right hl)
    exact ⟨String.toList_inj.1 (List.append_cancel_right hn),
      String.toList_inj.1 (Quoting.flatMap_piece_inj ht)⟩
  · rintro ⟨rfl, h⟩
    simp [display, h]

/-- Two tokens are displayed alike just when their tags go by one name, each in its registry, and
their texts are equal. -/
theorem Registry.display_answer_eq_iff (r s : Registry) (v w : View) :
    (r.display v).answer = (s.display w).answer ↔
      r.nameOf v.tag = s.nameOf w.tag ∧ v.text = w.text := by
  rw [display_answer, display_answer, View.display_inj]

end Lexeme
