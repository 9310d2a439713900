import Lexeme.Proofs.Text.Quoting
import Lexeme.Text.Shown
import Mathlib.Algebra.Ring.Parity
import Mathlib.Data.List.Induction

/-!
# The tokens of shown text

The reader of shown text takes plain characters, one-letter escapes, and escapes of two or four
lower-case digits. Main statement: what is written reads back whole, whatever stands behind it, and
the exact reader takes nothing else.

Inside shown text every double quote has an odd number of backslashes in front of it. So the place
where the text was opened can also be told from behind, whatever stands in front of that.
-/

namespace Lexeme
namespace Shown

/-- The tokens of shown text, each with the character it spells. -/
inductive Spells : List Char → Char → Prop
  | plain {c : Char} : c ≠ '"' → c ≠ '\\' → Spells [c] c
  | letter {c e : Char} : (c, e) ∈ letters → Spells ['\\', e] c
  | two {c : Char} : c.toNat < 0x100 → Spells ('\\' :: 'x' :: Hex.fixed 2 c.toNat) c
  | four {c : Char} : c.toNat < 0x10000 → Spells ('\\' :: 'u' :: Hex.fixed 4 c.toNat) c

theorem ofDigits?_eq_some_iff {w : Nat} {s r : List Char} {c : Char} :
    ofDigits? w s = some (c, r) ↔ c.toNat < Hex.bound w ∧ s = Hex.fixed w c.toNat ++ r := by
  constructor
  · intro h
    obtain ⟨⟨n, t⟩, ht, h⟩ := Option.bind_eq_some_iff.1 h
    obtain ⟨d, hd, h⟩ := Option.map_eq_some_iff.1 h
    cases h
    obtain ⟨m, hm, rfl, rfl⟩ := Hex.exists_fixed_of_take? ht
    have hc : c.toNat = m := by simpa using ofCodePoint?_eq_some_iff.1 hd
    exact ⟨hc ▸ hm, by rw [hc]⟩
  · rintro ⟨h, rfl⟩
    exact ofDigits?_fixed h r

theorem spells_of_ofCode? {s r : List Char} {c : Char} (h : ofCode? s = some (c, r)) :
    ∃ p, Spells ('\\' :: p) c ∧ s = p ++ r := by
  cases s with
  | nil => cases h
  | cons e s =>
    simp only [ofCode?] at h
    split at h
    · rename_i he
      obtain ⟨hc, rfl⟩ := ofDigits?_eq_some_iff.1 h
      exact ⟨_, .two hc, by rw [he, List.cons_append]⟩
    · split at h
      · rename_i he
        obtain ⟨hc, rfl⟩ := ofDigits?_eq_some_iff.1 h
        exact ⟨_, .four hc, by rw [he, List.cons_append]⟩
      · cases h

theorem spells_of_token? {s r : List Char} {c : Char}
    (h : Quoting.shown.token? s = some (c, r)) : ∃ p, Spells p c ∧ s = p ++ r := by
  rcases Escapes.token?_eq_some_iff.1 h with ⟨hb, ⟨hq, -⟩, rfl⟩ | ⟨e, he, rfl⟩ | ⟨e, t, -, ht, rfl⟩
  · exact ⟨[c], .plain hq hb, rfl⟩
  · exact ⟨['\\', e], .letter (mem_of_lookupSwapped he), rfl⟩
  · obtain ⟨p, hp, hs⟩ := spells_of_ofCode? (s := e :: t) ht
    exact ⟨'\\' :: p, hp, by rw [hs, List.cons_append]⟩

theorem token?_of_spells {p : List Char} {c : Char} (h : Spells p c) (r : List Char) :
    Quoting.shown.token? (p ++ r) = some (c, r) := by
  cases h with
  | plain hq hb => exact Escapes.shown.token?_bare hb ⟨hq, rfl⟩ r
  | letter hl =>
    have key : ∀ p ∈ letters, lookupSwapped letters p.2 = some p.1 := by decide
    exact Escapes.shown.token?_letter (key _ hl) r
  | two hc =>
    have hx : Escapes.shown.ofLetter? 'x' = none := by decide
    exact (Escapes.shown.token?_code hx _).trans (ofDigits?_fixed (w := 2) hc r)
  | four hc =>
    have hu : Escapes.shown.ofLetter? 'u' = none := by decide
    exact (Escapes.shown.token?_code hu _).trans (ofDigits?_fixed (w := 4) hc r)

theorem shown_goesBy : Quoting.shown.GoesBy Spells := by
  intro s c r
  constructor
  · exact spells_of_token?
  · rintro ⟨p, hp, rfl⟩
    exact token?_of_spells hp r

end Shown

/-- Shown text is read back whole, whatever stands behind it; its reader takes the tokens of shown
text and no others; and the reader that knows one token for each character accepts just what was
written. -/
theorem shown_lossless :
    (∀ s rest : String,
      Quoting.shown.unquote? (Quoting.shown.quote s ++ rest) = some (s, rest)) ∧
    (∀ s t x y : String,
      Quoting.shown.quote s ++ x = Quoting.shown.quote t ++ y ↔ s = t ∧ x = y) ∧
    (∀ text s rest : String, Quoting.shown.unquote? text = some (s, rest) ↔
      ∃ ps, List.Forall₂ Shown.Spells ps s.toList ∧
        text.toList = '"' :: (ps.flatten ++ '"' :: rest.toList)) ∧
    (∀ text s rest : String, Quoting.shown.exact.unquote? text = some (s, rest) ↔
      text = Quoting.shown.quote s ++ rest) ∧
    (∀ text : String, (∃ s, Quoting.shown.exact.unquote? text = some (s, "")) ↔
      ∃ s, Quoting.shown.quote s = text) ∧
    ∀ text s : String, Quoting.shown.exact.unquote? text = some (s, "") ↔
      Quoting.shown.quote s = text := by
  have hexact (text s : String) : Quoting.shown.exact.unquote? text = some (s, "") ↔
      Quoting.shown.quote s = text := by
    rw [Quoting.exact_unquote?_eq_some_iff, String.append_empty, eq_comm]
  refine ⟨Quoting.shown.unquote?_quote, fun s t x y => Quoting.shown.quote_append_inj, ?_, ?_, ?_,
    hexact⟩
  · intro text s rest
    rw [Quoting.unquote?_eq_some_iff, Quoting.read?_eq_some_iff Shown.shown_goesBy]
  · intro text s rest
    exact Quoting.exact_unquote?_eq_some_iff
  · intro text
    simp only [hexact]

/-- Another spelling of the line feed is read too, but it is not the one that is written. -/
example : Quoting.shown.token? ['\\', 'x', '0', 'a'] = some ('\n', []) ∧
    Quoting.shown.exact.token? ['\\', 'x', '0', 'a'] = none := by
  decide

/-- The backslashes at the end of a text, one directly after the other. -/
def backslashes (s : List Char) : Nat := (s.reverse.takeWhile (· = '\\')).length

@[simp] theorem backslashes_nil : backslashes [] = 0 := rfl

@[simp] theorem backslashes_append_singleton (s : List Char) (c : Char) :
    backslashes (s ++ [c]) = if c = '\\' then backslashes s + 1 else 0 := by
  by_cases h : c = '\\' <;> simp [backslashes, h]

theorem backslashes_append_cons {c : Char} (h : c ≠ '\\') (s t : List Char) :
    backslashes (s ++ c :: t) = backslashes t := by
  induction t using List.reverseRecOn with
  | nil => simp [h]
  | append_singleton t d ih =>
    rw [← List.cons_append, ← List.append_assoc, backslashes_append_singleton,
      backslashes_append_singleton, ih]

theorem backslashes_eq_zero {s : List Char} (h : '\\' ∉ s) : backslashes s = 0 := by
  induction s using List.reverseRecOn with
  | nil => rfl
  | append_singleton s c _ =>
    rw [backslashes_append_singleton, if_neg]
    rintro rfl
    simp at h

def QuotesEscaped (s : List Char) : Prop := ∀ a b, s = a ++ '"' :: b → Odd (backslashes a)

theorem QuotesEscaped.ne_append {p q s d : List Char} (hs : QuotesEscaped s)
    (hq : backslashes q = 0) (he : q = p ++ '"' :: d) (t : List Char) : s ≠ d ++ '"' :: t := by
  intro h
  have hd : backslashes d = 0 := by rw [← hq, he, backslashes_append_cons (by decide)]
  have ho := hs d t h
  rw [hd] at ho
  exact absurd ho (by decide)

/-- An opening quote that follows no backslash can be told from behind, if all quotes of the text it
opens are escaped. -/
theorem eq_of_append_quote {p q s t : List Char} (hp : backslashes p = 0) (hq : backslashes q = 0)
    (hs : QuotesEscaped s) (ht : QuotesEscaped t) (h : p ++ '"' :: s = q ++ '"' :: t) :
    p = q ∧ s = t := by
  rcases List.append_eq_append_iff.1 h with ⟨d, hd, he⟩ | ⟨d, hd, he⟩
  · cases d with
    | nil => simpa [eq_comm] using And.intro hd he
    | cons c d =>
      obtain ⟨rfl, hsd⟩ := List.cons.inj he
      exact (hs.ne_append hq hd t hsd).elim
  · cases d with
    | nil => simpa [eq_comm] using And.intro hd he
    | cons c d =>
      obtain ⟨rfl, htd⟩ := List.cons.inj he
      exact (ht.ne_append hp hd s htd).elim

namespace Shown

theorem even_backslashes_append {s p : List Char} {c : Char} (hs : Even (backslashes s))
    (h : Spells p c) : Even (backslashes (s ++ p)) := by
  have digits (w n : Nat) (x : Char) (hx : x ≠ '\\') :
      backslashes (s ++ '\\' :: x :: Hex.fixed w n) = 0 := by
    rw [List.append_cons, backslashes_append_cons hx]
    exact backslashes_eq_zero (Hex.not_mem_fixed (by decide))
  cases h with
  | plain hq hb => simp [hb]
  | @letter _ e hl =>
    rw [List.append_cons, backslashes_append_singleton]
    split
    · simpa [Nat.even_add_one] using hs
    · exact .zero
  | two => simp [digits]
  | four => simp [digits]

theorem backslash_of_spells {p a b : List Char} {c : Char} (h : Spells p c)
    (he : p = a ++ '"' :: b) : a = ['\\'] := by
  have digits {w n : Nat} {x : Char} (hx : x ≠ '"') :
      '\\' :: x :: Hex.fixed w n ≠ a ++ '"' :: b := by
    intro he
    have hm : '"' ∈ '\\' :: x :: Hex.fixed w n := by simp [he]
    have hf : '"' ∉ Hex.fixed w n := Hex.not_mem_fixed (by decide)
    simp [hx.symm, hf] at hm
  cases h with
  | plain hq =>
    have hm : '"' ∈ [c] := by simp [he]
    exact (hq (List.mem_singleton.1 hm).symm).elim
  | @letter _ e hl =>
    match a with
    | [] => simp at he
    | [x] =>
      obtain ⟨rfl, -⟩ := List.cons.inj he
      rfl
    | x :: y :: a => simp at he
  | two => exact (digits (by decide) he).elim
  | four => exact (digits (by decide) he).elim

theorem odd_backslashes_of_spelling {ps : List (List Char)} {t s a b : List Char}
    (h : List.Forall₂ Spells ps t) (hs : Even (backslashes s))
    (he : ps.flatten = a ++ '"' :: b) : Odd (backslashes (s ++ a)) := by
  induction h generalizing s a with
  | nil => simp at he
  | @cons p c ps t hp _ ih =>
    have skip {a : List Char} (ha : ps.flatten = a ++ '"' :: b) :
        Odd (backslashes (s ++ (p ++ a))) := by
      rw [← List.append_assoc]
      exact ih (even_backslashes_append hs hp) ha
    rw [List.flatten_cons] at he
    rcases List.append_eq_append_iff.1 he with ⟨d, rfl, hd⟩ | ⟨d, hd, he⟩
    · exact skip hd
    · cases d with
      | nil =>
        rw [List.append_nil] at hd
        have := skip (a := []) he.symm
        rwa [List.append_nil, hd] at this
      | cons x d =>
        obtain ⟨rfl, -⟩ := List.cons.inj he
        rw [backslash_of_spells hp hd, backslashes_append_singleton, if_pos rfl]
        exact hs.add_one

theorem quotesEscaped_flatMap_piece (s : List Char) :
    QuotesEscaped (s.flatMap Quoting.shown.piece) := by
  intro a b he
  rw [List.flatMap_def] at he
  exact odd_backslashes_of_spelling (s := []) (shown_goesBy.forall₂_piece s) .zero he

end Shown
end Lexeme
