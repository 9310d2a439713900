import Lexeme.Proofs.Text.Shown

/-!
# What shown text looks like

Main statements: between its two quotes, shown text has only characters that leave a mark, or are
the plain space; each quote in it is escaped and the closing one is not; and it is the text itself
just when the text has nothing to escape. Of the characters that turn the direction of the text
around them two groups stand as they are wherever the text has them, and no others ever do.
-/

namespace Lexeme
namespace Quoting

theorem length_piece_pos (q : Quoting) (c : Char) : 0 < (q.piece c).length := by
  have h := q.length_of_token? (q.token?_piece c [])
  rwa [List.append_nil] at h

theorem length_le_length_flatMap_piece (q : Quoting) (s : List Char) :
    s.length ≤ (s.flatMap q.piece).length := by
  induction s with
  | nil => exact Nat.le_refl _
  | cons c s ih =>
    have hc := q.length_piece_pos c
    rw [List.flatMap_cons, List.length_append, List.length_cons]
    omega

theorem flatMap_piece_eq_self_iff (q : Quoting) {s : List Char} :
    s.flatMap q.piece = s ↔ ∀ c ∈ s, q.piece c = [c] := by
  induction s with
  | nil => simp
  | cons c s ih =>
    rw [List.forall_mem_cons, ← ih, List.flatMap_cons]
    constructor
    · intro (h : q.piece c ++ s.flatMap q.piece = [c] ++ s)
      -- no piece is empty, so a longer one would not leave room for the rest
      have hlen := congrArg List.length h
      have hc := q.length_piece_pos c
      have hs := q.length_le_length_flatMap_piece s
      rw [List.length_append, List.length_append, List.length_singleton] at hlen
      exact List.append_inj h (by rw [List.length_singleton]; omega)
    · rintro ⟨hc, hs⟩
      rw [hc, hs, List.singleton_append]

end Quoting

theorem Escapes.piece_eq_singleton_iff (x : Escapes) {c : Char} :
    x.quoting.piece c = [c] ↔ x.letter? c = none ∧ x.code? c = none := by
  simp only [Escapes.quoting, Escapes.piece]
  cases hl : x.letter? c with
  | some e => simp
  | none =>
    cases hc : x.code? c with
    | some e =>
      obtain ⟨d, t, rfl, -⟩ := x.head_code? hc
      simp
    | none => simp

namespace Shown

def controls : Ranges := [(0x00, 0x1f), (0x7f, 0x9f)]

/-- The other characters that leave no mark, but for the plain space. -/
def unseen : Ranges :=
  [(0xa0, 0xa0), (0xad, 0xad), (0x1680, 0x1680), (0x2000, 0x200f), (0x2028, 0x202f),
    (0x205f, 0x2064), (0x3000, 0x3000), (0xfeff, 0xfeff)]

def legible (c : Char) : Bool := !controls.has c && !unseen.has c

theorem legible_iff {c : Char} :
    legible c = true ↔ controls.has c = false ∧ unseen.has c = false := by
  simp [legible]

theorem legible_iff_code? {c : Char} : legible c = true ↔ code? c = none := by
  have hcode : code? c = none ↔ isAsciiControl c = false ∧ blank.has c = false := by
    rw [code?_eq]
    cases isAsciiControl c <;> cases blank.has c <;> simp
  rw [hcode, legible_iff]
  simp [controls, unseen, blank, isAsciiControl, Ranges.has]
  omega

theorem legible_of_mem_fixed {w n : Nat} {c : Char} (h : c ∈ Hex.fixed w n) :
    legible c = true := by
  obtain ⟨d, hlt, rfl⟩ := Hex.exists_digitChar_of_mem_fixed h
  have key : ∀ d < 16, legible (Nat.digitChar d) = true := by decide
  exact key d hlt

theorem legible_of_mem_code? {c d : Char} {e : List Char} (h : code? c = some e) (hd : d ∈ e) :
    legible d = true := by
  have digits {x : Char} {w : Nat} (hx : legible x = true)
      (hd : d ∈ x :: Hex.fixed w c.toNat) : legible d = true := by
    rcases List.mem_cons.1 hd with rfl | hd
    · exact hx
    · exact legible_of_mem_fixed hd
  rw [code?_eq] at h
  split at h
  · cases h
    exact digits (by decide) hd
  · split at h
    · cases h
      exact digits (by decide) hd
    · cases h

/-- Whatever the character, a reader can see all of its piece. -/
theorem legible_of_mem_piece {c d : Char} (h : d ∈ Quoting.shown.piece c) : legible d = true := by
  have key : ∀ p ∈ letters, legible p.2 = true := by decide
  have hpiece : ∀ d ∈ Escapes.shown.piece c, legible d = true := by
    refine Escapes.forall_mem_piece (by decide) ?_ ?_ ?_
    · intro e he
      exact key (c, e) (mem_of_lookup he)
    · intro e he d
      exact legible_of_mem_code? he
    · intro _ he
      exact legible_iff_code?.2 he
  exact hpiece d h

theorem piece_eq_singleton_iff {c : Char} :
    Quoting.shown.piece c = [c] ↔ c ≠ '"' ∧ c ≠ '\\' ∧ legible c = true := by
  have hletters : ∀ p ∈ letters, p.1 = '"' ∨ p.1 = '\\' ∨ legible p.1 = false := by decide
  rw [Quoting.shown, Escapes.piece_eq_singleton_iff, legible_iff_code?]
  constructor
  · rintro ⟨hl, hc⟩
    refine ⟨?_, ?_, hc⟩
    · rintro rfl
      cases hl
    · rintro rfl
      cases hl
  · rintro ⟨hq, hb, hc⟩
    refine ⟨?_, hc⟩
    -- of the characters with a letter, all but these two are controls
    rw [← legible_iff_code?] at hc
    refine List.lookup_eq_none_iff.2 fun p hp => ?_
    rw [bne_iff_ne]
    rintro rfl
    rcases hletters p hp with h | h | h
    · exact hq h
    · exact hb h
    · exact Bool.false_ne_true (h.symm.trans hc)

theorem even_backslashes_flatten {ps : List (List Char)} {t s : List Char}
    (h : List.Forall₂ Spells ps t) (hs : Even (backslashes s)) :
    Even (backslashes (s ++ ps.flatten)) := by
  induction h generalizing s with
  | nil => simpa using hs
  | cons hp _ ih =>
    rw [List.flatten_cons, ← List.append_assoc]
    exact ih (even_backslashes_append hs hp)

theorem even_backslashes_flatMap_piece (s : List Char) :
    Even (backslashes (s.flatMap Quoting.shown.piece)) := by
  rw [List.flatMap_def]
  exact even_backslashes_flatten (s := []) (shown_goesBy.forall₂_piece s) .zero

end Shown

/-- Shown text has one quote in front and one behind. In between, a reader can see each character;
each quote has an odd number of backslashes in front of it, and the closing quote an even number;
and the text stands there unchanged just when it has no quote, no backslash and no character that a
reader cannot see. -/
theorem shown_clean (s : String) :
    ∃ inner : List Char, (Quoting.shown.quote s).toList = '"' :: (inner ++ ['"']) ∧
      (∀ c ∈ inner, Shown.controls.has c = false ∧ Shown.unseen.has c = false) ∧
      (∀ a b, inner = a ++ '"' :: b → Odd (backslashes a)) ∧
      Even (backslashes inner) ∧
      (inner = s.toList ↔ ∀ c ∈ s.toList,
        c ≠ '"' ∧ c ≠ '\\' ∧ Shown.controls.has c = false ∧ Shown.unseen.has c = false) := by
  refine ⟨s.toList.flatMap Quoting.shown.piece, Quoting.toList_quote _ s, ?_,
    Shown.quotesEscaped_flatMap_piece s.toList, Shown.even_backslashes_flatMap_piece s.toList, ?_⟩
  · intro c hc
    obtain ⟨d, -, hd⟩ := List.mem_flatMap.1 hc
    exact Shown.legible_iff.1 (Shown.legible_of_mem_piece hd)
  · rw [Quoting.flatMap_piece_eq_self_iff]
    simp only [Shown.piece_eq_singleton_iff, Shown.legible_iff]

namespace Shown

/-- Unicode's invisible controls of direction: the marks, the embeddings and overrides, and the
isolates. -/
def directional : Ranges :=
  [(0x061c, 0x061c), (0x200e, 0x200f), (0x202a, 0x202e), (0x2066, 0x2069)]

/-- The Arabic letter mark and the isolates, which are not among the blanks. -/
def bareDirectional : Ranges := [(0x061c, 0x061c), (0x2066, 0x2069)]

/-- A token is its character, or has nothing but ASCII in it. -/
theorem eq_singleton_or_ascii_of_spells {p : List Char} {c : Char} (h : Spells p c) :
    p = [c] ∨ ∀ d ∈ p, d.toNat < 0x80 := by
  have digits {x : Char} (hx : x.toNat < 0x80) (w n : Nat) :
      ∀ d ∈ '\\' :: x :: Hex.fixed w n, d.toNat < 0x80 := by
    intro d hd
    rw [List.mem_cons, List.mem_cons] at hd
    rcases hd with rfl | rfl | hd
    · decide
    · exact hx
    · obtain ⟨n, hlt, rfl⟩ := Hex.exists_digitChar_of_mem_fixed hd
      have key : ∀ n < 16, (Nat.digitChar n).toNat < 0x80 := by decide
      exact key n hlt
  cases h with
  | plain => exact .inl rfl
  | @letter _ e hl =>
    have key : ∀ p ∈ letters, p.2.toNat < 0x80 := by decide
    right
    intro d hd
    rcases List.mem_pair.1 hd with rfl | rfl
    · decide
    · exact key _ hl
  | two => exact .inr (digits (by decide) 2 c.toNat)
  | four => exact .inr (digits (by decide) 4 c.toNat)

theorem spells_piece (c : Char) : Spells (Quoting.shown.piece c) c := by
  have h := shown_goesBy.forall₂_piece [c]
  rw [List.map_singleton, List.forall₂_cons] at h
  exact h.1

theorem mem_flatMap_piece_iff {c : Char} (hc : 0x80 ≤ c.toNat) {s : List Char} :
    c ∈ s.flatMap Quoting.shown.piece ↔ c ∈ s ∧ Quoting.shown.piece c = [c] := by
  rw [List.mem_flatMap]
  constructor
  · rintro ⟨d, hd, hp⟩
    rcases eq_singleton_or_ascii_of_spells (spells_piece d) with he | hascii
    · obtain rfl : c = d := by rwa [he, List.mem_singleton] at hp
      exact ⟨hd, he⟩
    · exact absurd (hascii c hp) (Nat.not_lt.2 hc)
  · rintro ⟨hs, he⟩
    exact ⟨c, hs, by rw [he, List.mem_singleton]⟩

theorem code?_of_directional {c : Char} (h : directional.has c = true) :
    code? c = if bareDirectional.has c = true then none else some ('u' :: Hex.fixed 4 c.toNat) := by
  have hcontrol : isAsciiControl c = false := by
    simp [directional, Ranges.has, isAsciiControl] at h ⊢
    omega
  have hblank : blank.has c = !bareDirectional.has c := by
    rw [Bool.eq_iff_iff]
    simp [directional, bareDirectional, blank, Ranges.has] at h ⊢
    omega
  rw [code?_eq, hcontrol, hblank]
  cases bareDirectional.has c <;> rfl

theorem lt_of_directional {c : Char} (h : directional.has c = true) : 0x80 ≤ c.toNat := by
  simp [directional, Ranges.has] at h
  omega

theorem piece_of_directional {c : Char} (h : directional.has c = true) :
    Quoting.shown.piece c =
      if bareDirectional.has c = true then [c] else '\\' :: 'u' :: Hex.fixed 4 c.toNat := by
  have hletter : letters.lookup c = none := by
    have key : ∀ p ∈ letters, p.1.toNat < 0x80 := by decide
    refine List.lookup_eq_none_iff.2 fun p hp => ?_
    rw [bne_iff_ne]
    rintro rfl
    exact absurd (key p hp) (Nat.not_lt.2 (lt_of_directional h))
  simp only [Quoting.shown, Escapes.quoting, Escapes.piece, Escapes.shown, hletter,
    code?_of_directional h]
  cases bareDirectional.has c <;> rfl

end Shown

/-- A control of direction stands in shown text just when the text has it and it is the Arabic
letter mark or an isolate. Each of the others is written as an escape of four digits. -/
theorem directional_shown (s : String) {c : Char} (h : Shown.directional.has c = true) :
    (c ∈ (Quoting.shown.quote s).toList ↔
      c ∈ s.toList ∧ Shown.bareDirectional.has c = true) ∧
    Quoting.shown.piece c = if Shown.bareDirectional.has c = true then [c]
      else '\\' :: 'u' :: Hex.fixed 4 c.toNat := by
  have hpiece := Shown.piece_of_directional h
  have hc := Shown.lt_of_directional h
  have hself : Quoting.shown.piece c = [c] ↔ Shown.bareDirectional.has c = true := by
    rw [hpiece]
    cases Shown.bareDirectional.has c <;> simp
  have hquote : c ≠ '"' := by
    rintro rfl
    exact absurd hc (by decide)
  refine ⟨?_, hpiece⟩
  rw [Quoting.toList_quote, Quoting.write, List.mem_cons, List.mem_append, List.mem_singleton,
    Shown.mem_flatMap_piece_iff hc, hself]
  simp [hquote]

/-- The override from right to left is escaped, the isolate is not. -/
theorem directional_shown_override :
    Shown.directional.has '\u202e' = true ∧ Shown.directional.has '\u2067' = true ∧
      '\u202e' ∉ (Quoting.shown.quote "a\u202eb\u2067c").toList ∧
      '\u2067' ∈ (Quoting.shown.quote "a\u202eb\u2067c").toList := by
  have hoverride : Shown.directional.has '\u202e' = true := by decide
  have hisolate : Shown.directional.has '\u2067' = true := by decide
  refine ⟨hoverride, hisolate, ?_, ?_⟩
  · rw [(directional_shown _ hoverride).1]
    decide
  · rw [(directional_shown _ hisolate).1]
    decide

/-- So shown text can still turn the text around it. -/
theorem exists_directional_shown :
    ¬∀ (s : String), ∀ c ∈ (Quoting.shown.quote s).toList, Shown.directional.has c = false := by
  intro h
  exact absurd (h "\u2066" '\u2066' (by decide)) (by decide)

end Lexeme
