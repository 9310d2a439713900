import Lexeme.Json
import Lexeme.Proofs.Text.Quoting
import Mathlib.Data.List.Basic

/-!
# Spellings of numbers and strings

A document may write one number or one string in many ways: with or without an exponent, with
escapes or without. Main statements: a number is read from each of its spellings, if nothing stands
behind it that could carry it on, and the text in which it is written is one of them; a string is
read from its spellings and from no other text.
-/

namespace Lexeme
namespace Number

def NoDigit (rest : List Char) : Prop := ∀ c ∈ rest.head?, c.isDigit = false

/-- Nothing comes next that could carry a number on. -/
def Ends (rest : List Char) : Prop :=
  ∀ c ∈ rest.head?, c.isDigit = false ∧ c ≠ '.' ∧ c ≠ 'e' ∧ c ≠ 'E'

theorem ends_nil : Ends [] := by
  intro c hc
  simp at hc

theorem ends_cons {c : Char} (hd : c.isDigit = false) (h : c ≠ '.' ∧ c ≠ 'e' ∧ c ≠ 'E')
    (rest : List Char) : Ends (c :: rest) := by
  intro d he
  obtain rfl : c = d := by simpa using he
  exact ⟨hd, h⟩

theorem Ends.noDigit {rest : List Char} (h : Ends rest) : NoDigit rest := fun c hc => (h c hc).1

theorem ne_of_isDigit {c d : Char} (hc : c.isDigit = true) (hd : d.isDigit = false) : c ≠ d := by
  rintro rfl
  simp [hc] at hd

def Digits (ds : List Char) : Prop := ds ≠ [] ∧ ∀ c ∈ ds, c.isDigit = true

def valueOf (ds : List Char) : Nat := Nat.ofDigitChars 10 ds 0

theorem isDigit_of_mem_toDigits {n : Nat} {c : Char} (h : c ∈ Nat.toDigits 10 n) :
    c.isDigit = true :=
  Nat.isDigit_of_mem_toDigits (by decide) (by decide) h

theorem digits_toDigits (n : Nat) : Digits (Nat.toDigits 10 n) :=
  ⟨Nat.toDigits_ne_nil, fun _ => isDigit_of_mem_toDigits⟩

theorem valueOf_toDigits (n : Nat) : valueOf (Nat.toDigits 10 n) = n :=
  Nat.ofDigitChars_toDigits (by decide) (by decide)

theorem eq_zero_of_head?_toDigits {n : Nat} (h : (Nat.toDigits 10 n).head? = some '0') : n = 0 := by
  induction n using Nat.strongRecOn with
  | ind n ih =>
    by_cases hn : n < 10
    · have key : ∀ n < 10, n.digitChar = '0' → n = 0 := by decide
      rw [Nat.toDigits_of_lt_base hn] at h
      exact key n hn (Option.some.inj h)
    · have hn : 10 ≤ n := Nat.le_of_not_lt hn
      rw [Nat.toDigits_of_base_le (by decide) hn,
        List.head?_append_of_ne_nil _ Nat.toDigits_ne_nil] at h
      have := ih (n / 10) (by omega) h
      omega

theorem toDigits_eq_zero {n : Nat} (h : (Nat.toDigits 10 n).head? = some '0') :
    Nat.toDigits 10 n = ['0'] := by
  rw [eq_zero_of_head?_toDigits h]
  rfl

def fractionText (fraction : List Char) : List Char :=
  if fraction = [] then [] else '.' :: fraction

def exponentText : Option Int → List Char
  | none => []
  | some e => 'e' :: ((if e < 0 then ['-'] else []) ++ Nat.toDigits 10 e.natAbs)

theorem text_eq (n : Number) :
    n.text = (if n.negative then ['-'] else []) ++
      (Nat.toDigits 10 n.whole ++ (fractionText n.fraction ++ exponentText n.exponent?)) := by
  simp only [text, fractionText, List.append_assoc]
  cases n.exponent? <;> rfl

inductive SpellsExponent : List Char → Option Int → Prop
  | none : SpellsExponent [] none
  | unsigned {mark : Char} {ds : List Char} (hm : mark = 'e' ∨ mark = 'E') (hd : Digits ds) :
    SpellsExponent (mark :: ds) (some (valueOf ds))
  | plus {mark : Char} {ds : List Char} (hm : mark = 'e' ∨ mark = 'E') (hd : Digits ds) :
    SpellsExponent (mark :: '+' :: ds) (some (valueOf ds))
  | minus {mark : Char} {ds : List Char} (hm : mark = 'e' ∨ mark = 'E') (hd : Digits ds) :
    SpellsExponent (mark :: '-' :: ds) (some (-valueOf ds))

/-- The spellings of a number. No zero stands in front of other digits, and digits stand on both
sides of a point. -/
inductive Spells : List Char → Number → Prop
  | mk {negative : Bool} {ds fraction es : List Char} {exponent? : Option Int} (hd : Digits ds)
    (hz : ds.head? = some '0' → ds = ['0']) (hf : ∀ c ∈ fraction, c.isDigit = true)
    (he : SpellsExponent es exponent?) :
    Spells ((if negative then ['-'] else []) ++ (ds ++ (fractionText fraction ++ es)))
      ⟨negative, valueOf ds, fraction, exponent?⟩

section

variable {ds fraction es rest : List Char} {exponent? : Option Int}

theorem Digits.exists_eq_cons (h : Digits ds) : ∃ d t, ds = d :: t ∧ d.isDigit = true := by
  obtain ⟨d, t, rfl⟩ := List.exists_cons_of_ne_nil h.1
  exact ⟨d, t, rfl, h.2 d List.mem_cons_self⟩

theorem digits?_of_digits (h : Digits ds) (hr : NoDigit rest) :
    digits? (ds ++ rest) = some (ds, rest) := by
  have hstop : rest.takeWhile Char.isDigit = [] ∧ rest.dropWhile Char.isDigit = rest := by
    cases rest with
    | nil => exact ⟨rfl, rfl⟩
    | cons c rest => simp [hr c rfl]
  have htake : (ds ++ rest).takeWhile Char.isDigit = ds := by
    rw [List.takeWhile_append_of_pos h.2, hstop.1, List.append_nil]
  have hdrop : (ds ++ rest).dropWhile Char.isDigit = rest := by
    rw [List.dropWhile_append_of_pos h.2, hstop.2]
  unfold digits?
  rw [htake, hdrop]
  obtain ⟨d, t, rfl, -⟩ := h.exists_eq_cons
  rfl

theorem whole?_of_digits (h : Digits ds) (hz : ds.head? = some '0' → ds = ['0'])
    (hr : NoDigit rest) : whole? (ds ++ rest) = some (valueOf ds, rest) := by
  have hzero : ¬(ds.head? = some '0' ∧ ds ≠ ['0']) := fun hn => hn.2 (hz hn.1)
  simp only [whole?, digits?_of_digits h hr, Option.bind_some, if_neg hzero, valueOf]

theorem whole?_toDigits (n : Nat) (hr : NoDigit rest) :
    whole? (Nat.toDigits 10 n ++ rest) = some (n, rest) := by
  rw [whole?_of_digits (digits_toDigits n) toDigits_eq_zero hr, valueOf_toDigits]

theorem magnitude?_of_digits (h : Digits ds) (hr : NoDigit rest) :
    magnitude? (ds ++ rest) = some (valueOf ds, rest) := by
  rw [magnitude?, digits?_of_digits h hr]
  rfl

theorem noDigit_fractionText (fraction : List Char) (hr : NoDigit rest) :
    NoDigit (fractionText fraction ++ rest) := by
  unfold fractionText
  split
  · exact hr
  · intro c hc
    obtain rfl : '.' = c := by simpa using hc
    decide

theorem fraction?_fractionText (hf : ∀ c ∈ fraction, c.isDigit = true) (hr : NoDigit rest)
    (hp : '.' ∉ rest.head?) :
    fraction? (fractionText fraction ++ rest) = some (fraction, rest) := by
  unfold fractionText
  split
  · rename_i h
    subst h
    rw [List.nil_append]
    unfold fraction?
    split
    · simp at hp
    · rfl
  · rename_i h
    exact digits?_of_digits ⟨h, hf⟩ hr

theorem readExponent?_of_spells (h : SpellsExponent es exponent?) (hr : Ends rest) :
    readExponent? (es ++ rest) = some (exponent?, rest) := by
  cases h with
  | none =>
    cases rest with
    | nil => rfl
    | cons c rest =>
      obtain ⟨-, -, he, hE⟩ := hr c rfl
      simp [readExponent?, he, hE]
  | @unsigned mark ds hm hd =>
    -- the digits come at once, so none of the two signs does
    obtain ⟨d, t, rfl, hdigit⟩ := hd.exists_eq_cons
    have hminus : d ≠ '-' := ne_of_isDigit hdigit (by decide)
    have hplus : d ≠ '+' := ne_of_isDigit hdigit (by decide)
    have hmag := magnitude?_of_digits hd hr.noDigit
    rw [List.cons_append] at hmag
    simp [readExponent?, hm, hminus, hplus, hmag]
  | plus hm hd => simp [readExponent?, hm, magnitude?_of_digits hd hr.noDigit]
  | minus hm hd => simp [readExponent?, hm, magnitude?_of_digits hd hr.noDigit]

theorem head?_exponent (h : SpellsExponent es exponent?) (hr : Ends rest) :
    NoDigit (es ++ rest) ∧ '.' ∉ (es ++ rest).head? := by
  cases h with
  | none => exact ⟨hr.noDigit, fun hp => (hr '.' hp).2.1 rfl⟩
  | unsigned hm | plus hm | minus hm => rcases hm with rfl | rfl <;> simp [NoDigit]

end

theorem head?_spells {s : List Char} {n : Number} (h : Spells s n) :
    ∃ c t, s = c :: t ∧ (c = '-' ∨ c.isDigit = true) := by
  obtain ⟨hd, hz, hf, he⟩ := h
  rename_i negative ds fraction es exponent?
  cases negative with
  | true => exact ⟨_, _, rfl, .inl rfl⟩
  | false =>
    obtain ⟨d, t, rfl, hdigit⟩ := hd.exists_eq_cons
    exact ⟨d, _, rfl, .inr hdigit⟩

theorem read?_of_head?_ne {s : List Char} (h : '-' ∉ s.head?) : read? s = unsigned? false s := by
  unfold read?
  split
  · simp at h
  · rfl

/-- A number is read from each of its spellings. -/
theorem read?_of_spells {s rest : List Char} {n : Number} (h : Spells s n) (hr : Ends rest) :
    read? (s ++ rest) = some (n, rest) := by
  obtain ⟨hd, hz, hf, he⟩ := h
  rename_i negative ds fraction es exponent?
  obtain ⟨hdigit, hpoint⟩ := head?_exponent he hr
  have hwhole := whole?_of_digits hd hz (noDigit_fractionText fraction hdigit)
  have hfraction := fraction?_fractionText hf hdigit hpoint
  have hexponent := readExponent?_of_spells he hr
  have hu : unsigned? negative (ds ++ (fractionText fraction ++ (es ++ rest))) =
      some (⟨negative, valueOf ds, fraction, exponent?⟩, rest) := by
    simp [unsigned?, hwhole, hfraction, hexponent]
  cases negative with
  | true => simpa [read?] using hu
  | false =>
    obtain ⟨d, t, rfl, hdigit⟩ := hd.exists_eq_cons
    have hminus : '-' ∉ ((d :: t) ++ (fractionText fraction ++ (es ++ rest))).head? := by
      simpa using ne_of_isDigit hdigit (by decide)
    rw [← read?_of_head?_ne hminus] at hu
    simpa using hu

theorem spells_exponentText (e? : Option Int) : SpellsExponent (exponentText e?) e? := by
  cases e? with
  | none => exact .none
  | some e =>
    by_cases hneg : e < 0
    · have hvalue : -(valueOf (Nat.toDigits 10 e.natAbs) : Int) = e := by
        rw [valueOf_toDigits]
        omega
      have h : SpellsExponent ('e' :: '-' :: Nat.toDigits 10 e.natAbs) (some (-valueOf _)) :=
        .minus (.inl rfl) (digits_toDigits _)
      simpa [exponentText, hneg, hvalue] using h
    · have hvalue : (valueOf (Nat.toDigits 10 e.natAbs) : Int) = e := by
        rw [valueOf_toDigits]
        omega
      have h : SpellsExponent ('e' :: Nat.toDigits 10 e.natAbs) (some (valueOf _)) :=
        .unsigned (.inl rfl) (digits_toDigits _)
      simpa [exponentText, hneg, hvalue] using h

def WellFormed (n : Number) : Prop := ∀ c ∈ n.fraction, c.isDigit = true

theorem wellFormed_ofNat (n : Nat) : (ofNat n).WellFormed := by
  intro c hc
  cases hc

/-- What is written for a number is one of its spellings. -/
theorem WellFormed.spells {n : Number} (hn : n.WellFormed) : Spells n.text n := by
  have h : Spells n.text
      ⟨n.negative, valueOf (Nat.toDigits 10 n.whole), n.fraction, n.exponent?⟩ := by
    rw [text_eq]
    exact .mk (digits_toDigits _) toDigits_eq_zero hn (spells_exponentText _)
  rwa [valueOf_toDigits] at h

end Number

namespace Escaped

inductive SpellsUnit : List Char → Nat → Prop
  | mk {a b c d : Char} {i j k l : Nat} (ha : Hex.either? a = some i) (hb : Hex.either? b = some j)
    (hc : Hex.either? c = some k) (hd : Hex.either? d = some l) :
    SpellsUnit [a, b, c, d] (((i * 16 + j) * 16 + k) * 16 + l)

/-- What may stand for a character: itself if it is none of those to be escaped, an escape of one
letter, its code, or the codes of a pair of surrogates. -/
inductive Spells : List Char → Char → Prop
  | plain {c : Char} : c ≠ '"' → c ≠ '\\' → isControl c = false → Spells [c] c
  | letter {c e : Char} : (c, e) ∈ readLetters → Spells ['\\', e] c
  | unit {c : Char} {s : List Char} : SpellsUnit s c.toNat → Spells ('\\' :: 'u' :: s) c
  | pair {c : Char} {s t : List Char} {high low : Nat} :
    SpellsUnit s high → SpellsUnit t low → isHigh high = true → isLow low = true →
    c.toNat = pair high low → Spells ('\\' :: 'u' :: (s ++ '\\' :: 'u' :: t)) c

theorem exists_digit_of_take? {w v n : Nat} {s r : List Char}
    (h : Hex.take? Hex.either? (w + 1) v s = some (n, r)) :
    ∃ c t d, s = c :: t ∧ Hex.either? c = some d ∧
      Hex.take? Hex.either? w (v * 16 + d) t = some (n, r) := by
  cases s with
  | nil => cases h
  | cons c t =>
    obtain ⟨d, hd, ht⟩ := Option.bind_eq_some_iff.1 h
    exact ⟨c, t, d, rfl, hd, ht⟩

theorem unit?_eq_some_iff {s r : List Char} {n : Nat} :
    unit? s = some (n, r) ↔ ∃ u, SpellsUnit u n ∧ s = 'u' :: (u ++ r) := by
  constructor
  · intro h
    unfold unit? at h
    split at h
    · obtain ⟨a, s, i, rfl, ha, h⟩ := exists_digit_of_take? h
      obtain ⟨b, s, j, rfl, hb, h⟩ := exists_digit_of_take? h
      obtain ⟨c, s, k, rfl, hc, h⟩ := exists_digit_of_take? h
      obtain ⟨d, s, l, rfl, hd, h⟩ := exists_digit_of_take? h
      cases h
      refine ⟨[a, b, c, d], ?_, rfl⟩
      rw [Nat.zero_mul, Nat.zero_add]
      exact .mk ha hb hc hd
    · cases h
  · rintro ⟨u, ⟨ha, hb, hc, hd⟩, rfl⟩
    simp [unit?, Hex.take?, ha, hb, hc, hd]

theorem isHigh_toNat (c : Char) : isHigh c.toNat = false := by
  have hc : c.toNat < 0xd800 ∨ 0xdfff < c.toNat ∧ c.toNat < 0x110000 := c.valid
  simp only [isHigh, Bool.and_eq_false_iff, decide_eq_false_iff_not]
  omega

theorem exists_pair_of_low? {high : Nat} {s r : List Char} {c : Char}
    (h : low? high s = some (c, r)) :
    ∃ p low, SpellsUnit p low ∧ isLow low = true ∧ c.toNat = pair high low ∧
      s = '\\' :: 'u' :: (p ++ r) := by
  unfold low? at h
  split at h
  · obtain ⟨⟨low, t⟩, hu, h⟩ := Option.bind_eq_some_iff.1 h
    obtain ⟨p, hp, hs⟩ := unit?_eq_some_iff.1 hu
    dsimp only at h
    split at h
    · rename_i hlow
      obtain ⟨d, hd, h⟩ := Option.map_eq_some_iff.1 h
      cases h
      exact ⟨p, low, hp, hlow, ofCodePoint?_eq_some_iff.1 hd, by rw [hs]⟩
    · cases h
  · cases h

theorem spells_of_ofCode? {s r : List Char} {c : Char} (h : ofCode? s = some (c, r)) :
    ∃ p, Spells ('\\' :: p) c ∧ s = p ++ r := by
  obtain ⟨⟨n, t⟩, hu, h⟩ := Option.bind_eq_some_iff.1 h
  obtain ⟨u, hspelt, hs⟩ := unit?_eq_some_iff.1 hu
  rw [hs]
  dsimp only at h
  split at h
  · rename_i hhigh
    obtain ⟨p, low, hp, hlow, hpair, rfl⟩ := exists_pair_of_low? h
    exact ⟨_, .pair hspelt hp hhigh hlow hpair, by simp⟩
  · obtain ⟨d, hd, h⟩ := Option.map_eq_some_iff.1 h
    cases h
    rw [← ofCodePoint?_eq_some_iff.1 hd] at hspelt
    exact ⟨'u' :: u, .unit hspelt, rfl⟩

theorem spells_of_token? {s r : List Char} {c : Char}
    (h : Quoting.json.token? s = some (c, r)) : ∃ p, Spells p c ∧ s = p ++ r := by
  rcases Escapes.token?_eq_some_iff.1 h with
    ⟨hb, ⟨hq, hbare⟩, rfl⟩ | ⟨e, he, rfl⟩ | ⟨e, t, -, ht, rfl⟩
  · exact ⟨[c], .plain hq hb (by simpa [Escapes.json] using hbare), rfl⟩
  · exact ⟨['\\', e], .letter (mem_of_lookupSwapped he), rfl⟩
  · obtain ⟨p, hp, hs⟩ := spells_of_ofCode? ht
    exact ⟨'\\' :: p, hp, by rw [hs, List.cons_append]⟩

theorem ofCode?_of_spells {p : List Char} {c : Char} (h : Spells ('\\' :: 'u' :: p) c)
    (r : List Char) : ofCode? ('u' :: (p ++ r)) = some (c, r) := by
  cases h with
  | letter hl =>
    have key : ∀ p ∈ readLetters, p.2 ≠ 'u' := by decide
    exact absurd rfl (key _ hl)
  | unit hs =>
    have hunit : unit? ('u' :: (p ++ r)) = some (c.toNat, r) := unit?_eq_some_iff.2 ⟨p, hs, rfl⟩
    simp [ofCode?, hunit, isHigh_toNat]
  | @pair _ s t high low hs ht hhigh hlow hpair =>
    have hunit : unit? ('u' :: (s ++ '\\' :: 'u' :: (t ++ r))) =
        some (high, '\\' :: 'u' :: (t ++ r)) := unit?_eq_some_iff.2 ⟨s, hs, rfl⟩
    have hsecond : unit? ('u' :: (t ++ r)) = some (low, r) := unit?_eq_some_iff.2 ⟨t, ht, rfl⟩
    simp [ofCode?, hunit, hhigh, low?, hsecond, hlow, ← hpair]

theorem token?_of_spells {p : List Char} {c : Char} (h : Spells p c) (r : List Char) :
    Quoting.json.token? (p ++ r) = some (c, r) := by
  have hu : Escapes.json.ofLetter? 'u' = none := by decide
  cases h with
  | plain hq hb hc => exact Escapes.json.token?_bare hb ⟨hq, by simp [Escapes.json, hc]⟩ r
  | letter hl =>
    have key : ∀ p ∈ readLetters, lookupSwapped readLetters p.2 = some p.1 := by decide
    exact Escapes.json.token?_letter (key _ hl) r
  | unit hs => exact (Escapes.json.token?_code hu _).trans (ofCode?_of_spells (.unit hs) r)
  | pair hs ht hhigh hlow hpair =>
    exact (Escapes.json.token?_code hu _).trans
      (ofCode?_of_spells (.pair hs ht hhigh hlow hpair) r)

/-- The reader of strings takes these spellings of characters and no others. -/
theorem json_goesBy : Quoting.json.GoesBy Spells := by
  intro s c r
  constructor
  · exact spells_of_token?
  · rintro ⟨p, hp, rfl⟩
    exact token?_of_spells hp r

end Escaped
end Lexeme
