import Lexeme.Text.Hex
import Lexeme.Text.Quoting

/-!
# Text as it is shown to a reader

Quotes, backslashes and the common control characters have one-letter escapes, the other ASCII
controls two hexadecimal digits, and characters that leave no mark on the page four, or eight if
four are too few for them. All else stands for itself.
-/

namespace Lexeme
namespace Shown

/-- Characters with a one-letter escape, and the letter. -/
def letters : List (Char × Char) :=
  [('"', '"'), ('\\', '\\'), ('\x07', 'a'), ('\x08', 'b'), ('\x0c', 'f'), ('\n', 'n'), ('\r', 'r'),
    ('\t', 't'), ('\x0b', 'v')]

def isAsciiControl (c : Char) : Bool := c.toNat < 0x20 || c.toNat == 0x7f

/-- The upper controls, the blanks other than the space, and marks that take up no room. -/
def blank : Ranges :=
  [(0x80, 0x9f), (0xa0, 0xa0), (0xad, 0xad), (0x1680, 0x1680), (0x2000, 0x200f), (0x2028, 0x202f),
    (0x205f, 0x2064), (0x3000, 0x3000), (0xfeff, 0xfeff)]

theorem lt_of_blank {c : Char} (h : blank.has c = true) : c.toNat < 0x10000 := by
  obtain ⟨r, hr, -, hc⟩ := Ranges.has_iff.1 h
  have : ∀ r ∈ blank, r.2 < 0x10000 := by decide
  exact Nat.lt_of_le_of_lt hc (this r hr)

theorem lt_of_isAsciiControl {c : Char} (h : isAsciiControl c = true) : c.toNat < 0x100 := by
  simp [isAsciiControl] at h
  omega

/-- A code point in four digits, or in eight where it needs more than four. -/
def codePoint (n : Nat) : List Char :=
  if 0xffff < n then 'U' :: Hex.fixed 8 n else 'u' :: Hex.fixed 4 n

def code? (c : Char) : Option (List Char) :=
  if isAsciiControl c then some ('x' :: Hex.fixed 2 c.toNat)
  else if blank.has c then some (codePoint c.toNat)
  else none

/-- No blank needs more than four digits. -/
theorem code?_eq (c : Char) :
    code? c =
      if isAsciiControl c then some ('x' :: Hex.fixed 2 c.toNat)
      else if blank.has c then some ('u' :: Hex.fixed 4 c.toNat)
      else none := by
  unfold code?
  split
  · rfl
  · split
    · rename_i hblank
      have hlt := lt_of_blank hblank
      rw [codePoint, if_neg (by omega)]
    · rfl

def ofDigits? (w : Nat) (r : List Char) : Option (Char × List Char) :=
  (Hex.take? Hex.lower? w 0 r).bind fun (n, r) => (ofCodePoint? n).map fun c => (c, r)

theorem ofDigits?_fixed {w : Nat} {c : Char} (h : c.toNat < Hex.bound w) (r : List Char) :
    ofDigits? w (Hex.fixed w c.toNat ++ r) = some (c, r) := by
  simp [ofDigits?, Hex.take?_fixed_of_lt Hex.lower?_digitChar h]

theorem length_of_ofDigits? {w : Nat} {s r : List Char} {c : Char}
    (h : ofDigits? w s = some (c, r)) : r.length ≤ s.length := by
  obtain ⟨⟨n, t⟩, ht, h⟩ := Option.bind_eq_some_iff.1 h
  obtain ⟨_, -, h⟩ := Option.map_eq_some_iff.1 h
  cases h
  have := Hex.length_of_take? ht
  omega

def ofCode? : List Char → Option (Char × List Char)
  | [] => none
  | e :: r => if e = 'x' then ofDigits? 2 r else if e = 'u' then ofDigits? 4 r else none

theorem ofCode?_code? {c : Char} {e : List Char} (h : code? c = some e) (r : List Char) :
    ofCode? (e ++ r) = some (c, r) := by
  rw [code?_eq] at h
  split at h
  · cases h
    exact ofDigits?_fixed (lt_of_isAsciiControl (by assumption)) r
  · split at h
    · cases h
      exact ofDigits?_fixed (lt_of_blank (by assumption)) r
    · cases h

theorem head_code? {c : Char} {e : List Char} (h : code? c = some e) :
    ∃ d t, e = d :: t ∧ lookupSwapped letters d = none := by
  rw [code?_eq] at h
  split at h
  · cases h
    exact ⟨_, _, rfl, by decide⟩
  · split at h
    · cases h
      exact ⟨_, _, rfl, by decide⟩
    · cases h

theorem length_of_ofCode? {s r : List Char} {c : Char} (h : ofCode? s = some (c, r)) :
    r.length < s.length := by
  cases s with
  | nil => simp [ofCode?] at h
  | cons e s =>
    simp only [ofCode?] at h
    rw [List.length_cons, Nat.lt_succ_iff]
    split at h
    · exact length_of_ofDigits? h
    · split at h
      · exact length_of_ofDigits? h
      · cases h

end Shown

def Escapes.shown : Escapes where
  letter? c := Shown.letters.lookup c
  ofLetter? := lookupSwapped Shown.letters
  code? := Shown.code?
  ofCode? := Shown.ofCode?
  isBare _ := true
  ofLetter?_letter? := lookupSwapped_of_lookup (by decide)
  ofCode?_code? := Shown.ofCode?_code?
  head_code? := Shown.head_code?
  length_of_ofCode? := Shown.length_of_ofCode?
  bare {c} h _ := ⟨rfl, by rintro rfl; revert h; decide, by rintro rfl; revert h; decide⟩

def Quoting.shown : Quoting := Escapes.shown.quoting

end Lexeme
