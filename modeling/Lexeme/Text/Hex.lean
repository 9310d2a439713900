/-!
# Code points and their digits

A number is a code point of text when it is in range and no surrogate. A set of characters is a list
of closed ranges of code points. In hexadecimal digits a number is written with a fixed count of
lower-case digits, or with the fewest that show it. Reading either form gives the number back.
-/

namespace Lexeme

/-- The character with a given code point, unless it is a surrogate or out of range. -/
def ofCodePoint? (n : Nat) : Option Char :=
  if n.isValidChar then some (Char.ofNat n) else none

@[simp] theorem ofCodePoint?_toNat (c : Char) : ofCodePoint? c.toNat = some c := by
  rw [ofCodePoint?, if_pos (show c.toNat.isValidChar from c.valid), Char.ofNat_toNat]

theorem ofCodePoint?_eq_some_iff {n : Nat} {c : Char} : ofCodePoint? n = some c ↔ c.toNat = n := by
  constructor
  · intro h
    unfold ofCodePoint? at h
    split at h
    · rename_i hn
      cases h
      rw [Char.ofNat, dif_pos hn]
      rfl
    · cases h
  · rintro rfl
    exact ofCodePoint?_toNat c

abbrev Ranges := List (Nat × Nat)

namespace Ranges

def has (rs : Ranges) (c : Char) : Bool :=
  rs.any fun (lo, hi) => lo ≤ c.toNat && c.toNat ≤ hi

theorem has_iff {rs : Ranges} {c : Char} :
    rs.has c = true ↔ ∃ r ∈ rs, r.1 ≤ c.toNat ∧ c.toNat ≤ r.2 := by
  simp [has]

end Ranges

namespace Hex

def lower? (c : Char) : Option Nat :=
  if '0' ≤ c ∧ c ≤ '9' then some (c.toNat - 48)
  else if 'a' ≤ c ∧ c ≤ 'f' then some (c.toNat - 87)
  else none

def either? (c : Char) : Option Nat :=
  if 'A' ≤ c ∧ c ≤ 'F' then some (c.toNat - 55) else lower? c

theorem lower?_digitChar : ∀ {d : Nat}, d < 16 → lower? d.digitChar = some d := by
  decide

theorem either?_digitChar : ∀ {d : Nat}, d < 16 → either? d.digitChar = some d := by
  decide

theorem eq_digitChar_of_lower? {c : Char} {d : Nat} (h : lower? c = some d) :
    d < 16 ∧ c = d.digitChar := by
  have hc : c.toNat < 103 := by
    unfold lower? at h
    split at h
    · rename_i hd
      exact Nat.lt_of_le_of_lt (show c.toNat ≤ '9'.toNat from hd.2) (by decide)
    · split at h
      · rename_i hd
        exact Nat.lt_of_le_of_lt (show c.toNat ≤ 'f'.toNat from hd.2) (by decide)
      · cases h
  have key : ∀ n < 103, ∀ d ∈ lower? (Char.ofNat n), d < 16 ∧ Char.ofNat n = d.digitChar := by
    decide
  have := key c.toNat hc d
  rw [Char.ofNat_toNat] at this
  exact this h

/-- Count of the numbers that `w` digits can write. -/
def bound : Nat → Nat
  | 0 => 1
  | w + 1 => bound w * 16

theorem bound_pos (w : Nat) : 0 < bound w := by
  induction w with
  | zero => exact Nat.one_pos
  | succ w ih => exact Nat.mul_pos ih (by decide)

theorem bound_add (v w : Nat) : bound (v + w) = bound v * bound w := by
  induction w with
  | zero => exact (Nat.mul_one _).symm
  | succ w ih => rw [← Nat.add_assoc, bound, bound, ih, Nat.mul_assoc]

/-- The last `w` digits of a number. -/
def fixed : Nat → Nat → List Char
  | 0, _ => []
  | w + 1, n => (n / bound w % 16).digitChar :: fixed w n

theorem exists_digitChar_of_mem_fixed {w n : Nat} {c : Char} (h : c ∈ fixed w n) :
    ∃ d < 16, c = d.digitChar := by
  induction w with
  | zero => cases h
  | succ w ih =>
    rcases List.mem_cons.1 h with rfl | h
    · exact ⟨_, Nat.mod_lt _ (by decide), rfl⟩
    · exact ih h

theorem not_mem_fixed {w n : Nat} {c : Char} (h : lower? c = none) : c ∉ fixed w n := by
  intro hc
  obtain ⟨d, hd, rfl⟩ := exists_digitChar_of_mem_fixed hc
  rw [lower?_digitChar hd] at h
  cases h

/-- Reads exactly `w` digits, continuing the value read so far. -/
def take? (digit? : Char → Option Nat) : Nat → Nat → List Char → Option (Nat × List Char)
  | 0, v, s => some (v, s)
  | _ + 1, _, [] => none
  | w + 1, v, c :: r => (digit? c).bind fun d => take? digit? w (v * 16 + d) r

theorem take?_fixed {digit? : Char → Option Nat}
    (hd : ∀ {d : Nat}, d < 16 → digit? d.digitChar = some d) (w v n : Nat) (r : List Char) :
    take? digit? w v (fixed w n ++ r) = some (v * bound w + n % bound w, r) := by
  induction w generalizing v with
  | zero => simp [take?, fixed, bound, Nat.mod_one]
  | succ w ih =>
    have hs : n % (bound w * 16) = n % bound w + bound w * (n / bound w % 16) := Nat.mod_mul
    simp only [take?, fixed, List.cons_append, hd (Nat.mod_lt _ (by decide)), Option.bind_some, ih,
      bound, hs]
    congr 2
    rw [Nat.add_mul, Nat.mul_assoc, Nat.mul_comm 16 (bound w), Nat.mul_comm (n / bound w % 16)]
    omega

/-- A fixed count of digits reads back as the number, if they are enough for it. -/
theorem take?_fixed_of_lt {digit? : Char → Option Nat}
    (hd : ∀ {d : Nat}, d < 16 → digit? d.digitChar = some d) {w n : Nat} (h : n < bound w)
    (r : List Char) : take? digit? w 0 (fixed w n ++ r) = some (n, r) := by
  rw [take?_fixed hd, Nat.zero_mul, Nat.zero_add, Nat.mod_eq_of_lt h]

theorem length_of_take? {digit? : Char → Option Nat} {w v n : Nat} {s r : List Char}
    (h : take? digit? w v s = some (n, r)) : s.length = w + r.length := by
  induction w generalizing v s with
  | zero => simp_all [take?]
  | succ w ih =>
    cases s with
    | nil => simp [take?] at h
    | cons c s =>
      obtain ⟨d, -, hd⟩ := Option.bind_eq_some_iff.1 h
      have := ih hd
      simp only [List.length_cons]
      omega

theorem fixed_congr {w m n : Nat} (h : m % bound w = n % bound w) : fixed w m = fixed w n := by
  induction w with
  | zero => rfl
  | succ w ih =>
    have hd : m / bound w % 16 = n / bound w % 16 := by
      rw [← Nat.mod_mul_right_div_self m, ← Nat.mod_mul_right_div_self n, ← bound, h]
    have hm : m % bound w = n % bound w := by
      rw [← Nat.mod_mul_right_mod m (bound w) 16, ← Nat.mod_mul_right_mod n (bound w) 16,
        ← bound, h]
    rw [fixed, fixed, hd, ih hm]

/-- What is read off the front is the fixed form of the number. -/
theorem exists_fixed_of_take? {w v n : Nat} {s r : List Char}
    (h : take? lower? w v s = some (n, r)) :
    ∃ m < bound w, n = v * bound w + m ∧ s = fixed w m ++ r := by
  induction w generalizing v s with
  | zero =>
    cases h
    exact ⟨0, by decide, by simp [bound], rfl⟩
  | succ w ih =>
    cases s with
    | nil => simp [take?] at h
    | cons c s =>
      obtain ⟨d, hd, ht⟩ := Option.bind_eq_some_iff.1 h
      obtain ⟨hlt, rfl⟩ := eq_digitChar_of_lower? hd
      obtain ⟨m, hm, rfl, rfl⟩ := ih ht
      have hdiv : (bound w * d + m) / bound w = d := by
        rw [Nat.mul_add_div (bound_pos w), Nat.div_eq_of_lt hm, Nat.add_zero]
      have hle : bound w * (d + 1) ≤ bound w * 16 := Nat.mul_le_mul_left _ hlt
      refine ⟨bound w * d + m, ?_, ?_, ?_⟩
      · rw [bound]
        rw [Nat.mul_add] at hle
        omega
      · rw [bound, Nat.add_mul, Nat.mul_assoc, Nat.mul_comm 16, Nat.mul_comm d,
          Nat.add_assoc]
      · rw [fixed, hdiv, Nat.mod_eq_of_lt hlt, List.cons_append,
          fixed_congr (Nat.mul_add_mod (bound w) d m)]

/-- Reads digits up to a closing brace, continuing the value read so far. -/
def close? : Nat → List Char → Option (Nat × List Char)
  | _, [] => none
  | v, c :: r => if c = '\x7d' then some (v, r) else (lower? c).bind fun d => close? (v * 16 + d) r

theorem close?_digitChar {d : Nat} (hd : d < 16) (v : Nat) (r : List Char) :
    close? v (d.digitChar :: r) = close? (v * 16 + d) r := by
  have hb : ∀ {d : Nat}, d < 16 → d.digitChar ≠ '\x7d' := by decide
  rw [close?, if_neg (hb hd), lower?_digitChar hd, Option.bind_some]

theorem close?_toDigits_append (n v : Nat) (t : List Char) :
    close? v (Nat.toDigits 16 n ++ t) = close? (v * bound (Nat.toDigits 16 n).length + n) t := by
  induction n using Nat.strongRecOn generalizing v t with
  | ind n ih =>
    by_cases hn : n < 16
    · simp [Nat.toDigits_of_lt_base hn, close?_digitChar hn, bound]
    · rw [Nat.toDigits_of_base_le (by decide) (Nat.le_of_not_lt hn), List.append_assoc,
        ih _ (Nat.div_lt_self (by omega) (by decide)), List.singleton_append,
        close?_digitChar (Nat.mod_lt _ (by decide)), List.length_append, bound_add]
      congr 1
      have := Nat.div_add_mod n 16
      simp only [List.length_singleton, bound, Nat.one_mul]
      rw [← Nat.mul_assoc]
      omega

/-- The fewest digits, closed by a brace, read back as the number. -/
theorem close?_toDigits (n : Nat) (r : List Char) :
    close? 0 (Nat.toDigits 16 n ++ '\x7d' :: r) = some (n, r) := by
  simp [close?_toDigits_append, close?]

theorem length_of_close? {v n : Nat} {s r : List Char} (h : close? v s = some (n, r)) :
    r.length < s.length := by
  induction s generalizing v with
  | nil => simp [close?] at h
  | cons c s ih =>
    rw [close?] at h
    split at h
    · simp_all
    · obtain ⟨d, -, hd⟩ := Option.bind_eq_some_iff.1 h
      have := ih hd
      simp only [List.length_cons]
      omega

end Hex
end Lexeme
