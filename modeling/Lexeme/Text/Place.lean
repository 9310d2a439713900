/-!
# Places in a source

A source is cut in two at a byte offset into its UTF-8 form, which must fall between two characters.
Main statement: the cut exists exactly when some beginning of the source has that many bytes. The
line around the cut and its two neighbours are read off both halves.
-/

namespace Lexeme

/-- What stands before a place, nearest character first, and what stands after it. -/
structure Place where
  before : List Char
  after : List Char
  deriving DecidableEq, Repr

/-- Length in UTF-8. -/
def byteLength : List Char → Nat
  | [] => 0
  | c :: s => c.utf8Size + byteLength s

@[simp] theorem byteLength_nil : byteLength [] = 0 := rfl

@[simp] theorem byteLength_cons (c : Char) (s : List Char) :
    byteLength (c :: s) = c.utf8Size + byteLength s := rfl

@[simp] theorem byteLength_append (s t : List Char) :
    byteLength (s ++ t) = byteLength s + byteLength t := by
  induction s with
  | nil => simp
  | cons c s ih => simp [ih, Nat.add_assoc]

@[simp] theorem byteLength_reverse (s : List Char) : byteLength s.reverse = byteLength s := by
  induction s with
  | nil => rfl
  | cons c s ih => simp [ih, Nat.add_comm]

def secondLine? (s : List Char) : Option (List Char) :=
  match s.dropWhile (· ≠ '\n') with
  | [] => none
  | _ :: r => some (r.takeWhile (· ≠ '\n'))

namespace Place

def source (p : Place) : List Char := p.before.reverse ++ p.after

/-- Walks `offset` bytes on from a place given by its two halves. -/
def walk? : List Char → List Char → Nat → Option Place
  | before, after, 0 => some ⟨before, after⟩
  | _, [], _ + 1 => none
  | before, c :: r, n + 1 =>
    if c.utf8Size ≤ n + 1 then walk? (c :: before) r (n + 1 - c.utf8Size) else none

def at? (source : List Char) (offset : Nat) : Option Place := walk? [] source offset

section

variable {before after : List Char} {n : Nat} {p : Place}

theorem walk?_cons {c : Char} (h : c.utf8Size ≤ n) :
    walk? before (c :: after) n = walk? (c :: before) after (n - c.utf8Size) := by
  cases n with
  | zero => exact absurd c.utf8Size_pos (Nat.not_lt.2 h)
  | succ n => rw [walk?, if_pos h]

theorem walk?_byteLength (before m after : List Char) :
    walk? before (m ++ after) (byteLength m) = some ⟨m.reverse ++ before, after⟩ := by
  induction m generalizing before with
  | nil => rw [byteLength_nil, walk?, List.nil_append, List.reverse_nil, List.nil_append]
  | cons c m ih =>
    rw [List.cons_append, byteLength_cons, walk?_cons (Nat.le_add_right ..),
      Nat.add_sub_cancel_left, ih, List.reverse_cons, List.append_assoc, List.singleton_append]

theorem exists_of_walk? (h : walk? before after n = some p) :
    ∃ m, after = m ++ p.after ∧ p.before = m.reverse ++ before ∧ byteLength m = n := by
  fun_induction walk? before after n with
  | case1 before after =>
    cases h
    exact ⟨[], rfl, rfl, rfl⟩
  | case2 => cases h
  | case3 before c r n hc ih =>
    obtain ⟨m, rfl, hb, hm⟩ := ih h
    refine ⟨c :: m, rfl, ?_, ?_⟩
    · rw [hb, List.reverse_cons, List.append_assoc, List.singleton_append]
    · rw [byteLength_cons, hm]
      omega
  | case4 => cases h

/-- A place is found exactly when its first half has as many bytes as were asked for. -/
theorem at?_eq_some_iff {s : List Char} :
    at? s n = some p ↔ p.source = s ∧ byteLength p.before = n := by
  constructor
  · intro h
    obtain ⟨m, rfl, hb, rfl⟩ := exists_of_walk? h
    rw [List.append_nil] at hb
    rw [source, hb, List.reverse_reverse, byteLength_reverse]
    exact ⟨rfl, rfl⟩
  · rintro ⟨rfl, rfl⟩
    rw [at?, source, ← byteLength_reverse, walk?_byteLength, List.reverse_reverse, List.append_nil]

end

/-- Count of the lines that end before the place. -/
def index (p : Place) : Nat := p.before.count '\n'

/-- The line up to the place. -/
def lead (p : Place) : List Char := (p.before.takeWhile (· ≠ '\n')).reverse

/-- The line from the place on. -/
def trail (p : Place) : List Char := p.after.takeWhile (· ≠ '\n')

def current (p : Place) : List Char := p.lead ++ p.trail

def column (p : Place) : Nat := p.lead.length

/-- The line before, unless the place is on the first. -/
def above? (p : Place) : Option (List Char) := (secondLine? p.before).map List.reverse

/-- The line after, unless the place is on the last. -/
def below? (p : Place) : Option (List Char) := secondLine? p.after

end Place

/-- A line without the carriage returns at its end. -/
def dropReturns (s : List Char) : List Char := (s.reverse.dropWhile (· = '\r')).reverse

end Lexeme
