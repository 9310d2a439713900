/-!
# Tags and tokens

The category of a token is a number. The lowest three are reserved; every language numbers its own
categories above them. A token is a tag, the byte offset and the line where it starts, and its text.
What a parser sees of any kind of token is a view: the same four values, and whether it ends the
input or reports a fault. It reads a stream of them up to the first that does either.
-/

namespace Lexeme

/-- Ascending order of a number that each element has. -/
def sortBy {α : Type} (key : α → UInt32) (xs : List α) : List α :=
  xs.mergeSort fun a b => key a ≤ key b

section

variable {α : Type} (key : α → UInt32) (xs : List α)

theorem sortBy_perm : (sortBy key xs).Perm xs := List.mergeSort_perm xs _

theorem pairwise_sortBy : (sortBy key xs).Pairwise fun a b => key a ≤ key b := by
  have htrans (a b c : α) (hab : decide (key a ≤ key b) = true)
      (hbc : decide (key b ≤ key c) = true) : decide (key a ≤ key c) = true :=
    decide_eq_true (UInt32.le_trans (of_decide_eq_true hab) (of_decide_eq_true hbc))
  have htotal (a b : α) : (decide (key a ≤ key b) || decide (key b ≤ key a)) = true := by
    simpa using UInt32.le_total (key a) (key b)
  exact (List.pairwise_mergeSort htrans htotal xs).imp of_decide_eq_true

variable {key xs}

theorem sortBy_of_pairwise (h : xs.Pairwise fun a b => key a ≤ key b) : sortBy key xs = xs :=
  List.mergeSort_of_pairwise (h.imp decide_eq_true)

end

structure Tag where
  value : UInt32
  deriving DecidableEq, Repr

namespace Tag

theorem value_inj {a b : Tag} : a.value = b.value ↔ a = b := by
  cases a
  cases b
  simp

/-- The end of the input. -/
def eof : Tag := ⟨0⟩

/-- A fault in the input. -/
def error : Tag := ⟨1⟩

/-- The border of the reserved range. -/
def lastReserved : Tag := ⟨2⟩

instance : Ord Tag where
  compare a b := compare a.value b.value

theorem compare_def (a b : Tag) : compare a b = compare a.value b.value := rfl

theorem compare_eq_lt_iff {a b : Tag} : compare a b = .lt ↔ a.value < b.value := by
  rw [compare_def]
  exact Std.compare_eq_lt

theorem compare_eq_iff {a b : Tag} : compare a b = .eq ↔ a.value = b.value := by
  rw [compare_def]
  exact Std.compare_eq_iff_eq

instance : Std.TransOrd Tag where
  eq_swap := Std.OrientedOrd.eq_swap (α := UInt32)
  isLE_trans := Std.TransOrd.isLE_trans (α := UInt32)

instance : Std.LawfulEqOrd Tag where
  eq_of_compare {a b} h := congrArg Tag.mk (Std.LawfulEqOrd.eq_of_compare (compare_def a b ▸ h))

def isReserved (t : Tag) : Bool := t.value ≤ lastReserved.value

theorem isReserved_iff {t : Tag} : t.isReserved = true ↔ t.value ≤ 2 := decide_eq_true_iff

theorem le_two_iff {t : Tag} : t.value ≤ 2 ↔ t = eof ∨ t = error ∨ t = lastReserved := by
  obtain ⟨v⟩ := t
  simp only [eof, error, lastReserved, mk.injEq, ← UInt32.toNat_inj, UInt32.le_iff_toNat_le]
  simp
  omega

/-- The tag `offset` steps above the reserved range. The first step is taken in any case, and the
last tag stands for all that lie beyond it. -/
def custom (offset : UInt32) : Tag :=
  ⟨UInt32.ofNat (min (lastReserved.value.toNat + max offset.toNat 1) (UInt32.size - 1))⟩

@[simp] theorem toNat_custom (offset : UInt32) :
    (custom offset).value.toNat = min (2 + max offset.toNat 1) (UInt32.size - 1) := by
  have : min (2 + max offset.toNat 1) (UInt32.size - 1) < UInt32.size := by
    rw [UInt32.size]
    omega
  exact UInt32.toNat_ofNat_of_lt this

def sort (ts : List Tag) : List Tag := sortBy value ts

def digits (t : Tag) : String := t.value.toNat.repr

end Tag

structure Token where
  tag : Tag
  position : UInt64
  line : UInt64
  text : String
  deriving DecidableEq, Repr

namespace Token

/-- The end of the input has no text. -/
def eof (position line : UInt64) : Token := ⟨.eof, position, line, ""⟩

/-- A fault has its message for a text. -/
def error (position line : UInt64) (message : String) : Token := ⟨.error, position, line, message⟩

end Token

/-- The six answers a token gives. The last two follow from the tag unless a kind of token has
reasons of its own. -/
structure View where
  tag : Tag
  position : UInt64
  line : UInt64
  text : String
  isEof : Bool := tag = .eof
  isError : Bool := tag = .error
  deriving DecidableEq, Repr

namespace View

def ofToken (t : Token) : View where
  tag := t.tag
  position := t.position
  line := t.line
  text := t.text

/-- A wrapping that hands the four values on: a reference to a token, or a box around one. -/
inductive Wrapper
  | reference | box
  deriving DecidableEq, Repr

/-- A wrapper asks for the four values, and settles the other two answers by the tag. -/
def wrap (_ : Wrapper) (v : View) : View where
  tag := v.tag
  position := v.position
  line := v.line
  text := v.text

/-- Wrappers one around the other, the outermost first. -/
def wrapAll (ws : List Wrapper) (v : View) : View := ws.foldr wrap v

@[simp] theorem wrap_ofToken (w : Wrapper) (t : Token) : (ofToken t).wrap w = ofToken t := rfl

end View

namespace Stream

/-- Why reading stopped. -/
inductive Ending
  | eof
  | error (token : View)
  | exhausted
  deriving DecidableEq, Repr

def ending? (v : View) : Option Ending :=
  if v.isEof then some .eof else if v.isError then some (.error v) else none

/-- The tokens that are read, and why no more are. -/
def read : List View → List View × Ending
  | [] => ([], .exhausted)
  | v :: vs =>
    match ending? v with
    | some e => ([v], e)
    | none => (v :: (read vs).1, (read vs).2)

theorem read_cons (v : View) (vs : List View) :
    read (v :: vs) = (ending? v).elim (v :: (read vs).1, (read vs).2) fun e => ([v], e) := by
  rw [read]
  cases ending? v <;> rfl

/-- What is read is a beginning of the stream. -/
theorem isPrefix_read (vs : List View) : (read vs).1 <+: vs := by
  induction vs with
  | nil => exact List.prefix_rfl
  | cons v vs ih =>
    rw [read_cons]
    cases ending? v with
    | some e => exact ⟨vs, rfl⟩
    | none => exact (List.prefix_cons_inj v).2 ih

end Stream
end Lexeme
