/-!
# Text between double quotes

A quoting writes each character as one piece and reads pieces back. Main statement: reading what
was written gives the text and whatever stood behind the closing quote. Such is any scheme that
writes some characters as a backslash and a letter, others as a backslash and a longer code, and
lets the rest stand for themselves.
-/

namespace Lexeme

/-- One way of writing text between double quotes: a piece for every character, and a reader that
takes one piece off the front. No piece starts with a double quote. -/
structure Quoting where
  piece : Char → List Char
  token? : List Char → Option (Char × List Char)
  token?_piece : ∀ c r, token? (piece c ++ r) = some (c, r)
  token?_quote : ∀ r, token? ('"' :: r) = none
  length_of_token? : ∀ {s c r}, token? s = some (c, r) → r.length < s.length

namespace Quoting

def write (q : Quoting) (s : List Char) : List Char :=
  '"' :: (s.flatMap q.piece ++ ['"'])

def close? : List Char → Option (List Char × List Char)
  | '"' :: r => some ([], r)
  | _ => none

theorem close?_eq_some_iff {s t rest : List Char} :
    close? s = some (t, rest) ↔ t = [] ∧ s = '"' :: rest := by
  constructor
  · intro h
    unfold close? at h
    split at h
    · cases h
      exact ⟨rfl, rfl⟩
    · cases h
  · rintro ⟨rfl, rfl⟩
    rfl

/-- Reads pieces up to the first quote that belongs to none. -/
def body? (q : Quoting) (s : List Char) : Option (List Char × List Char) :=
  match h : q.token? s with
  | some (c, r) =>
    have := q.length_of_token? h
    (q.body? r).map fun (t, rest) => (c :: t, rest)
  | none => close? s
termination_by s.length

def read? (q : Quoting) : List Char → Option (List Char × List Char)
  | '"' :: r => q.body? r
  | _ => none

theorem body?_of_token? {q : Quoting} {s r : List Char} {c : Char} (h : q.token? s = some (c, r)) :
    q.body? s = (q.body? r).map fun (t, rest) => (c :: t, rest) := by
  rw [body?]
  split
  · rename_i h'
    rw [h] at h'
    cases h'
    rfl
  · rename_i h'
    simp [h] at h'

theorem body?_of_token?_none {q : Quoting} {s : List Char} (h : q.token? s = none) :
    q.body? s = close? s := by
  rw [body?]
  split
  · rename_i h'
    simp [h] at h'
  · rfl

theorem body?_quote (q : Quoting) (r : List Char) : q.body? ('"' :: r) = some ([], r) :=
  body?_of_token?_none (q.token?_quote r)

theorem body?_piece (q : Quoting) (c : Char) (r : List Char) :
    q.body? (q.piece c ++ r) = (q.body? r).map fun (t, rest) => (c :: t, rest) :=
  body?_of_token? (q.token?_piece c r)

theorem body?_flatMap (q : Quoting) (s rest : List Char) :
    q.body? (s.flatMap q.piece ++ '"' :: rest) = some (s, rest) := by
  induction s with
  | nil => exact q.body?_quote rest
  | cons c s ih => rw [List.flatMap_cons, List.append_assoc, body?_piece, ih]; rfl

@[simp] theorem read?_write (q : Quoting) (s rest : List Char) :
    q.read? (q.write s ++ rest) = some (s, rest) := by
  simp [write, read?, body?_flatMap]

/-- The same pieces, read only in the form in which they are written. -/
def exact (q : Quoting) : Quoting where
  piece := q.piece
  token? s := (q.token? s).filter fun (c, r) => q.piece c ++ r == s
  token?_piece c r := by simp [q.token?_piece]
  token?_quote r := by simp [q.token?_quote]
  length_of_token? h := q.length_of_token? (Option.filter_eq_some_iff.1 h).1

def quote (q : Quoting) (s : String) : String := String.ofList (q.write s.toList)

@[simp] theorem toList_quote (q : Quoting) (s : String) : (q.quote s).toList = q.write s.toList :=
  String.toList_ofList

end Quoting

/-- The two kinds of escape, how each is read back, and the characters that may stand bare. -/
structure Escapes where
  letter? : Char → Option Char
  ofLetter? : Char → Option Char
  code? : Char → Option (List Char)
  ofCode? : List Char → Option (Char × List Char)
  isBare : Char → Bool
  ofLetter?_letter? : ∀ {c e}, letter? c = some e → ofLetter? e = some c
  ofCode?_code? : ∀ {c e}, code? c = some e → ∀ r, ofCode? (e ++ r) = some (c, r)
  head_code? : ∀ {c e}, code? c = some e → ∃ d t, e = d :: t ∧ ofLetter? d = none
  length_of_ofCode? : ∀ {s c r}, ofCode? s = some (c, r) → r.length < s.length
  bare : ∀ {c}, letter? c = none → code? c = none → isBare c = true ∧ c ≠ '\\' ∧ c ≠ '"'

namespace Escapes

variable (x : Escapes)

def piece (c : Char) : List Char :=
  match x.letter? c with
  | some e => ['\\', e]
  | none =>
    match x.code? c with
    | some e => '\\' :: e
    | none => [c]

/-- Reads what follows a backslash. -/
def escape? : List Char → Option (Char × List Char)
  | [] => none
  | e :: r =>
    match x.ofLetter? e with
    | some c => some (c, r)
    | none => x.ofCode? (e :: r)

def token? : List Char → Option (Char × List Char)
  | [] => none
  | c :: r =>
    if c = '\\' then x.escape? r
    else if c ≠ '"' ∧ x.isBare c then some (c, r)
    else none

theorem token?_bare {c : Char} (hb : c ≠ '\\') (hc : c ≠ '"' ∧ x.isBare c = true)
    (r : List Char) : x.token? (c :: r) = some (c, r) := by
  rw [token?, if_neg hb, if_pos hc]

theorem token?_letter {c e : Char} (h : x.ofLetter? e = some c) (r : List Char) :
    x.token? ('\\' :: e :: r) = some (c, r) := by
  simp [token?, escape?, h]

theorem token?_code {e : Char} (h : x.ofLetter? e = none) (r : List Char) :
    x.token? ('\\' :: e :: r) = x.ofCode? (e :: r) := by
  simp [token?, escape?, h]

theorem token?_piece (c : Char) (r : List Char) : x.token? (x.piece c ++ r) = some (c, r) := by
  unfold piece
  split
  · rename_i e h
    exact x.token?_letter (x.ofLetter?_letter? h) r
  · rename_i hl
    split
    · rename_i e h
      obtain ⟨d, t, rfl, hd⟩ := x.head_code? h
      exact (x.token?_code hd (t ++ r)).trans (x.ofCode?_code? h r)
    · rename_i hc
      obtain ⟨hbare, hb, hq⟩ := x.bare hl hc
      exact x.token?_bare hb ⟨hq, hbare⟩ r

theorem length_of_escape? {s r : List Char} {c : Char} (h : x.escape? s = some (c, r)) :
    r.length < s.length := by
  cases s with
  | nil => simp [escape?] at h
  | cons e s =>
    simp only [escape?] at h
    split at h
    · cases h
      exact Nat.lt_succ_self _
    · exact x.length_of_ofCode? h

theorem length_of_token? {s r : List Char} {c : Char} (h : x.token? s = some (c, r)) :
    r.length < s.length := by
  cases s with
  | nil => simp [token?] at h
  | cons d s =>
    simp only [token?] at h
    rw [List.length_cons, Nat.lt_succ_iff]
    split at h
    · exact Nat.le_of_lt (x.length_of_escape? h)
    · split at h
      · cases h
        exact Nat.le_refl _
      · cases h

def quoting : Quoting where
  piece := x.piece
  token? := x.token?
  token?_piece := x.token?_piece
  token?_quote _ := rfl
  length_of_token? := x.length_of_token?

end Escapes

/-- Looks up a pair of a table by its second entry. -/
def lookupSwapped (table : List (Char × Char)) (e : Char) : Option Char :=
  (table.map Prod.swap).lookup e

theorem mem_of_lookup {table : List (Char × Char)} {c e : Char} (h : table.lookup c = some e) :
    (c, e) ∈ table := by
  obtain ⟨l₁, l₂, rfl, -⟩ := List.lookup_eq_some_iff.1 h
  exact List.mem_append_right l₁ List.mem_cons_self

theorem lookupSwapped_of_lookup {table : List (Char × Char)} {c e : Char}
    (ht : ∀ p ∈ table, lookupSwapped table p.2 = some p.1) (h : table.lookup c = some e) :
    lookupSwapped table e = some c :=
  ht (c, e) (mem_of_lookup h)

theorem mem_of_lookupSwapped {table : List (Char × Char)} {c e : Char}
    (h : lookupSwapped table e = some c) : (c, e) ∈ table := by
  obtain ⟨p, hp, he⟩ := List.mem_map.1 (mem_of_lookup h)
  cases he
  exact hp

end Lexeme
