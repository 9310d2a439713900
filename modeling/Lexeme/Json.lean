import Lexeme.Json.Number
import Lexeme.Text.Hex
import Lexeme.Text.Quoting
import Std.Data.ExtTreeMap

/-!
# Documents

A document keeps the members of its objects in the order in which they stand, and each as often as
it stands there. As a value it has each key once, with the last member of that key, in ascending
order. What is well formed but holds half of a character is kept as such, without its content.

In the text of a document quotes, backslashes and five control characters have one-letter escapes,
the other characters below the space four hexadecimal digits. A reader takes the slash escaped too,
digits of either case, and a character beyond the first plane as a pair of surrogates. A surrogate
by itself is no text; read unit by unit, it passes for a character that cannot be shown. Otherwise
the grammar is strict: no comments, no commas at the end of a list, and blanks only between the
parts of a document. None are written.
-/

namespace Lexeme

inductive Json
  | null
  | boolean (b : Bool)
  | number (n : Number)
  | string (s : String)
  | array (elements : List Json)
  | object (members : List (String × Json))
  /-- A string, or an object with a key, in which half of a surrogate pair stands by itself. No text
  stands for it, so it can only be passed over. -/
  | unpaired
  deriving Repr

namespace Json

/-- Keys once each and ascending, the last member of a key standing for all. -/
def lastOfEach (members : List (String × Json)) : List (String × Json) :=
  (Std.ExtTreeMap.ofList members).toList

mutual

def value : Json → Json
  | null => null
  | boolean b => boolean b
  | number n => number n
  | string s => string s
  | array xs => array (values xs)
  | object ms => object (lastOfEach (memberValues ms))
  | unpaired => unpaired

def values : List Json → List Json
  | [] => []
  | x :: xs => value x :: values xs

def memberValues : List (String × Json) → List (String × Json)
  | [] => []
  | (k, v) :: ms => (k, value v) :: memberValues ms

end

@[simp] theorem values_eq_map (xs : List Json) : values xs = xs.map value := by
  induction xs with
  | nil => rfl
  | cons x xs ih => simp [values, ih]

@[simp] theorem memberValues_eq_map (ms : List (String × Json)) :
    memberValues ms = ms.map fun m => (m.1, m.2.value) := by
  induction ms with
  | nil => rfl
  | cons m ms ih => simp [memberValues, ih]

def ofNat (n : Nat) : Json := number (.ofNat n)

def get? (key : String) : Json → Option Json
  | object ms => ms.lookup key
  | _ => none

end Json

namespace Escaped

def letters : List (Char × Char) :=
  [('"', '"'), ('\\', '\\'), ('\x08', 'b'), ('\x0c', 'f'), ('\n', 'n'), ('\r', 'r'), ('\t', 't')]

def readLetters : List (Char × Char) := letters ++ [('/', '/')]

def isControl (c : Char) : Bool := c.toNat < 0x20

def code? (c : Char) : Option (List Char) :=
  if isControl c then some ('u' :: Hex.fixed 4 c.toNat) else none

def isHigh (n : Nat) : Bool := 0xd800 ≤ n && n ≤ 0xdbff

def isLow (n : Nat) : Bool := 0xdc00 ≤ n && n ≤ 0xdfff

def pair (high low : Nat) : Nat := 0x10000 + (high - 0xd800) * 0x400 + (low - 0xdc00)

def unit? : List Char → Option (Nat × List Char)
  | 'u' :: r => Hex.take? Hex.either? 4 0 r
  | _ => none

/-- Reads the second half of a pair. -/
def low? (high : Nat) : List Char → Option (Char × List Char)
  | '\\' :: r =>
    (unit? r).bind fun (low, r) =>
      if isLow low then (ofCodePoint? (pair high low)).map fun c => (c, r) else none
  | _ => none

def ofCode? (s : List Char) : Option (Char × List Char) :=
  (unit? s).bind fun (n, r) =>
    if isHigh n then low? n r else (ofCodePoint? n).map fun c => (c, r)

theorem unit?_code? {c : Char} {e : List Char} (h : code? c = some e) (r : List Char) :
    c.toNat < 0x20 ∧ unit? (e ++ r) = some (c.toNat, r) := by
  unfold code? at h
  split at h
  · rename_i hc
    cases h
    have hlt : c.toNat < 0x20 := by simpa [isControl] using hc
    have hn : c.toNat < Hex.bound 4 := Nat.lt_trans hlt (by decide)
    exact ⟨hlt, Hex.take?_fixed_of_lt Hex.either?_digitChar hn r⟩
  · cases h

theorem ofCode?_code? {c : Char} {e : List Char} (h : code? c = some e) (r : List Char) :
    ofCode? (e ++ r) = some (c, r) := by
  obtain ⟨hlt, hunit⟩ := unit?_code? h r
  have hhigh : isHigh c.toNat = false := by
    simp [isHigh]
    omega
  simp [ofCode?, hunit, hhigh]

theorem head_code? {c : Char} {e : List Char} (h : code? c = some e) :
    ∃ d t, e = d :: t ∧ lookupSwapped readLetters d = none := by
  unfold code? at h
  split at h
  · cases h
    exact ⟨_, _, rfl, by decide⟩
  · cases h

theorem length_of_unit? {n : Nat} {s r : List Char} (h : unit? s = some (n, r)) :
    r.length < s.length := by
  unfold unit? at h
  split at h
  · have := Hex.length_of_take? h
    simp only [List.length_cons]
    omega
  · cases h

theorem length_of_low? {n : Nat} {s r : List Char} {c : Char} (h : low? n s = some (c, r)) :
    r.length < s.length := by
  unfold low? at h
  split at h
  · obtain ⟨⟨m, t⟩, ht, h⟩ := Option.bind_eq_some_iff.1 h
    have := length_of_unit? ht
    dsimp only at h
    split at h
    · obtain ⟨_, -, h⟩ := Option.map_eq_some_iff.1 h
      cases h
      exact Nat.lt_succ_of_lt this
    · cases h
  · cases h

theorem length_of_ofCode? {s r : List Char} {c : Char} (h : ofCode? s = some (c, r)) :
    r.length < s.length := by
  obtain ⟨⟨n, t⟩, ht, h⟩ := Option.bind_eq_some_iff.1 h
  have := length_of_unit? ht
  dsimp only at h
  split at h
  · exact Nat.lt_trans (length_of_low? h) this
  · obtain ⟨_, -, h⟩ := Option.map_eq_some_iff.1 h
    cases h
    exact this

/-- Reads one unit, be it a character or half of one. -/
def ofUnit? (s : List Char) : Option (Char × List Char) :=
  (unit? s).map fun (n, r) => ((ofCodePoint? n).getD '\ufffd', r)

theorem ofUnit?_code? {c : Char} {e : List Char} (h : code? c = some e) (r : List Char) :
    ofUnit? (e ++ r) = some (c, r) := by
  simp [ofUnit?, (unit?_code? h r).2]

theorem length_of_ofUnit? {s r : List Char} {c : Char} (h : ofUnit? s = some (c, r)) :
    r.length < s.length := by
  obtain ⟨⟨n, t⟩, ht, h⟩ := Option.map_eq_some_iff.1 h
  cases h
  exact length_of_unit? ht

end Escaped

def Escapes.json : Escapes where
  letter? c := Escaped.letters.lookup c
  ofLetter? := lookupSwapped Escaped.readLetters
  code? := Escaped.code?
  ofCode? := Escaped.ofCode?
  isBare c := !Escaped.isControl c
  ofLetter?_letter? {c e} h := by
    have key : ∀ p ∈ Escaped.letters, lookupSwapped Escaped.readLetters p.2 = some p.1 := by decide
    exact key (c, e) (mem_of_lookup h)
  ofCode?_code? := Escaped.ofCode?_code?
  head_code? := Escaped.head_code?
  length_of_ofCode? := Escaped.length_of_ofCode?
  bare {c} h hc := by
    refine ⟨?_, by rintro rfl; revert h; decide, by rintro rfl; revert h; decide⟩
    unfold Escaped.code? at hc
    split at hc
    · cases hc
    · simp_all

/-- The same escapes, read unit by unit. -/
def Escapes.unitwise : Escapes :=
  { Escapes.json with
    ofCode? := Escaped.ofUnit?
    ofCode?_code? := Escaped.ofUnit?_code?
    length_of_ofCode? := Escaped.length_of_ofUnit? }

def Quoting.json : Quoting := Escapes.json.quoting

def Quoting.unitwise : Quoting := Escapes.unitwise.quoting

namespace Json

mutual

def print : Json → List Char
  | null => "null".toList
  | boolean b => (if b then "true" else "false").toList
  | number n => n.text
  | string s => Quoting.json.write s.toList
  | array [] => ['[', ']']
  | array (x :: xs) => '[' :: (print x ++ printElements xs)
  | object [] => ['\x7b', '\x7d']
  | object ((k, v) :: ms) =>
    '\x7b' :: (Quoting.json.write k.toList ++ ':' :: (print v ++ printMembers ms))
  | unpaired => '"' :: '\\' :: 'u' :: (Hex.fixed 4 0xd800 ++ ['"'])

def printElements : List Json → List Char
  | [] => [']']
  | x :: xs => ',' :: (print x ++ printElements xs)

def printMembers : List (String × Json) → List Char
  | [] => ['\x7d']
  | (k, v) :: ms => ',' :: (Quoting.json.write k.toList ++ ':' :: (print v ++ printMembers ms))

end

def compact (j : Json) : String := String.ofList j.print

def isBlank (c : Char) : Bool := c = ' ' || c = '\t' || c = '\n' || c = '\r'

def skipBlanks (s : List Char) : List Char := s.dropWhile isBlank

def word? : List Char → List Char → Option (List Char)
  | [], s => some s
  | _ :: _, [] => none
  | c :: w, d :: s => if c = d then word? w s else none

/-- Reads a string. There is no text for one with half of a surrogate pair. -/
def string? (s : List Char) : Option (Option String × List Char) :=
  match Quoting.json.read? s with
  | some (t, r) => some (some (String.ofList t), r)
  | none => (Quoting.unitwise.read? s).map fun (_, r) => (none, r)

/-- A member, if there is text for its key. -/
def keyed? : Option String × Json → Option (String × Json)
  | (some key, v) => some (key, v)
  | (none, _) => none

def ofMembers (ms : List (Option String × Json)) : Json := (ms.mapM keyed?).elim unpaired object

def scalar? (s : List Char) : Option (Json × List Char) :=
  match s with
  | '"' :: _ => (string? s).map fun (t?, r) => (t?.elim unpaired string, r)
  | 'n' :: _ => (word? "null".toList s).map fun r => (null, r)
  | 't' :: _ => (word? "true".toList s).map fun r => (boolean true, r)
  | 'f' :: _ => (word? "false".toList s).map fun r => (boolean false, r)
  | _ => (Number.read? s).map fun (n, r) => (number n, r)

mutual

/-- Reads a value, going at most `fuel` steps deep. -/
def read? : Nat → List Char → Option (Json × List Char)
  | 0, _ => none
  | fuel + 1, s =>
    match skipBlanks s with
    | '[' :: r =>
      match skipBlanks r with
      | ']' :: r => some (array [], r)
      | r => (elements? fuel r).map fun (xs, r) => (array xs, r)
    | '\x7b' :: r =>
      match skipBlanks r with
      | '\x7d' :: r => some (object [], r)
      | r => (members? fuel r).map fun (ms, r) => (ofMembers ms, r)
    | s => scalar? s

/-- Reads one or more elements and the closing bracket. -/
def elements? : Nat → List Char → Option (List Json × List Char)
  | 0, _ => none
  | fuel + 1, s =>
    (read? fuel s).bind fun (x, r) =>
      match skipBlanks r with
      | ',' :: r => (elements? fuel r).map fun (xs, r) => (x :: xs, r)
      | ']' :: r => some ([x], r)
      | _ => none

/-- Reads one or more members and the closing brace. -/
def members? : Nat → List Char → Option (List (Option String × Json) × List Char)
  | 0, _ => none
  | fuel + 1, s =>
    (string? (skipBlanks s)).bind fun (k, r) =>
      match skipBlanks r with
      | ':' :: r =>
        (read? fuel r).bind fun (v, r) =>
          match skipBlanks r with
          | ',' :: r => (members? fuel r).map fun (ms, r) => ((k, v) :: ms, r)
          | '\x7d' :: r => some ([(k, v)], r)
          | _ => none
      | _ => none

end

/-- Each bracket takes two steps at most. -/
def fuelFor (s : List Char) : Nat := 2 * s.length + 1

/-- Reads a text that holds one document and nothing else. -/
def parse? (text : String) : Option Json :=
  (read? (fuelFor text.toList) text.toList).bind fun (j, r) =>
    if skipBlanks r = [] then some j else none

end Json
end Lexeme
