import Lexeme.Json
import Lexeme.Registry

/-!
# Writing and reading values as documents

A value is read off a document, whose members are taken in the order in which they stand. A value
given as such has its members in ascending order, and each key once. A token is an object of four
members, or a list of their values; other members are passed over, and all four must be there. A
policy is its name, or an object with that name for its one key and nothing for its value. Settings
are an object or a list; what is not there has its default.
-/

namespace Lexeme

/-- What stands in a document. -/
inductive Found
  | null
  | boolean (b : Bool)
  | integer (i : Int)
  | floating (n : Number)
  | string (s : String)
  | array
  | object
  | unpaired
  deriving DecidableEq, Repr

def Json.found : Json → Found
  | null => .null
  | boolean b => .boolean b
  | number n =>
    match n.integer? with
    | some i => .integer i
    | none => .floating n
  | string s => .string s
  | array _ => .array
  | object _ => .object
  | unpaired => .unpaired

def describeInteger (i : Int) : String := "integer `" ++ i.repr ++ "`"

/-- What a message calls it. There is no word for half of a character. -/
def Found.describe? : Found → Option String
  | null => some "null"
  | boolean b => some ("boolean `" ++ (if b then "true" else "false") ++ "`")
  | integer i => some (describeInteger i)
  | floating n => some ("floating point `" ++ String.ofList n.floatingText ++ "`")
  | string s => some ("string " ++ Quoting.braced.quote s)
  | array => some "sequence"
  | object => some "map"
  | unpaired => none

inductive Expected
  | tag | offset | text | flag | token | config | policy | nothing
  deriving DecidableEq, Repr

def Expected.describe : Expected → String
  | tag => "u32"
  | offset => "usize"
  | text => "a string"
  | flag => "a boolean"
  | token => "struct Item"
  | config => "struct RegistryConfig"
  | policy => "string or map"
  | nothing => "unit"

inductive DecodeError
  /-- The text is no document. -/
  | malformed
  | wrongKind (found : Found) (expected : Expected)
  | outOfRange (i : Int) (expected : Expected)
  /-- A list ends after `length` elements and should hold `fields`. -/
  | tooShort (length : Nat) (expected : Expected) (fields : Nat)
  | tooLong (length : Nat)
  | missing (field : String)
  | repeated (field : String)
  | unknownPolicy (name : String)
  /-- An object that names no policy, or more than one. -/
  | notOnePolicy
  deriving DecidableEq, Repr

namespace DecodeError

def listed (names : List String) : String :=
  ", ".intercalate (names.map fun n => "`" ++ n ++ "`")

/-- What is said of a value. Of a text that is no document nothing is said here. -/
def message? : DecodeError → Option String
  | malformed => none
  | wrongKind found expected =>
    found.describe?.map fun what => "invalid type: " ++ what ++ ", expected " ++ expected.describe
  | outOfRange i expected =>
    some ("invalid value: " ++ describeInteger i ++ ", expected " ++ expected.describe)
  | tooShort length expected fields =>
    some ("invalid length " ++ length.repr ++ ", expected " ++ expected.describe ++ " with "
      ++ fields.repr ++ " elements")
  | tooLong length =>
    some ("invalid length " ++ length.repr ++ ", expected fewer elements in array")
  | missing field => some ("missing field `" ++ field ++ "`")
  | repeated field => some ("duplicate field `" ++ field ++ "`")
  | unknownPolicy name =>
    some ("unknown variant `" ++ name ++ "`, expected one of "
      ++ listed (RenamePolicy.all.map (·.name)))
  | notOnePolicy => some "invalid value: map, expected map with a single key"

end DecodeError

class Encode (α : Type) where
  encode : α → Json

export Encode (encode)

class Decode (α : Type) where
  decode : Json → Except DecodeError α

export Decode (decode)

section

variable {α : Type} [Decode α]

def decodeValue (j : Json) : Except DecodeError α := decode j.value

def decodeText (text : String) : Except DecodeError α :=
  match Json.parse? text with
  | none => .error .malformed
  | some j => decode j

end

namespace Json

def natBelow (limit : Nat) (expected : Expected) (j : Json) : Except DecodeError Nat :=
  match j.found with
  | .integer i => if 0 ≤ i ∧ i < limit then .ok i.toNat else .error (.outOfRange i expected)
  | found => .error (.wrongKind found expected)

def offset (j : Json) : Except DecodeError UInt64 :=
  (j.natBelow UInt64.size .offset).map UInt64.ofNat

def text : Json → Except DecodeError String
  | string s => .ok s
  | j => .error (.wrongKind j.found .text)

def flag : Json → Except DecodeError Bool
  | boolean b => .ok b
  | j => .error (.wrongKind j.found .flag)

/-- Fills the place of a field, which must be free. -/
def fill {α : Type} (field : String) (place : Option α) (read : Except DecodeError α) :
    Except DecodeError (Option α) :=
  if place.isSome then .error (.repeated field) else read.map some

/-- Goes over the members of an object and puts each value where it belongs. -/
def putAll {δ : Type} (put : δ → String → Json → Except DecodeError δ) (d : δ)
    (ms : List (String × Json)) : Except DecodeError δ :=
  ms.foldlM (fun d m => put d m.1 m.2) d

section

variable {δ : Type} (put : δ → String → Json → Except DecodeError δ) (d : δ)

@[simp] theorem putAll_nil : putAll put d [] = .ok d := rfl

@[simp] theorem putAll_cons (m : String × Json) (ms : List (String × Json)) :
    putAll put d (m :: ms) = put d m.1 m.2 >>= fun d => putAll put d ms := rfl

end

def require {α : Type} (field : String) (place : Option α) : Except DecodeError α :=
  match place with
  | some a => .ok a
  | none => .error (.missing field)

end Json

instance : Encode Tag where
  encode t := .ofNat t.value.toNat

instance : Decode Tag where
  decode j := (j.natBelow UInt32.size .tag).map fun n => ⟨UInt32.ofNat n⟩

namespace Token

/-- The fields read so far. -/
structure Draft where
  tag : Option Tag := none
  position : Option UInt64 := none
  line : Option UInt64 := none
  text : Option String := none
  deriving DecidableEq, Repr

namespace Draft

def put (d : Draft) (key : String) (j : Json) : Except DecodeError Draft :=
  if key = "item_type" then
    (Json.fill key d.tag (decode j)).map fun tag => { d with tag }
  else if key = "pos" then
    (Json.fill key d.position j.offset).map fun position => { d with position }
  else if key = "line" then
    (Json.fill key d.line j.offset).map fun line => { d with line }
  else if key = "value" then
    (Json.fill key d.text j.text).map fun text => { d with text }
  else .ok d

def finish (d : Draft) : Except DecodeError Token := do
  let tag ← Json.require "item_type" d.tag
  let position ← Json.require "pos" d.position
  let line ← Json.require "line" d.line
  let text ← Json.require "value" d.text
  return ⟨tag, position, line, text⟩

end Draft

/-- The element of a list at a place where there must be one. -/
def element (xs : List Json) (i : Nat) : Except DecodeError Json :=
  match xs[i]? with
  | some j => .ok j
  | none => .error (.tooShort xs.length .token 4)

def ofElements (xs : List Json) : Except DecodeError Token := do
  let tag ← decode (← element xs 0)
  let position ← (← element xs 1).offset
  let line ← (← element xs 2).offset
  let text ← (← element xs 3).text
  if xs.length = 4 then return ⟨tag, position, line, text⟩ else throw (.tooLong xs.length)

def ofJson : Json → Except DecodeError Token
  | .object ms => (Json.putAll Draft.put {} ms).bind Draft.finish
  | .array xs => ofElements xs
  | j => .error (.wrongKind j.found .token)

def toJson (t : Token) : Json :=
  .object
    [("item_type", encode t.tag), ("pos", .ofNat t.position.toNat), ("line", .ofNat t.line.toNat),
      ("value", .string t.text)]

end Token

instance : Encode Token := ⟨Token.toJson⟩

instance : Decode Token := ⟨Token.ofJson⟩

namespace RenamePolicy

def ofJsonName (s : String) : Except DecodeError RenamePolicy :=
  match ofName? s with
  | some p => .ok p
  | none => .error (.unknownPolicy s)

def ofJson : Json → Except DecodeError RenamePolicy
  | .string s => ofJsonName s
  | .object [(key, j)] =>
    match ofJsonName key, j with
    | .ok p, .null => .ok p
    | .ok _, j => .error (.wrongKind j.found .nothing)
    | .error e, _ => .error e
  | .object _ => .error .notOnePolicy
  | j => .error (.wrongKind j.found .policy)

end RenamePolicy

instance : Encode RenamePolicy := ⟨fun p => .string p.name⟩

instance : Decode RenamePolicy := ⟨RenamePolicy.ofJson⟩

namespace Config

/-- The settings read so far. -/
structure Draft where
  collision : Option RenamePolicy := none
  protectReserved : Option Bool := none
  deriving DecidableEq, Repr

namespace Draft

def put (d : Draft) (key : String) (j : Json) : Except DecodeError Draft :=
  if key = "collision" then
    (Json.fill key d.collision (decode j)).map fun collision => { d with collision }
  else if key = "protect_reserved" then
    (Json.fill key d.protectReserved j.flag).map fun protectReserved => { d with protectReserved }
  else .ok d

def finish (d : Draft) : Config where
  collision := d.collision.getD default.collision
  protectReserved := d.protectReserved.getD default.protectReserved

end Draft

def ofElements : List Json → Except DecodeError Config
  | [] => .ok default
  | [a] => do
    let collision ← decode a
    return { default with collision }
  | a :: b :: rest => do
    let collision ← decode a
    let protectReserved ← b.flag
    if rest = [] then return ⟨collision, protectReserved⟩ else throw (.tooLong (rest.length + 2))

def ofJson : Json → Except DecodeError Config
  | .object ms => (Json.putAll Draft.put {} ms).map Draft.finish
  | .array xs => ofElements xs
  | j => .error (.wrongKind j.found .config)

def toJson (c : Config) : Json :=
  .object [("collision", encode c.collision), ("protect_reserved", .boolean c.protectReserved)]

end Config

instance : Encode Config := ⟨Config.toJson⟩

instance : Decode Config := ⟨Config.ofJson⟩

end Lexeme
