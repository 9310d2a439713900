import Lexeme.Text.Place
import Lexeme.Token

/-!
# Reports

A report names a fault and its place. If the source is at hand and the place lies in it, the line
and its two neighbours follow, each behind its number, with a caret under the place.

Parts of it may be painted. A style is switched on by a sequence of parameters and switched off by
the reset. A reset inside painted text would end the style early, so the style is switched on again
behind each. Stripping takes every such sequence out again.

In bounded numbers the report is worked out once more, from byte offsets, a list of lines and
numbers of 64 bits. Each step is checked: a cut outside a text or inside one of its characters, a
line that is not in the list, a number out of range and a label too wide for its room are faults.
-/

namespace Lexeme
namespace Ansi

inductive Style
  | boldRed | boldBlue | blue
  deriving DecidableEq, Repr

def escape : Char := '\x1b'

def reset : List Char := [escape, '[', '0', 'm']

namespace Style

def parameters : Style → List Char
  | boldRed => ['1', ';', '3', '1']
  | boldBlue => ['1', ';', '3', '4']
  | blue => ['3', '4']

def opening (s : Style) : List Char := escape :: '[' :: (s.parameters ++ ['m'])

end Style

/-- Puts `opening` behind every reset. -/
def reopen (opening : List Char) : List Char → List Char
  | '\x1b' :: '[' :: '0' :: 'm' :: r => reset ++ opening ++ reopen opening r
  | c :: r => c :: reopen opening r
  | [] => []

def paint (colour : Bool) (style : Style) (s : List Char) : List Char :=
  if colour then style.opening ++ reopen style.opening s ++ reset else s

@[simp] theorem paint_false (style : Style) (s : List Char) : paint false style s = s := rfl

/-- What follows a switching sequence that stands at the front. -/
def afterSequence? : List Char → Option (List Char)
  | '\x1b' :: '[' :: r =>
    match r.dropWhile fun c => c.isDigit || c == ';' with
    | 'm' :: r => some r
    | _ => none
  | _ => none

theorem length_of_afterSequence? {s r : List Char} (h : afterSequence? s = some r) :
    r.length < s.length := by
  unfold afterSequence? at h
  split at h
  · rename_i t
    split at h
    · rename_i heq
      cases h
      have := (List.dropWhile_sublist (l := t) fun c => c.isDigit || c == ';').length_le
      rw [heq] at this
      simp only [List.length_cons] at this ⊢
      omega
    · cases h
  · cases h

/-- Takes every switching sequence out, in one pass from the left. -/
def strip (s : List Char) : List Char :=
  match h : afterSequence? s with
  | some r =>
    have := length_of_afterSequence? h
    strip r
  | none =>
    match s with
    | [] => []
    | c :: r => c :: strip r
termination_by s.length

theorem strip_of_afterSequence? {s r : List Char} (h : afterSequence? s = some r) :
    strip s = strip r := by
  rw [strip]
  split
  · rename_i h'
    rw [h] at h'
    cases h'
    rfl
  · rename_i h'
    simp [h] at h'

theorem strip_cons {c : Char} {r : List Char} (h : afterSequence? (c :: r) = none) :
    strip (c :: r) = c :: strip r := by
  rw [strip]
  split
  · rename_i h'
    simp [h] at h'
  · rfl

theorem strip_opening (style : Style) (r : List Char) : strip (style.opening ++ r) = strip r :=
  strip_of_afterSequence? (by cases style <;> rfl)

theorem strip_reset (r : List Char) : strip (reset ++ r) = strip r :=
  strip_of_afterSequence? rfl

end Ansi

structure Report where
  kind : String
  message : String
  position : UInt64
  line : UInt64
  source? : Option String
  deriving DecidableEq, Repr

namespace Report

open Ansi

def ofView (kind : String) (v : View) (source? : Option String) : Report :=
  ⟨kind, v.text, v.position, v.line, source?⟩

def decimal (n : Nat) : List Char := Nat.toDigits 10 n

def lastLabel : Nat := UInt64.size - 1

/-- The number of the line around a place: the reported one, unless more lines than that end before
the place. -/
def label (line : Nat) (p : Place) : Nat := max line (p.index + 1)

def nextLabel? (label : Nat) : Option Nat := if label < lastLabel then some (label + 1) else none

/-- The room that the highest number takes. -/
def labelWidth (label : Nat) : Nat := (decimal ((nextLabel? label).getD label)).length

def row (colour : Bool) (style : Style) (width label : Nat) (text : List Char) : List Char :=
  ' ' :: ' ' :: (paint colour style ((decimal label).leftpad width ' ')
    ++ ' ' :: (dropReturns text ++ ['\n']))

def caretRow (colour : Bool) (width column : Nat) : List Char :=
  List.replicate (width + 3 + column) ' ' ++ (paint colour .boldRed ['^'] ++ ['\n'])

/-- The line around a place, the caret, and the neighbours that there are. -/
def context (colour : Bool) (line : Nat) (p : Place) : List Char :=
  let label := label line p
  let width := labelWidth label
  let above := p.above?.elim [] (row colour .blue width (label - 1))
  let below :=
    match nextLabel? label, p.below? with
    | some next, some text => row colour .blue width next text
    | _, _ => []
  above ++ row colour .boldBlue width label p.current ++ caretRow colour width p.column ++ below

def header (r : Report) (colour : Bool) : List Char :=
  paint colour .boldRed r.kind.toList ++ ':' :: ' ' :: (r.message.toList ++ ['\n'])

def location (r : Report) (colour : Bool) : List Char :=
  ' ' :: ' ' :: (paint colour .boldBlue ['-', '-', '>'] ++ " line ".toList ++ decimal r.line.toNat
    ++ ", pos ".toList ++ decimal r.position.toNat ++ ['\n'])

/-- The place of the report, if the source is at hand and has it. -/
def place? (r : Report) : Option Place :=
  r.source?.bind fun s => Place.at? s.toList r.position.toNat

def render (r : Report) (colour : Bool) : List Char :=
  r.header colour ++ r.location colour ++ r.place?.elim [] (context colour r.line.toNat)

def text (r : Report) (colour : Bool) : String := String.ofList (r.render colour)

/-- What can go wrong while a report is worked out. -/
inductive Fault
  | cut | line | number | width
  deriving DecidableEq, Repr

namespace Bounded

/-- A number of 64 bits. -/
def word (n : Nat) : Except Fault Nat := if n < UInt64.size then .ok n else .error .number

def add (m n : Nat) : Except Fault Nat := word (m + n)

def sub (m n : Nat) : Except Fault Nat := if n ≤ m then .ok (m - n) else .error .number

def lineAt (lines : List (List Char)) (i : Nat) : Except Fault (List Char) :=
  lines[i]?.elim (.error .line) .ok

def upTo (s : List Char) (offset : Nat) : Except Fault (List Char) :=
  (Place.at? s offset).elim (.error .cut) fun p => .ok p.before.reverse

/-- The text from one offset to another, which must not come before it. -/
def between (s : List Char) (start stop : Nat) : Except Fault (List Char) := do
  let t ← upTo s stop
  (Place.at? t start).elim (.error .cut) fun p => .ok p.after

def lastBreak? : List Char → Option Nat
  | [] => none
  | c :: s => ((lastBreak? s).map (c.utf8Size + ·)).or (if c = '\n' then some 0 else none)

/-- The offset where the line begins that goes on at the end of a text. -/
def lineStart (s : List Char) : Except Fault Nat := (lastBreak? s).elim (.ok 0) (add · 1)

/-- The reported number, if more lines are counted with it than end before the place. -/
def label (line index : Nat) : Except Fault Nat := if index < line then .ok line else add index 1

def nextLabel? (label : Nat) : Option Nat := (add label 1).toOption

def row (colour : Bool) (style : Style) (width label : Nat) (text : List Char) :
    Except Fault (List Char) :=
  if (decimal label).length ≤ width then .ok (Report.row colour style width label text)
  else .error .width

def above (colour : Bool) (width label index : Nat) (lines : List (List Char)) :
    Except Fault (List Char) :=
  if 0 < index ∧ 1 < label then do
    let number ← sub label 1
    let i ← sub index 1
    let text ← lineAt lines i
    row colour .blue width number text
  else .ok []

def current (colour : Bool) (width label index : Nat) (lines : List (List Char)) :
    Except Fault (List Char) := do
  let text ← lineAt lines index
  row colour .boldBlue width label text

def caretRow (colour : Bool) (width column : Nat) : Except Fault (List Char) := do
  let edge ← add width 3
  let padding ← add edge column
  .ok (List.replicate padding ' ' ++ (paint colour .boldRed ['^'] ++ ['\n']))

def below (colour : Bool) (width index : Nat) (next? : Option Nat) (lines : List (List Char)) :
    Except Fault (List Char) := do
  let i ← add index 1
  match next? with
  | some next =>
    if i < lines.length then do
      let text ← lineAt lines i
      row colour .blue width next text
    else .ok []
  | none => .ok []

/-- The rows around an offset, if it lies in the source and between two characters. -/
def context (colour : Bool) (line offset : Nat) (source : List Char) :
    Except Fault (List Char) :=
  if byteLength source < offset ∨ Place.at? source offset = none then .ok []
  else do
    let lines := source.splitOn '\n'
    let before ← upTo source offset
    let index ← word (before.count '\n')
    let start ← lineStart before
    let lead ← between source start offset
    let column ← word lead.length
    let label ← label line index
    let next? := nextLabel? label
    let width := (decimal (next?.getD label)).length
    let above ← above colour width label index lines
    let current ← current colour width label index lines
    let caret ← caretRow colour width column
    let below ← below colour width index next? lines
    .ok (above ++ current ++ caret ++ below)

def render (r : Report) (colour : Bool) : Except Fault (List Char) := do
  let context ← r.source?.elim (.ok []) fun source =>
    context colour r.line.toNat r.position.toNat source.toList
  .ok (r.header colour ++ r.location colour ++ context)

end Bounded
end Report
end Lexeme
