import Lexeme.Text.Braced
import Lexeme.Token
import Std.Data.ExtTreeMap

/-!
# Registries

A registry gives tags their names. It starts with the names of the reserved tags and takes further
ones as its settings allow; no tag ever loses its name. Each call gives an answer, the registry
after it, and the events it reported. The snapshot lists the names that there are, each tag once
and ascending.
-/

namespace Lexeme

/-- What happens when a tag that has a name is given another. -/
inductive RenamePolicy
  /-- The new name stands. -/
  | overwrite
  /-- The new name stands, and a warning is given. -/
  | warn
  /-- The old name stands, and the new one is refused. -/
  | reject
  deriving DecidableEq, Repr

namespace RenamePolicy

def default : RenamePolicy := overwrite

def all : List RenamePolicy := [overwrite, warn, reject]

def name : RenamePolicy → String
  | overwrite => "overwrite"
  | warn => "warn"
  | reject => "reject"

def ofName? (s : String) : Option RenamePolicy := all.find? (·.name = s)

@[simp] theorem ofName?_name (p : RenamePolicy) : ofName? p.name = some p := by
  cases p <;> decide

theorem ofName?_eq_some_iff {s : String} {p : RenamePolicy} : ofName? s = some p ↔ s = p.name := by
  constructor
  · intro h
    have := List.find?_some h
    simp_all
  · rintro rfl
    exact ofName?_name p

end RenamePolicy

structure Config where
  collision : RenamePolicy := .default
  /-- Whether the names of reserved tags stand for good. -/
  protectReserved : Bool := false
  deriving DecidableEq, Repr

namespace Config

def default : Config := {}

def strict : Config := ⟨.reject, true⟩

end Config

inductive Level
  | trace | debug | warn | error
  deriving DecidableEq, Repr

def Level.name : Level → String
  | trace => "TRACE"
  | debug => "DEBUG"
  | warn => "WARN"
  | error => "ERROR"

inductive Event
  /-- A name was asked for where there is none. -/
  | unnamed (tag : Tag)
  | registered (tag : Tag) (name : String)
  | renamed (tag : Tag) (existing name : String)
  | collisionRefused (tag : Tag) (existing name : String)
  | reservedRefused (tag : Tag) (name : String)
  deriving DecidableEq, Repr

namespace Event

def level : Event → Level
  | unnamed .. => .trace
  | registered .. => .debug
  | renamed .. | collisionRefused .. | reservedRefused .. => .warn

def message : Event → String
  | unnamed .. => "no name registered for item type"
  | registered .. => "registered item type"
  | renamed .. => "item type renamed"
  | collisionRefused .. => "rejected item type name collision"
  | reservedRefused .. => "refusing to rename reserved item type"

def tag : Event → Tag
  | unnamed t | registered t _ | renamed t _ _ | collisionRefused t _ _ | reservedRefused t _ => t

/-- The name that the tag was to have. -/
def name? : Event → Option String
  | unnamed _ => none
  | registered _ n | renamed _ _ n | collisionRefused _ _ n | reservedRefused _ n => some n

/-- The name that the tag had. -/
def existing? : Event → Option String
  | renamed _ e _ | collisionRefused _ e _ => some e
  | unnamed _ | registered _ _ | reservedRefused _ _ => none

end Event

inductive Refusal
  | collision (tag : Tag) (existing attempted : String)
  | reserved (tag : Tag) (name : String)
  deriving DecidableEq, Repr

namespace Refusal

def tag : Refusal → Tag
  | collision t _ _ => t
  | reserved t _ => t

def kind : Refusal → String
  | collision .. => "Tag Collision"
  | reserved .. => "Reserved Tag"

def message : Refusal → String
  | collision t existing attempted =>
    "item type " ++ t.digits ++ " is already registered as " ++ Quoting.braced.quote existing
      ++ ", refusing " ++ Quoting.braced.quote attempted
  | reserved t name =>
    "item type " ++ t.digits ++ " is reserved, refusing " ++ Quoting.braced.quote name

end Refusal

abbrev Names := Std.ExtTreeMap Tag String

structure Registry where
  config : Config
  names : Names

namespace Registry

def reservedNames : List (Tag × String) :=
  [(.eof, "EOF"), (.error, "Error"), (.lastReserved, "Special (DefaultMax)")]

def new (config : Config) : Registry where
  config := config
  names := .ofList reservedNames

def contains (r : Registry) (t : Tag) : Bool := r.names.contains t

def size (r : Registry) : Nat := r.names.size

def isEmpty (r : Registry) : Bool := r.names.isEmpty

/-- All names, in ascending order of their tags. -/
def snapshot (r : Registry) : List (Tag × String) := sortBy (fun e => e.1.value) r.names.toList

theorem snapshot_perm (r : Registry) : r.snapshot.Perm r.names.toList := sortBy_perm _ _

theorem mem_snapshot_iff {r : Registry} {t : Tag} {name : String} :
    (t, name) ∈ r.snapshot ↔ r.names[t]? = some name :=
  r.snapshot_perm.mem_iff.trans Std.ExtTreeMap.mem_toList_iff_getElem?_eq_some

@[simp] theorem length_snapshot (r : Registry) : r.snapshot.length = r.size :=
  r.snapshot_perm.length_eq.trans Std.ExtTreeMap.length_toList

/-- No tag stands twice, so the order is strict. -/
theorem pairwise_snapshot (r : Registry) :
    r.snapshot.Pairwise fun a b => a.1.value < b.1.value := by
  have hle : r.snapshot.Pairwise fun a b => a.1.value ≤ b.1.value :=
    pairwise_sortBy (fun e => e.1.value) r.names.toList
  have hdistinct : r.names.toList.Pairwise fun a b => a.1.value ≠ b.1.value :=
    Std.ExtTreeMap.distinct_keys_toList.imp fun hab h => hab (Tag.compare_eq_iff.2 h)
  have hne : r.snapshot.Pairwise fun a b => a.1.value ≠ b.1.value :=
    r.snapshot_perm.symm.pairwise hdistinct Ne.symm
  exact hle.imp₂ (fun _ _ => UInt32.lt_of_le_of_ne) hne

/-- The map lists the names in this order anyway. -/
theorem snapshot_eq_toList (r : Registry) : r.snapshot = r.names.toList := by
  have hsorted : r.names.toList.Pairwise fun a b => compare a.1 b.1 = .lt :=
    Std.ExtTreeMap.ordered_keys_toList
  exact sortBy_of_pairwise (hsorted.imp fun h => UInt32.le_of_lt (Tag.compare_eq_lt_iff.1 h))

theorem contains_eq_isSome (r : Registry) (t : Tag) : r.contains t = r.names[t]?.isSome :=
  Std.ExtTreeMap.contains_eq_isSome_getElem?

/-- What stands for the name of a tag that has none. -/
def fallback (t : Tag) : String := "Unknown Item (" ++ t.digits ++ ")"

def nameOf (r : Registry) (t : Tag) : String := r.names[t]?.getD (fallback t)

structure Step (α : Type) where
  answer : α
  registry : Registry
  events : List Event

def Step.map {α β : Type} (f : α → β) (s : Step α) : Step β := ⟨f s.answer, s.registry, s.events⟩

def lookup (r : Registry) (t : Tag) : Step String where
  answer := r.nameOf t
  registry := r
  events := if r.contains t then [] else [.unnamed t]

/-- Enters a name, whatever the settings. -/
def store (r : Registry) (t : Tag) (name : String) : Registry :=
  { r with names := r.names.insert t name }

/-- Registers a name; the answer is the name it replaced, or why it was refused. -/
def register (r : Registry) (t : Tag) (name : String) : Step (Except Refusal (Option String)) :=
  if r.config.protectReserved && t.isReserved then
    ⟨.error (.reserved t name), r, [.reservedRefused t name]⟩
  else
    match r.names[t]? with
    | none => ⟨.ok none, r.store t name, [.registered t name]⟩
    | some existing =>
      if existing = name then ⟨.ok none, r, []⟩
      else
        match r.config.collision with
        | .overwrite => ⟨.ok (some existing), r.store t name, [.registered t name]⟩
        | .warn =>
          ⟨.ok (some existing), r.store t name, [.renamed t existing name, .registered t name]⟩
        | .reject =>
          ⟨.error (.collision t existing name), r, [.collisionRefused t existing name]⟩

@[simp] theorem lookup_answer (r : Registry) (t : Tag) : (r.lookup t).answer = r.nameOf t := rfl

@[simp] theorem getElem?_names_store (r : Registry) (t u : Tag) (name : String) :
    (r.store t name).names[u]? = if t = u then some name else r.names[u]? := by
  simp [store, Std.ExtTreeMap.getElem?_insert]

@[simp] theorem register_config (r : Registry) (t : Tag) (name : String) :
    (r.register t name).registry.config = r.config := by
  unfold register
  split
  · rfl
  · split
    · rfl
    · split
      · rfl
      · split <;> rfl

end Registry
end Lexeme
