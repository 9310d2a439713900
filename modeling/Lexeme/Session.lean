import Lexeme.Registry
import Lexeme.Report
import Lexeme.Text.Shown

/-!
# Requests and sessions

All that a registry can be asked, so that whole runs of calls are lists of requests: also to display
a token, as the name of its tag and its quoted text, and to report it under the name of its tag. A
session has several registries side by side: a shared one that is always there, and others made on
the way and called by name. Each command concerns one of them. What is shown, reported or registered
with no registry at hand goes by the shared one.
-/

namespace Lexeme

def version : String := "0.1.0"

def View.display (name : String) (v : View) : String :=
  name ++ " (" ++ Quoting.shown.quote v.text ++ ")"

namespace Registry

def display (r : Registry) (v : View) : Step String := (r.lookup v.tag).map v.display

theorem display_answer (r : Registry) (v : View) :
    (r.display v).answer = v.display (r.nameOf v.tag) := rfl

def report (r : Registry) (v : View) (source? : Option String) (colour : Bool) : Step String :=
  (r.lookup v.tag).map fun kind => (Report.ofView kind v source?).text colour

inductive Request
  | register (tag : Tag) (name : String)
  | lookup (tag : Tag)
  | contains (tag : Tag)
  | size
  | isEmpty
  | snapshot
  | config
  | display (token : View)
  | report (token : View) (source? : Option String) (colour : Bool)
  deriving DecidableEq, Repr

inductive Reply
  | registered (outcome : Except Refusal (Option String))
  | text (s : String)
  | flag (b : Bool)
  | count (n : Nat)
  | names (entries : List (Tag × String))
  | settings (c : Config)

def observe {α : Type} (r : Registry) (a : α) : Step α := ⟨a, r, []⟩

def answer (r : Registry) : Request → Step Reply
  | .register t name => (r.register t name).map .registered
  | .lookup t => (r.lookup t).map .text
  | .contains t => r.observe (.flag (r.contains t))
  | .size => r.observe (.count r.size)
  | .isEmpty => r.observe (.flag r.isEmpty)
  | .snapshot => r.observe (.names r.snapshot)
  | .config => r.observe (.settings r.config)
  | .display v => (r.display v).map .text
  | .report v source? colour => (r.report v source? colour).map .text

/-- The reply to a request, with the events on the way to it. -/
abbrev Entry := Reply × List Event

def run (r : Registry) : List Request → List Entry × Registry
  | [] => ([], r)
  | q :: qs =>
    let s := r.answer q
    let (entries, last) := s.registry.run qs
    ((s.answer, s.events) :: entries, last)

@[simp] theorem run_nil (r : Registry) : r.run [] = ([], r) := rfl

@[simp] theorem run_cons (r : Registry) (q : Request) (qs : List Request) :
    r.run (q :: qs) =
      (((r.answer q).answer, (r.answer q).events) :: ((r.answer q).registry.run qs).1,
        ((r.answer q).registry.run qs).2) := rfl

@[simp] theorem answer_config (r : Registry) (q : Request) :
    (r.answer q).registry.config = r.config := by
  cases q with
  | register t name => exact r.register_config t name
  | _ => rfl

@[simp] theorem run_config (r : Registry) (qs : List Request) :
    (r.run qs).2.config = r.config := by
  induction qs generalizing r with
  | nil => rfl
  | cons q qs ih => rw [run_cons, ih, answer_config]

theorem run_append (r : Registry) (ps qs : List Request) :
    r.run (ps ++ qs) =
      ((r.run ps).1 ++ ((r.run ps).2.run qs).1, ((r.run ps).2.run qs).2) := by
  induction ps generalizing r with
  | nil => rfl
  | cons p ps ih => simp [ih]

end Registry

/-- Which registry a command concerns. -/
inductive Scope
  | shared
  | named (name : String)
  deriving DecidableEq, Repr

structure Session where
  shared : Registry
  named : Std.ExtTreeMap String Registry

namespace Session

inductive Command
  /-- Makes a registry, in place of any of the same name. -/
  | create (name : String) (config : Config)
  | ask (scope : Scope) (request : Registry.Request)
  /-- Shows a tag, with no registry at hand. -/
  | showTag (tag : Tag)
  /-- Shows a token, with no registry at hand. -/
  | showToken (token : Token)
  /-- Reports on a token, with no registry at hand. -/
  | report (token : View) (source? : Option String) (colour : Bool)
  deriving DecidableEq, Repr

def Command.scope : Command → Scope
  | create name _ => .named name
  | ask scope _ => scope
  | showTag _ | showToken _ | report .. => .shared

def new : Session where
  shared := .new .default
  named := ∅

def find? (s : Session) : Scope → Option Registry
  | .shared => some s.shared
  | .named name => s.named[name]?

def set (s : Session) (scope : Scope) (r : Registry) : Session :=
  match scope with
  | .shared => { s with shared := r }
  | .named name => { s with named := s.named.insert name r }

theorem find?_set (s : Session) (a b : Scope) (r : Registry) :
    (s.set a r).find? b = if a = b then some r else s.find? b := by
  cases a <;> cases b <;> simp [set, find?, Std.ExtTreeMap.getElem?_insert]

@[simp] theorem find?_set_self (s : Session) (a : Scope) (r : Registry) :
    (s.set a r).find? a = some r := by
  rw [find?_set, if_pos rfl]

theorem find?_set_of_ne {a b : Scope} (h : a ≠ b) (s : Session) (r : Registry) :
    (s.set a r).find? b = s.find? b := by
  rw [find?_set, if_neg h]

/-- A registry's entry for a request, and the session after it. There is none if the registry was
never made. -/
def ask (s : Session) (scope : Scope) (request : Registry.Request) :
    Option Registry.Entry × Session :=
  match s.find? scope with
  | none => (none, s)
  | some r =>
    let a := r.answer request
    (some (a.answer, a.events), s.set scope a.registry)

/-- What is reported where a name is registered with no registry at hand. -/
inductive Notice
  | event (e : Event)
  /-- A refusal, which no answer tells of. -/
  | failed (refusal : Refusal)
  deriving DecidableEq, Repr

namespace Notice

def level : Notice → Level
  | event e => e.level
  | failed _ => .error

def message : Notice → String
  | event e => e.message
  | failed _ => "process-wide registration failed"

def err? : Notice → Option String
  | event _ => none
  | failed refusal => some refusal.message

end Notice

/-- Registers a name with no registry at hand. The answer is the name it replaced; a refusal is
reported, and then there is none. -/
def register (s : Session) (t : Tag) (name : String) : Option String × List Notice × Session :=
  let a := s.shared.register t name
  let next := s.set .shared a.registry
  match a.answer with
  | .ok previous? => (previous?, a.events.map .event, next)
  | .error refusal => (none, a.events.map .event ++ [.failed refusal], next)

/-- The entry a command leaves, and the session after it. Making a registry leaves none. -/
def step (s : Session) : Command → Option Registry.Entry × Session
  | .create name config => (none, s.set (.named name) (.new config))
  | .ask scope request => s.ask scope request
  | .showTag t => s.ask .shared (.lookup t)
  | .showToken t => s.ask .shared (.display (.ofToken t))
  | .report v source? colour => s.ask .shared (.report v source? colour)

def run (s : Session) : List Command → List (Option Registry.Entry) × Session
  | [] => ([], s)
  | c :: cs =>
    let (entry, next) := s.step c
    let (entries, last) := next.run cs
    (entry :: entries, last)

@[simp] theorem run_nil (s : Session) : s.run [] = ([], s) := rfl

@[simp] theorem run_cons (s : Session) (c : Command) (cs : List Command) :
    s.run (c :: cs) = ((s.step c).1 :: ((s.step c).2.run cs).1, ((s.step c).2.run cs).2) := rfl

end Session
end Lexeme
