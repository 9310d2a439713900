import Lexeme.Proofs.Registry.Registration

/-!
# Registries of a session

A command reads and changes the registry it concerns and no other, whichever way it comes to ask
for a name. Main statement: what a session makes of the commands for one registry is what it makes
of them alone; and as long as the registry is not made anew, it is what the registry makes of their
requests by itself. The shared registry, which is never made anew, refuses no name.
-/

namespace Lexeme
namespace Session

/-- What a command asks for, unless it makes a registry. -/
def Command.request? : Command → Option Registry.Request
  | create .. => none
  | ask _ request => some request
  | showTag t => some (.lookup t)
  | showToken t => some (.display (.ofToken t))
  | report v source? colour => some (.report v source? colour)

def transcript (s : Session) (cs : List Command) : List (Command × Option Registry.Entry) :=
  cs.zip (s.run cs).1

@[simp] theorem transcript_nil (s : Session) : s.transcript [] = [] := rfl

@[simp] theorem transcript_cons (s : Session) (c : Command) (cs : List Command) :
    s.transcript (c :: cs) = (c, (s.step c).1) :: (s.step c).2.transcript cs := rfl

section

variable {s s' : Session} {c : Command} {scope : Scope} {request : Registry.Request}

theorem step_eq_ask (h : c.request? = some request) : s.step c = s.ask c.scope request := by
  cases c with
  | create => cases h
  | ask | showTag | showToken | report =>
    cases h
    rfl

theorem exists_create (h : c.request? = none) :
    ∃ name config, c = .create name config := by
  cases c with
  | create name config => exact ⟨name, config, rfl⟩
  | ask | showTag | showToken | report => cases h

theorem fst_ask (s : Session) (scope : Scope) (request : Registry.Request) :
    (s.ask scope request).1 =
      (s.find? scope).map fun r => ((r.answer request).answer, (r.answer request).events) := by
  unfold ask
  cases s.find? scope <;> rfl

theorem find?_ask (s : Session) (a b : Scope) (request : Registry.Request) :
    (s.ask a request).2.find? b =
      if a = b then (s.find? a).map fun r => (r.answer request).registry else s.find? b := by
  unfold ask
  cases hr : s.find? a with
  | none =>
    by_cases h : a = b
    · subst h
      simp [hr]
    · simp [h]
  | some r => exact find?_set s a b _

theorem find?_step_of_ne (h : c.scope ≠ scope) : (s.step c).2.find? scope = s.find? scope := by
  cases hq : c.request? with
  | none =>
    obtain ⟨name, config, rfl⟩ := exists_create hq
    exact find?_set_of_ne h s _
  | some request => rw [step_eq_ask hq, find?_ask, if_neg h]

theorem step_congr (h : s.find? c.scope = s'.find? c.scope) :
    (s.step c).1 = (s'.step c).1 ∧
      (s.step c).2.find? c.scope = (s'.step c).2.find? c.scope := by
  cases hq : c.request? with
  | none =>
    obtain ⟨name, config, rfl⟩ := exists_create hq
    have hmade (s : Session) : (s.step (.create name config)).2.find? (.named name) =
        some (.new config) := s.find?_set_self (.named name) (.new config)
    exact ⟨rfl, (hmade s).trans (hmade s').symm⟩
  | some request =>
    rw [step_eq_ask hq, step_eq_ask hq, fst_ask, fst_ask, find?_ask, find?_ask, if_pos rfl,
      if_pos rfl, h]
    exact ⟨rfl, rfl⟩

end

section

variable {s s' : Session} {scope : Scope} {r : Registry}

/-- Sessions that have the same registry in one place make the same of its commands, if one of them
has others in between. -/
theorem run_congr (cs : List Command) (h : s.find? scope = s'.find? scope) :
    let own := cs.filter fun c => c.scope = scope
    (s.transcript cs).filter (fun e => e.1.scope = scope) = s'.transcript own ∧
      (s.run cs).2.find? scope = (s'.run own).2.find? scope := by
  induction cs generalizing s s' with
  | nil => exact ⟨rfl, h⟩
  | cons c cs ih =>
    by_cases hc : c.scope = scope
    · subst hc
      obtain ⟨hentry, hnext⟩ := step_congr h
      obtain ⟨hentries, hlast⟩ := ih hnext
      simp [hentry, hentries, hlast]
    · have hnext : (s.step c).2.find? scope = s'.find? scope := (find?_step_of_ne hc).trans h
      obtain ⟨hentries, hlast⟩ := ih hnext
      simp [hc, hentries, hlast]

theorem run_of_find? {cs : List Command} (h : s.find? scope = some r)
    (hcs : ∀ c ∈ cs, c.scope = scope ∧ c.request? ≠ none) :
    (s.run cs).1 = (r.run (cs.filterMap Command.request?)).1.map some ∧
      (s.run cs).2.find? scope = some (r.run (cs.filterMap Command.request?)).2 := by
  induction cs generalizing s r with
  | nil => exact ⟨rfl, h⟩
  | cons c cs ih =>
    obtain ⟨⟨rfl, hc⟩, hrest⟩ := List.forall_mem_cons.1 hcs
    obtain ⟨request, hq⟩ := Option.ne_none_iff_exists'.1 hc
    have hentry : (s.step c).1 = some ((r.answer request).answer, (r.answer request).events) := by
      rw [step_eq_ask hq, fst_ask, h, Option.map_some]
    have hnext : (s.step c).2.find? c.scope = some (r.answer request).registry := by
      rw [step_eq_ask hq, find?_ask, if_pos rfl, h, Option.map_some]
    obtain ⟨hentries, hlast⟩ := ih hnext hrest
    rw [run_cons, List.filterMap_cons_some hq, Registry.run_cons, hentries, hlast, hentry]
    exact ⟨rfl, rfl⟩

theorem request?_ne_none_of_shared {c : Command} (h : c.scope = .shared) :
    c.request? ≠ none := by
  intro hq
  obtain ⟨name, config, rfl⟩ := exists_create hq
  cases h

theorem shared_run (s : Session) (cs : List Command) :
    (s.run cs).2.shared =
      (s.shared.run ((cs.filter fun c => c.scope = .shared).filterMap Command.request?)).2 := by
  have hshared : s.find? .shared = some s.shared := rfl
  have hown : ∀ c ∈ cs.filter (fun c => c.scope = .shared),
      c.scope = .shared ∧ c.request? ≠ none := by
    intro c hc
    have hscope : c.scope = .shared := by simpa using (List.mem_filter.1 hc).2
    exact ⟨hscope, request?_ne_none_of_shared hscope⟩
  have hrun : (s.run cs).2.find? .shared = _ :=
    (run_congr cs rfl).2.trans (run_of_find? hshared hown).2
  exact Option.some.inj hrun

/-- A name that is registered with no registry at hand goes to the shared registry. Whatever was
done before, that takes it, so that there is an answer and no failure to report. -/
theorem register_run_new (cs : List Command) (t : Tag) (name : String) :
    let s := (new.run cs).2
    ∃ previous? events next,
      s.step (.ask .shared (.register t name)) =
        (some (.registered (.ok previous?), events), next) ∧
      s.register t name = (previous?, events.map .event, next) := by
  intro s
  have hconfig : s.shared.config = .default := by
    rw [shared_run, Registry.run_config]
    rfl
  obtain ⟨previous?, hanswer⟩ : ∃ previous?, (s.shared.register t name).answer = .ok previous? :=
    Registry.exists_register_eq_ok hconfig
  have hstep : s.step (.ask .shared (.register t name)) =
      (some (.registered (s.shared.register t name).answer, (s.shared.register t name).events),
        s.set .shared (s.shared.register t name).registry) := rfl
  rw [hstep, register, hanswer]
  exact ⟨previous?, _, _, rfl, rfl⟩

end

/-- What comes of the commands for one registry, in any session, and what becomes of it are the same
as when these commands alone are given. As long as none of them makes it anew, both are what the
registry answers to their requests by itself. -/
theorem registries_apart (s : Session) (cs : List Command) (scope : Scope) :
    let own := cs.filter fun c => c.scope = scope
    (s.transcript cs).filter (fun e => e.1.scope = scope) = s.transcript own ∧
    (s.run cs).2.find? scope = (s.run own).2.find? scope ∧
    ∀ r, s.find? scope = some r → (∀ name config, .create name config ∉ own) →
      (s.run own).1 = (r.run (own.filterMap Command.request?)).1.map some ∧
      (s.run own).2.find? scope = some (r.run (own.filterMap Command.request?)).2 := by
  intro own
  obtain ⟨hentries, hlast⟩ := run_congr cs (rfl : s.find? scope = s.find? scope)
  refine ⟨hentries, hlast, fun r hr hcreate => run_of_find? hr fun c hc => ?_⟩
  refine ⟨by simpa using (List.mem_filter.1 hc).2, fun hq => ?_⟩
  obtain ⟨name, config, rfl⟩ := exists_create hq
  exact hcreate name config hc

/-- Two names for one tag, the second of them given in between to the shared registry. -/
theorem registries_apart_local :
    let s := (new.run [.create "local" .strict]).2
    let cs : List Command :=
      [.ask (.named "local") (.register ⟨5⟩ "word"), .ask .shared (.register ⟨5⟩ "name"),
        .showTag ⟨5⟩, .ask (.named "local") (.lookup ⟨5⟩)]
    let own := cs.filter fun c => c.scope = .named "local"
    s.find? (.named "local") = some (.new .strict) ∧
      (∀ name config, .create name config ∉ own) ∧
      (s.run own).1 =
        [some (.registered (.ok none), [.registered ⟨5⟩ "word"]),
          some (.text "word", [])] := by
  intro s cs own
  have hs : s.find? (.named "local") = some (.new .strict) :=
    new.find?_set_self (.named "local") (.new .strict)
  have hown : ∀ name config, .create name config ∉ own := by simp [own, cs, Command.scope]
  refine ⟨hs, hown, ?_⟩
  rw [((registries_apart s cs (.named "local")).2.2 _ hs hown).1]
  rfl

end Session
end Lexeme
