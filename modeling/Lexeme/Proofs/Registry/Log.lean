import Lexeme.Proofs.Registry.Registration

/-!
# What the events tell of a run

Each call reports what came of it. Main statement: the events of a run account for it, since the
names at its end are those that the events say were registered, and the events of each call follow
from its answer and from whether it changed a name.
-/

namespace Lexeme

def Refusal.warning : Refusal → Event
  | collision t existing attempted => .collisionRefused t existing attempted
  | reserved t name => .reservedRefused t name

theorem Refusal.warning_inj {f g : Refusal} : f.warning = g.warning ↔ f = g := by
  cases f <;> cases g <;> simp [warning]

namespace Event

/-- The name that was entered, by what can be seen of the event. -/
def entered? (e : Event) : Option (Tag × String) :=
  if e.level = .debug ∧ e.message = "registered item type" then e.name?.map (e.tag, ·) else none

theorem entered?_registered (t : Tag) (name : String) :
    (registered t name).entered? = some (t, name) := by
  simp [entered?, level, message, name?, tag]

theorem entered?_of_level_ne {e : Event} (h : e.level ≠ .debug) : e.entered? = none := by
  simp [entered?, h]

theorem filterMap_entered?_of_level_ne {es : List Event} (h : ∀ e ∈ es, e.level ≠ .debug) :
    es.filterMap entered? = [] :=
  List.filterMap_eq_nil_iff.2 fun e he => entered?_of_level_ne (h e he)

end Event

namespace Registry

def log (entries : List Entry) : List Event := entries.flatMap fun e => e.2

theorem log_cons (entry : Entry) (entries : List Entry) :
    log (entry :: entries) = entry.2 ++ log entries := rfl

/-- Names after what some events say was entered, the last name of a tag standing. -/
def replay (names : Names) (events : List Event) : Names :=
  (events.filterMap Event.entered?).foldl (fun names e => names.insert e.1 e.2) names

theorem replay_append (names : Names) (es fs : List Event) :
    replay names (es ++ fs) = replay (replay names es) fs := by
  simp [replay, List.filterMap_append, List.foldl_append]

@[simp] theorem replay_registered (names : Names) (t : Tag) (name : String) :
    replay names [.registered t name] = names.insert t name := by
  simp [replay, Event.entered?_registered]

theorem replay_of_level_ne {names : Names} {es : List Event} (h : ∀ e ∈ es, e.level ≠ .debug) :
    replay names es = names := by
  rw [replay, Event.filterMap_entered?_of_level_ne h]
  rfl

section

variable {r : Registry} {t : Tag} {name : String}

theorem mem_warning_iff {c : Config} {existing : String} {e : Event} :
    e ∈ c.warning t existing name ↔ c.collision = .warn ∧ e = .renamed t existing name := by
  unfold Config.warning
  split <;> simp_all

theorem level_of_mem_warning {c : Config} {existing : String} {e : Event}
    (h : e ∈ c.warning t existing name) : e.level ≠ .debug := by
  rw [(mem_warning_iff.1 h).2, Event.level]
  decide

theorem names_register :
    (r.register t name).registry.names = replay r.names (r.register t name).events := by
  have h := r.registers t name
  generalize r.register t name = s at h
  cases h with
  | kept | refused => exact (replay_of_level_ne (by simp [Event.level])).symm
  | same => rfl
  | fresh => exact (replay_registered _ _ _).symm
  | renamed =>
    rw [replay_append, replay_of_level_ne fun _ => level_of_mem_warning, replay_registered]
    rfl

theorem snapshot_store_ne (h : r.names[t]? ≠ some name) :
    (r.store t name).snapshot ≠ r.snapshot := by
  intro hs
  have hm : (t, name) ∈ (r.store t name).snapshot := by simp [mem_snapshot_iff]
  rw [hs, mem_snapshot_iff] at hm
  exact h hm

theorem filter_debug_register :
    (r.register t name).events.filter (fun e => e.level = .debug) =
      if (r.register t name).registry.snapshot = r.snapshot then [] else [.registered t name] := by
  have h := r.registers t name
  generalize r.register t name = s at h
  cases h with
  | kept | same | refused =>
    rw [if_pos rfl]
    rfl
  | fresh hk hn =>
    rw [if_neg (snapshot_store_ne (by simp [hn]))]
    rfl
  | @renamed existing hk hn he hc =>
    have hw : (r.config.warning t existing name).filter (fun e => e.level = .debug) = [] :=
      List.filter_eq_nil_iff.2 fun e h => by simpa using level_of_mem_warning h
    rw [if_neg (snapshot_store_ne (by simp [hn, he])), List.filter_append, hw]
    rfl

theorem renamed_mem_register_iff {u : Tag} {existing new : String} :
    .renamed u existing new ∈ (r.register t name).events ↔
      r.config.collision = .warn ∧ (r.register t name).answer = .ok (some existing) ∧
        u = t ∧ new = name := by
  have h := r.registers t name
  generalize r.register t name = s at h
  cases h with
  | kept | same | refused | fresh => simp
  | renamed => grind [mem_warning_iff]

theorem events_of_replaced {existing : String}
    (h : (r.register t name).answer = .ok (some existing)) :
    (r.register t name).events = r.config.warning t existing name ++ [.registered t name] := by
  have hr := r.registers t name
  generalize r.register t name = s at h hr
  cases hr with
  | kept | refused | same | fresh => cases h
  | renamed =>
    cases h
    rfl

theorem events_of_refused {f : Refusal} (h : (r.register t name).answer = .error f) :
    (r.register t name).events = [f.warning] := by
  have hr := r.registers t name
  generalize r.register t name = s at h hr
  cases hr with
  | kept | refused =>
    cases h
    rfl
  | same | fresh | renamed => cases h

theorem warning_mem_register_iff {f : Refusal} :
    f.warning ∈ (r.register t name).events ↔ (r.register t name).answer = .error f := by
  constructor
  · intro hm
    have h := r.registers t name
    generalize r.register t name = s at h hm
    cases h with
    | kept => exact congrArg _ (Refusal.warning_inj.1 (List.mem_singleton.1 hm)).symm
    | refused => exact congrArg _ (Refusal.warning_inj.1 (List.mem_singleton.1 hm)).symm
    | same => cases hm
    | fresh => cases f <;> simp [Refusal.warning] at hm
    | renamed => cases f <;> simp [Refusal.warning, mem_warning_iff] at hm
  · intro h
    simp [events_of_refused h]

theorem level_of_mem_register {e : Event} (h : e ∈ (r.register t name).events) :
    e.level ≠ .trace := by
  have hr := r.registers t name
  generalize r.register t name = s at h hr
  cases hr <;> grind [Event.level, mem_warning_iff]

end

theorem names_answer (r : Registry) (q : Request) :
    (r.answer q).registry.names = replay r.names (r.answer q).events := by
  have hlookup (t : Tag) : replay r.names (r.lookup t).events = r.names :=
    replay_of_level_ne fun e he => by
      simp only [lookup] at he
      split at he
      · cases he
      · simp [List.mem_singleton.1 he, Event.level]
  cases q with
  | register t name => exact names_register
  | lookup t => exact (hlookup t).symm
  | display v => exact (hlookup v.tag).symm
  | report v source? colour => exact (hlookup v.tag).symm
  | contains | size | isEmpty | snapshot | config => rfl

/-- The names at the end of a run are those that its events say were registered. -/
theorem names_run (r : Registry) (qs : List Request) :
    (r.run qs).2.names = replay r.names (log (r.run qs).1) := by
  induction qs generalizing r with
  | nil => rfl
  | cons q qs ih =>
    rw [run_cons, log_cons, replay_append, ← names_answer, ih]

@[simp] theorem length_run (r : Registry) (qs : List Request) :
    (r.run qs).1.length = qs.length := by
  induction qs generalizing r with
  | nil => rfl
  | cons q qs ih => simp [ih]

theorem getElem?_run (r : Registry) (before after : List Request) (q : Request) :
    (r.run (before ++ q :: after)).1[before.length]? =
      some (((r.run before).2.answer q).answer, ((r.run before).2.answer q).events) := by
  rw [run_append, List.getElem?_append_right (by simp), length_run, Nat.sub_self]
  rfl

/-- The events of a run account for it. The names at its end are those that the events say were
registered. A registration tells of the name it entered just when it changed the names, of the name
it replaced just before that where the settings ask for a warning, and of a refusal alone. A look-up
tells of a tag without a name. -/
theorem log_accounts_for_run (c : Config) :
    (∀ qs, (replay (.ofList reservedNames) (log ((new c).run qs).1)).toList =
      ((new c).run qs).2.snapshot) ∧
    (∀ before t name after,
      let r := ((new c).run before).2
      let s := r.register t name
      ((new c).run (before ++ .register t name :: after)).1[before.length]? =
        some (.registered s.answer, s.events) ∧
      s.events.filter (fun e => e.level = .debug) =
        (if s.registry.snapshot = r.snapshot then [] else [.registered t name]) ∧
      (∀ u existing new, .renamed u existing new ∈ s.events ↔
        c.collision = .warn ∧ s.answer = .ok (some existing) ∧ u = t ∧ new = name) ∧
      (∀ existing, c.collision = .warn → s.answer = .ok (some existing) →
        s.events = [.renamed t existing name, .registered t name]) ∧
      (∀ f : Refusal, f.warning ∈ s.events ↔ s.answer = .error f) ∧
      (∀ f : Refusal, s.answer = .error f → s.events = [f.warning]) ∧
      ∀ e ∈ s.events, e.level ≠ .trace) ∧
    ∀ before t after,
      let r := ((new c).run before).2
      ((new c).run (before ++ .lookup t :: after)).1[before.length]? =
        some (.text (r.nameOf t), if r.contains t then [] else [.unnamed t]) := by
  refine ⟨?_, ?_, ?_⟩
  · intro qs
    rw [snapshot_eq_toList, names_run]
    rfl
  · intro before t name after r s
    have hc : r.config = c := run_config _ _
    refine ⟨getElem?_run _ _ _ _, filter_debug_register, ?_, ?_, fun f => warning_mem_register_iff,
      fun f => events_of_refused, fun e => level_of_mem_register⟩
    · intro u existing new
      rw [renamed_mem_register_iff, hc]
    · intro existing hw ho
      rw [events_of_replaced ho, hc, Config.warning, if_pos hw]
      rfl
  · intro before t after
    exact getElem?_run _ _ _ _

end Registry
end Lexeme
