import Lexeme.Proofs.Registry.Log

/-!
# What the settings change

Main statements: a registry that warns of the names it replaces and one that replaces them silently
give the same answers and come to the same names, and the warnings are all that one of them reports
and the other does not; where the names of reserved tags are protected, the calls for these can be
taken out of a run without a trace, and then the protection can be lifted as well.
-/

namespace Lexeme
namespace Registry

def withoutRenamings (events : List Event) : List Event :=
  events.filter fun e => e.message ≠ "item type renamed"

@[simp] theorem withoutRenamings_nil : withoutRenamings [] = [] := rfl

theorem withoutRenamings_append (es fs : List Event) :
    withoutRenamings (es ++ fs) = withoutRenamings es ++ withoutRenamings fs :=
  List.filter_append ..

theorem withoutRenamings_singleton {e : Event} (h : e.message ≠ "item type renamed") :
    withoutRenamings [e] = [e] := by
  simp [withoutRenamings, h]

theorem withoutRenamings_warning (c : Config) (t : Tag) (existing name : String) :
    withoutRenamings (c.warning t existing name) = [] := by
  refine List.filter_eq_nil_iff.2 fun e he => ?_
  simp [(mem_warning_iff.1 he).2, Event.message]

def silenced (r : Registry) : Registry :=
  { r with config := { r.config with collision := .overwrite } }

def Step.silenced {α : Type} (s : Step α) : Step α :=
  ⟨s.answer, s.registry.silenced, withoutRenamings s.events⟩

section

variable {r : Registry} {q : Request}

theorem register_silenced (t : Tag) (name : String) (hw : r.config.collision = .warn) :
    r.silenced.register t name = (r.register t name).silenced := by
  have h := r.registers t name
  generalize r.register t name = s at h
  cases h with
  | kept hk =>
    have hs : r.silenced.Registers t name _ := .kept hk
    rw [hs.eq, Step.silenced, withoutRenamings_singleton (by simp [Event.message])]
  | fresh hk hn =>
    have hs : r.silenced.Registers t name _ := .fresh hk hn
    rw [hs.eq, Step.silenced, withoutRenamings_singleton (by simp [Event.message])]
    rfl
  | same hk hn =>
    have hs : r.silenced.Registers t name _ := .same hk hn
    rw [hs.eq, Step.silenced, withoutRenamings_nil]
  | renamed hk hn he =>
    have hs : r.silenced.Registers t name _ := .renamed hk hn he (by simp [silenced])
    rw [hs.eq, Step.silenced, withoutRenamings_append, withoutRenamings_warning,
      withoutRenamings_singleton (by simp [Event.message])]
    rfl
  | refused hk hn he hc => simp [hw] at hc

theorem lookup_silenced (t : Tag) : r.silenced.lookup t = (r.lookup t).silenced := by
  have hc : r.silenced.contains t = r.contains t := rfl
  rw [lookup, lookup, Step.silenced, hc]
  split
  · rfl
  · rw [withoutRenamings_singleton (by simp [Event.message])]
    rfl

theorem answer_silenced (hw : r.config.collision = .warn) (hq : q ≠ .config) :
    r.silenced.answer q = (r.answer q).silenced := by
  cases q with
  | register t name => exact congrArg (Step.map Reply.registered) (register_silenced t name hw)
  | lookup t => exact congrArg (Step.map Reply.text) (lookup_silenced t)
  | display v => exact congrArg (Step.map _) (congrArg (Step.map _) (lookup_silenced v.tag))
  | report v source? colour =>
    exact congrArg (Step.map _) (congrArg (Step.map _) (lookup_silenced v.tag))
  | contains | size | isEmpty | snapshot => rfl
  | config => exact absurd rfl hq

/-- A whole run, and what each request of it gives. -/
theorem run_silenced {qs : List Request} (hw : r.config.collision = .warn)
    (hqs : .config ∉ qs) :
    r.silenced.run qs =
      ((r.run qs).1.map fun e => (e.1, withoutRenamings e.2), (r.run qs).2.silenced) := by
  induction qs generalizing r with
  | nil => rfl
  | cons q qs ih =>
    rw [List.mem_cons, not_or] at hqs
    have hstep := answer_silenced hw (Ne.symm hqs.1)
    have hrest := ih (r := (r.answer q).registry) (by rwa [answer_config]) hqs.2
    rw [run_cons, hstep, run_cons]
    simp only [Step.silenced, hrest, List.map_cons]

end

theorem log_map_withoutRenamings (entries : List Entry) :
    log (entries.map fun e => (e.1, withoutRenamings e.2)) = withoutRenamings (log entries) := by
  induction entries with
  | nil => rfl
  | cons e entries ih => rw [List.map_cons, log_cons, log_cons, withoutRenamings_append, ih]

/-- Whether names are replaced with a warning or silently, all requests but the one for the settings
get the same answers, and the names at the end are the same; the events are the same but for the
warnings. -/
theorem silent_run_eq (protectReserved : Bool) (qs : List Request) (h : .config ∉ qs) :
    let warned := (new ⟨.warn, protectReserved⟩).run qs
    let silent := (new ⟨.overwrite, protectReserved⟩).run qs
    silent.1.map Prod.fst = warned.1.map Prod.fst ∧
    silent.2.snapshot = warned.2.snapshot ∧
    log silent.1 = (log warned.1).filter fun e => e.message ≠ "item type renamed" := by
  intro warned silent
  have hrun : silent = (warned.1.map fun e => (e.1, withoutRenamings e.2), warned.2.silenced) :=
    run_silenced (r := new ⟨.warn, protectReserved⟩) rfl h
  rw [hrun]
  refine ⟨?_, rfl, log_map_withoutRenamings _⟩
  rw [List.map_map]
  rfl

/-- A name given twice, the second time another one, and a tag without a name. -/
theorem silent_run_eq_renamed :
    let qs : List Request := [.register ⟨5⟩ "a", .register ⟨5⟩ "b", .lookup ⟨9⟩]
    let warned := (new ⟨.warn, false⟩).run qs
    let silent := (new ⟨.overwrite, false⟩).run qs
    .config ∉ qs ∧
      log warned.1 =
        [.registered ⟨5⟩ "a", .renamed ⟨5⟩ "a" "b", .registered ⟨5⟩ "b", .unnamed ⟨9⟩] ∧
      log silent.1 = [.registered ⟨5⟩ "a", .registered ⟨5⟩ "b", .unnamed ⟨9⟩] := by
  intro qs warned silent
  have hqs : .config ∉ qs := by decide
  have hwarned : log warned.1 =
      [.registered ⟨5⟩ "a", .renamed ⟨5⟩ "a" "b", .registered ⟨5⟩ "b", .unnamed ⟨9⟩] := by
    decide
  refine ⟨hqs, hwarned, ?_⟩
  rw [(silent_run_eq false qs hqs).2.2, hwarned]
  decide

end Registry

theorem Config.keeps_eq_false {c : Config} {t : Tag} (h : 2 < t.value) : c.keeps t = false := by
  rw [← Bool.not_eq_true, keeps_iff, not_and, UInt32.not_le]
  intro _
  exact h

namespace Registry

def protecting (r : Registry) (on : Bool) : Registry :=
  { r with config := { r.config with protectReserved := on } }

section

variable {r : Registry} {t : Tag} {name : String}

theorem register_of_keeps (hk : r.config.keeps t = true) : (r.register t name).registry = r := by
  rw [(Registers.kept hk).eq]

/-- For all other tags the protection makes no difference. -/
theorem register_protecting (on : Bool) (ht : 2 < t.value) :
    (r.protecting on).register t name =
      ⟨(r.register t name).answer, (r.register t name).registry.protecting on,
        (r.register t name).events⟩ := by
  have hoff : (r.protecting on).config.keeps t = false := Config.keeps_eq_false ht
  have h := r.registers t name
  generalize r.register t name = s at h
  cases h with
  | kept hk => simp [Config.keeps_eq_false ht] at hk
  | fresh _ hn => rw [(Registers.fresh hoff hn).eq]; rfl
  | same _ hn => rw [(Registers.same hoff hn).eq]
  | renamed _ hn he hc => rw [(Registers.renamed hoff hn he hc).eq]; rfl
  | refused _ hn he hc => rw [(Registers.refused hoff hn he hc).eq]

/-- Without the calls for reserved tags, a run under protection gives the others the same entries
and leaves the same registry. -/
theorem run_without_reserved (hp : r.config.protectReserved = true)
    (calls : List (Tag × String)) :
    let rest := calls.filter fun call => 2 < call.1.value
    (calls.zip (r.run (calls.map .naming)).1).filter (fun e => 2 < e.1.1.value) =
        rest.zip (r.run (rest.map .naming)).1 ∧
      (r.run (rest.map .naming)).2 = (r.run (calls.map .naming)).2 := by
  induction calls generalizing r with
  | nil => exact ⟨rfl, rfl⟩
  | cons call calls ih =>
    obtain ⟨t, name⟩ := call
    by_cases ht : 2 < t.value
    · obtain ⟨hentries, hlast⟩ := ih (r := (r.answer (.naming (t, name))).registry)
        (by rwa [answer_config])
      simp [ht, hentries, hlast]
    · have hk : r.config.keeps t = true := Config.keeps_iff.2 ⟨hp, UInt32.not_lt.1 ht⟩
      have hsame : (r.answer (.naming (t, name))).registry = r := register_of_keeps hk
      obtain ⟨hentries, hlast⟩ := ih hp
      simp [ht, hsame, hentries, hlast]

theorem run_protecting (on : Bool) {calls : List (Tag × String)}
    (h : ∀ call ∈ calls, 2 < call.1.value) :
    (r.protecting on).run (calls.map .naming) =
      ((r.run (calls.map .naming)).1, (r.run (calls.map .naming)).2.protecting on) := by
  induction calls generalizing r with
  | nil => rfl
  | cons call calls ih =>
    obtain ⟨hcall, hrest⟩ := List.forall_mem_cons.1 h
    have hstep : (r.protecting on).register call.1 call.2 =
        ⟨(r.register call.1 call.2).answer, (r.register call.1 call.2).registry.protecting on,
          (r.register call.1 call.2).events⟩ := register_protecting on hcall
    simp only [List.map_cons, run_cons, answer, Request.naming, Step.map, hstep]
    rw [ih hrest]

end

/-- From any registry on: under protection, the calls for reserved tags can be taken out of a run,
and each of the others still gets its answer and reports its events, and the names at the end are
the same. What is left of the run goes the same in the registry that does not protect them. -/
theorem reserved_calls_idle (r : Registry) (calls : List (Tag × String)) :
    let rest := calls.filter fun call => 2 < call.1.value
    let whole := (r.protecting true).run (calls.map .naming)
    let part := (r.protecting true).run (rest.map .naming)
    let free := (r.protecting false).run (rest.map .naming)
    ((calls.zip whole.1).filter fun e => 2 < e.1.1.value).map Prod.snd = part.1 ∧
    part.2.snapshot = whole.2.snapshot ∧
    free.1 = part.1 ∧ free.2.snapshot = part.2.snapshot := by
  intro rest whole part free
  obtain ⟨hentries, hlast⟩ := run_without_reserved (r := r.protecting true) rfl calls
  have hrest : ∀ call ∈ rest, 2 < call.1.value := fun call hcall => by
    simpa using (List.mem_filter.1 hcall).2
  have hfree : free = (part.1, part.2.protecting false) :=
    run_protecting (r := r.protecting true) false hrest
  refine ⟨?_, congrArg snapshot hlast, by rw [hfree], ?_⟩
  · have hlen : part.1.length = rest.length := by simp [part]
    rw [hentries]
    exact List.map_snd_zip (Nat.le_of_eq hlen)
  · rw [hfree]
    rfl

/-- An attempt on the end of the input between two names for one tag. -/
example :
    ((new ⟨.overwrite, true⟩).run
        ([(⟨5⟩, "a"), (.eof, "end"), (⟨5⟩, "b")].map .naming)).1.map Prod.fst =
      [.registered (.ok none), .registered (.error (.reserved .eof "end")),
        .registered (.ok (some "a"))] := by
  rfl

end Registry
end Lexeme
