import CallPlan.Proofs.Run.Prefix
import CallPlan.Proofs.Run.Return

/-!
# Sinks that refuse events

A sink may raise an error at every event, by any rule that looks at all it was told before. If
these errors are ordinary, the run does not show it: it makes the same calls and gives the same
report as with a sink that returns from every event (`submit_refused`). An event is told at six
places of a run, four of them outside the part whose failures are kept for the report, so what
is used is that each of them goes on as if the sink had returned (`emit_of_ordinary`).

A sink may write files, and payloads are read from files. So two sinks are compared by a relation
between what they know and the files that they leave, under which parameters resolve alike
(`Shadows`). It is equality for a sink and the same sink with its errors kept to itself, and no
condition at all for sinks that leave the files alone.
-/

namespace CallPlan

open Sequencing

variable {σ τ τ' : Type}

/-- A run survives what the sink answers to an event. -/
def Sink.OrdinaryAt (sink : Sink τ) (e : Event) (s : τ × FileSystem) : Prop :=
  ∀ h s', sink.emit e s = .error h s' → Run.isOrdinary h = true

/-- A run survives every error that the sink raises. -/
def Sink.Ordinary (sink : Sink τ) : Prop :=
  ∀ e s, sink.OrdinaryAt e s

theorem Sink.Returns.ordinary {sink : Sink τ} (h : sink.Returns) : sink.Ordinary := by
  intro e s halt s' he
  obtain ⟨s₁, hs⟩ := h e s
  rw [hs] at he
  cases he

/-- The sink with its errors kept to itself: it does all that it did, and then returns. -/
def Sink.calmed (sink : Sink τ) : Sink τ where
  emit e := fun s => .ok () (after (sink.emit e s))

theorem Sink.returns_calmed (sink : Sink τ) : sink.calmed.Returns :=
  fun e s => ⟨after (sink.emit e s), rfl⟩

/-- The report without the id of the run and without times. -/
def RunReport.untimed (r : RunReport) : RunReport :=
  ⟨"", r.outcomes.map .untimed, r.results⟩

namespace Run

/-- Two runs show the same: the same report, but for the id of the run and times, or the same
halt; and in both cases the same services. -/
inductive SameRun : EStateM.Result Halt (World σ τ) RunReport →
    EStateM.Result Halt (World σ τ') RunReport → Prop
  | returned {report report' : RunReport} {w : World σ τ} {w' : World σ τ'}
      (reports : report.untimed = report'.untimed) (services : w.services = w'.services) :
      SameRun (.ok report w) (.ok report' w')
  | ended {h : Halt} {w : World σ τ} {w' : World σ τ'} (services : w.services = w'.services) :
      SameRun (.error h w) (.error h w')

/-! ## Sinks beside each other -/

/-- What parameters may refer to, beside some results, in some files. -/
def scopeIn (job : Job) (results : String → Option Value) (files : FileSystem) : Scope where
  results
  environ := job.environ
  files
  base := files.baseOr job.base
  project := job.project

/-- `R` stays true of what two sinks know and the files that they leave while both are told the
same, times aside. Where it is true, both sinks raise ordinary errors only, and the parameters of
`cs` resolve alike. -/
structure Shadows (job job' : Job) (cs : List Command) (sink : Sink τ) (sink' : Sink τ')
    (R : τ × FileSystem → τ' × FileSystem → Prop) : Prop where
  ordinary : ∀ e s s', R s s' → sink.OrdinaryAt e s
  ordinary' : ∀ e s s', R s s' → sink'.OrdinaryAt e s'
  told : ∀ e e', e = e' ∨ Counterpart job job' 0 e e' → ∀ s s', R s s' →
    R (after (sink.emit e s)) (after (sink'.emit e' s'))
  resolved : ∀ c ∈ cs, ∀ s s', R s s' → ∀ results,
    Template.resolve (scopeIn job results s.2) c.params =
      Template.resolve (scopeIn job' results s'.2) c.params

/-- Two worlds have the same services and results, and what their sinks know and leave is in the
relation. -/
structure Beside (R : τ × FileSystem → τ' × FileSystem → Prop) (w : World σ τ) (v : World σ τ') :
    Prop where
  services : w.services = v.services
  store : w.store = v.store
  sinks : R (w.sink, w.files) (v.sink, v.files)

/-- A run goes on from an event as if the sink had returned. -/
theorem emit_of_ordinary {sink : Sink τ} {e : Event} {w : World σ τ}
    (h : sink.OrdinaryAt e (w.sink, w.files)) : emit sink e w = .ok () { w with
      sink := (after (sink.emit e (w.sink, w.files))).1
      files := (after (sink.emit e (w.sink, w.files))).2 } := by
  unfold emit
  cases he : sink.emit e (w.sink, w.files) with
  | ok u s => rfl
  | error halt s =>
      have hordinary : isOrdinary halt = true := h halt s he
      simp [hordinary]

/-- An error that is not ordinary ends the run. -/
theorem emit_of_extraordinary {sink : Sink τ} {e : Event} {w : World σ τ} {h : Halt}
    {s : τ × FileSystem} (hemit : sink.emit e (w.sink, w.files) = .error h s)
    (hh : isOrdinary h = false) :
    emit sink e w = .error h { w with sink := s.1, files := s.2 } := by
  simp [emit, hemit, hh]

namespace Shadows

variable {job job' : Job} {cs : List Command} {sink : Sink τ} {sink' : Sink τ'}
  {R : τ × FileSystem → τ' × FileSystem → Prop}

theorem simulates_emit (h : Shadows job job' cs sink sink' R) {e e' : Event}
    (he : e = e' ∨ Counterpart job job' 0 e e') :
    Simulates (Beside (σ := σ) R) Eq (emit sink e) (emit sink' e') := by
  intro w v hb
  rw [emit_of_ordinary (h.ordinary e _ _ hb.sinks), emit_of_ordinary (h.ordinary' e' _ _ hb.sinks)]
  exact .ok rfl ⟨hb.services, hb.store, h.told e e' he _ _ hb.sinks⟩

theorem simulation (h : Shadows job job' cs sink sink' R) (invoker : Invoker σ) :
    SimulationOf cs job job' invoker invoker sink sink' 0 (Beside R) where
  resolve c hc w v hb := by
    have hscope := h.resolved c hc _ _ hb.sinks v.store.get?
    rw [scope, scope, hb.store]
    exact hscope
  emit e e' he := h.simulates_emit (.inr he)
  call c p := by
    intro w v hb
    unfold call
    rw [hb.services]
    cases invoker.invoke c.objectType c.method p v.services with
    | ok r s => exact .ok rfl ⟨rfl, hb.store, hb.sinks⟩
    | error halt s => exact .error ⟨rfl, hb.store, hb.sinks⟩
  publish id r := by
    intro w v hb
    unfold publish
    rw [hb.store]
    cases v.store.publish id r with
    | ok store => exact .ok rfl ⟨hb.services, rfl, hb.sinks⟩
    | error cause => exact .error ⟨hb.services, hb.store, hb.sinks⟩

/-- Runs whose sinks are in such a relation show the same. -/
theorem submit (h : Shadows job job' cs sink sink' R) (invoker : Invoker σ)
    (runId runId' : String) {w : World σ τ} {v : World σ τ'} (hb : Beside R w v) :
    SameRun (Run.submit job invoker sink runId cs w)
      (Run.submit job' invoker sink' runId' cs v) := by
  have hall := (h.simulation invoker).performAll 0 (List.Subset.refl cs)
  have hagree : Simulates (Beside R) (fun r r' : RunReport => r.untimed = r'.untimed)
      (Run.submit job invoker sink runId cs) (Run.submit job' invoker sink' runId' cs) := by
    refine .bind (h.simulates_emit (.inl rfl)) fun _ _ _ => ?_
    refine .bind hall fun os os' hos => ?_
    refine .bind (Q := Eq) ?_ fun results _ hresults => ?_
    · intro w v hb
      exact .ok hb.store hb
    subst hresults
    have hend : Event.runFinished (allOk os) results.ids =
        .runFinished (allOk os') results.ids := by
      rw [allOk_of_twins hos]
    refine .bind (h.simulates_emit (.inl hend)) fun _ _ _ => .pure ?_
    have hshift : Outcome.shift 0 = id := rfl
    rw [RunReport.untimed, RunReport.untimed, map_untimed_of_twins hos, hshift, List.map_id]
  have hruns := hagree w v hb
  generalize Run.submit job invoker sink runId cs w = x at hruns ⊢
  generalize Run.submit job' invoker sink' runId' cs v = y at hruns ⊢
  cases hruns with
  | ok hreports hb => exact .returned hreports hb.services
  | error hb => exact .ended hb.services

end Shadows

/-! ## Failing sinks -/

section

variable {sink : Sink τ}

/-- A sink does the same when its errors are kept. -/
theorem shadows_calmed (h : sink.Ordinary) (job : Job) (cs : List Command) :
    Shadows job job cs sink sink.calmed Eq where
  ordinary e s _ _ := h e s
  ordinary' e _ s _ := sink.returns_calmed.ordinary e s
  told := by
    rintro e e' he s _ rfl
    have hsame : e = e' := he.elim id eq_of_counterpart
    subst hsame
    rfl
  resolved := by
    rintro c - s _ rfl results
    rfl

/-- For sinks that leave the files alone it does not matter what they know. -/
theorem shadows_of_sparesFiles (h : sink.Ordinary) (hspares : sink.SparesFiles)
    {quiet : Sink τ'} (hreturns : quiet.Returns) (hspares' : quiet.SparesFiles) (job : Job)
    (elapsed : Nat → Nat) (cs : List Command) :
    Shadows job (job.timed elapsed) cs sink quiet fun s s' => s.2 = s'.2 where
  ordinary e s _ _ := h e s
  ordinary' e _ s _ := hreturns.ordinary e s
  told e e' _ s s' hfiles := by
    rw [hspares, hspares', hfiles]
  resolved c _ s s' hfiles results := by
    rw [scopeIn, scopeIn, hfiles]
    rfl

/-- **A failing sink does not change a run.** If all errors of a sink are ordinary, a run shows the
same as with the sink that keeps its errors to itself; and if the sink leaves the files alone,
the same as with every sink that returns from each event and leaves the files alone. -/
theorem submit_refused (h : sink.Ordinary) (job : Job) (invoker : Invoker σ)
    (commands : List Command) (runId runId' : String) (services : σ) (t : τ)
    (files : FileSystem) :
    let run := submit job invoker.recorded sink runId commands
      (World.start (services, []) t files)
    SameRun run (submit job invoker.recorded sink.calmed runId' commands
      (World.start (services, []) t files))
    ∧ (sink.SparesFiles → ∀ {τ' : Type} (quiet : Sink τ') (t' : τ') (elapsed : Nat → Nat),
      quiet.Returns → quiet.SparesFiles → SameRun run (submit (job.timed elapsed)
        invoker.recorded quiet runId' commands (World.start (services, []) t' files))) := by
  refine ⟨?_, fun hspares τ' quiet t' elapsed hreturns hspares' => ?_⟩
  · exact (shadows_calmed h job commands).submit invoker.recorded runId runId' ⟨rfl, rfl, rfl⟩
  · have hshadows := shadows_of_sparesFiles h hspares hreturns hspares' job elapsed commands
    exact hshadows.submit invoker.recorded runId runId' ⟨rfl, rfl, rfl⟩

end

/-- A sink that counts what it is told and refuses every second event. -/
def everySecond : Sink Nat where
  emit _ := fun (n, files) =>
    if n % 2 = 0 then .ok () (n + 1, files)
    else .error (.fault (.raised .system "disk full")) (n + 1, files)

theorem ordinary_everySecond : everySecond.Ordinary := by
  rintro e ⟨n, files⟩ h s' he
  simp only [everySecond] at he
  split at he
  · cases he
  · cases he
    rfl

theorem sparesFiles_everySecond : everySecond.SparesFiles := by
  rintro e ⟨n, files⟩
  simp only [everySecond]
  split <;> rfl

/-- Three calls of a service that answers once: the second fails, and the third is skipped. -/
theorem submit_refused_everySecond :
    everySecond.Ordinary ∧ everySecond.SparesFiles ∧ Sink.memory.Returns ∧ Sink.memory.SparesFiles
    ∧ SameRun
      (submit bareJob onceOnly.recorded everySecond "run" threeCalls
        (World.start (0, []) 0 .empty))
      (submit (bareJob.timed fun i => i) onceOnly.recorded Sink.memory "other" threeCalls
        (World.start (0, []) [] .empty)) :=
  ⟨ordinary_everySecond, sparesFiles_everySecond, Sink.returns_memory, Sink.sparesFiles_memory,
    (submit_refused ordinary_everySecond bareJob onceOnly threeCalls "run" "other" 0 0 .empty).2
      sparesFiles_everySecond Sink.memory [] (fun i => i) Sink.returns_memory
      Sink.sparesFiles_memory⟩

end Run

end CallPlan
