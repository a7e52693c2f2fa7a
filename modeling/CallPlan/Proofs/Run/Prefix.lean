import CallPlan.Proofs.Run.Traces

/-!
# Runs of lists behind each other

What a run does with a command does not depend on the commands behind it. A run of `cs ++ ds`
first does what a run of `cs` does. If that is ok, it goes on as a run of `ds` from the world it
has left, with indices that count on; if not, it skips `ds` (`submit_append`). Times, and how
many commands a run begins with, may differ: what is compared is the `Trace` of a run.

Two things carry the proof. The program itself falls into two rows (`performAll_append_eq_bind`),
and each row goes alike in both runs, since their worlds differ in the sink only
(`simulation_alike`). That the second row counts from another index is part of `Simulation`.
-/

namespace CallPlan

open Sequencing

/-- The sink leaves the files alone. -/
def Sink.SparesFiles {τ : Type} (sink : Sink τ) : Prop :=
  ∀ e s, (after (sink.emit e s)).2 = s.2

theorem Sink.sparesFiles_memory : Sink.memory.SparesFiles :=
  fun _ _ => rfl

/-! ## What a run shows -/

/-- An event about one command, without its time. -/
def Event.ofCommand? : Event → Option Event
  | runStarted _ => none
  | commandStarted i id capability params => some (commandStarted i id capability params)
  | commandFailed i id _ f => some (commandFailed i id 0 f)
  | commandCompleted i id _ => some (commandCompleted i id 0)
  | commandSkipped i id => some (commandSkipped i id)
  | runFinished .. => none

/-- The event with its index counted from `k`. -/
def Event.shift (k : Nat) : Event → Event
  | commandStarted i id capability params => commandStarted (i + k) id capability params
  | commandFailed i id elapsed f => commandFailed (i + k) id elapsed f
  | commandCompleted i id elapsed => commandCompleted (i + k) id elapsed
  | commandSkipped i id => commandSkipped (i + k) id
  | e => e

def Outcome.untimed (o : Outcome) : Outcome :=
  { o with elapsed := 0 }

/-- The outcome with its index counted from `k`. -/
def Outcome.shift (k : Nat) (o : Outcome) : Outcome :=
  { o with index := o.index + k }

/-- What a run shows of its commands, without times. -/
structure Trace (σ : Type) where
  outcomes : List Outcome
  told : List Event
  calls : List Call
  /-- The results that it has published. -/
  results : List (String × Value)
  /-- The state in which it leaves the services. -/
  services : σ

namespace Trace

variable {σ : Type}

/-- The trace with indices counted from `k`. -/
def shift (k : Nat) (t : Trace σ) : Trace σ :=
  { t with outcomes := t.outcomes.map (.shift k), told := t.told.map (.shift k) }

theorem shift_zero (t : Trace σ) : t.shift 0 = t := by
  have hevent : Event.shift 0 = id := funext fun e => by cases e <;> rfl
  have houtcome : Outcome.shift 0 = id := rfl
  simp [Trace.shift, hevent, houtcome]

def append (a b : Trace σ) : Trace σ :=
  ⟨a.outcomes ++ b.outcomes, a.told ++ b.told, a.calls ++ b.calls, a.results ++ b.results,
    b.services⟩

/-- The trace of a run that goes on as one with the second trace. -/
def andThen (a b : Trace σ) : Trace σ :=
  a.append (b.shift a.outcomes.length)

/-- The trace of a run that has stopped and skips `cs`. -/
def skipping (a : Trace σ) (cs : List Command) : Trace σ :=
  { a with
    outcomes := a.outcomes ++ Run.skippedOutcomes a.outcomes.length cs
    told := a.told ++ Run.skippedEvents a.outcomes.length cs }

end Trace

/-- The job with other times. -/
def Job.timed (job : Job) (elapsed : (index : Nat) → Nat) : Job :=
  { job with elapsed }

namespace Run

variable {σ τ : Type} {job : Job} {invoker : Invoker σ} {sink : Sink τ}

/-- What has been added between two worlds, beside the outcomes `os`. -/
def traceBetween (events : τ → List Event) (w₀ w : World (σ × List Call) τ) (os : List Outcome) :
    Trace σ where
  outcomes := os.map .untimed
  told := ((events w.sink).drop (events w₀.sink).length).filterMap Event.ofCommand?
  calls := w.services.2.drop w₀.services.2.length
  results := w.store.entries.drop w₀.store.size
  services := w.services.1

/-- The trace of a run from `w₀`, or the halt that has ended it. -/
def traceOf (events : τ → List Event) (w₀ : World (σ × List Call) τ) :
    EStateM.Result Halt (World (σ × List Call) τ) RunReport → Except Halt (Trace σ)
  | .ok report w => .ok (traceBetween events w₀ w report.outcomes)
  | .error h _ => .error h

/-- The trace of commands performed from `w₀` on, or the halt that has ended them. -/
def traceOfAll (events : τ → List Event) (w₀ : World (σ × List Call) τ) :
    EStateM.Result Halt (World (σ × List Call) τ) (List Outcome) → Except Halt (Trace σ)
  | .ok os w => .ok (traceBetween events w₀ w os)
  | .error h _ => .error h

/-! ## Performing and skipping -/

theorem length_of_performAll {n : Nat} {cs : List Command} {w w' : World σ τ} {os : List Outcome}
    (h : performAll job invoker sink n cs w = .ok os w') : os.length = cs.length := by
  rcases performAll_eq_ok_iff.mp h with ⟨done, -, -, rfl⟩ | ⟨done, c, rest, w₁, f, -, -, rfl, rfl⟩
  · simp
  · simp

/-! ## Worlds that differ in the sink -/

section

variable {events : τ → List Event}

theorem exists_emit_eq_ok (hs : sink.Records events) (hf : sink.SparesFiles) (e : Event)
    (w : World σ τ) :
    ∃ t, emit sink e w = .ok () { w with sink := t } ∧ events t = events w.sink ++ [e] := by
  obtain ⟨t, fs, he, ht⟩ := hs e w.sink w.files
  have hfs := hf e (w.sink, w.files)
  rw [he] at hfs
  obtain rfl : fs = w.files := hfs
  exact ⟨t, by simp [emit, he], ht⟩

theorem exists_skip_eq_ok (hs : sink.Records events) (n : Nat) (cs : List Command)
    (w : World σ τ) : ∃ w', skip sink n cs w = .ok (skippedOutcomes n cs) w' := by
  induction cs generalizing n w with
  | nil => exact ⟨w, rfl⟩
  | cons c cs ih =>
      obtain ⟨w₁, he, -⟩ := emit_of_records hs (.commandSkipped n c.id) w
      obtain ⟨w₂, hr⟩ := ih (n + 1) w₁
      refine ⟨w₂, ?_⟩
      simp only [skip, run_bind_eq_ok_iff]
      exact ⟨(), w₁, he, _, w₂, hr, rfl⟩

/-- What the first world shows is still there in the second. -/
structure Grows (events : τ → List Event) (w w' : World (σ × List Call) τ) : Prop where
  calls : w.services.2 <+: w'.services.2
  results : w.store.entries <+: w'.store.entries
  told : events w.sink <+: events w'.sink

/-- Two worlds that began as `w₀` and `v₀` differ in the sink only. What has been added since
then are counterparts. -/
structure Alike (job job' : Job) (k : Nat) (events : τ → List Event)
    (w₀ v₀ w v : World (σ × List Call) τ) : Prop where
  services : w.services = v.services
  files : w.files = v.files
  store : w.store = v.store
  calls : v₀.services.2 <+: v.services.2
  results : v₀.store.entries <+: v.store.entries
  told : ∃ es es', List.Forall₂ (Counterpart job job' k) es es'
    ∧ events w.sink = events w₀.sink ++ es ∧ events v.sink = events v₀.sink ++ es'

variable {job job' : Job} {k : Nat} {w₀ v₀ w v : World (σ × List Call) τ}

theorem Alike.refl (hservices : w₀.services = v₀.services) (hfiles : w₀.files = v₀.files)
    (hstore : w₀.store = v₀.store) : Alike job job' k events w₀ v₀ w₀ v₀ :=
  ⟨hservices, hfiles, hstore, List.prefix_rfl, List.prefix_rfl, [], [], .nil, by simp, by simp⟩

theorem Alike.grows (h : Alike job job' k events w₀ v₀ w v) : Grows events v₀ v := by
  obtain ⟨es, es', -, -, hv⟩ := h.told
  exact ⟨h.calls, h.results, es', hv.symm⟩

theorem simulates_emit_alike (hs : sink.Records events) (hf : sink.SparesFiles) {e e' : Event}
    (he : Counterpart job job' k e e') :
    Simulates (Alike job job' k events w₀ v₀) Eq (emit sink e) (emit sink e') := by
  intro w v h
  obtain ⟨t, hw, ht⟩ := exists_emit_eq_ok hs hf e w
  obtain ⟨t', hv, ht'⟩ := exists_emit_eq_ok hs hf e' v
  rw [hw, hv]
  obtain ⟨es, es', hes, hwt, hvt⟩ := h.told
  refine .ok rfl ⟨h.services, h.files, h.store, h.calls, h.results, es ++ [e], es' ++ [e'],
    ?_, ?_, ?_⟩
  · exact List.rel_append hes (.cons he .nil)
  · rw [ht, hwt, List.append_assoc]
  · rw [ht', hvt, List.append_assoc]

theorem simulates_call_alike (invoker : Invoker σ) (c : Command) (p : Value) :
    Simulates (Alike job job' k events w₀ v₀) Eq (call invoker.recorded c p)
      (call invoker.recorded c p) := by
  intro w v h
  have hcalls := calls_call invoker c p v
  unfold call at hcalls ⊢
  rw [h.services]
  generalize invoker.recorded.invoke c.objectType c.method p v.services = result at hcalls ⊢
  have hgrown {s : σ × List Call} (hr : s.2 = v.services.2 ++ [c.callWith p]) :
      v₀.services.2 <+: s.2 := by
    rw [hr]
    exact h.calls.trans (List.prefix_append _ _)
  cases result with
  | ok r s => exact .ok rfl ⟨rfl, h.files, h.store, hgrown hcalls, h.results, h.told⟩
  | error e s => exact .error ⟨rfl, h.files, h.store, hgrown hcalls, h.results, h.told⟩

theorem simulates_publish_alike (id : String) (r : Value) :
    Simulates (Alike job job' k events w₀ v₀) Eq (publish id r) (publish id r) := by
  intro w v h
  by_cases hg : v.store.get? id = none
  · have hw : publish id r w = .ok () { w with store := v.store.push id r hg } := by
      simp [publish, h.store, Store.publish_of_get?_eq_none hg]
    rw [hw, publish_eq_ok_iff.mpr ⟨hg, rfl⟩]
    exact .ok rfl ⟨h.services, h.files, rfl, h.calls, h.results.trans (List.prefix_append _ _),
      h.told⟩
  · rw [publish_eq_error_iff.mpr ⟨hg, rfl, rfl⟩, publish_eq_error_iff.mpr ⟨h.store ▸ hg, rfl, rfl⟩]
    exact .error h

/-- In worlds that differ in the sink only, runs go alike. -/
theorem simulation_alike (hs : sink.Records events) (hf : sink.SparesFiles) (job : Job)
    (elapsed elapsed' : Nat → Nat) (invoker : Invoker σ) (k : Nat)
    (w₀ v₀ : World (σ × List Call) τ) :
    Simulation (job.timed elapsed) (job.timed elapsed') invoker.recorded invoker.recorded sink sink
      k (Alike (job.timed elapsed) (job.timed elapsed') k events w₀ v₀) where
  resolve w v params h := by
    rw [scope, scope, h.files, h.store]
    rfl
  emit _ _ := simulates_emit_alike hs hf
  call := simulates_call_alike invoker
  publish := simulates_publish_alike

/-! ## Traces of runs -/

theorem ofCommand?_of_counterpart {e e' : Event} (h : Counterpart job job' k e e') :
    e.ofCommand? = e'.ofCommand?.map (.shift k) := by
  cases h <;> rfl

theorem filterMap_ofCommand?_of_counterparts {es es' : List Event}
    (h : List.Forall₂ (Counterpart job job' k) es es') :
    es.filterMap Event.ofCommand? = (es'.filterMap Event.ofCommand?).map (.shift k) := by
  induction h with
  | nil => rfl
  | @cons e e' es es' he _ ih =>
      rw [List.filterMap_cons, List.filterMap_cons, ofCommand?_of_counterpart he]
      cases e'.ofCommand? with
      | none => exact ih
      | some e => exact congrArg _ ih

theorem map_untimed_of_twins {os os' : List Outcome} (h : List.Forall₂ (Twin job job' k) os os') :
    os.map Outcome.untimed = (os'.map Outcome.untimed).map (.shift k) := by
  induction h with
  | nil => rfl
  | cons ho _ ih =>
      rw [List.map_cons, List.map_cons, List.map_cons, ih]
      cases ho <;> rfl

/-- Runs that go alike add the same, indices aside. -/
theorem Alike.traceBetween_eq (h : Alike job job' k events w₀ v₀ w v)
    (hservices : w₀.services = v₀.services) (hstore : w₀.store = v₀.store)
    {os os' : List Outcome} (ho : List.Forall₂ (Twin job job' k) os os') :
    traceBetween events w₀ w os = (traceBetween events v₀ v os').shift k := by
  obtain ⟨es, es', hes, hw, hv⟩ := h.told
  simp only [traceBetween, Trace.shift, hw, hv, List.drop_left, h.services, h.store, hservices,
    hstore, map_untimed_of_twins ho, filterMap_ofCommand?_of_counterparts hes]

theorem drop_length_of_prefix {α : Type} {as bs cs : List α} (h : as <+: bs) (h' : bs <+: cs) :
    cs.drop as.length = bs.drop as.length ++ cs.drop bs.length := by
  obtain ⟨xs, rfl⟩ := h
  obtain ⟨ys, rfl⟩ := h'
  simp

/-- What is added on two stretches is added on the whole. -/
theorem traceBetween_append {w₀ w₁ w₂ : World (σ × List Call) τ} (h : Grows events w₀ w₁)
    (h' : Grows events w₁ w₂) (os os' : List Outcome) :
    traceBetween events w₀ w₂ (os ++ os') =
      (traceBetween events w₀ w₁ os).append (traceBetween events w₁ w₂ os') := by
  simp only [traceBetween, Trace.append, drop_length_of_prefix h.calls h'.calls,
    drop_length_of_prefix h.told h'.told, Store.size, drop_length_of_prefix h.results h'.results,
    List.map_append, List.filterMap_append]

theorem Grows.trans {w₀ w₁ w₂ : World (σ × List Call) τ} (h : Grows events w₀ w₁)
    (h' : Grows events w₁ w₂) : Grows events w₀ w₂ :=
  ⟨h.calls.trans h'.calls, h.results.trans h'.results, h.told.trans h'.told⟩

theorem Grows.of_told {w w' : World (σ × List Call) τ} (hservices : w'.services = w.services)
    (hstore : w'.store = w.store) (htold : events w.sink <+: events w'.sink) :
    Grows events w w' := by
  have hcalls : w.services.2 = w'.services.2 := by rw [hservices]
  have hresults : w.store.entries = w'.store.entries := by rw [hstore]
  exact ⟨hcalls ▸ List.prefix_rfl, hresults ▸ List.prefix_rfl, htold⟩

theorem Grows.of_emit (hs : sink.Records events) {e : Event} {w w' : World (σ × List Call) τ}
    (h : emit sink e w = .ok () w') : Grows events w w' :=
  .of_told (services_of_emit h) (store_of_emit h) ⟨[e], (events_of_emit hs h).symm⟩

/-- The events of a run as a whole do not show in its trace. -/
theorem traceBetween_emit (hs : sink.Records events) {e : Event} {w w' : World (σ × List Call) τ}
    (h : emit sink e w = .ok () w') (he : e.ofCommand? = none) :
    traceBetween events w w' [] = ⟨[], [], [], [], w.services.1⟩ := by
  simp [traceBetween, services_of_emit h, store_of_emit h, events_of_emit hs h, he, Store.size]

theorem untimed_skippedOutcomes (n : Nat) (cs : List Command) :
    (skippedOutcomes n cs).map .untimed = skippedOutcomes n cs := by
  induction cs generalizing n with
  | nil => rfl
  | cons c cs ih => rw [skippedOutcomes, List.map_cons, ih]; rfl

theorem ofCommand?_skippedEvents (n : Nat) (cs : List Command) :
    (skippedEvents n cs).filterMap Event.ofCommand? = skippedEvents n cs := by
  induction cs generalizing n with
  | nil => rfl
  | cons c cs ih => rw [skippedEvents, List.filterMap_cons, ih]; rfl

theorem Grows.of_skip (hs : sink.Records events) {n : Nat} {cs : List Command}
    {w w' : World (σ × List Call) τ} {os : List Outcome} (h : skip sink n cs w = .ok os w') :
    Grows events w w' :=
  .of_told (services_of_skip h) (store_of_skip h) ⟨skippedEvents n cs, (events_of_skip hs h).symm⟩

theorem traceBetween_skip (hs : sink.Records events) {n : Nat} {cs : List Command}
    {w w' : World (σ × List Call) τ} {os : List Outcome} (h : skip sink n cs w = .ok os w') :
    traceBetween events w w' os =
      ⟨skippedOutcomes n cs, skippedEvents n cs, [], [], w.services.1⟩ := by
  simp [traceBetween, services_of_skip h, store_of_skip h, events_of_skip hs h, skip_eq_ok h,
    untimed_skippedOutcomes, ofCommand?_skippedEvents, Store.size]

theorem Grows.of_performAll (hs : sink.Records events) (hf : sink.SparesFiles) {n : Nat}
    {cs : List Command} {w w' : World (σ × List Call) τ} {os : List Outcome}
    (h : performAll job invoker.recorded sink n cs w = .ok os w') : Grows events w w' := by
  have hself := (simulation_alike hs hf job job.elapsed job.elapsed invoker 0 w w).performAll n cs
    w w (.refl rfl rfl rfl)
  obtain ⟨_, _, -, -, hw⟩ := Agree.exists_eq_ok hself h
  exact hw.grows

/-- The trace of a run is what its commands add. -/
theorem traceOf_submit (job : Job) (invoker : Invoker σ) (hs : sink.Records events)
    (hf : sink.SparesFiles) (runId : String) {cs : List Command} {w₀ w₁ : World (σ × List Call) τ}
    (he : emit sink (.runStarted cs.length) w₀ = .ok () w₁) :
    traceOf events w₀ (submit job invoker.recorded sink runId cs w₀) =
      traceOfAll events w₁ (performAll job invoker.recorded sink 0 cs w₁) := by
  cases hp : performAll job invoker.recorded sink 0 cs w₁ with
  | error h w₂ => rw [submit_eq_error_iff.mpr (.inr ⟨w₁, he, .inl hp⟩), traceOf, traceOfAll]
  | ok os w₂ =>
      obtain ⟨w, hw, -⟩ :=
        emit_of_records hs (.runFinished (RunReport.mk runId os w₂.store).ok w₂.store.ids) w₂
      have hfirst := Grows.of_emit hs he
      have hmiddle := Grows.of_performAll hs hf hp
      have hlast := Grows.of_emit hs hw
      have htrace : traceBetween events w₀ w ([] ++ (os ++ [])) = traceBetween events w₁ w₂ os := by
        rw [traceBetween_append hfirst (hmiddle.trans hlast), traceBetween_append hmiddle hlast,
          traceBetween_emit hs he rfl, traceBetween_emit hs hw rfl]
        simp [Trace.append, traceBetween]
      rw [List.nil_append, List.append_nil] at htrace
      rw [submit_eq_ok_iff.mpr ⟨w₁, os, w₂, he, hp, rfl, hw⟩, traceOf, traceOfAll, htrace]

theorem allOk_of_twins {os os' : List Outcome} (h : List.Forall₂ (Twin job job' k) os os') :
    allOk os = allOk os' := by
  induction h with
  | nil => rfl
  | cons ho _ ih =>
      cases ho with
      | performed n id status =>
          cases status with
          | failed f => rfl
          | ok => exact ih
          | skipped => exact ih
      | skipped n id => exact ih

/-- In worlds that differ in the sink only, commands leave the same trace, indices aside. -/
theorem traceOfAll_alike (hs : sink.Records events) (hf : sink.SparesFiles) (job : Job)
    (elapsed elapsed' : Nat → Nat) (invoker : Invoker σ) (k n : Nat) (cs : List Command)
    {w v : World (σ × List Call) τ} (hservices : w.services = v.services)
    (hfiles : w.files = v.files) (hstore : w.store = v.store) :
    traceOfAll events w (performAll (job.timed elapsed) invoker.recorded sink (n + k) cs w) =
      (traceOfAll events v (performAll (job.timed elapsed') invoker.recorded sink n cs v)).map
        (.shift k) := by
  have hsim := (simulation_alike hs hf job elapsed elapsed' invoker k w v).performAll n cs w v
    (.refl hservices hfiles hstore)
  generalize performAll (job.timed elapsed) invoker.recorded sink (n + k) cs w = x at hsim ⊢
  generalize performAll (job.timed elapsed') invoker.recorded sink n cs v = y at hsim ⊢
  cases hsim with
  | ok hos hal => exact congrArg _ (hal.traceBetween_eq hservices hstore hos)
  | error _ => rfl

/-- Behind commands that have all succeeded, the trace goes on with that of the others. -/
theorem traceOfAll_append_of_ok (hs : sink.Records events) (hf : sink.SparesFiles) {n : Nat}
    {cs : List Command} {w w₁ : World (σ × List Call) τ} {os : List Outcome}
    (hp : performAll job invoker.recorded sink n cs w = .ok os w₁) (hok : allOk os = true)
    (ds : List Command) :
    traceOfAll events w (performAll job invoker.recorded sink n (cs ++ ds) w) =
      (traceOfAll events w₁ (performAll job invoker.recorded sink (n + cs.length) ds w₁)).map
        (traceBetween events w w₁ os).append := by
  rw [performAll_append_of_eq_ok hp, hok, goOn]
  cases hd : performAll job invoker.recorded sink (n + cs.length) ds w₁ with
  | ok os' w₂ =>
      exact congrArg _ (traceBetween_append (.of_performAll hs hf hp) (.of_performAll hs hf hd) ..)
  | error h w₂ => rfl

/-- Behind a command that has failed, the others are skipped. -/
theorem traceOfAll_append_of_not_ok (hs : sink.Records events) (hf : sink.SparesFiles) {n : Nat}
    {cs : List Command} {w w₁ : World (σ × List Call) τ} {os : List Outcome}
    (hp : performAll job invoker.recorded sink n cs w = .ok os w₁) (hok : allOk os = false)
    (ds : List Command) :
    traceOfAll events w (performAll job invoker.recorded sink n (cs ++ ds) w) =
      .ok ((traceBetween events w w₁ os).append
        ⟨skippedOutcomes (n + cs.length) ds, skippedEvents (n + cs.length) ds, [], [],
          w₁.services.1⟩) := by
  obtain ⟨w₂, hd⟩ := exists_skip_eq_ok hs (n + cs.length) ds w₁
  rw [performAll_append_of_eq_ok hp, hok, goOn, hd, prepend, traceOfAll,
    traceBetween_append (.of_performAll hs hf hp) (.of_skip hs hd), traceBetween_skip hs hd]

/-- **Runs compose.** If a run of `cs` is ok, a run of `cs ++ ds` is that run and then a run of
`ds` in the world that it leaves. If it fails, the run of `cs ++ ds` fails as it does, and skips
`ds`. -/
theorem submit_append (hs : sink.Records events) (hf : sink.SparesFiles) {runId : String}
    {cs : List Command} {report : RunReport} {w₀ w : World (σ × List Call) τ}
    (hr : submit job invoker.recorded sink runId cs w₀ = .ok report w) (ds : List Command)
    (runId₁ runId₂ : String) (elapsed₁ elapsed₂ : Nat → Nat) :
    let first := traceBetween events w₀ w report.outcomes
    let whole := traceOf events w₀
      (submit (job.timed elapsed₁) invoker.recorded sink runId₁ (cs ++ ds) w₀)
    let second := traceOf events w
      (submit (job.timed elapsed₂) invoker.recorded sink runId₂ ds w)
    (report.ok = true → whole = second.map first.andThen)
      ∧ (report.ok = false → whole = .ok (first.skipping ds)) := by
  intro first whole second
  obtain ⟨w₁, os, w₂, he, hp, rfl, hend⟩ := submit_eq_ok_iff.mp hr
  obtain ⟨t₁, ht₁, -⟩ := exists_emit_eq_ok hs hf (.runStarted cs.length) w₀
  obtain ⟨t, ht, -⟩ := exists_emit_eq_ok hs hf (.runFinished (allOk os) w₂.store.ids) w₂
  obtain ⟨t₂, ht₂, -⟩ := exists_emit_eq_ok hs hf (.runStarted (cs ++ ds).length) w₀
  obtain ⟨t₃, ht₃, -⟩ := exists_emit_eq_ok hs hf (.runStarted ds.length) w
  cases he.symm.trans ht₁
  cases hend.symm.trans ht
  -- The longer run does with `cs` what the run of `cs` does.
  obtain ⟨os₁, u, hp₁, hos, hal⟩ := Agree.exists_eq_ok
    ((simulation_alike hs hf job elapsed₁ job.elapsed invoker 0 { w₀ with sink := t₂ }
      { w₀ with sink := t₁ }).performAll 0 cs _ _ (.refl rfl rfl rfl)) hp
  have hfirst : traceBetween events { w₀ with sink := t₂ } u os₁ = first := by
    have hcs := traceOf_submit job invoker hs hf runId he
    rw [hr, hp] at hcs
    rw [hal.traceBetween_eq rfl rfl hos, Trace.shift_zero]
    exact (Except.ok.inj hcs).symm
  have hlength : first.outcomes.length = cs.length := by
    rw [← hfirst, traceBetween, List.length_map, length_of_performAll hp₁]
  have hwhole : whole = _ := traceOf_submit _ invoker hs hf runId₁ ht₂
  constructor
  · intro hok
    have hsecond : second = _ := traceOf_submit _ invoker hs hf runId₂ ht₃
    have hds := traceOfAll_alike hs hf job elapsed₁ elapsed₂ invoker cs.length 0 ds
      (v := { w₂ with sink := t₃ }) hal.services hal.files hal.store
    rw [hwhole, hsecond, traceOfAll_append_of_ok hs hf hp₁ ((allOk_of_twins hos).trans hok), hds,
      hfirst]
    cases traceOfAll events { w₂ with sink := t₃ } _ with
    | ok t =>
        show Except.ok (first.append (t.shift cs.length)) = .ok (first.andThen t)
        rw [Trace.andThen, hlength]
    | error h => rfl
  · intro hok
    rw [hwhole, traceOfAll_append_of_not_ok hs hf hp₁ ((allOk_of_twins hos).trans hok), hfirst]
    have hservices : u.services.1 = first.services := congrArg Prod.fst hal.services
    rw [Trace.append, Trace.skipping, hlength, hservices, Nat.zero_add, List.append_nil,
      List.append_nil]

end

/-- The run of the first `k` of three calls of a service that answers once. -/
def firstCallsRun (k : Nat) :
    EStateM.Result Halt (World (Nat × List Call) (List Event)) RunReport :=
  submit bareJob onceOnly.recorded Sink.memory "run" (threeCalls.take k)
    (World.start (0, []) [] .empty)

/-- Behind the first of the three calls the run goes on, behind the second it does not. -/
theorem submit_append_threeCalls :
    let start : World (Nat × List Call) (List Event) := World.start (0, []) [] .empty
    let whole (k : Nat) := traceOf id start (submit (bareJob.timed fun i => i) onceOnly.recorded
      Sink.memory "whole" (threeCalls.take k ++ threeCalls.drop k) start)
    (∃ report w, firstCallsRun 1 = .ok report w ∧ report.ok = true
      ∧ whole 1 = (traceOf id w (submit (bareJob.timed fun _ => 7) onceOnly.recorded Sink.memory
          "rest" (threeCalls.drop 1) w)).map (traceBetween id start w report.outcomes).andThen)
    ∧ ∃ report w, firstCallsRun 2 = .ok report w ∧ report.ok = false
      ∧ whole 2 = .ok ((traceBetween id start w report.outcomes).skipping (threeCalls.drop 2)) := by
  intro start whole
  have happend {k : Nat} {report : RunReport} {w : World (Nat × List Call) (List Event)}
      (h : firstCallsRun k = .ok report w) :=
    submit_append Sink.records_memory Sink.sparesFiles_memory h (threeCalls.drop k) "whole" "rest"
      (fun i => i) (fun _ => 7)
  obtain ⟨report, w, h, hok⟩ : ∃ report w, firstCallsRun 1 = .ok report w ∧ report.ok = true :=
    ⟨_, _, rfl, rfl⟩
  obtain ⟨report', w', h', hok'⟩ : ∃ report w, firstCallsRun 2 = .ok report w
      ∧ report.ok = false := ⟨_, _, rfl, rfl⟩
  exact ⟨⟨report, w, h, hok, (happend h).1 hok⟩, report', w', h', hok', (happend h').2 hok'⟩

end Run

end CallPlan
