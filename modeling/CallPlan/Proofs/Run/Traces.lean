import CallPlan.Proofs.Run.Recording

/-!
# The traces of a run

A run that returns leaves a report, and beside it the events it told, the calls it made
and the results it published. `submit_traces` says how they belong together: a run either
succeeds as a whole (`Succeeded`) or stops at one command (`Stopped`), and then `Fails`
says at which of four points. That point decides whether the command was told to start,
whether it was called and whether its result stays.
-/

namespace CallPlan.Run

open Sequencing

variable {σ τ : Type} {job : Job} {invoker : Invoker σ} {sink : Sink τ}

/-! ## Outcomes by index -/

theorem getElem?_okOutcomes (n : Nat) (cs : List Command) (i : Nat) :
    (okOutcomes job n cs)[i]? = cs[i]?.map fun c => outcomeOf job (n + i) c .ok := by
  induction cs generalizing n i with
  | nil => rfl
  | cons c cs ih =>
      cases i with
      | zero => rfl
      | succ i => simp [okOutcomes, ih, Nat.add_assoc, Nat.add_comm 1 i]

theorem getElem?_skippedOutcomes (n : Nat) (cs : List Command) (i : Nat) :
    (skippedOutcomes n cs)[i]? = cs[i]?.map fun c => ⟨n + i, c.id, .skipped, 0⟩ := by
  induction cs generalizing n i with
  | nil => rfl
  | cons c cs ih =>
      cases i with
      | zero => rfl
      | succ i => simp [skippedOutcomes, ih, Nat.add_assoc, Nat.add_comm 1 i]

@[simp] theorem length_okOutcomes (n : Nat) (cs : List Command) :
    (okOutcomes job n cs).length = cs.length := by
  induction cs generalizing n with
  | nil => rfl
  | cons c cs ih => simp [okOutcomes, ih]

@[simp] theorem length_skippedOutcomes (n : Nat) (cs : List Command) :
    (skippedOutcomes n cs).length = cs.length := by
  induction cs generalizing n with
  | nil => rfl
  | cons c cs ih => simp [skippedOutcomes, ih]

/-- The outcomes of a run that stops at `c`. -/
def stoppedOutcomes (job : Job) (before : List Command) (c : Command) (f : Failure)
    (rest : List Command) : List Outcome :=
  okOutcomes job 0 before
    ++ outcomeOf job before.length c (.failed f) :: skippedOutcomes (before.length + 1) rest

theorem failed?_stoppedOutcomes (runId : String) (before : List Command) (c : Command)
    (f : Failure) (rest : List Command) (results : Store) :
    (RunReport.mk runId (stoppedOutcomes job before c f rest) results).failed? =
      some (outcomeOf job before.length c (.failed f)) := by
  rw [RunReport.failed?, stoppedOutcomes, List.find?_append, find?_okOutcomes]
  rfl

theorem getElem?_stoppedOutcomes (before : List Command) (c : Command) (f : Failure)
    (rest : List Command) (i : Nat) :
    (stoppedOutcomes job before c f rest)[i]? =
      if i < before.length then before[i]?.map fun c => outcomeOf job i c .ok
      else if i = before.length then some (outcomeOf job i c (.failed f))
      else (before ++ c :: rest)[i]?.map fun c => ⟨i, c.id, .skipped, 0⟩ := by
  rw [stoppedOutcomes]
  split
  · next h => rw [List.getElem?_append_left (by simpa using h), getElem?_okOutcomes, Nat.zero_add]
  · next h =>
    rw [List.getElem?_append_right (by simpa using h), List.getElem?_append_right (by omega),
      length_okOutcomes]
    split
    · next he => simp [he]
    · next he =>
      obtain ⟨j, rfl⟩ : ∃ j, i = before.length + 1 + j := ⟨i - before.length - 1, by omega⟩
      have hj : before.length + 1 + j - before.length = j + 1 := by omega
      rw [hj, List.getElem?_cons_succ, List.getElem?_cons_succ, getElem?_skippedOutcomes]

/-! ## The point of a failure -/

/-- The command `c`, which begins in `w`, fails with `f`. Its parameters resolve to
`params?`, if they do, and its result is `published` or not. -/
inductive Fails (job : Job) (invoker : Invoker σ) (c : Command) (w : World σ τ) (f : Failure) :
    (params? : Option Value) → (published : Bool) → Prop
  /-- The parameters do not resolve. -/
  | unresolved (resolved : Template.resolve (scope job w) c.params = .error (.failure f)) :
      Fails job invoker c w f none false
  /-- The call raises an error. -/
  | uncalled {p : Value} {h : Halt} {s : σ}
      (resolved : Template.resolve (scope job w) c.params = .ok p)
      (called : invoker.invoke c.objectType c.method p w.services = .error h s)
      (raised : reported c.capability h = .failure f) :
      Fails job invoker c w f (some p) false
  /-- The call returns, but the id is taken. -/
  | unpublished {p r : Value} {s : σ}
      (resolved : Template.resolve (scope job w) c.params = .ok p)
      (called : invoker.invoke c.objectType c.method p w.services = .ok r s)
      (taken : c.id ∈ w.store.ids)
      (raised : f = .of (.duplicateId c.id)) :
      Fails job invoker c w f (some p) false
  /-- The result is published, but it does not have the expected properties. -/
  | unexpected {p r : Value} {s : σ}
      (resolved : Template.resolve (scope job w) c.params = .ok p)
      (called : invoker.invoke c.objectType c.method p w.services = .ok r s)
      (free : c.id ∉ w.store.ids)
      (verified : Expectation.verify c.id c.expected r = .error (.failure f)) :
      Fails job invoker c w f (some p) true

theorem mem_ids_iff {s : Store} {id : String} : id ∈ s.ids ↔ s.get? id ≠ none := by
  rw [Store.get?, ne_eq, Fields.get?_eq_none_iff, Decidable.not_not]
  rfl

/-- What a command that fails adds to the traces. -/
theorem Halts.traces {events : τ → List Event} (hs : sink.Records events) {n : Nat}
    {c : Command} {f : Failure} {w w' : World (σ × List Call) τ}
    (h : Halts job invoker.recorded sink n c w (.failure f) w') :
    ∃ params? published, Fails job invoker.recorded c w f params? published
      ∧ events w'.sink = events w.sink
        ++ (params?.map fun p => .commandStarted n c.id c.capability p.summary).toList
      ∧ w'.services.2 = w.services.2 ++ (params?.map c.callWith).toList
      ∧ w'.store.ids = w.store.ids ++ if published then [c.id] else [] := by
  cases h with
  | unresolved hp => exact ⟨none, false, .unresolved hp, by simp, by simp, by simp⟩
  | untold _ he => exact absurd he (emit_ne_error hs)
  | @uncalled p _ w₁ _ hp he hc =>
      have htold := events_of_emit hs he
      have hcalls := calls_of_call_error hc
      obtain ⟨h', s, hi, hr, rfl⟩ := call_eq_error_iff.mp hc
      rw [services_of_emit he] at hi
      refine ⟨some p, false, .uncalled hp hi hr.symm, htold, ?_, ?_⟩
      · rw [hcalls, services_of_emit he]
        rfl
      · simp [store_of_emit he]
  | @unpublished p r _ w₁ w₂ _ hp he hc hu =>
      obtain ⟨s, hi, -⟩ := call_eq_ok_iff.mp hc
      rw [services_of_emit he] at hi
      obtain ⟨ht, hf, rfl⟩ := publish_eq_error_iff.mp hu
      have hst : w'.store = w.store := (store_of_call_ok hc).trans (store_of_emit he)
      cases hf
      refine ⟨some p, false, .unpublished hp hi (mem_ids_iff.mpr (hst ▸ ht)) rfl, ?_, ?_, ?_⟩
      · rw [sink_of_call_ok hc, events_of_emit hs he]
        rfl
      · rw [calls_of_call_ok hc, services_of_emit he]
        rfl
      · simp [hst]
  | @unexpected p r _ w₁ w₂ _ hp he hc hu hv =>
      obtain ⟨s, hi, -⟩ := call_eq_ok_iff.mp hc
      rw [services_of_emit he] at hi
      have hst : w₂.store = w.store := (store_of_call_ok hc).trans (store_of_emit he)
      have hfree : c.id ∉ w.store.ids := by
        obtain ⟨hg, -⟩ := publish_eq_ok_iff.mp hu
        rw [hst] at hg
        exact fun hm => mem_ids_iff.mp hm hg
      refine ⟨some p, true, .unexpected hp hi hfree hv, ?_, ?_, ?_⟩
      · rw [sink_of_publish_ok hu, sink_of_call_ok hc, events_of_emit hs he]
        rfl
      · rw [services_of_publish_ok hu, calls_of_call_ok hc, services_of_emit he]
        rfl
      · rw [ids_of_publish_ok hu, hst]
        rfl

/-! ## Three calls of a service that answers once -/

/-- A service that answers its first call only. -/
def onceOnly : Invoker Nat where
  invoke _ _ _ := fun n =>
    if n = 0 then .ok (.map []) 1 else .error (.cause (.other .invocation "down" none)) (n + 1)

/-- A job without variables and with the settings that come with the program. -/
def bareJob : Job := ⟨fun _ => none, none, .shipped, fun _ => 0⟩

/-- Three calls without parameters. -/
def threeCalls : List Command :=
  ["a", "b", "c"].map fun id => ⟨"object", "method", .map [], id, []⟩

/-- The run of three calls of a service that answers once. -/
def threeCallsRun : EStateM.Result Halt (World (Nat × List Call) (List Event)) RunReport :=
  submit bareJob onceOnly.recorded Sink.memory "run" threeCalls (World.start (0, []) [] .empty)

/-! ## Whole runs -/

/-- The traces of a run whose commands all succeed, with the parameters in `done`. -/
structure Succeeded (job : Job) (commands : List Command) (done : List (Command × Value))
    (report : RunReport) (told : List Event) (calls : List Call) : Prop where
  commands_eq : commands = done.map Prod.fst
  ok : report.ok = true
  failedIndex : report.failedIndex? = none
  statuses : ∀ o ∈ report.outcomes, o.status = .ok
  told : told = .runStarted commands.length :: okEvents job 0 done
    ++ [.runFinished true report.results.ids]
  calls : calls = callsOf done
  ids : report.results.ids = commands.map Command.id

/-- The traces of a run that stops at `c` with `f`, behind the commands in `done`. The
parameters of `c` resolve to `params?`, if they do, and its result is `published` or not. -/
structure Stopped (job : Job) (commands : List Command) (done : List (Command × Value))
    (c : Command) (rest : List Command) (f : Failure) (params? : Option Value)
    (published : Bool) (report : RunReport) (told : List Event) (calls : List Call) : Prop where
  commands_eq : commands = done.map Prod.fst ++ c :: rest
  ok : report.ok = false
  failedIndex : report.failedIndex? = some done.length
  before : ∀ i o, report.outcomes[i]? = some o → i < done.length → o.status = .ok
  failed : report.outcomes[done.length]?.map Outcome.status = some (.failed f)
  behind : ∀ i o, report.outcomes[i]? = some o → done.length < i → o.status = .skipped
  told : told = .runStarted commands.length :: okEvents job 0 done
    ++ failedEvents job done.length c params? f ++ skippedEvents (done.length + 1) rest
    ++ [.runFinished false report.results.ids]
  calls : calls = callsOf done ++ (params?.map c.callWith).toList
  ids : report.results.ids = done.map (·.1.id) ++ if published then [c.id] else []

/-- Outcomes have the indices and ids of the commands, in order. -/
def Aligned (commands : List Command) (outcomes : List Outcome) : Prop :=
  outcomes.length = commands.length
    ∧ ∀ i (o : Outcome), outcomes[i]? = some o → o.index = i ∧ commands[i]?.map Command.id = some o.id

theorem aligned_okOutcomes (cs : List Command) : Aligned cs (okOutcomes job 0 cs) := by
  refine ⟨length_okOutcomes 0 cs, fun i o ho => ?_⟩
  rw [getElem?_okOutcomes, Option.map_eq_some_iff] at ho
  obtain ⟨c, hc, rfl⟩ := ho
  simp [hc, outcomeOf]

theorem aligned_stoppedOutcomes (before : List Command) (c : Command) (f : Failure)
    (rest : List Command) :
    Aligned (before ++ c :: rest) (stoppedOutcomes job before c f rest) := by
  refine ⟨by simp [stoppedOutcomes], fun i o ho => ?_⟩
  rw [getElem?_stoppedOutcomes] at ho
  split at ho
  · next h =>
    obtain ⟨c', hc, rfl⟩ := Option.map_eq_some_iff.mp ho
    simp [List.getElem?_append_left h, hc, outcomeOf]
  · split at ho
    · next h =>
      cases ho
      simp [h, outcomeOf]
    · obtain ⟨c', hc, rfl⟩ := Option.map_eq_some_iff.mp ho
      simp [hc]

/-- The report of a run that stops: its statuses change once, at the failure. -/
theorem status_stoppedOutcomes {before : List Command} {c : Command} {f : Failure}
    {rest : List Command} {i : Nat} {o : Outcome}
    (h : (stoppedOutcomes job before c f rest)[i]? = some o) :
    (i < before.length → o.status = .ok) ∧ (before.length < i → o.status = .skipped) := by
  rw [getElem?_stoppedOutcomes] at h
  split at h
  · obtain ⟨c', -, rfl⟩ := Option.map_eq_some_iff.mp h
    exact ⟨fun _ => rfl, fun hi => by omega⟩
  · split at h
    · exact ⟨fun hi => by omega, fun hi => by omega⟩
    · obtain ⟨c', -, rfl⟩ := Option.map_eq_some_iff.mp h
      exact ⟨fun hi => by omega, fun _ => rfl⟩

section

variable {events : τ → List Event} {runId : String} {commands : List Command} {s : σ} {t : τ}
  {files : FileSystem} {done : List (Command × Value)} {w₁ w₂ w : World (σ × List Call) τ}

theorem succeeded_of_completes (hs : sink.Records events) {report : RunReport}
    (he : emit sink (.runStarted commands.length) (World.start (s, []) t files) = .ok () w₁)
    (hd : Completes job invoker.recorded sink 0 done w₁ w₂) (hc : commands = done.map Prod.fst)
    (hr : report = ⟨runId, okOutcomes job 0 commands, w₂.store⟩)
    (hf : emit sink (.runFinished report.ok w₂.store.ids) w₂ = .ok () w) :
    ∃ told, events w.sink = events t ++ told
      ∧ Succeeded job commands done report told w.services.2 := by
  have hfailed : report.failed? = none := by rw [hr]; exact find?_okOutcomes 0 commands
  have hok : report.ok = true := by simp [RunReport.ok, hfailed]
  have hids : w₂.store.ids = commands.map Command.id := by
    rw [hd.ids, store_of_emit he, hc]
    simp [World.start, Store.ids, Store.empty, Fields.keys]
  have htold : events w.sink = events t ++ (.runStarted commands.length :: okEvents job 0 done
      ++ [.runFinished true report.results.ids]) := by
    rw [events_of_emit hs hf, events_of_completes hs hd, events_of_emit hs he, hok, hr]
    simp [World.start]
  refine ⟨_, htold, hc, hok, ?_, ?_, rfl, ?_, ?_⟩
  · simp [RunReport.failedIndex?, hfailed]
  · rw [hr]
    exact fun o => status_of_mem_okOutcomes
  · rw [services_of_emit hf, hd.calls, services_of_emit he]
    rfl
  · rw [hr]
    exact hids

theorem stopped_of_aborts (hs : sink.Records events) {c : Command} {rest : List Command}
    {f : Failure} {report : RunReport} {w₃ : World (σ × List Call) τ}
    (he : emit sink (.runStarted commands.length) (World.start (s, []) t files) = .ok () w₁)
    (hd : Completes job invoker.recorded sink 0 done w₁ w₃)
    (ha : Aborts job invoker.recorded sink done.length c rest w₃ f w₂)
    (hc : commands = done.map Prod.fst ++ c :: rest)
    (hr : report = ⟨runId, stoppedOutcomes job (done.map Prod.fst) c f rest, w₂.store⟩)
    (hf : emit sink (.runFinished report.ok w₂.store.ids) w₂ = .ok () w) :
    ∃ params? published told, events w.sink = events t ++ told
      ∧ Fails job invoker.recorded c w₃ f params? published
      ∧ Stopped job commands done c rest f params? published report told w.services.2 := by
  obtain ⟨hh, hfail, hskip⟩ := ha
  obtain ⟨params?, published, hfails, htold₄, hcalls₄, hids₄⟩ := hh.traces hs
  have hfailed : report.failed? = some (outcomeOf job done.length c (.failed f)) := by
    rw [hr, failed?_stoppedOutcomes, List.length_map]
  have hok : report.ok = false := by simp [RunReport.ok, hfailed]
  have htold : events w.sink = events t ++ (.runStarted commands.length :: okEvents job 0 done
      ++ failedEvents job done.length c params? f ++ skippedEvents (done.length + 1) rest
      ++ [.runFinished false report.results.ids]) := by
    rw [events_of_emit hs hf, events_of_skip hs hskip, events_of_emit hs hfail, htold₄,
      events_of_completes hs hd, events_of_emit hs he, hok, hr]
    simp [World.start, failedEvents]
  refine ⟨params?, published, _, htold, hfails, hc, hok, ?_, ?_, ?_, ?_, rfl, ?_, ?_⟩
  · simp [RunReport.failedIndex?, hfailed, outcomeOf]
  · rw [hr]
    exact fun i o hi hlt => (status_stoppedOutcomes hi).1 (by simpa using hlt)
  · simp [hr, getElem?_stoppedOutcomes, outcomeOf]
  · rw [hr]
    exact fun i o hi hlt => (status_stoppedOutcomes hi).2 (by simpa using hlt)
  · rw [services_of_emit hf, services_of_skip hskip, services_of_emit hfail, hcalls₄, hd.calls,
      services_of_emit he]
    rfl
  · rw [hr]
    show w₂.store.ids = _
    rw [store_of_skip hskip, store_of_emit hfail, hids₄, hd.ids, store_of_emit he]
    simp [World.start, Store.ids, Store.empty, Fields.keys]

/-- **The traces of a run agree.** A run that returns reports on every command, in order;
the events, the calls and the results are those of the commands that succeeded, together
with what the command at which it stopped has left. -/
theorem submit_traces (hs : sink.Records events) {report : RunReport}
    (h : submit job invoker.recorded sink runId commands (World.start (s, []) t files)
      = .ok report w) :
    report.results = w.store ∧ Aligned commands report.outcomes
      ∧ ∃ done told, events w.sink = events t ++ told
        ∧ (∀ i c p, done[i]? = some (c, p) →
          ∃ w₁, Begins job invoker.recorded sink commands (World.start (s, []) t files) i c w₁
            ∧ Template.resolve (scope job w₁) c.params = .ok p)
        ∧ (Succeeded job commands done report told w.services.2
          ∨ ∃ c rest f params? published w₁,
            Begins job invoker.recorded sink commands (World.start (s, []) t files)
                done.length c w₁
              ∧ Fails job invoker.recorded c w₁ f params? published
              ∧ Stopped job commands done c rest f params? published report told
                w.services.2) := by
  obtain ⟨w₁, os, w₂, he, hp, hr, hf⟩ := submit_eq_ok_iff.mp h
  have hstore : report.results = w.store := by rw [hr, store_of_emit hf]
  rcases performAll_eq_ok_iff.mp hp with ⟨done, hd, hc, ho⟩ | ⟨done, c, rest, w₃, f, hd, ha, hc, ho⟩
  · rw [ho] at hr
    obtain ⟨told, htold, hsucc⟩ := succeeded_of_completes hs he hd hc hr hf
    refine ⟨hstore, ?_, done, told, htold, ?_, .inl hsucc⟩
    · rw [hr]
      exact aligned_okOutcomes commands
    · rw [← List.append_nil (done.map Prod.fst)] at hc
      rw [hc] at he ⊢
      exact fun i c p hi => Begins.of_mem he hd hi
  · rw [Nat.zero_add] at ha
    have hos : os = stoppedOutcomes job (done.map Prod.fst) c f rest := by
      rw [ho, stoppedOutcomes, List.length_map, Nat.zero_add]
    rw [hos] at hr
    obtain ⟨params?, published, told, htold, hfails, hstop⟩ :=
      stopped_of_aborts hs he hd ha hc hr hf
    refine ⟨hstore, ?_, done, told, htold, ?_, .inr
      ⟨c, rest, f, params?, published, w₃, ?_, hfails, hstop⟩⟩
    · rw [hr, hc]
      exact aligned_stoppedOutcomes ..
    · rw [hc] at he ⊢
      exact fun i c p hi => Begins.of_mem he hd hi
    · rw [hc] at he ⊢
      exact .intro he hd

end

/-- Of three calls of a service that answers once, the first succeeds, the second fails and
the third is never made. -/
theorem submit_traces_threeCalls :
    ∃ report w, threeCallsRun = .ok report w ∧ report.failedIndex? = some 1
      ∧ w.services.2.length = 2 ∧ Aligned threeCalls report.outcomes := by
  obtain ⟨report, w, h, hk, hc⟩ : ∃ report w, threeCallsRun = .ok report w
      ∧ report.failedIndex? = some 1 ∧ w.services.2.length = 2 := ⟨_, _, rfl, rfl, rfl⟩
  exact ⟨report, w, h, hk, hc, (submit_traces Sink.records_memory h).2.1⟩

end CallPlan.Run
