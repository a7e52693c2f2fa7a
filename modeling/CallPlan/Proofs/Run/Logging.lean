import CallPlan.Proofs.Json.Exporting
import CallPlan.Proofs.Run.Appending
import CallPlan.Proofs.Run.Refusals
import Mathlib.Logic.Relation

/-!
# Runs that write the event log

The log looks at settings of any kind, makes directories, measures files and writes them, and each
of these may fail. A run survives every such failure but one: that of a size limit which is an
infinite number (`appendAt_eq_error_ordinary`). The log trips over it when an append gets as far
as to ask for the limit (`Trips`).

A run whose log never trips shows what it would show if the log never failed, and if no payload
is read from what the log writes, the same as with any sink that returns. A run whose log trips
at the first event is over before anything is called (`submit_logged`).
-/

namespace CallPlan

open Sequencing

variable {σ τ τ' : Type}

namespace Log

variable {table : Toml.Members} {project : Project}

/-! ## Failures of the log -/

/-- An append at the day would ask for the limit, which is infinite. -/
def Trips (project : Project) (s : Log × FileSystem) (day : Date) : Prop :=
  s.1.sizeLimit project = .error .infiniteInteger ∧ ∃ root made,
    s.1.root project = .ok root ∧ s.2.makeDirectories (root.child (dayName day)) = .ok made

/-- Some append takes the log and the files from one state to another. -/
def Appends (project : Project) (s s' : Log × FileSystem) : Prop :=
  ∃ stamp now event, after (appendAt project stamp now event s) = s'

/-- Appends take the log and the files from one state to another. -/
def Reaches (project : Project) : Log × FileSystem → Log × FileSystem → Prop :=
  Relation.ReflTransGen (Appends project)

/-- Appends can bring the log to trip. -/
def MayTrip (project : Project) (s : Log × FileSystem) : Prop :=
  ∃ s' day, Reaches project s s' ∧ Trips project s' day

theorem Reaches.step {s s' : Log × FileSystem} (h : Reaches project s s') (stamp now : DateTime)
    (event : Value) : Reaches project s (after (appendAt project stamp now event s')) :=
  h.tail ⟨stamp, now, event, rfl⟩

theorem Reaches.exists_current {s s' : Log × FileSystem} (h : Reaches project s s') :
    ∃ current, s'.1 = { s.1 with current } := by
  induction h with
  | refl => exact ⟨s.1.current, rfl⟩
  | tail _ hstep ih =>
      obtain ⟨current, hcurrent⟩ := ih
      obtain ⟨stamp, now, event, rfl⟩ := hstep
      obtain ⟨current', left, hafter⟩ := exists_after_appendAt project stamp now event _
      rw [hafter, hcurrent]
      exact ⟨current', rfl⟩

/-- A log with a limit never trips. -/
theorem not_mayTrip_of_sizeLimit {s : Log × FileSystem}
    (h : s.1.sizeLimit project ≠ .error .infiniteInteger) : ¬ MayTrip project s := by
  rintro ⟨s', day, hreaches, htrips⟩
  obtain ⟨current, hcurrent⟩ := hreaches.exists_current
  have hlimit := htrips.1
  rw [hcurrent] at hlimit
  exact h hlimit

theorem setting_eq_error {path : String} {default : Value} (hd : default.kind ≠ .null)
    {f : Fault} : (Project.settings table).setting path default ≠ .error f := by
  simp only [Project.setting]
  cases Project.find? (Project.keys path) (.table table) <;> simp [hd]

/-- Of all settings that are no directory, a run survives each. -/
theorem root_eq_error {log : Log} {f : Fault} (h : log.root (.settings table) = .error f) :
    Run.isOrdinary (.fault f) = true := by
  unfold root at h
  cases hdirectory : log.directory with
  | some p =>
      rw [hdirectory] at h
      cases h
  | none =>
      rw [hdirectory] at h
      rcases bind_eq_error_iff.mp h with h | ⟨v, -, h⟩
      · exact absurd h (setting_eq_error (by decide))
      · cases v <;> cases h
        all_goals rfl

theorem wholeNumber_eq_error {v : Value} {f : Fault} (h : Project.wholeNumber v = .error f) :
    Run.isOrdinary (.fault f) = true ∨ f = .infiniteInteger := by
  unfold Project.wholeNumber at h
  split at h
  · cases h
  · cases h
  · split at h
    · cases h
    · split at h <;> cases h
      · exact .inl rfl
      · exact .inr rfl
  · split at h <;> cases h
    exact .inl rfl
  · cases h
    exact .inl rfl

/-- Of all settings that are no limit, a run survives each but an infinite number. -/
theorem sizeLimit_eq_error {log : Log} {f : Fault}
    (h : log.sizeLimit (.settings table) = .error f) :
    Run.isOrdinary (.fault f) = true ∨ f = .infiniteInteger := by
  have hsetting : ∀ f, settingLimit (.settings table) = .error f →
      Run.isOrdinary (.fault f) = true ∨ f = .infiniteInteger := by
    intro f h
    rcases bind_eq_error_iff.mp h with h | ⟨v, -, h⟩
    · exact absurd h (setting_eq_error (by decide))
    · exact wholeNumber_eq_error h
  unfold sizeLimit at h
  split at h
  · split at h
    · exact hsetting f h
    · cases h
  · exact hsetting f h

theorem line_eq_error {stamp : DateTime} {fields : List (String × Value)} {f : Fault}
    (h : line stamp (.record fields) = .error f) : Run.isOrdinary (.fault f) = true := by
  rcases bind_eq_error_iff.mp h with h | ⟨es, -, h⟩
  · obtain ⟨e, he, -⟩ := mapError_eq_error_iff.mp h
    cases he
  · split at h <;> cases h <;> rfl

theorem isOrdinary_file (e : FileError) : Run.isOrdinary (.fault (.file e)) = true := by
  by_cases hnull : e.cause = .nullCharacter <;> simp [Run.isOrdinary, Fault.family, hnull]

/-- A run survives all that can go wrong in an append, unless the log trips. -/
theorem appendAt_eq_error_ordinary {stamp now : DateTime} {fields : List (String × Value)}
    {s s' : Log × FileSystem} {f : Fault}
    (h : appendAt (.settings table) stamp now (.record fields) s = .error f s') :
    Run.isOrdinary (.fault f) = true ∨ Trips (.settings table) s now.date := by
  obtain ⟨hfails, -⟩ := appendAt_eq_error h
  cases hfails with
  | line h => exact .inl (line_eq_error h)
  | root h => exact .inl (root_eq_error h)
  | file e => exact .inl (isOrdinary_file e)
  | limit hroot hmade h =>
      rcases sizeLimit_eq_error h with hordinary | rfl
      · exact .inl hordinary
      · exact .inr ⟨h, _, _, hroot, hmade⟩

/-- An append that trips is over with the limit, and leaves the directory of the day. -/
theorem appendAt_of_trips {es : List (Value × Value)} (h : Value.entriesTextKeyed es = true)
    (hw : Value.entriesWritable es = true) (stamp : DateTime) {now : DateTime}
    {s : Log × FileSystem} (htrips : Trips project s now.date) :
    ∃ s', appendAt project stamp now (.map es) s = .error .infiniteInteger s' := by
  obtain ⟨hlimit, root, made, hroot, hmade⟩ := htrips
  obtain ⟨j, -, hline⟩ := exists_line h hw stamp
  exact ⟨_, appendAt_of_sizeLimit hline hroot hmade hlimit⟩

end Log

/-! ## The log as a sink -/

/-- The sink appends each event to the log in what it knows, at the times that the clock in what
it knows tells, and passes on every failure. -/
structure Sink.Logs (sink : Sink τ) (project : Project) (runId : String) (log : τ → Log)
    (clock : τ → DateTime × DateTime) : Prop where
  emits : ∀ e t fs, ∃ t',
    let appended := Log.appendAt project (clock t).1 (clock t).2 (.record (e.fields runId))
      (log t, fs)
    log t' = (after appended).1 ∧
      sink.emit e (t, fs) = match appended with
        | .ok _ (_, left) => .ok () (t', left)
        | .error f (_, left) => .error (.fault f) (t', left)

theorem Log.logs_sink (project : Project) (now : DateTime) (runId : String) :
    (Log.sink project now runId).Logs project runId id fun _ => (now, now) where
  emits e log fs := by
    cases h : Log.append project now (.record (e.fields runId)) (log, fs) with
    | ok p s => exact ⟨s.1, by simp_all [Log.append, Log.sink]⟩
    | error f s => exact ⟨s.1, by simp_all [Log.append, Log.sink]⟩

namespace Sink.Logs

variable {sink : Sink τ} {project : Project} {table : Toml.Members} {runId : String}
  {log : τ → Log} {clock : τ → DateTime × DateTime}

/-- What the sink leaves is what an append leaves. -/
theorem reaches (h : sink.Logs project runId log clock) {s₀ : Log × FileSystem} {e : Event}
    {s : τ × FileSystem} (hs : Log.Reaches project s₀ (log s.1, s.2)) :
    Log.Reaches project s₀ (log (after (sink.emit e s)).1, (after (sink.emit e s)).2) := by
  obtain ⟨t, fs⟩ := s
  obtain ⟨t', hlog, hemit⟩ := h.emits e t fs
  have hstep := hs.step (clock t).1 (clock t).2 (.record (e.fields runId))
  cases happended : Log.appendAt project (clock t).1 (clock t).2 (.record (e.fields runId))
      (log t, fs) with
  | ok p s =>
      simp only [happended, after_ok] at hlog hemit hstep
      rw [hemit, after_ok, hlog]
      exact hstep
  | error f s =>
      simp only [happended, after_error] at hlog hemit hstep
      rw [hemit, after_error, hlog]
      exact hstep

/-- A run survives what the sink answers, unless the log trips. -/
theorem ordinaryAt (h : sink.Logs (.settings table) runId log clock) {t : τ} {fs : FileSystem}
    (hno : ¬ Log.Trips (.settings table) (log t, fs) (clock t).2.date) (e : Event) :
    sink.OrdinaryAt e (t, fs) := by
  intro halt s' herror
  obtain ⟨t', -, hemit⟩ := h.emits e t fs
  rw [hemit] at herror
  cases happended : Log.appendAt (.settings table) (clock t).1 (clock t).2
      (.record (e.fields runId)) (log t, fs) with
  | ok p s =>
      simp only [happended] at herror
      cases herror
  | error f s =>
      simp only [happended] at herror
      cases herror
      rcases Log.appendAt_eq_error_ordinary happended with hordinary | htrips
      · exact hordinary
      · exact absurd htrips hno

/-- If the log trips at an event, the sink fails with the limit. -/
theorem emit_of_trips (h : sink.Logs project runId log clock) {t : τ} {fs : FileSystem}
    (htrips : Log.Trips project (log t, fs) (clock t).2.date) {commands : Nat}
    (hw : Numeral.isWritable commands = true) :
    ∃ s', sink.emit (.runStarted commands) (t, fs) = .error (.fault .infiniteInteger) s' := by
  obtain ⟨t', -, hemit⟩ := h.emits (.runStarted commands) t fs
  obtain ⟨es, hes, hkeys, hwritable⟩ : ∃ es,
      Value.record ((Event.runStarted commands).fields runId) = .map es ∧
        Value.entriesTextKeyed es = true ∧ Value.entriesWritable es = true := by
    refine ⟨_, rfl, rfl, ?_⟩
    simp [Event.fields, Event.details, Value.entriesWritable, Value.isWritable, hw]
  obtain ⟨s, hs⟩ := Log.appendAt_of_trips hkeys hwritable (clock t).1 htrips
  rw [hes, hs] at hemit
  exact ⟨_, hemit⟩

end Sink.Logs

namespace Run

/-- No append changes what the parameters of the commands resolve to: no payload is read from the
files of the log. -/
def Unseen (job : Job) (commands : List Command) (s : Log × FileSystem) : Prop :=
  ∀ c ∈ commands, ∀ s', Log.Reaches job.project s s' → ∀ results,
    Template.resolve (scopeIn job results s'.2) c.params =
      Template.resolve (scopeIn job results s.2) c.params

section

variable {sink : Sink τ} {table : Toml.Members} {runId : String} {log : τ → Log}
  {clock : τ → DateTime × DateTime} {job : Job} {s₀ : Log × FileSystem}

theorem shadows_calmed_of_logs (h : sink.Logs job.project runId log clock)
    (hproject : job.project = .settings table) (hno : ¬ Log.MayTrip job.project s₀)
    (commands : List Command) :
    Shadows job job commands sink sink.calmed fun s s' =>
      s = s' ∧ Log.Reaches job.project s₀ (log s.1, s.2) where
  ordinary e s s' hs := by
    rw [hproject] at h hno hs
    exact h.ordinaryAt (fun htrips => hno ⟨_, _, hs.2, htrips⟩) e
  ordinary' e _ s _ := sink.returns_calmed.ordinary e s
  told := by
    rintro e e' he s _ ⟨rfl, hs⟩
    have hsame : e = e' := he.elim id eq_of_counterpart
    subst hsame
    exact ⟨rfl, h.reaches hs⟩
  resolved := by
    rintro c - s _ ⟨rfl, -⟩ results
    rfl

theorem shadows_of_unseen (h : sink.Logs job.project runId log clock)
    (hproject : job.project = .settings table) (hno : ¬ Log.MayTrip job.project s₀)
    {commands : List Command} (hunseen : Unseen job commands s₀) {quiet : Sink τ'}
    (hreturns : quiet.Returns) (hspares : quiet.SparesFiles) (elapsed : Nat → Nat) :
    Shadows job (job.timed elapsed) commands sink quiet fun s s' =>
      s'.2 = s₀.2 ∧ Log.Reaches job.project s₀ (log s.1, s.2) where
  ordinary e s s' hs := by
    rw [hproject] at h hno hs
    exact h.ordinaryAt (fun htrips => hno ⟨_, _, hs.2, htrips⟩) e
  ordinary' e _ s _ := hreturns.ordinary e s
  told e e' _ s s' hs := ⟨(hspares e' s').trans hs.1, h.reaches hs.2⟩
  resolved c hc s s' hs results := by
    have hsame := hunseen c hc _ hs.2 results
    rw [hs.1]
    exact hsame

/-- If the log trips at the first event, the run is over before anything is called. -/
theorem submit_of_trips (h : sink.Logs job.project runId log clock) {w : World σ τ}
    (htrips : Log.Trips job.project (log w.sink, w.files) (clock w.sink).2.date)
    (invoker : Invoker σ) (runId' : String) {commands : List Command}
    (hw : Numeral.isWritable commands.length = true) :
    ∃ w', submit job invoker sink runId' commands w = .error (.fault .infiniteInteger) w' ∧
      w'.services = w.services := by
  obtain ⟨s, hs⟩ := h.emit_of_trips htrips hw
  have hemit := emit_of_extraordinary hs rfl
  exact ⟨_, run_bind_eq_error_iff.mpr (.inl hemit), rfl⟩

/-- **The event log does not break a run unless its limit is infinite.** Whatever the settings,
the log and the files are: if the log never trips, a run that writes it shows the same as with a
log whose failures are kept to itself; and if no payload is read from the files of the log, the
same as with every sink that returns from each event and leaves the files alone. If the log trips
at the first event, which tells the number of commands, the run is over with the limit, and nothing
has been called. -/
theorem submit_logged (hproject : job.project = .settings table)
    (h : sink.Logs job.project runId log clock) (invoker : Invoker σ) (commands : List Command)
    (runId' : String) (services : σ) (t : τ) (files : FileSystem) :
    let run := submit job invoker.recorded sink runId commands
      (World.start (services, []) t files)
    (¬ Log.MayTrip job.project (log t, files) →
      SameRun run (submit job invoker.recorded sink.calmed runId' commands
        (World.start (services, []) t files))
      ∧ (Unseen job commands (log t, files) → ∀ {τ' : Type} (quiet : Sink τ') (t' : τ')
        (elapsed : Nat → Nat), quiet.Returns → quiet.SparesFiles →
        SameRun run (submit (job.timed elapsed) invoker.recorded quiet runId' commands
          (World.start (services, []) t' files))))
    ∧ (Log.Trips job.project (log t, files) (clock t).2.date →
      Numeral.isWritable commands.length = true →
      ∃ w, run = .error (.fault .infiniteInteger) w ∧ w.services = (services, [])) := by
  refine ⟨fun hno => ⟨?_, fun hunseen τ' quiet t' elapsed hreturns hspares => ?_⟩,
    fun htrips hw => ?_⟩
  · have hshadows := shadows_calmed_of_logs h hproject hno commands
    exact hshadows.submit invoker.recorded runId runId' ⟨rfl, rfl, rfl, .refl⟩
  · have hshadows := shadows_of_unseen h hproject hno hunseen hreturns hspares elapsed
    exact hshadows.submit invoker.recorded runId runId' ⟨rfl, rfl, rfl, .refl⟩
  · exact submit_of_trips (w := World.start (services, []) t files) h htrips invoker.recorded
      runId hw

end

/-- A job whose size limit for the log is infinite. -/
def infiniteJob : Job :=
  { bareJob with project := .settings [("log", .table [("max_bytes", .float (.infinite false))])] }

def newYear : DateTime := ⟨⟨2024, 1, 1⟩, ⟨0, 0, 0, 0, some 0⟩⟩

/-- Three calls told to a log whose limit is infinite. -/
def infiniteRun : EStateM.Result Halt (World (Nat × List Call) Log) RunReport :=
  submit infiniteJob onceOnly.recorded (Log.sink infiniteJob.project newYear "run") "run"
    threeCalls (World.start (0, []) .unconfigured .empty)

theorem trips_infiniteJob :
    Log.Trips infiniteJob.project (.unconfigured, .empty) newYear.date := by
  have hmade : (FileSystem.empty.makeDirectories
      ⟨.relative, ["logs", "runs", "20240101"]⟩).toOption.isSome = true := by decide +kernel
  refine ⟨rfl, ⟨.relative, ["logs", "runs"]⟩, ?_⟩
  cases h : FileSystem.empty.makeDirectories ⟨.relative, ["logs", "runs", "20240101"]⟩ with
  | ok made => exact ⟨made, rfl, h⟩
  | error e =>
      rw [h] at hmade
      cases hmade

/-- With the settings that come with the program the run shows the same as with a sink that
returns; with an infinite limit it is over before the first call. -/
theorem submit_logged_threeCalls :
    SameRun
      (submit bareJob onceOnly.recorded (Log.sink .shipped newYear "run") "run" threeCalls
        (World.start (0, []) .unconfigured .empty))
      (submit (bareJob.timed fun i => i) onceOnly.recorded Sink.memory "other" threeCalls
        (World.start (0, []) [] .empty))
    ∧ ∃ w, infiniteRun = .error (.fault .infiniteInteger) w ∧ w.services = (0, []) := by
  have hno : ¬ Log.MayTrip bareJob.project (.unconfigured, .empty) :=
    Log.not_mayTrip_of_sizeLimit nofun
  have hunseen : Unseen bareJob threeCalls (.unconfigured, .empty) := by
    intro c hc s' _ results
    obtain ⟨id, -, rfl⟩ := List.mem_map.mp hc
    rfl
  have hshipped := submit_logged rfl (Log.logs_sink bareJob.project newYear "run") onceOnly
    threeCalls "other" 0 .unconfigured .empty
  have hinfinite := submit_logged rfl (Log.logs_sink infiniteJob.project newYear "run")
    onceOnly threeCalls "run" 0 .unconfigured .empty
  exact ⟨(hshipped.1 hno).2 hunseen Sink.memory [] (fun i => i) Sink.returns_memory
    Sink.sparesFiles_memory, hinfinite.2 trips_infiniteJob (by decide)⟩

/-- A limit that is infinite ends the run with an error that is not ordinary. -/
theorem infiniteRun_eq_error : ∃ w, infiniteRun = .error (.fault .infiniteInteger) w := by
  obtain ⟨w, hw, -⟩ := submit_of_trips (Log.logs_sink infiniteJob.project newYear "run")
    (w := World.start (0, []) .unconfigured .empty) trips_infiniteJob onceOnly.recorded "run"
    (show Numeral.isWritable threeCalls.length = true by decide)
  exact ⟨w, hw⟩

end Run

end CallPlan
