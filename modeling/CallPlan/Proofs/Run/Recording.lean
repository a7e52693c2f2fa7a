import CallPlan.Proofs.Run.Simulation

/-!
# Records of a run

What a run does shows in the calls that reach the services, in the events that reach the
sink and in the results. Any invoker can be made to keep a record of its calls, which does
not change what it does (`submit_recorded`); a sink keeps a record of events if it returns
from each and notes it. A step adds to each record what `Performs` says, and commands that
succeed add their parts in a row. However a run ends, its calls are those of commands from
the first on, each called once when it has begun (`exists_called`).
-/

namespace CallPlan

/-- A call as the services see it. -/
structure Call where
  objectType : String
  method : String
  params : Value
  deriving BEq, Repr

/-- The call of a command with resolved parameters. -/
def Command.callWith (c : Command) (params : Value) : Call :=
  ⟨c.objectType, c.method, params⟩

/-- The calls of commands with the parameters beside them. -/
def callsOf (called : List (Command × Value)) : List Call :=
  called.map fun d => d.1.callWith d.2

/-- The invoker with a record of its calls, whatever they end with. -/
def Invoker.recorded {σ : Type} (invoker : Invoker σ) : Invoker (σ × List Call) where
  invoke objectType method params := fun (s, calls) =>
    match invoker.invoke objectType method params s with
    | .ok v s => .ok v (s, calls ++ [⟨objectType, method, params⟩])
    | .error h s => .error h (s, calls ++ [⟨objectType, method, params⟩])

/-- The sink returns from every event, and `events` reads off its state which it was told. -/
def Sink.Records {τ : Type} (sink : Sink τ) (events : τ → List Event) : Prop :=
  ∀ e t fs, ∃ t' fs', sink.emit e (t, fs) = .ok () (t', fs') ∧ events t' = events t ++ [e]

/-- The sink whose state is the list of events it was told. -/
def Sink.memory : Sink (List Event) where
  emit e := fun (told, files) => .ok () (told ++ [e], files)

theorem Sink.records_memory : Sink.memory.Records id :=
  fun e t fs => ⟨t ++ [e], fs, rfl, rfl⟩

namespace Run

open Sequencing

variable {σ τ : Type} {job : Job} {invoker : Invoker σ} {sink : Sink τ}

/-! ## Events -/

section

variable {events : τ → List Event} (hs : sink.Records events)

include hs

theorem emit_of_records (e : Event) (w : World σ τ) :
    ∃ w', emit sink e w = .ok () w' ∧ events w'.sink = events w.sink ++ [e] := by
  obtain ⟨t', fs', he, ht⟩ := hs e w.sink w.files
  exact ⟨{ w with sink := t', files := fs' }, by simp [emit, he], ht⟩

/-- A recording sink refuses no event. -/
theorem emit_ne_error {e : Event} {w w' : World σ τ} {h : Halt} :
    emit sink e w ≠ .error h w' := by
  obtain ⟨w₁, he, -⟩ := emit_of_records hs e w
  simp [he]

theorem events_of_emit {e : Event} {w w' : World σ τ} (h : emit sink e w = .ok () w') :
    events w'.sink = events w.sink ++ [e] := by
  obtain ⟨w₁, he, ht⟩ := emit_of_records hs e w
  rw [he] at h
  cases h
  exact ht

end

theorem sink_of_call_ok {c : Command} {p r : Value} {w w' : World σ τ}
    (h : call invoker c p w = .ok r w') : w'.sink = w.sink := by
  obtain ⟨s, -, rfl⟩ := call_eq_ok_iff.mp h
  rfl

theorem sink_of_publish_ok {id : String} {v : Value} {w w' : World σ τ}
    (h : publish id v w = .ok () w') : w'.sink = w.sink := by
  obtain ⟨-, rfl⟩ := publish_eq_ok_iff.mp h
  rfl

/-- The events of commands that succeed, the first with index `n`. -/
def okEvents (job : Job) : Nat → List (Command × Value) → List Event
  | _, [] => []
  | n, (c, p) :: cs =>
      .commandStarted n c.id c.capability p.summary
        :: .commandCompleted n c.id (job.elapsed n) :: okEvents job (n + 1) cs

/-- The events of the command with index `n` that fails, with its parameters if they
resolve. -/
def failedEvents (job : Job) (n : Nat) (c : Command) (params? : Option Value) (f : Failure) :
    List Event :=
  (params?.map fun p => .commandStarted n c.id c.capability p.summary).toList
    ++ [.commandFailed n c.id (job.elapsed n) f]

/-- The events of commands that are skipped, the first with index `n`. -/
def skippedEvents : Nat → List Command → List Event
  | _, [] => []
  | n, c :: cs => .commandSkipped n c.id :: skippedEvents (n + 1) cs

theorem events_of_completes {events : τ → List Event} (hs : sink.Records events) {n : Nat}
    {done : List (Command × Value)} {w w' : World σ τ}
    (h : Completes job invoker sink n done w w') :
    events w'.sink = events w.sink ++ okEvents job n done := by
  induction h with
  | nil => simp [okEvents]
  | cons hp he _ ih =>
      obtain ⟨-, ht, hc, hu, -⟩ := hp
      rw [ih, events_of_emit hs he, sink_of_publish_ok hu, sink_of_call_ok hc,
        events_of_emit hs ht]
      simp [okEvents]

theorem events_of_skip {events : τ → List Event} (hs : sink.Records events) {n : Nat}
    {cs : List Command} {w w' : World σ τ} {os : List Outcome}
    (h : skip sink n cs w = .ok os w') :
    events w'.sink = events w.sink ++ skippedEvents n cs := by
  induction cs generalizing n w os with
  | nil => cases h; simp [skippedEvents]
  | cons c cs ih =>
      simp only [skip, run_bind_eq_ok_iff] at h
      obtain ⟨_, w₁, he, rest, w₂, hr, ho⟩ := h
      cases ho
      rw [ih hr, events_of_emit hs he]
      simp [skippedEvents]

/-! ## Results -/

theorem ids_of_publish_ok {id : String} {v : Value} {w w' : World σ τ}
    (h : publish id v w = .ok () w') : w'.store.ids = w.store.ids ++ [id] := by
  obtain ⟨hg, rfl⟩ := publish_eq_ok_iff.mp h
  simp [Store.ids, Store.push, Fields.keys]

theorem store_of_call_ok {c : Command} {p r : Value} {w w' : World σ τ}
    (h : call invoker c p w = .ok r w') : w'.store = w.store := by
  obtain ⟨s, -, rfl⟩ := call_eq_ok_iff.mp h
  rfl

/-- A command that succeeds adds its id to those of the results. -/
theorem Performs.ids {n : Nat} {c : Command} {p r : Value} {w w' : World σ τ}
    (h : Performs job invoker sink n c p r w w') : w'.store.ids = w.store.ids ++ [c.id] := by
  obtain ⟨-, ht, hc, hu, -⟩ := h
  rw [ids_of_publish_ok hu, store_of_call_ok hc, store_of_emit ht]

theorem Completes.ids {n : Nat} {done : List (Command × Value)} {w w' : World σ τ}
    (h : Completes job invoker sink n done w w') :
    w'.store.ids = w.store.ids ++ done.map (·.1.id) := by
  induction h with
  | nil => simp
  | cons hp he _ ih =>
      rw [ih, store_of_emit he, hp.ids]
      simp

theorem store_of_skip {n : Nat} {cs : List Command} {w w' : World σ τ} {os : List Outcome}
    (h : skip sink n cs w = .ok os w') : w'.store = w.store := by
  simpa [h] using (services_store_skip sink n cs w).2

theorem services_of_skip {n : Nat} {cs : List Command} {w w' : World σ τ} {os : List Outcome}
    (h : skip sink n cs w = .ok os w') : w'.services = w.services := by
  simpa [h] using (services_store_skip sink n cs w).1

/-! ## Calls -/

/-- A recorded call adds itself to the record, whatever it ends with. -/
theorem calls_call (invoker : Invoker σ) (c : Command) (p : Value) (w : World (σ × List Call) τ) :
    (after (call invoker.recorded c p w)).services.2 = w.services.2 ++ [c.callWith p] := by
  obtain ⟨⟨s, calls⟩, t, fs, store⟩ := w
  simp only [call, Invoker.recorded]
  cases invoker.invoke c.objectType c.method p s <;> rfl

theorem calls_of_call_ok {c : Command} {p r : Value} {w w' : World (σ × List Call) τ}
    (h : call invoker.recorded c p w = .ok r w') :
    w'.services.2 = w.services.2 ++ [c.callWith p] := by
  simpa [h] using calls_call invoker c p w

theorem calls_of_call_error {c : Command} {p : Value} {h : Halt}
    {w w' : World (σ × List Call) τ}
    (hc : call invoker.recorded c p w = .error h w') :
    w'.services.2 = w.services.2 ++ [c.callWith p] := by
  simpa [hc] using calls_call invoker c p w

theorem services_of_publish_ok {id : String} {v : Value} {w w' : World σ τ}
    (h : publish id v w = .ok () w') : w'.services = w.services := by
  obtain ⟨-, rfl⟩ := publish_eq_ok_iff.mp h
  rfl

theorem Performs.calls {n : Nat} {c : Command} {p r : Value} {w w' : World (σ × List Call) τ}
    (h : Performs job invoker.recorded sink n c p r w w') :
    w'.services.2 = w.services.2 ++ [c.callWith p] := by
  obtain ⟨-, ht, hc, hu, -⟩ := h
  rw [services_of_publish_ok hu, calls_of_call_ok hc, services_of_emit ht]

theorem Completes.calls {n : Nat} {done : List (Command × Value)}
    {w w' : World (σ × List Call) τ}
    (h : Completes job invoker.recorded sink n done w w') :
    w'.services.2 = w.services.2 ++ callsOf done := by
  induction h with
  | nil => simp [callsOf]
  | cons hp he _ ih =>
      rw [ih, services_of_emit he, hp.calls]
      simp [callsOf]

/-- Between two worlds the command `c` is called at most once, and then its parameters have
resolved in the first. -/
def CallsOnce (job : Job) (c : Command) (w w' : World (σ × List Call) τ) : Prop :=
  w'.services.2 = w.services.2
    ∨ ∃ p, Template.resolve (scope job w) c.params = .ok p
      ∧ w'.services.2 = w.services.2 ++ [c.callWith p]

theorem CallsOnce.trans_services {c : Command} {w w₁ w' : World (σ × List Call) τ}
    (h : CallsOnce job c w w₁) (hs : w'.services = w₁.services) : CallsOnce job c w w' := by
  unfold CallsOnce
  rwa [hs]

section

variable {w₀ w w' : World (σ × List Call) τ} {n : Nat} {c : Command} {rest : List Command}

theorem services_of_emit_error {e : Event} {h : Halt} {w w' : World σ τ}
    (he : emit sink e w = .error h w') : w'.services = w.services := by
  simpa [he] using services_emit sink e w

theorem Performs.callsOnce {p r : Value} (h : Performs job invoker.recorded sink n c p r w w') :
    CallsOnce job c w w' := by
  obtain ⟨hp, -⟩ := id h
  exact .inr ⟨p, hp, h.calls⟩

theorem Halts.callsOnce {h : Halt} (hh : Halts job invoker.recorded sink n c w h w') :
    CallsOnce job c w w' := by
  cases hh with
  | unresolved _ => exact .inl rfl
  | untold _ he => exact .inl (congrArg Prod.snd (services_of_emit_error he))
  | uncalled hp he hc => exact .inr ⟨_, hp, by rw [calls_of_call_error hc, services_of_emit he]⟩
  | unpublished hp he hc hu =>
      obtain ⟨-, -, rfl⟩ := publish_eq_error_iff.mp hu
      exact .inr ⟨_, hp, by rw [calls_of_call_ok hc, services_of_emit he]⟩
  | unexpected hp he hc hu _ =>
      exact .inr ⟨_, hp, by
        rw [services_of_publish_ok hu, calls_of_call_ok hc, services_of_emit he]⟩

theorem Aborts.callsOnce {f : Failure} (h : Aborts job invoker.recorded sink n c rest w f w') :
    CallsOnce job c w w' := by
  obtain ⟨hh, he, hs⟩ := h
  exact hh.callsOnce.trans_services ((services_of_skip hs).trans (services_of_emit he))

theorem Breaks.callsOnce {h : Halt} (hb : Breaks job invoker.recorded sink n c rest w h w') :
    CallsOnce job c w w' := by
  cases hb with
  | faulted hh => exact hh.callsOnce
  | uncompleted hp he => exact hp.callsOnce.trans_services (services_of_emit_error he)
  | unreported hh he => exact hh.callsOnce.trans_services (services_of_emit_error he)
  | @unskipped f _ w₁ w₂ _ hh he hs =>
      have hskip : w'.services = w₂.services := by
        simpa [hs] using (services_store_skip sink (n + 1) rest w₂).1
      exact hh.callsOnce.trans_services (hskip.trans (services_of_emit he))

end

section

variable {runId : String} {commands : List Command} {w₀ : World (σ × List Call) τ}

/-- However a run ends, it has gone through commands that succeed and has then called at most
the command behind them. -/
theorem submit_reaches (runId : String) (commands : List Command)
    (w₀ : World (σ × List Call) τ) :
    let w := after (submit job invoker.recorded sink runId commands w₀)
    w.services = w₀.services
      ∨ ∃ w₁ done w₂, emit sink (.runStarted commands.length) w₀ = .ok () w₁
        ∧ Completes job invoker.recorded sink 0 done w₁ w₂
        ∧ ((commands = done.map Prod.fst ∧ w.services = w₂.services)
          ∨ ∃ c rest, commands = done.map Prod.fst ++ c :: rest ∧ CallsOnce job c w₂ w) := by
  have hperform {w₁ w₂ : World (σ × List Call) τ} {os : List Outcome}
      (hp : performAll job invoker.recorded sink 0 commands w₁ = .ok os w₂) :
      ∃ done w₃, Completes job invoker.recorded sink 0 done w₁ w₃
        ∧ ((commands = done.map Prod.fst ∧ w₂.services = w₃.services)
          ∨ ∃ c rest, commands = done.map Prod.fst ++ c :: rest ∧ CallsOnce job c w₃ w₂) := by
    rcases performAll_eq_ok_iff.mp hp with ⟨done, hd, hc, -⟩ | ⟨done, c, rest, w₃, f, hd, ha, hc, -⟩
    · exact ⟨done, w₂, hd, .inl ⟨hc, rfl⟩⟩
    · exact ⟨done, w₃, hd, .inr ⟨c, rest, hc, ha.callsOnce⟩⟩
  cases hs : submit job invoker.recorded sink runId commands w₀ with
  | ok report w =>
      obtain ⟨w₁, os, w₂, he, hp, -, hf⟩ := submit_eq_ok_iff.mp hs
      have hw := services_of_emit hf
      obtain ⟨done, w₃, hd, hend⟩ := hperform hp
      refine .inr ⟨w₁, done, w₃, he, hd, hend.imp (fun h => ⟨h.1, hw.trans h.2⟩) ?_⟩
      rintro ⟨c, rest, hc, hcall⟩
      exact ⟨c, rest, hc, hcall.trans_services hw⟩
  | error h w =>
      rcases submit_eq_error_iff.mp hs with he | ⟨w₁, he, hp | ⟨os, w₂, hp, hf⟩⟩
      · exact .inl (services_of_emit_error he)
      · obtain ⟨done, c, rest, w₃, hd, hb, hc⟩ := performAll_eq_error hp
        exact .inr ⟨w₁, done, w₃, he, hd, .inr ⟨c, rest, hc, hb.callsOnce⟩⟩
      · have hw := services_of_emit_error hf
        obtain ⟨done, w₃, hd, hend⟩ := hperform hp
        refine .inr ⟨w₁, done, w₃, he, hd, hend.imp (fun h => ⟨h.1, hw.trans h.2⟩) ?_⟩
        rintro ⟨c, rest, hc, hcall⟩
        exact ⟨c, rest, hc, hcall.trans_services hw⟩

end

/-- However a run ends, its calls are those of commands from the first on, each called once,
when it has begun and with the parameters that it has then. -/
theorem exists_called (runId : String) (commands : List Command)
    {w₀ : World (σ × List Call) τ} (h₀ : w₀.services.2 = []) :
    ∃ called, (after (submit job invoker.recorded sink runId commands w₀)).services.2
        = callsOf called
      ∧ called.map Prod.fst <+: commands
      ∧ ∀ i c p, called[i]? = some (c, p) →
        ∃ w, Begins job invoker.recorded sink commands w₀ i c w
          ∧ Template.resolve (scope job w) c.params = .ok p := by
  rcases submit_reaches runId commands w₀ with hs | ⟨w₁, done, w₂, he, hd, hend⟩
  · exact ⟨[], by rw [hs, h₀]; rfl, List.nil_prefix, by simp⟩
  have hdone : w₂.services.2 = callsOf done := by
    rw [hd.calls, services_of_emit he, h₀]
    rfl
  rcases hend with ⟨rfl, hs⟩ | ⟨c, rest, rfl, hs | ⟨p, hp, hs⟩⟩
  · refine ⟨done, by rw [hs, hdone], List.prefix_rfl, fun i c p hi => ?_⟩
    rw [← List.append_nil (done.map Prod.fst)] at he ⊢
    exact Begins.of_mem he hd hi
  · exact ⟨done, by rw [hs, hdone], List.prefix_append _ _,
      fun i c p hi => Begins.of_mem he hd hi⟩
  · refine ⟨done ++ [(c, p)], ?_, ⟨rest, by simp⟩, fun i c' p' hi => ?_⟩
    · rw [hs, hdone, callsOf, callsOf, List.map_append]
      rfl
    · by_cases hlt : i < done.length
      · rw [List.getElem?_append_left hlt] at hi
        exact Begins.of_mem he hd hi
      · have hle : i < (done ++ [(c, p)]).length := (List.getElem?_eq_some_iff.mp hi).1
        obtain rfl : i = done.length := by
          rw [List.length_append, List.length_singleton] at hle
          omega
        rw [List.getElem?_append_right (Nat.le_refl _), Nat.sub_self] at hi
        cases hi
        exact ⟨w₂, .intro he hd, hp⟩

/-! ## Recording changes nothing -/

/-- The world without the record of calls. -/
def forget (w : World (σ × List Call) τ) : World σ τ :=
  ⟨w.services.1, w.sink, w.files, w.store⟩

/-- The outcome of a step in the world without the record. -/
def forgetResult {α : Type} :
    EStateM.Result Halt (World (σ × List Call) τ) α → EStateM.Result Halt (World σ τ) α
  | .ok a w => .ok a (forget w)
  | .error h w => .error h (forget w)

/-- The second world is the first without the record. -/
def Forgotten (w : World (σ × List Call) τ) (v : World σ τ) : Prop :=
  v = forget w

theorem forgetResult_eq {α : Type} {x : EStateM Halt (World (σ × List Call) τ) α}
    {y : EStateM Halt (World σ τ) α} (h : Simulates Forgotten Eq x y)
    (w : World (σ × List Call) τ) : forgetResult (x w) = y (forget w) := by
  have hw := h w (forget w) rfl
  generalize x w = rx at hw ⊢
  generalize y (forget w) = ry at hw ⊢
  cases hw with
  | ok ha hw => rw [forgetResult, ha, ← hw]
  | error hw => rw [forgetResult, ← hw]

theorem emit_forgotten (sink : Sink τ) (e : Event) :
    Simulates (Forgotten (σ := σ)) Eq (emit sink e) (emit sink e) := by
  rintro w _ rfl
  simp only [emit, forget]
  cases sink.emit e (w.sink, w.files) with
  | ok u s => exact .ok rfl rfl
  | error h s =>
      by_cases ho : isOrdinary h = true
      · simp only [ho, if_true]
        exact .ok rfl rfl
      · simp only [ho]
        exact .error rfl

theorem call_forgotten (invoker : Invoker σ) (c : Command) (p : Value) :
    Simulates (Forgotten (τ := τ)) Eq (call invoker.recorded c p) (call invoker c p) := by
  rintro w _ rfl
  simp only [call, Invoker.recorded, forget]
  cases invoker.invoke c.objectType c.method p w.services.1 with
  | ok r s => exact .ok rfl rfl
  | error h s => exact .error rfl

theorem publish_forgotten (id : String) (v : Value) :
    Simulates (Forgotten (σ := σ) (τ := τ)) Eq (publish id v) (publish id v) := by
  rintro w _ rfl
  simp only [publish, forget]
  cases w.store.publish id v with
  | ok store => exact .ok rfl rfl
  | error cause => exact .error rfl

theorem simulation_forgotten (job : Job) (invoker : Invoker σ) (sink : Sink τ) :
    Simulation job job invoker.recorded invoker sink sink 0 Forgotten where
  resolve := by
    rintro w _ params rfl
    rfl
  emit e e' h := by
    cases h <;> exact emit_forgotten sink _
  call := call_forgotten invoker
  publish := publish_forgotten

/-- A run that records its calls is the run that does not, with the record beside it. -/
theorem submit_recorded (runId : String) (commands : List Command)
    (w : World (σ × List Call) τ) :
    forgetResult (submit job invoker.recorded sink runId commands w) =
      submit job invoker sink runId commands (forget w) := by
  have hstore : ∀ (w : World (σ × List Call) τ) v, Forgotten w v → w.store = v.store := by
    rintro w _ rfl
    rfl
  exact forgetResult_eq ((simulation_forgotten job invoker sink).submit (emit_forgotten sink)
    hstore runId commands) w

end Run

end CallPlan
