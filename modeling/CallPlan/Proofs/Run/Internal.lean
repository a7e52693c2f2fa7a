import CallPlan.Proofs.Run.Checking
import CallPlan.Proofs.Run.Starting

/-!
# Failures that no plan can cause

A result may be published under an id that is taken, and a method may be called that is not
registered. Both have failures of their own, but a run of a plan from a file has neither: the
plan has passed its checks, so its ids are different and the id of a command is free when it is
published (`not_mem_take`); and the registry is made for the very commands that are performed, so
every call reaches a handler of the binder (`Registry.exists_invoke_of_build`). What is left are
handlers and sinks that raise these failures themselves.
-/

namespace CallPlan

open Sequencing

variable {σ τ : Type}

/-- The codes of failures that a plan cannot cause. -/
def internalCodes : List String :=
  ["store.duplicate_results_id", "capability.unregistered"]

/-- No handler that the binder gives fails with one of the codes. -/
def Binder.Avoids (binder : Binder σ) (codes : List String) : Prop :=
  ∀ objectType method handler, binder.Gives objectType method handler →
    ∀ params s f s', handler params s = .error (.failure f) s' → f.code ∉ codes

/-! ## The other failures of a command -/

namespace Template

/-- The codes of parameters that do not resolve. -/
def resolutionCodes : List String :=
  splicingCodes ++ deliveryCodes

theorem code_of_resolve_eq_error {scope : Scope} {params : Value} {f : Failure}
    (h : resolve scope params = .error (.failure f)) : f.code ∈ resolutionCodes := by
  by_cases hd : f.code ∈ deliveryCodes
  · exact List.mem_append_right _ hd
  · obtain ⟨-, place, text, -, -, -, hs, -⟩ := exists_spliceText_eq_error h hd
    exact List.mem_append_left _ (nowhere_cause.mp (failsOnly_spliceText text _ hs)).code

theorem not_mem_internalCodes {code : String} (h : code ∈ resolutionCodes) :
    code ∉ internalCodes := by
  revert code
  decide

end Template

theorem Expectation.code_of_verify_eq_error {id : String} {expected : List (Value × Value)}
    {result : Value} {f : Failure} (h : verify id expected result = .error (.failure f)) :
    f.code = "expectation.mismatch" := by
  unfold verify at h
  split at h
  · cases h
  · cases h
  · split at h <;> cases h
    rfl

namespace Run

section

variable {job : Job} {sink : Sink τ} {binder : Binder σ} {source : String}
  {commands : List Command} {registry : Registry σ} {s s' : σ} {f : Failure}

/-- A call of a command that the registry was made for fails as a handler of the binder does. -/
theorem code_of_call_eq_error
    (hbuild : Registry.build binder source commands s = .ok registry s')
    (ha : binder.Avoids internalCodes) {c : Command} (hc : c ∈ commands) {params : Value}
    {w w' : World σ τ} (h : call registry.invoker c params w = .error (.failure f) w') :
    f.code ∉ internalCodes := by
  obtain ⟨handler, hgives, hinvoke⟩ := Registry.exists_invoke_of_build hbuild hc
  obtain ⟨h', s₁, hcall, hf, -⟩ := call_eq_error_iff.mp h
  rw [hinvoke] at hcall
  cases h' with
  | failure f' =>
      cases hf
      exact ha _ _ _ hgives _ _ _ _ hcall
  | fault fault =>
      cases hf
      simp [Failure.code, Failure.Cause.code, internalCodes]

/-- When a command of a plan has begun and has been called, its id is free. -/
theorem publish_ne_error (hn : (commands.map Command.id).Nodup) {invoker : Invoker σ}
    {services : σ} {t : τ} {files : FileSystem} {k : Nat} {c : Command} {w : World σ τ}
    (hb : Begins job invoker sink commands (World.start services t files) k c w)
    {w₁ : World σ τ} (hstore : w₁.store = w.store) {result : Value} {h : Halt}
    {w₂ : World σ τ} : publish c.id result w₁ ≠ .error h w₂ := by
  intro hp
  obtain ⟨htaken, -, -⟩ := publish_eq_error_iff.mp hp
  have hfree : c.id ∉ w.store.ids := by
    rw [ids_of_begins hb]
    exact not_mem_take hn hb.1
  rw [hstore] at htaken
  exact htaken (Fields.get?_eq_none_iff.mpr hfree)

/-- A command of a plan fails with one of these codes only if the sink raises the failure. -/
theorem code_of_halts (hn : (commands.map Command.id).Nodup)
    (hbuild : Registry.build binder source commands s = .ok registry s')
    (ha : binder.Avoids internalCodes) {services : σ} {t : τ} {files : FileSystem} {k : Nat}
    {c : Command} {w w' : World σ τ}
    (hb : Begins job registry.invoker sink commands (World.start services t files) k c w)
    (h : Halts job registry.invoker sink k c w (.failure f) w') (hs : ¬ sink.Raises f) :
    f.code ∉ internalCodes := by
  cases h with
  | unresolved resolved =>
      exact Template.not_mem_internalCodes (Template.code_of_resolve_eq_error resolved)
  | untold _ told => exact absurd (raises_of_emit told) hs
  | uncalled _ _ called =>
      exact code_of_call_eq_error hbuild ha (List.mem_of_getElem? hb.1) called
  | unpublished _ told called published =>
      -- Neither telling the event nor the call publishes anything, so the id is still free.
      have hstore := (store_of_call_ok called).trans (store_of_emit told)
      exact absurd published (publish_ne_error hn hb hstore)
  | unexpected _ _ _ _ verified =>
      rw [Expectation.code_of_verify_eq_error verified]
      decide

/-- A failed outcome is that of a command that has begun and has stopped with the failure. -/
theorem exists_halts_of_outcome {invoker : Invoker σ} {runId : String} {w w' : World σ τ}
    {report : RunReport} (h : submit job invoker sink runId commands w = .ok report w')
    {o : Outcome} (ho : o ∈ report.outcomes) (hf : o.status = .failed f) :
    ∃ k c w₁ w₂, Begins job invoker sink commands w k c w₁
      ∧ Halts job invoker sink k c w₁ (.failure f) w₂ := by
  obtain ⟨w₁, os, w₂, he, hall, rfl, -⟩ := submit_eq_ok_iff.mp h
  rcases performAll_eq_ok_iff.mp hall with ⟨done, -, -, rfl⟩ |
    ⟨done, c, rest, w₃, f', hd, ⟨halted, -, -⟩, rfl, rfl⟩
  · rw [status_of_mem_okOutcomes ho] at hf
    cases hf
  · rw [Nat.zero_add] at halted
    rcases List.mem_append.mp ho with ho | ho
    · rw [status_of_mem_okOutcomes ho] at hf
      cases hf
    · rcases List.mem_cons.mp ho with rfl | ho
      · cases hf
        exact ⟨_, c, w₃, _, .intro he hd, halted⟩
      · rw [status_of_mem_skippedOutcomes ho] at hf
        cases hf

end

/-! ## Runs of plan files -/

/-- A command of a plan that is prepared from a file fails with one of these codes only if the
sink raises the failure. -/
theorem code_of_prepare {project : Project} {environ : Environment} {gateway : Gateway σ}
    (ha : ∀ settings s binder s', gateway.connect settings s = .ok binder s' →
      binder.Avoids internalCodes) {p : Path} {services : σ} {t : τ} {files : FileSystem}
    {plan : Plan} {registry : Registry σ} {w : World σ τ}
    (hprepare : prepare project environ gateway p (World.start services t files)
      = .ok (plan, registry) w) {job : Job} {sink : Sink τ} {k : Nat} {c : Command} {f : Failure}
    {w₁ w₂ : World σ τ} (hb : Begins job registry.invoker sink plan.commands w k c w₁)
    (h : Halts job registry.invoker sink k c w₁ (.failure f) w₂) (hs : ¬ sink.Raises f) :
    f.code ∉ internalCodes := by
  obtain ⟨settings, binder, s₁, s₂, hload, -, hconnect, hbuild, rfl⟩ :=
    prepare_eq_ok_iff.mp hprepare
  obtain ⟨v, -, hplan⟩ := bind_eq_ok_iff.mp hload
  have hn := Plan.nodup_ids (mapError_eq_ok_iff.mp hplan)
  exact code_of_halts hn hbuild (ha _ _ _ _ hconnect) hb h hs

/-- **No plan causes an internal failure.** Making the registry for commands never fails if binding
does not, so no method is ever registered twice. And if no handler of the gateway's binders raises
them itself, no command of a run fails with the code of an id that is taken or of a method that is
not registered, whether the run gives a report or not, unless the sink raises that failure. -/
theorem runFile_avoids_internal (project : Project) (environ : Environment) (gateway : Gateway σ)
    (sink : Sink τ) (base : Option Path) (elapsed : Nat → Nat) (runId : String) (p : Path)
    (services : σ) (t : τ) (files : FileSystem)
    (ha : ∀ settings s binder s', gateway.connect settings s = .ok binder s' →
      binder.Avoids internalCodes) :
    let job : Job := ⟨environ.get?, base, project, elapsed⟩
    let start := World.start services t files
    (∀ binder : Binder σ, binder.Binds → ∀ source commands s,
      ∃ registry s', Registry.build binder source commands s = .ok registry s')
    ∧ (∀ plan registry w, prepare project environ gateway p start = .ok (plan, registry) w →
      ∀ k c w₁ f w₂, Begins job registry.invoker sink plan.commands w k c w₁ →
        perform job registry.invoker sink k c w₁ = .error (.failure f) w₂ →
        ¬ sink.Raises f → f.code ∉ internalCodes)
    ∧ ∀ report w, runFile project environ gateway sink base elapsed runId p start = .ok report w →
      ∀ o ∈ report.outcomes, ∀ f, o.status = .failed f → ¬ sink.Raises f →
        f.code ∉ internalCodes := by
  refine ⟨fun binder hbinds => Registry.exists_build_eq_ok hbinds, ?_, ?_⟩
  · intro plan registry w hprepare k c w₁ f w₂ hb hp hs
    exact code_of_prepare ha hprepare hb (perform_eq_error_iff.mp hp) hs
  · intro report w hrun o ho f hf hs
    obtain ⟨plan, registry, w₁, hprepare, hsubmit⟩ := runFile_eq_ok_iff.mp hrun
    obtain ⟨k, c, w₂, w₃, hb, hh⟩ := exists_halts_of_outcome hsubmit ho hf
    exact code_of_prepare ha hprepare hb hh hs

/-! ## A service that answers once -/

/-- A gateway to a service that answers its first call only. -/
def onceGateway : Gateway Nat where
  name := "once"
  connect _ := pure ⟨fun objectType method => pure (onceOnly.invoke objectType method)⟩

theorem avoids_onceGateway {settings : Settings} {s s' : Nat} {binder : Binder Nat}
    (h : onceGateway.connect settings s = .ok binder s') : binder.Avoids internalCodes := by
  cases h
  rintro objectType method handler ⟨s₁, s₂, hbind⟩ params n f n' hcall
  cases hbind
  simp only [onceOnly] at hcall
  split at hcall <;> cases hcall
  decide

/-- The plan calls one method twice. It is registered once, and the second call fails as the
service does. -/
theorem runFile_avoids_internal_onceGateway :
    (∀ settings s binder s', onceGateway.connect settings s = .ok binder s' →
      binder.Avoids internalCodes)
    ∧ ∃ report w, runFile .bare [] onceGateway Sink.memory none (fun _ => 0) "run"
        (.ofText "plan.json") (World.start 0 [] repeatedFiles) = .ok report w
      ∧ report.failedIndex? = some 1
      ∧ ∀ o ∈ report.outcomes, ∀ f, o.status = .failed f → f.code ∉ internalCodes := by
  have havoids : ∀ settings s binder s', onceGateway.connect settings s = .ok binder s' →
      binder.Avoids internalCodes := fun _ _ _ _ => avoids_onceGateway
  refine ⟨havoids, ?_⟩
  have hload : load (.ofText "plan.json") (World.start 0 ([] : List Event) repeatedFiles) =
      .ok repeatedPlan (World.start 0 [] repeatedFiles) :=
    lift_eq_ok_iff.mpr ⟨load_repeatedFiles, rfl⟩
  obtain ⟨report, w, hrun, hfailed⟩ : ∃ report w,
      runFile .bare [] onceGateway Sink.memory none (fun _ => 0) "run" (.ofText "plan.json")
        (World.start 0 [] repeatedFiles) = .ok report w ∧ report.failedIndex? = some 1 := by
    refine ⟨_, _, runFile_eq_ok_iff.mpr ⟨repeatedPlan, _, _,
      run_bind_eq_ok_iff.mpr ⟨_, _, hload, rfl⟩, rfl⟩, rfl⟩
  refine ⟨report, w, hrun, hfailed, fun o ho f hf => ?_⟩
  exact (runFile_avoids_internal .bare [] onceGateway Sink.memory none (fun _ => 0) "run"
    (.ofText "plan.json") 0 [] repeatedFiles havoids).2.2 report w hrun o ho f hf
    (Sink.returns_memory.ordinary.not_raises f)

end Run

end CallPlan
