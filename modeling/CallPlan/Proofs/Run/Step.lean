import CallPlan.Proofs.Sequencing
import CallPlan.Run.Execution

/-!
# What one command does

`perform` is taken apart once. `Performs` lists what happens to a command that succeeds
and `Halts` the five places where one can stop, each with the world it leaves; the two
are exactly the outcomes of `perform` (`perform_eq_ok_iff`, `perform_eq_error_iff`).
Everything about runs follows from these two relations and from what each part leaves
alone: telling an event touches the sink and the files only, a call the services only,
and publishing the store only.
-/

namespace CallPlan.Run

open Sequencing

variable {σ τ : Type}

/-! ## The parts of a step -/

theorem lift_eq_ok_iff {ω α : Type} {x : Except Halt α} {w w' : ω} {a : α} :
    lift x w = .ok a w' ↔ x = .ok a ∧ w' = w := by
  cases x <;> simp [lift, eq_comm]

theorem lift_eq_error_iff {ω α : Type} {x : Except Halt α} {w w' : ω} {h : Halt} :
    lift x w = .error h w' ↔ x = .error h ∧ w' = w := by
  cases x <;> simp [lift, eq_comm]

/-- Telling an event leaves the services alone, also where the sink raises an error. -/
@[simp] theorem services_emit (sink : Sink τ) (e : Event) (w : World σ τ) :
    (after (emit sink e w)).services = w.services := by
  unfold emit
  split
  · rfl
  · split <;> rfl

/-- Telling an event leaves the results alone. -/
@[simp] theorem store_emit (sink : Sink τ) (e : Event) (w : World σ τ) :
    (after (emit sink e w)).store = w.store := by
  unfold emit
  split
  · rfl
  · split <;> rfl

theorem services_of_emit {sink : Sink τ} {e : Event} {w w' : World σ τ}
    (h : emit sink e w = .ok () w') : w'.services = w.services := by
  simpa [h] using services_emit sink e w

theorem store_of_emit {sink : Sink τ} {e : Event} {w w' : World σ τ}
    (h : emit sink e w = .ok () w') : w'.store = w.store := by
  simpa [h] using store_emit sink e w

/-- A call passes on what the service answers, and changes the services only. -/
theorem call_eq_ok_iff {invoker : Invoker σ} {c : Command} {p r : Value} {w w' : World σ τ} :
    call invoker c p w = .ok r w' ↔
      ∃ s, invoker.invoke c.objectType c.method p w.services = .ok r s
        ∧ w' = { w with services := s } := by
  unfold call
  split <;> rename_i hi <;> simp [hi, eq_comm, and_assoc]

/-- A call fails where the service raises an error, and reports it as a failure. -/
theorem call_eq_error_iff {invoker : Invoker σ} {c : Command} {p : Value} {h : Halt}
    {w w' : World σ τ} :
    call invoker c p w = .error h w' ↔
      ∃ h' s, invoker.invoke c.objectType c.method p w.services = .error h' s
        ∧ h = reported c.capability h' ∧ w' = { w with services := s } := by
  unfold call
  split <;> rename_i hi <;> simp [hi, eq_comm, and_assoc]

/-- A result is published under a free id. -/
theorem publish_eq_ok_iff {id : String} {v : Value} {w w' : World σ τ} :
    publish id v w = .ok () w' ↔
      ∃ h : w.store.get? id = none, w' = { w with store := w.store.push id v h } := by
  by_cases hg : w.store.get? id = none
  · simp [publish, Store.publish_of_get?_eq_none hg, hg, eq_comm]
  · simp [publish, Store.publish_of_get?_ne_none hg, hg]

/-- An id that is taken keeps its result. -/
theorem publish_eq_error_iff {id : String} {v : Value} {h : Halt} {w w' : World σ τ} :
    publish id v w = .error h w' ↔
      w.store.get? id ≠ none ∧ h = .cause (.duplicateId id) ∧ w' = w := by
  by_cases hg : w.store.get? id = none
  · simp [publish, Store.publish_of_get?_eq_none hg, hg]
  · simp [publish, Store.publish_of_get?_ne_none hg, hg, eq_comm]

/-! ## The outcomes of a step -/

/-- The command `c` with index `n` succeeds: its parameters resolve to `p`, its call
returns `r`, the result is published and meets the expectations. -/
inductive Performs (job : Job) (invoker : Invoker σ) (sink : Sink τ) (n : Nat) (c : Command)
    (p r : Value) (w : World σ τ) : World σ τ → Prop
  | intro {w₁ w₂ w₃ : World σ τ}
      (resolved : Template.resolve (scope job w) c.params = .ok p)
      (told : emit sink (.commandStarted n c.id c.capability p.summary) w = .ok () w₁)
      (called : call invoker c p w₁ = .ok r w₂)
      (published : publish c.id r w₂ = .ok () w₃)
      (verified : Expectation.verify c.id c.expected r = .ok ()) :
      Performs job invoker sink n c p r w w₃

/-- The command `c` with index `n` stops with `h`. -/
inductive Halts (job : Job) (invoker : Invoker σ) (sink : Sink τ) (n : Nat) (c : Command)
    (w : World σ τ) : Halt → World σ τ → Prop
  /-- Its parameters do not resolve. -/
  | unresolved {h : Halt}
      (resolved : Template.resolve (scope job w) c.params = .error h) :
      Halts job invoker sink n c w h w
  /-- The sink refuses the event that it has started. -/
  | untold {p : Value} {h : Halt} {w₁ : World σ τ}
      (resolved : Template.resolve (scope job w) c.params = .ok p)
      (told : emit sink (.commandStarted n c.id c.capability p.summary) w = .error h w₁) :
      Halts job invoker sink n c w h w₁
  /-- Its call fails. -/
  | uncalled {p : Value} {h : Halt} {w₁ w₂ : World σ τ}
      (resolved : Template.resolve (scope job w) c.params = .ok p)
      (told : emit sink (.commandStarted n c.id c.capability p.summary) w = .ok () w₁)
      (called : call invoker c p w₁ = .error h w₂) :
      Halts job invoker sink n c w h w₂
  /-- Its id is taken. -/
  | unpublished {p r : Value} {h : Halt} {w₁ w₂ w₃ : World σ τ}
      (resolved : Template.resolve (scope job w) c.params = .ok p)
      (told : emit sink (.commandStarted n c.id c.capability p.summary) w = .ok () w₁)
      (called : call invoker c p w₁ = .ok r w₂)
      (published : publish c.id r w₂ = .error h w₃) :
      Halts job invoker sink n c w h w₃
  /-- Its result, which has been published by then, does not pass the comparison. -/
  | unexpected {p r : Value} {h : Halt} {w₁ w₂ w₃ : World σ τ}
      (resolved : Template.resolve (scope job w) c.params = .ok p)
      (told : emit sink (.commandStarted n c.id c.capability p.summary) w = .ok () w₁)
      (called : call invoker c p w₁ = .ok r w₂)
      (published : publish c.id r w₂ = .ok () w₃)
      (verified : Expectation.verify c.id c.expected r = .error h) :
      Halts job invoker sink n c w h w₃

section

variable {job : Job} {invoker : Invoker σ} {sink : Sink τ} {n : Nat} {c : Command}
  {w w' : World σ τ}

theorem perform_eq_ok_iff :
    perform job invoker sink n c w = .ok () w' ↔
      ∃ p r, Performs job invoker sink n c p r w w' := by
  simp only [perform, run_bind_eq_ok_iff, resolve, lift_eq_ok_iff]
  constructor
  · rintro ⟨p, _, ⟨hp, rfl⟩, _, w₁, he, r, w₂, hc, _, w₃, hu, hv, rfl⟩
    exact ⟨p, r, .intro hp he hc hu hv⟩
  · rintro ⟨p, r, hp, he, hc, hu, hv⟩
    exact ⟨p, _, ⟨hp, rfl⟩, (), _, he, r, _, hc, (), _, hu, hv, rfl⟩

theorem perform_eq_error_iff {h : Halt} :
    perform job invoker sink n c w = .error h w' ↔ Halts job invoker sink n c w h w' := by
  simp only [perform, run_bind_eq_error_iff, resolve, lift_eq_ok_iff, lift_eq_error_iff]
  constructor
  · rintro (⟨hp, rfl⟩ | ⟨p, _, ⟨hp, rfl⟩, he | ⟨_, w₁, he, hc | ⟨r, w₂, hc, hu |
      ⟨_, w₃, hu, hv, rfl⟩⟩⟩⟩)
    · exact .unresolved hp
    · exact .untold hp he
    · exact .uncalled hp he hc
    · exact .unpublished hp he hc hu
    · exact .unexpected hp he hc hu hv
  · intro hh
    cases hh with
    | unresolved hp => exact .inl ⟨hp, rfl⟩
    | untold hp he => exact .inr ⟨_, _, ⟨hp, rfl⟩, .inl he⟩
    | uncalled hp he hc => exact .inr ⟨_, _, ⟨hp, rfl⟩, .inr ⟨_, _, he, .inl hc⟩⟩
    | unpublished hp he hc hu =>
        exact .inr ⟨_, _, ⟨hp, rfl⟩, .inr ⟨_, _, he, .inr ⟨_, _, hc, .inl hu⟩⟩⟩
    | unexpected hp he hc hu hv =>
        exact .inr ⟨_, _, ⟨hp, rfl⟩, .inr ⟨_, _, he, .inr ⟨_, _, hc, .inr
          ⟨_, _, hu, hv, rfl⟩⟩⟩⟩

end

end CallPlan.Run
