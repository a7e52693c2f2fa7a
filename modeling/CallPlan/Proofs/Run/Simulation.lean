import Mathlib.Data.List.Forall2
import CallPlan.Proofs.Run.Progress

/-!
# Runs that go alike

Two runs of the same commands go alike if everything in them does that depends on the world:
resolving, telling events, calling and publishing. `SimulationOf` asks for these four and nothing
else, for a relation `S` between the worlds of the two runs, and `SimulationOf.performAll` gives
the whole: the runs return matching outcomes in related worlds, or both end with the same halt. The
first run may count its commands from a later index, and each run has times of its own. Where
neither is so, whole runs give the same report (`Simulation.submit`).

Steps that go alike go alike in a row (`Simulates.bind`), so the proofs follow the program line
by line.
-/

namespace CallPlan.Run

open Sequencing

/-! ## Steps that go alike -/

section

variable {ω ω' α α' β β' : Type} {S : ω → ω' → Prop}

/-- Two steps have ended alike: with related values or with the same halt, in related worlds. -/
inductive Agree (S : ω → ω' → Prop) (Q : α → α' → Prop) :
    EStateM.Result Halt ω α → EStateM.Result Halt ω' α' → Prop
  | ok {a : α} {a' : α'} {w : ω} {w' : ω'} (values : Q a a') (worlds : S w w') :
      Agree S Q (.ok a w) (.ok a' w')
  | error {h : Halt} {w : ω} {w' : ω'} (worlds : S w w') : Agree S Q (.error h w) (.error h w')

theorem Agree.exists_eq_ok {Q : α → α' → Prop} {x : EStateM.Result Halt ω α}
    {y : EStateM.Result Halt ω' α'} (h : Agree S Q x y) {a' : α'} {w' : ω'} (hy : y = .ok a' w') :
    ∃ a w, x = .ok a w ∧ Q a a' ∧ S w w' := by
  subst hy
  cases h with
  | ok hq hs => exact ⟨_, _, rfl, hq, hs⟩

theorem Agree.exists_eq_error {Q : α → α' → Prop} {x : EStateM.Result Halt ω α}
    {y : EStateM.Result Halt ω' α'} (h : Agree S Q x y) {halt : Halt} {w' : ω'}
    (hy : y = .error halt w') : ∃ w, x = .error halt w ∧ S w w' := by
  subst hy
  cases h with
  | error hs => exact ⟨_, rfl, hs⟩

theorem Agree.mono {S' : ω → ω' → Prop} {Q : α → α' → Prop} {x : EStateM.Result Halt ω α}
    {y : EStateM.Result Halt ω' α'} (h : Agree S Q x y) (hS : ∀ w w', S w w' → S' w w') :
    Agree S' Q x y := by
  cases h with
  | ok hq hs => exact .ok hq (hS _ _ hs)
  | error hs => exact .error (hS _ _ hs)

/-- Rows of two steps end alike if the first steps do, and the second ones do behind these. -/
theorem Agree.bind {Q : α → α' → Prop} {R : β → β' → Prop} {x : EStateM Halt ω α}
    {y : EStateM Halt ω' α'} {f : α → EStateM Halt ω β} {g : α' → EStateM Halt ω' β'} {w : ω}
    {w' : ω'} (hx : Agree S Q (x w) (y w'))
    (hf : ∀ a a' v v', x w = .ok a v → y w' = .ok a' v' → Q a a' → S v v' →
      Agree S R (f a v) (g a' v')) :
    Agree S R ((x >>= f) w) ((y >>= g) w') := by
  show Agree S R (EStateM.bind x f w) (EStateM.bind y g w')
  unfold EStateM.bind
  cases hxw : x w with
  | ok a w₁ =>
      rw [hxw] at hx
      cases hyw : y w' with
      | ok a' w₁' =>
          rw [hyw] at hx
          cases hx with
          | ok hq hs => exact hf a a' w₁ w₁' hxw hyw hq hs
      | error h' w₁' =>
          rw [hyw] at hx
          cases hx
  | error e w₁ =>
      rw [hxw] at hx
      cases hyw : y w' with
      | ok a' w₁' =>
          rw [hyw] at hx
          cases hx
      | error e' w₁' =>
          rw [hyw] at hx
          cases hx with
          | error hs => exact .error hs

/-- What is kept for the report is kept alike. -/
theorem Agree.attempt {Q : Unit → Unit → Prop} {x : EStateM Halt ω Unit}
    {y : EStateM Halt ω' Unit} {w : ω} {w' : ω'} (h : Agree S Q (x w) (y w')) :
    Agree S Eq (Run.attempt x w) (Run.attempt y w') := by
  unfold Run.attempt
  generalize x w = rx at h ⊢
  generalize y w' = ry at h ⊢
  cases h with
  | ok _ hs => exact .ok rfl hs
  | @error e _ _ hs =>
      cases e with
      | failure f => exact .ok rfl hs
      | fault f => exact .error hs

/-- From related worlds the steps end alike. -/
def Simulates (S : ω → ω' → Prop) (Q : α → α' → Prop) (x : EStateM Halt ω α)
    (y : EStateM Halt ω' α') : Prop :=
  ∀ w w', S w w' → Agree S Q (x w) (y w')

theorem Simulates.bind {Q : α → α' → Prop} {R : β → β' → Prop} {x : EStateM Halt ω α}
    {y : EStateM Halt ω' α'} {f : α → EStateM Halt ω β} {g : α' → EStateM Halt ω' β'}
    (hx : Simulates S Q x y) (hf : ∀ a a', Q a a' → Simulates S R (f a) (g a')) :
    Simulates S R (x >>= f) (y >>= g) :=
  fun w w' hs => (hx w w' hs).bind fun a a' v v' _ _ hq hs => hf a a' hq v v' hs

theorem Simulates.pure {Q : α → α' → Prop} {a : α} {a' : α'} (h : Q a a') :
    Simulates S Q (Pure.pure a : EStateM Halt ω α) (Pure.pure a' : EStateM Halt ω' α') :=
  fun _ _ hs => .ok h hs

theorem Simulates.lift (x : Except Halt α) :
    Simulates S Eq (Run.lift x : EStateM Halt ω α) (Run.lift x : EStateM Halt ω' α) := by
  intro w w' hs
  cases x with
  | ok a => exact .ok rfl hs
  | error h => exact .error hs

theorem Simulates.attempt {Q : Unit → Unit → Prop} {x : EStateM Halt ω Unit}
    {y : EStateM Halt ω' Unit} (hx : Simulates S Q x y) :
    Simulates S Eq (Run.attempt x) (Run.attempt y) :=
  fun w w' hs => (hx w w' hs).attempt

end

/-! ## Runs that go alike -/

section

variable {σ σ' τ τ' : Type}

/-- The events of one command in the two runs. Its index is `n` in the second run and counted
from `k` in the first. -/
inductive Counterpart (job job' : Job) (k : Nat) : Event → Event → Prop
  | started (n : Nat) (id capability : String) (params : Value) :
      Counterpart job job' k (.commandStarted (n + k) id capability params)
        (.commandStarted n id capability params)
  | failed (n : Nat) (id : String) (f : Failure) :
      Counterpart job job' k (.commandFailed (n + k) id (job.elapsed (n + k)) f)
        (.commandFailed n id (job'.elapsed n) f)
  | completed (n : Nat) (id : String) :
      Counterpart job job' k (.commandCompleted (n + k) id (job.elapsed (n + k)))
        (.commandCompleted n id (job'.elapsed n))
  | skipped (n : Nat) (id : String) :
      Counterpart job job' k (.commandSkipped (n + k) id) (.commandSkipped n id)

/-- The outcomes of one command in the two runs. -/
inductive Twin (job job' : Job) (k : Nat) : Outcome → Outcome → Prop
  | performed (n : Nat) (id : String) (status : Status) :
      Twin job job' k ⟨n + k, id, status, job.elapsed (n + k)⟩ ⟨n, id, status, job'.elapsed n⟩
  | skipped (n : Nat) (id : String) :
      Twin job job' k ⟨n + k, id, .skipped, 0⟩ ⟨n, id, .skipped, 0⟩

/-- Skipping goes alike if telling of it does. -/
theorem Simulates.skip {job job' : Job} {k : Nat} {sink : Sink τ} {sink' : Sink τ'}
    {S : World σ τ → World σ' τ' → Prop}
    (h : ∀ n id, Simulates S Eq (Run.emit sink (.commandSkipped (n + k) id))
      (Run.emit sink' (.commandSkipped n id)))
    (n : Nat) (ds : List Command) :
    Simulates S (List.Forall₂ (Twin job job' k)) (Run.skip sink (n + k) ds)
      (Run.skip sink' n ds) := by
  induction ds generalizing n with
  | nil => exact .pure .nil
  | cons c ds ih =>
      have hrest := ih (n + 1)
      rw [Nat.add_right_comm] at hrest
      exact .bind (h n c.id) fun _ _ _ =>
        .bind hrest fun _ _ ho => .pure (.cons (.skipped n c.id) ho)

/-- What two runs of commands among `cs` do in the world goes alike, command by command. -/
structure SimulationOf (cs : List Command) (job job' : Job) (invoker : Invoker σ)
    (invoker' : Invoker σ') (sink : Sink τ) (sink' : Sink τ') (k : Nat)
    (S : World σ τ → World σ' τ' → Prop) : Prop where
  resolve : ∀ c ∈ cs, ∀ w v, S w v →
    Template.resolve (scope job w) c.params = Template.resolve (scope job' v) c.params
  emit : ∀ e e', Counterpart job job' k e e' →
    Simulates S Eq (Run.emit sink e) (Run.emit sink' e')
  call : ∀ c p, Simulates S Eq (Run.call invoker c p) (Run.call invoker' c p)
  publish : ∀ id v, Simulates S Eq (Run.publish id v) (Run.publish id v)

namespace SimulationOf

variable {cs : List Command} {job job' : Job} {invoker : Invoker σ} {invoker' : Invoker σ'}
  {sink : Sink τ} {sink' : Sink τ'} {k : Nat} {S : World σ τ → World σ' τ' → Prop}
  (h : SimulationOf cs job job' invoker invoker' sink sink' k S)

include h

theorem perform (n : Nat) {c : Command} (hc : c ∈ cs) :
    Simulates S Eq (Run.perform job invoker sink (n + k) c)
      (Run.perform job' invoker' sink' n c) := by
  refine .bind (Q := Eq) ?_ fun p _ hp => ?_
  · intro w v hs
    show Agree S Eq (Run.lift _ w) (Run.lift _ v)
    rw [h.resolve c hc w v hs]
    exact Simulates.lift _ w v hs
  subst hp
  refine .bind (h.emit _ _ (.started n c.id c.capability p.summary)) fun _ _ _ => ?_
  refine .bind (h.call c p) fun r _ hr => ?_
  subst hr
  exact .bind (h.publish c.id r) fun _ _ _ => .lift _

/-- **Simulation.** The runs have the same outcomes, or end with the same halt. -/
theorem performAll (n : Nat) {ds : List Command} (hds : ds ⊆ cs) :
    Simulates S (List.Forall₂ (Twin job job' k)) (Run.performAll job invoker sink (n + k) ds)
      (Run.performAll job' invoker' sink' n ds) := by
  induction ds generalizing n with
  | nil => exact .pure .nil
  | cons c ds ih =>
      obtain ⟨hc, hds⟩ := List.cons_subset.mp hds
      have hrest := ih (n + 1) hds
      have hskip : Simulates S (List.Forall₂ (Twin job job' k)) _ _ :=
        .skip (fun i id => h.emit _ _ (.skipped i id)) (n + 1) ds
      rw [Nat.add_right_comm] at hrest hskip
      refine .bind (h.perform n hc).attempt fun stopped _ hstopped => ?_
      subst hstopped
      cases stopped with
      | none =>
          exact .bind (h.emit _ _ (.completed n c.id)) fun _ _ _ =>
            .bind hrest fun _ _ ho => .pure (.cons (.performed n c.id .ok) ho)
      | some f =>
          exact .bind (h.emit _ _ (.failed n c.id f)) fun _ _ _ =>
            .bind hskip fun _ _ ho => .pure (.cons (.performed n c.id (.failed f)) ho)

end SimulationOf

/-- What two runs do in the world goes alike, whatever the commands are. -/
structure Simulation (job job' : Job) (invoker : Invoker σ) (invoker' : Invoker σ')
    (sink : Sink τ) (sink' : Sink τ') (k : Nat) (S : World σ τ → World σ' τ' → Prop) : Prop where
  resolve : ∀ w v params, S w v →
    Template.resolve (scope job w) params = Template.resolve (scope job' v) params
  emit : ∀ e e', Counterpart job job' k e e' →
    Simulates S Eq (Run.emit sink e) (Run.emit sink' e')
  call : ∀ c p, Simulates S Eq (Run.call invoker c p) (Run.call invoker' c p)
  publish : ∀ id v, Simulates S Eq (Run.publish id v) (Run.publish id v)

namespace Simulation

variable {job job' : Job} {invoker : Invoker σ} {invoker' : Invoker σ'} {sink : Sink τ}
  {sink' : Sink τ'} {k : Nat} {S : World σ τ → World σ' τ' → Prop}

theorem performAll (h : Simulation job job' invoker invoker' sink sink' k S) (n : Nat)
    (cs : List Command) :
    Simulates S (List.Forall₂ (Twin job job' k)) (Run.performAll job invoker sink (n + k) cs)
      (Run.performAll job' invoker' sink' n cs) := by
  have hcs : SimulationOf cs job job' invoker invoker' sink sink' k S :=
    ⟨fun c _ w v hs => h.resolve w v c.params hs, h.emit, h.call, h.publish⟩
  exact hcs.performAll n (List.Subset.refl cs)

end Simulation

theorem eq_of_twin {job : Job} {o o' : Outcome} (h : Twin job job 0 o o') : o = o' := by
  cases h <;> rfl

theorem eq_of_counterpart {job : Job} {e e' : Event} (h : Counterpart job job 0 e e') : e = e' := by
  cases h <;> rfl

/-- Whole runs of one job go alike, with the same report, if every event is told alike and the
results are the same in related worlds. -/
theorem Simulation.submit {job : Job} {invoker : Invoker σ} {invoker' : Invoker σ'}
    {sink : Sink τ} {sink' : Sink τ'} {S : World σ τ → World σ' τ' → Prop}
    (h : Simulation job job invoker invoker' sink sink' 0 S)
    (hemit : ∀ e, Simulates S Eq (Run.emit sink e) (Run.emit sink' e))
    (hstore : ∀ w v, S w v → w.store = v.store) (runId : String) (commands : List Command) :
    Simulates S Eq (Run.submit job invoker sink runId commands)
      (Run.submit job invoker' sink' runId commands) := by
  refine .bind (hemit _) fun _ _ _ => ?_
  refine .bind (h.performAll 0 commands) fun os os' ho => ?_
  obtain rfl : os = os' := List.forall₂_eq_eq_eq ▸ ho.imp fun _ _ => eq_of_twin
  refine .bind (Q := Eq) ?_ fun results _ hr => ?_
  · intro w v hs
    exact .ok (hstore w v hs) hs
  subst hr
  exact .bind (hemit _) fun _ _ _ => .pure rfl

end

end CallPlan.Run
