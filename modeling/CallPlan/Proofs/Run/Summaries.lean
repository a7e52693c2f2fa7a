import CallPlan.Proofs.Run.Exchange
import CallPlan.Proofs.Run.Internal
import CallPlan.Proofs.Run.Payloads
import CallPlan.Proofs.Run.Refusals
import CallPlan.Proofs.Value.Contents

/-!
# What events tell of payloads

Of parameters, events tell a summary, in which a byte string is no more than its length. So two runs
whose parameters differ in such bytes only, and whose calls are answered alike, tell the same
(`submit_summarised`). Files may have other contents, then, and no event shows it
(`Matched.of_files`).

What is needed of the two runs is asked for command by command, where both begin it
(`Matched`). Two worlds that have got equally far go together if they have the same results and
their sinks have heard the same since the start (`Paired`). One command keeps them together
(`Paired.perform`), and so do commands in a row, up to the one where both runs stop
(`Paired.performAll`). That no event has a byte string in it goes along with this; a run is beside
itself for it (`Matched.refl`).
-/

namespace CallPlan

open Sequencing

variable {σ σ' τ τ' : Type}

/-! ## Sinks that hear every event -/

/-- The sink hears every event, and a run survives every error that it raises; `events` reads off
its state what it has heard. -/
structure Sink.Hears (sink : Sink τ) (events : τ → List Event) : Prop where
  ordinary : sink.Ordinary
  heard : ∀ e s, events (after (sink.emit e s)).1 = events s.1 ++ [e]

theorem Sink.Records.hears {sink : Sink τ} {events : τ → List Event} (h : sink.Records events) :
    sink.Hears events where
  ordinary := by
    intro e s halt s' he
    obtain ⟨t', files', hreturns, -⟩ := h e s.1 s.2
    rw [hreturns] at he
    cases he
  heard := by
    intro e s
    obtain ⟨t', files', hreturns, htold⟩ := h e s.1 s.2
    rw [hreturns]
    exact htold

/-- Of every sink that raises ordinary errors only, events can be noted that it refuses. -/
theorem Sink.Ordinary.hears_noted {sink : Sink τ} (h : sink.Ordinary) :
    sink.noted.Hears Prod.snd where
  ordinary := by
    rintro e ⟨⟨t, told⟩, files⟩ halt s' he
    simp only [Sink.noted] at he
    split at he
    · cases he
    · next hraised =>
      cases he
      exact h e (t, files) _ _ hraised
  heard := by
    rintro e ⟨⟨t, told⟩, files⟩
    simp only [Sink.noted]
    split <;> rfl

theorem Sink.SparesFiles.noted {sink : Sink τ} (h : sink.SparesFiles) :
    sink.noted.SparesFiles := by
  rintro e ⟨⟨t, told⟩, files⟩
  have hfiles := h e (t, files)
  simp only [Sink.noted]
  cases he : sink.emit e (t, files) with
  | ok u s =>
      rw [he] at hfiles
      exact hfiles
  | error halt s =>
      rw [he] at hfiles
      exact hfiles

/-! ## What events say -/

namespace Event

/-- The event without its time. -/
def untimed : Event → Event
  | commandFailed i id _ f => commandFailed i id 0 f
  | commandCompleted i id _ => commandCompleted i id 0
  | e => e

/-- What an event says, but for the id of the run and the time. -/
def content (runId : String) (e : Event) : List (String × Value) :=
  (e.fields runId).filter fun x => x.1 ∉ ["run_id", "duration_ms"]

theorem content_untimed (runId runId' : String) (e : Event) :
    e.content runId = e.untimed.content runId' := by
  cases e <;> rfl

theorem map_content_eq {es es' : List Event} (h : es.map untimed = es'.map untimed)
    (runId runId' : String) : es.map (content runId) = es'.map (content runId') := by
  have huntimed : ∀ (runId : String) (es : List Event),
      es.map (content runId) = (es.map untimed).map (content "") := by
    intro runId es
    rw [List.map_map]
    exact List.map_congr_left fun e _ => content_untimed runId "" e
  rw [huntimed runId es, huntimed runId' es', h]

/-- There is no byte string in what the event says. -/
def BytesFree (e : Event) : Prop :=
  ∀ runId, (Value.record (e.fields runId)).bytesFree = true

theorem bytesFree_of_details {e : Event} (h : ∀ x ∈ e.details, x.2.bytesFree = true) :
    e.BytesFree := by
  intro runId
  refine Value.bytesFree_record ?_
  intro x hx
  rcases List.mem_append.mp hx with hx | hx
  · simp only [List.mem_cons, List.not_mem_nil, or_false] at hx
    rcases hx with rfl | rfl <;> rfl
  · exact h x hx

theorem bytesFree_commandStarted (n : Nat) (id capability : String) {params : Value}
    (h : params.bytesFree = true) : (commandStarted n id capability params).BytesFree := by
  refine bytesFree_of_details ?_
  simp [details, h, Value.bytesFree]

theorem bytesFree_commandFailed (n : Nat) (id : String) (elapsed : Nat) {f : Failure}
    (h : f.Worded) : (commandFailed n id elapsed f).BytesFree := by
  refine bytesFree_of_details ?_
  simp [details, Failure.bytesFree_describe h, Value.bytesFree]

theorem bytesFree_commandCompleted (n : Nat) (id : String) (elapsed : Nat) :
    (commandCompleted n id elapsed).BytesFree :=
  bytesFree_of_details (by simp [details, Value.bytesFree])

theorem bytesFree_commandSkipped (n : Nat) (id : String) : (commandSkipped n id).BytesFree :=
  bytesFree_of_details (by simp [details, Value.bytesFree])

theorem bytesFree_runStarted (commands : Nat) : (runStarted commands).BytesFree :=
  bytesFree_of_details (by simp [details, Value.bytesFree])

theorem bytesFree_runFinished (ok : Bool) (published : List String) :
    (runFinished ok published).BytesFree := by
  refine bytesFree_of_details ?_
  have hids : Value.itemsBytesFree (published.map .text) = true := by
    refine Value.itemsBytesFree_of_forall ?_
    intro v hv
    obtain ⟨id, -, rfl⟩ := List.mem_map.mp hv
    rfl
  simp [details, hids, Value.bytesFree]

end Event

/-! ## Failures of a command -/

/-- Failures that the services report name properties by texts. -/
def Invoker.Worded (invoker : Invoker σ) : Prop :=
  ∀ objectType method params s f s',
    invoker.invoke objectType method params s = .error (.failure f) s' → f.Worded

theorem Failure.worded_of_code {f : Failure} (h : f.code ≠ "expectation.mismatch") : f.Worded := by
  refine worded_of_mismatches? ?_
  cases hc : f.cause with
  | mismatch id ms =>
      rw [Failure.code, hc] at h
      exact absurd rfl h
  | _ => rfl

theorem Expectation.worded_of_verify {id : String} {expected : List (Value × Value)}
    {result : Value} {f : Failure} (h : verify id expected result = .error (.failure f)) :
    f.Worded := by
  unfold verify at h
  split at h
  · cases h
  · cases h
  · split at h
    · next hall =>
      cases h
      intro ms hms m hm
      cases hms
      simpa using List.all_eq_true.mp hall m hm
    · cases h

namespace Run

section

variable {job : Job} {invoker : Invoker σ} {sink : Sink τ}

/-- A failure of a command names properties by texts, if those of the services do. -/
theorem Halts.worded (hs : sink.Ordinary) (hi : invoker.Worded) {n : Nat} {c : Command}
    {w w' : World σ τ} {f : Failure} (h : Halts job invoker sink n c w (.failure f) w') :
    f.Worded := by
  cases h with
  | unresolved resolved =>
      have hcode := Template.code_of_resolve_eq_error resolved
      refine Failure.worded_of_code ?_
      intro heq
      rw [heq] at hcode
      exact absurd hcode (by decide)
  | untold _ told =>
      rw [emit_of_ordinary (hs _ _)] at told
      cases told
  | uncalled _ _ called =>
      obtain ⟨h', s, hinvoke, hreported, -⟩ := call_eq_error_iff.mp called
      cases h' with
      | failure f' =>
          cases hreported
          exact hi _ _ _ _ _ _ hinvoke
      | fault fault =>
          cases hreported
          exact Failure.worded_of_mismatches? rfl
  | unpublished _ _ _ published =>
      obtain ⟨-, heq, -⟩ := publish_eq_error_iff.mp published
      cases heq
      exact Failure.worded_of_mismatches? rfl
  | unexpected _ _ _ _ verified => exact Expectation.worded_of_verify verified

end

/-! ## Two runs beside each other -/

/-- Parameters resolve to values that differ in the bytes of byte strings only, and not in their
lengths, or fail in the same way. -/
inductive Resembles : Except Halt Value → Except Halt Value → Prop
  | ok {p p' : Value} (blanked : p.blanked = p'.blanked) : Resembles (.ok p) (.ok p')
  | error (h : Halt) : Resembles (.error h) (.error h)

/-- Where two runs of `commands` begin the same command, its parameters resemble each other if the
results so far are the same; and the calls of the command are answered alike. Commands are called
once and in a row, so the call of the `k`-th command is the `k`-th call of either run. -/
structure Matched (job job' : Job) (invoker : Invoker σ) (invoker' : Invoker σ') (sink : Sink τ)
    (sink' : Sink τ') (commands : List Command) (w₀ : World σ τ) (v₀ : World σ' τ') : Prop where
  resolved : ∀ k c w v, Begins job invoker sink commands w₀ k c w →
    Begins job' invoker' sink' commands v₀ k c v → w.store = v.store →
    Resembles (Template.resolve (scope job w) c.params) (Template.resolve (scope job' v) c.params)
  answered : ∀ k c w v p p', Begins job invoker sink commands w₀ k c w →
    Begins job' invoker' sink' commands v₀ k c v →
    Template.resolve (scope job w) c.params = .ok p →
    Template.resolve (scope job' v) c.params = .ok p' →
    ending (invoker.invoke c.objectType c.method p w.services)
      = ending (invoker'.invoke c.objectType c.method p' v.services)

/-- A run matches itself. -/
theorem Matched.refl (job : Job) (invoker : Invoker σ) (sink : Sink τ) (commands : List Command)
    (w₀ : World σ τ) : Matched job job invoker invoker sink sink commands w₀ w₀ := by
  have hunique : ∀ {k c w v}, Begins job invoker sink commands w₀ k c w →
      Begins job invoker sink commands w₀ k c v → w = v := by
    rintro k c w v ⟨-, w₁, os, he, hall, -⟩ ⟨-, v₁, os', he', hall', -⟩
    obtain rfl := (EStateM.Result.ok.inj (he.symm.trans he')).2
    exact (EStateM.Result.ok.inj (hall.symm.trans hall')).2
  constructor
  · intro k c w v hw hv _
    obtain rfl := hunique hw hv
    cases Template.resolve (scope job w) c.params with
    | ok p => exact .ok rfl
    | error h => exact .error h
  · intro k c w v p p' hw hv hp hp'
    obtain rfl := hunique hw hv
    obtain rfl := Except.ok.inj (hp.symm.trans hp')
    rfl

/-- In the run of `commands` from `w₀`, the commands before the `k`-th have succeeded and left
`w`. -/
def Arrives (job : Job) (invoker : Invoker σ) (sink : Sink τ) (commands : List Command)
    (w₀ : World σ τ) (k : Nat) (w : World σ τ) : Prop :=
  ∃ w₁ done, emit sink (.runStarted commands.length) w₀ = .ok () w₁
    ∧ Completes job invoker sink 0 done w₁ w ∧ done.map Prod.fst = commands.take k

theorem Arrives.next {job : Job} {invoker : Invoker σ} {sink : Sink τ} {commands : List Command}
    {w₀ w w₁ w₂ : World σ τ} {k : Nat} {c : Command}
    (h : Arrives job invoker sink commands w₀ k w) (hk : commands[k]? = some c)
    (hperform : perform job invoker sink k c w = .ok () w₁)
    (htold : emit sink (.commandCompleted k c.id (job.elapsed k)) w₁ = .ok () w₂) :
    Arrives job invoker sink commands w₀ (k + 1) w₂ := by
  obtain ⟨start, done, he, hd, hdone⟩ := h
  obtain ⟨p, r, hp⟩ := perform_eq_ok_iff.mp hperform
  obtain ⟨hlt, -⟩ := List.getElem?_eq_some_iff.mp hk
  have hlength : done.length = k := by
    have := congrArg List.length hdone
    simp only [List.length_map, List.length_take] at this
    omega
  refine ⟨start, done ++ [(c, p)], he, hd.append ?_, ?_⟩
  · rw [hlength, Nat.zero_add]
    exact .cons hp htold .nil
  · rw [List.map_append, hdone, List.take_add_one, hk]
    rfl

/-- Two worlds have the same results, and since `w₀` and `v₀` their sinks have heard the same, times
aside. None of it has a byte string in it, if the failures of the services are in words. -/
structure Paired (invoker : Invoker σ) (events : τ → List Event) (events' : τ' → List Event)
    (w₀ : World σ τ) (v₀ : World σ' τ') (w : World σ τ) (v : World σ' τ') : Prop where
  store : w.store = v.store
  told : ∃ es es', events w.sink = events w₀.sink ++ es ∧ events' v.sink = events' v₀.sink ++ es'
    ∧ es.map Event.untimed = es'.map Event.untimed
    ∧ (invoker.Worded → ∀ e ∈ es, e.BytesFree)

theorem Agree.after {ω ω' α α' : Type} {S : ω → ω' → Prop} {Q : α → α' → Prop}
    {x : EStateM.Result Halt ω α} {y : EStateM.Result Halt ω' α'} (h : Agree S Q x y) :
    S (Sequencing.after x) (Sequencing.after y) := by
  cases h with
  | ok _ hs => exact hs
  | error hs => exact hs

namespace Paired

variable {job job' : Job} {invoker : Invoker σ} {invoker' : Invoker σ'} {sink : Sink τ}
  {sink' : Sink τ'} {events : τ → List Event} {events' : τ' → List Event}
  {commands : List Command} {w₀ w : World σ τ} {v₀ v : World σ' τ'}

theorem emit (hs : sink.Hears events) (hs' : sink'.Hears events')
    (h : Paired invoker events events' w₀ v₀ w v) {e e' : Event} (he : e.untimed = e'.untimed)
    (hfree : invoker.Worded → e.BytesFree) :
    Agree (Paired invoker events events' w₀ v₀) Eq (Run.emit sink e w) (Run.emit sink' e' v) := by
  rw [emit_of_ordinary (hs.ordinary e _), emit_of_ordinary (hs'.ordinary e' _)]
  obtain ⟨es, es', hw, hv, hsame, hbytes⟩ := h.told
  refine .ok rfl ⟨h.store, es ++ [e], es' ++ [e'], ?_, ?_, ?_, ?_⟩
  · rw [hs.heard, hw, List.append_assoc]
  · rw [hs'.heard, hv, List.append_assoc]
  · simp [hsame, he]
  · intro hworded e hmem
    rcases List.mem_append.mp hmem with hmem | hmem
    · exact hbytes hworded e hmem
    · rw [List.mem_singleton.mp hmem]
      exact hfree hworded

theorem call {c : Command} {p p' : Value} (h : Paired invoker events events' w₀ v₀ w v)
    (hanswered : ending (invoker.invoke c.objectType c.method p w.services)
      = ending (invoker'.invoke c.objectType c.method p' v.services)) :
    Agree (Paired invoker events events' w₀ v₀) Eq (Run.call invoker c p w)
      (Run.call invoker' c p' v) := by
  unfold Run.call
  cases hw : invoker.invoke c.objectType c.method p w.services with
  | ok r s =>
      cases hv : invoker'.invoke c.objectType c.method p' v.services with
      | ok r' s' =>
          rw [hw, hv] at hanswered
          exact .ok (Except.ok.inj hanswered) ⟨h.store, h.told⟩
      | error halt s' =>
          rw [hw, hv] at hanswered
          cases hanswered
  | error halt s =>
      cases hv : invoker'.invoke c.objectType c.method p' v.services with
      | ok r' s' =>
          rw [hw, hv] at hanswered
          cases hanswered
      | error halt' s' =>
          rw [hw, hv] at hanswered
          obtain rfl := Except.error.inj hanswered
          exact .error ⟨h.store, h.told⟩

theorem publish (h : Paired invoker events events' w₀ v₀ w v) (id : String) (r : Value) :
    Agree (Paired invoker events events' w₀ v₀) Eq (Run.publish id r w) (Run.publish id r v) := by
  unfold Run.publish
  rw [h.store]
  cases v.store.publish id r with
  | ok store => exact .ok rfl ⟨rfl, h.told⟩
  | error cause => exact .error ⟨h.store, h.told⟩

theorem resolve {c : Command} (h : Paired invoker events events' w₀ v₀ w v)
    (hresolved : Resembles (Template.resolve (scope job w) c.params)
      (Template.resolve (scope job' v) c.params)) :
    Agree (Paired invoker events events' w₀ v₀)
      (fun p p' => Template.resolve (scope job w) c.params = .ok p
        ∧ Template.resolve (scope job' v) c.params = .ok p' ∧ p.blanked = p'.blanked)
      (Run.resolve job c.params w) (Run.resolve job' c.params v) := by
  unfold Run.resolve
  generalize Template.resolve (scope job w) c.params = x at hresolved ⊢
  generalize Template.resolve (scope job' v) c.params = y at hresolved ⊢
  cases hresolved with
  | ok blanked => exact .ok ⟨rfl, rfl, blanked⟩ h
  | error halt => exact .error h

/-- A command keeps two worlds together in which its parameters resemble each other and its calls
are answered alike. -/
theorem perform (hs : sink.Hears events) (hs' : sink'.Hears events')
    (h : Paired invoker events events' w₀ v₀ w v) (n : Nat) {c : Command}
    (hresolved : Resembles (Template.resolve (scope job w) c.params)
      (Template.resolve (scope job' v) c.params))
    (hanswered : ∀ p p', Template.resolve (scope job w) c.params = .ok p →
      Template.resolve (scope job' v) c.params = .ok p' →
      ending (invoker.invoke c.objectType c.method p w.services)
        = ending (invoker'.invoke c.objectType c.method p' v.services)) :
    Agree (Paired invoker events events' w₀ v₀) Eq (Run.perform job invoker sink n c w)
      (Run.perform job' invoker' sink' n c v) := by
  refine .bind (h.resolve hresolved) fun p p' w₁ v₁ hw₁ hv₁ hparams h₁ => ?_
  obtain ⟨hp, hp', hblanked⟩ := hparams
  -- Resolving changes nothing, and the two summaries are one.
  obtain ⟨-, rfl⟩ := lift_eq_ok_iff.mp hw₁
  obtain ⟨-, rfl⟩ := lift_eq_ok_iff.mp hv₁
  have hsummary := Value.summary_eq_of_blanked_eq hblanked
  have hstarted : (Event.commandStarted n c.id c.capability p.summary).untimed
      = (Event.commandStarted n c.id c.capability p'.summary).untimed := by
    rw [hsummary]
  refine .bind (h₁.emit hs hs' hstarted fun _ =>
    Event.bytesFree_commandStarted n c.id c.capability (Value.bytesFree_summary p))
    fun _ _ w₂ v₂ hw₂ hv₂ _ h₂ => ?_
  have hcall := hanswered p p' hp hp'
  rw [← services_of_emit hw₂, ← services_of_emit hv₂] at hcall
  refine .bind (h₂.call hcall) fun r r' w₃ v₃ _ _ hr h₃ => ?_
  subst hr
  exact .bind (h₃.publish c.id r) fun _ _ w₄ v₄ _ _ _ h₄ => Simulates.lift _ w₄ v₄ h₄

/-- Commands keep two worlds together, one after the other. -/
theorem performAll (hs : sink.Hears events) (hs' : sink'.Hears events')
    (hm : Matched job job' invoker invoker' sink sink' commands w₀ v₀)
    (h : Paired invoker events events' w₀ v₀ w v) {n : Nat} {ds : List Command}
    (hds : commands.drop n = ds) (hw : Arrives job invoker sink commands w₀ n w)
    (hv : Arrives job' invoker' sink' commands v₀ n v) :
    Agree (Paired invoker events events' w₀ v₀) (List.Forall₂ (Twin job job' 0))
      (Run.performAll job invoker sink n ds w) (Run.performAll job' invoker' sink' n ds v) := by
  induction ds generalizing n w v with
  | nil => exact .ok .nil h
  | cons c ds ih =>
      have hc : commands[n]? = some c := by
        rw [← List.head?_drop, hds]
        rfl
      have hrest : commands.drop (n + 1) = ds := by
        rw [← List.tail_drop, hds]
        rfl
      have hbegins := begins_iff.mpr ⟨hc, hw⟩
      have hbegins' := begins_iff.mpr ⟨hc, hv⟩
      have hperform := h.perform hs hs' n (hm.resolved n c w v hbegins hbegins' h.store)
        fun p p' => hm.answered n c w v p p' hbegins hbegins'
      refine .bind hperform.attempt fun stopped _ w₁ v₁ hw₁ hv₁ hstopped h₁ => ?_
      subst hstopped
      cases stopped with
      | none =>
          have hcompleted : (Event.commandCompleted n c.id (job.elapsed n)).untimed
              = (Event.commandCompleted n c.id (job'.elapsed n)).untimed := rfl
          refine .bind (h₁.emit hs hs' hcompleted fun _ =>
            Event.bytesFree_commandCompleted n c.id (job.elapsed n))
            fun _ _ w₂ v₂ hw₂ hv₂ _ h₂ => ?_
          have hnext := hw.next hc (attempt_eq_none_iff.mp hw₁) hw₂
          have hnext' := hv.next hc (attempt_eq_none_iff.mp hv₁) hv₂
          exact .bind (ih h₂ hrest hnext hnext') fun _ _ _ _ _ _ ho h₃ =>
            .ok (.cons (.performed n c.id .ok) ho) h₃
      | some f =>
          have hworded : invoker.Worded → f.Worded := fun hi =>
            (perform_eq_error_iff.mp (attempt_eq_some_iff.mp hw₁)).worded hs.ordinary hi
          have hfailed : (Event.commandFailed n c.id (job.elapsed n) f).untimed
              = (Event.commandFailed n c.id (job'.elapsed n) f).untimed := rfl
          refine .bind (h₁.emit hs hs' hfailed fun hi =>
            Event.bytesFree_commandFailed n c.id (job.elapsed n) (hworded hi))
            fun _ _ w₂ v₂ _ _ _ h₂ => ?_
          have hskip : Simulates (Paired invoker events events' w₀ v₀)
              (List.Forall₂ (Twin job job' 0)) _ _ :=
            .skip (fun i id w v hp => hp.emit hs hs' rfl fun _ =>
              Event.bytesFree_commandSkipped i id) (n + 1) ds
          exact .bind (hskip w₂ v₂ h₂) fun _ _ _ _ _ _ ho h₃ =>
            .ok (.cons (.performed n c.id (.failed f)) ho) h₃

/-- Runs that match each other go together to their ends. -/
theorem submit (hs : sink.Hears events) (hs' : sink'.Hears events')
    (hm : Matched job job' invoker invoker' sink sink' commands w₀ v₀)
    (hstore : w₀.store = v₀.store) (runId runId' : String) :
    Paired invoker events events' w₀ v₀ (after (Run.submit job invoker sink runId commands w₀))
      (after (Run.submit job' invoker' sink' runId' commands v₀)) := by
  have hstart : Paired invoker events events' w₀ v₀ w₀ v₀ :=
    ⟨hstore, [], [], by simp, by simp, rfl, by simp⟩
  have htold : Agree (Paired invoker events events' w₀ v₀) Eq
      (Run.emit sink (.runStarted commands.length) w₀)
      (Run.emit sink' (.runStarted commands.length) v₀) :=
    hstart.emit hs hs' rfl fun _ => Event.bytesFree_runStarted commands.length
  have hruns : Agree (Paired invoker events events' w₀ v₀) (fun _ _ => True)
      (Run.submit job invoker sink runId commands w₀)
      (Run.submit job' invoker' sink' runId' commands v₀) := by
    refine .bind htold fun _ _ w₁ v₁ hw₁ hv₁ _ h₁ => ?_
    have hall := h₁.performAll hs hs' hm (n := 0) rfl ⟨w₁, [], hw₁, .nil, rfl⟩
      ⟨v₁, [], hv₁, .nil, rfl⟩
    refine .bind hall fun os os' w₂ v₂ _ _ hos h₂ => ?_
    refine .bind (Q := Eq) (.ok h₂.store h₂) fun results _ w₃ v₃ _ _ hresults h₃ => ?_
    subst hresults
    have hfinished : (Event.runFinished (allOk os) results.ids).untimed
        = (Event.runFinished (allOk os') results.ids).untimed := by
      rw [allOk_of_twins hos]
    exact .bind (h₃.emit hs hs' hfinished fun _ =>
      Event.bytesFree_runFinished (allOk os) results.ids)
      fun _ _ w₄ v₄ _ _ _ h₄ => .ok trivial h₄
  exact hruns.after

end Paired

/-- **No content of a payload reaches a sink.** No event of a run has a byte string in it. And two
runs tell the same events, the id of the run and times aside, if the parameters of each command
differ in the bytes of payloads only, or fail alike, and the calls are answered alike. -/
theorem submit_summarised {sink : Sink τ} {sink' : Sink τ'} {events : τ → List Event}
    {events' : τ' → List Event} (hs : sink.Hears events) (hs' : sink'.Hears events')
    (job job' : Job) (invoker : Invoker σ) (invoker' : Invoker σ') (commands : List Command)
    (runId runId' : String) (services : σ) (services' : σ') (t : τ) (t' : τ')
    (files files' : FileSystem) :
    let start := World.start services t files
    let start' := World.start services' t' files'
    ∃ told told',
      events (after (submit job invoker sink runId commands start)).sink = events t ++ told
      ∧ events' (after (submit job' invoker' sink' runId' commands start')).sink
        = events' t' ++ told'
      ∧ (invoker.Worded → ∀ e ∈ told, e.BytesFree)
      ∧ (Matched job job' invoker invoker' sink sink' commands start start' →
        told.map (Event.content runId) = told'.map (Event.content runId')) := by
  intro start start'
  have hself := Paired.submit hs hs (Matched.refl job invoker sink commands start) rfl runId runId
  have hself' :=
    Paired.submit hs' hs' (Matched.refl job' invoker' sink' commands start') rfl runId' runId'
  obtain ⟨told, -, htold, -, -, hfree⟩ := hself.told
  obtain ⟨told', -, htold', -, -, -⟩ := hself'.told
  refine ⟨told, told', htold, htold', hfree, fun hm => ?_⟩
  obtain ⟨es, es', hes, hes', hsame, -⟩ := (Paired.submit hs hs' hm rfl runId runId').told
  obtain rfl := List.append_cancel_left (htold.symm.trans hes)
  obtain rfl := List.append_cancel_left (htold'.symm.trans hes')
  exact Event.map_content_eq hsame runId runId'

/-! ## Files with other contents -/

section

variable {job job' : Job} {invoker : Invoker σ} {invoker' : Invoker σ'} {sink : Sink τ}
  {sink' : Sink τ'} {commands : List Command}

theorem files_of_emit (hs : sink.SparesFiles) {e : Event} {w w' : World σ τ}
    (h : emit sink e w = .ok () w') : w'.files = w.files := by
  have hfiles := hs e (w.sink, w.files)
  unfold emit at h
  split at h
  · next he =>
    rw [he] at hfiles
    cases h
    exact hfiles
  · next he =>
    rw [he] at hfiles
    split at h
    · cases h
      exact hfiles
    · cases h

theorem Performs.files_eq (hs : sink.SparesFiles) {n : Nat} {c : Command} {p r : Value}
    {w w' : World σ τ} (h : Performs job invoker sink n c p r w w') : w'.files = w.files := by
  obtain ⟨-, told, called, published, -⟩ := h
  obtain ⟨_, _, rfl⟩ := call_eq_ok_iff.mp called
  obtain ⟨_, rfl⟩ := publish_eq_ok_iff.mp published
  have hfiles := files_of_emit hs told
  exact hfiles

theorem Completes.files_eq (hs : sink.SparesFiles) {n : Nat} {done : List (Command × Value)}
    {w w' : World σ τ} (h : Completes job invoker sink n done w w') : w'.files = w.files := by
  induction h with
  | nil => rfl
  | cons hp he _ ih => rw [ih, files_of_emit hs he, hp.files_eq hs]

/-- A run whose sink leaves the files alone resolves parameters in the files that it began with. -/
theorem files_of_begins (hs : sink.SparesFiles) {w₀ w : World σ τ} {k : Nat} {c : Command}
    (h : Begins job invoker sink commands w₀ k c w) : w.files = w₀.files := by
  obtain ⟨-, w₁, done, he, hd, -⟩ := begins_iff.mp h
  rw [hd.files_eq hs, files_of_emit hs he]

/-- Two runs match each other in files in which the parameters of each command resemble each other
beside the same results, whatever these are. -/
theorem Matched.of_files (hs : sink.SparesFiles) (hs' : sink'.SparesFiles) {services : σ}
    {services' : σ'} {t : τ} {t' : τ'} {files files' : FileSystem}
    (hresolved : ∀ c ∈ commands, ∀ results,
      Resembles (Template.resolve (scopeIn job results files) c.params)
        (Template.resolve (scopeIn job' results files') c.params))
    (hanswered : ∀ k c w v p p',
      Begins job invoker sink commands (World.start services t files) k c w →
      Begins job' invoker' sink' commands (World.start services' t' files') k c v →
      Template.resolve (scope job w) c.params = .ok p →
      Template.resolve (scope job' v) c.params = .ok p' →
      ending (invoker.invoke c.objectType c.method p w.services)
        = ending (invoker'.invoke c.objectType c.method p' v.services)) :
    Matched job job' invoker invoker' sink sink' commands (World.start services t files)
      (World.start services' t' files') where
  resolved := by
    intro k c w v hw hv hstore
    have hsame := hresolved c (List.mem_of_getElem? hw.1) v.store.get?
    rw [scope, scope, files_of_begins hs hw, files_of_begins hs' hv, hstore]
    exact hsame
  answered := hanswered

end

/-- The files with an archive that has the content. -/
def archiveFiles (content : List UInt8) : FileSystem :=
  { FileSystem.empty with entries := [(["a.zip"], .file 0o644 content)] }

theorem resolve_archive (results : String → Option Value) (content : List UInt8) :
    Template.resolve (scopeIn bareJob results (archiveFiles content))
      (callWithText "a" "<a.zip>").params = .ok (.record [("p", .bytes content)]) := by
  have hpaths : Payload.paths? "<a.zip>" = .ok (some ["a.zip"]) := by cbv
  have hload : Payload.load .shipped (archiveFiles content) ⟨.single, []⟩ ["a.zip"] = .ok content :=
    rfl
  have htext : Template.resolveText (scopeIn bareJob results (archiveFiles content)) "<a.zip>"
      = .ok (.bytes content) := by
    rw [Template.resolveText_of_unmarked (by decide), Template.deliver_of_paths hpaths rfl]
    exact congrArg (Except.map Value.bytes) hload
  simp only [Template.resolve, callWithText, Value.record, List.map, Template.resolveAt,
    Template.resolveEntries, htext]
  rfl

/-- Two archives of equal length are sent, and no event tells which, not even where the second sink
refuses every other event. -/
theorem submit_summarised_archives :
    let commands := [callWithText "a" "<a.zip>"]
    let start := World.start () [] (archiveFiles [1, 2, 3])
    let start' := World.start () (0, []) (archiveFiles [4, 5, 6])
    let told := (after (submit bareJob steady Sink.memory "one" commands start)).sink
    let told' := (after (submit bareJob steady everySecond.noted "two" commands start')).sink.2
    Sink.memory.Hears id ∧ everySecond.noted.Hears Prod.snd ∧ steady.Worded
      ∧ Matched bareJob bareJob steady steady Sink.memory everySecond.noted commands start start'
      ∧ (∀ e ∈ told, e.BytesFree)
      ∧ told.map (Event.content "one") = told'.map (Event.content "two") := by
  intro commands start start' told told'
  have hhears := Sink.records_memory.hears
  have hhears' := ordinary_everySecond.hears_noted
  have hworded : steady.Worded := by
    intro objectType method params s f s' h
    cases h
  have hmatched : Matched bareJob bareJob steady steady Sink.memory everySecond.noted commands
      start start' := by
    refine .of_files Sink.sparesFiles_memory sparesFiles_everySecond.noted ?_ ?_
    · intro c hc results
      rw [List.mem_singleton.mp hc, resolve_archive, resolve_archive]
      exact .ok rfl
    · intros
      rfl
  obtain ⟨es, es', hes, hes', hfree, hsame⟩ := submit_summarised hhears hhears' bareJob bareJob
    steady steady commands "one" "two" () () [] (0, []) (archiveFiles [1, 2, 3])
    (archiveFiles [4, 5, 6])
  have htold : told = es := hes
  have htold' : told' = es' := hes'
  rw [htold, htold']
  exact ⟨hhears, hhears', hworded, hmatched, hfree hworded, hsame hmatched⟩

end Run

end CallPlan
