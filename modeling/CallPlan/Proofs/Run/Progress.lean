import CallPlan.Proofs.Run.Step

/-!
# How far a run gets

A run performs commands up to the first that stops. `Completes` is the part of it in
which every command succeeds; `performAll` always goes through such a part and then is at
the end of the list, at a command that fails, or at an error that ends the run
(`performAll_eq_ok_iff`, `performAll_eq_error`). Lists of commands are performed one
behind the other (`performAll_append_eq_bind`). `Begins` names the world in which a
command of a run begins: the one that the run of the commands before it leaves.
-/

namespace CallPlan.Run

open Sequencing

variable {σ τ : Type} {job : Job} {invoker : Invoker σ} {sink : Sink τ}

/-! ## Single commands of a run -/

theorem attempt_eq_none_iff {ω : Type} {x : EStateM Halt ω Unit} {w w' : ω} :
    attempt x w = .ok none w' ↔ x w = .ok () w' := by
  unfold attempt
  split <;> simp [*]

theorem attempt_eq_some_iff {ω : Type} {x : EStateM Halt ω Unit} {f : Failure} {w w' : ω} :
    attempt x w = .ok (some f) w' ↔ x w = .error (.failure f) w' := by
  unfold attempt
  split <;> simp [*]

/-- Only faults pass: every failure is kept for the report. -/
theorem attempt_eq_error_iff {ω : Type} {x : EStateM Halt ω Unit} {h : Halt} {w w' : ω} :
    attempt x w = .error h w' ↔ ∃ f, h = .fault f ∧ x w = .error (.fault f) w' := by
  unfold attempt
  split <;> rename_i hx
  · simp [hx]
  · simp [hx]
  · simp only [hx, EStateM.Result.error.injEq, Halt.fault.injEq]
    constructor
    · rintro ⟨rfl, rfl⟩
      exact ⟨_, rfl, rfl, rfl⟩
    · rintro ⟨f, rfl, rfl, rfl⟩
      exact ⟨rfl, rfl⟩

/-- The outcome of the command with index `n`. -/
def outcomeOf (job : Job) (n : Nat) (c : Command) (status : Status) : Outcome :=
  ⟨n, c.id, status, job.elapsed n⟩

/-- The outcomes of commands that all succeed, the first with index `n`. -/
def okOutcomes (job : Job) : Nat → List Command → List Outcome
  | _, [] => []
  | n, c :: cs => outcomeOf job n c .ok :: okOutcomes job (n + 1) cs

/-- The outcomes of commands that are skipped, the first with index `n`. -/
def skippedOutcomes : Nat → List Command → List Outcome
  | _, [] => []
  | n, c :: cs => ⟨n, c.id, .skipped, 0⟩ :: skippedOutcomes (n + 1) cs

/-! ## Skipping -/

theorem skip_eq_ok {n : Nat} {cs : List Command} {w w' : World σ τ} {os : List Outcome}
    (h : skip sink n cs w = .ok os w') : os = skippedOutcomes n cs := by
  induction cs generalizing n w os with
  | nil => cases h; rfl
  | cons c cs ih =>
      simp only [skip, run_bind_eq_ok_iff] at h
      obtain ⟨_, w₁, _, rest, _, hr, ho⟩ := h
      cases ho
      rw [skippedOutcomes, ih hr]

/-- Skipping ends early only where the sink refuses an event. -/
theorem exists_emit_of_skip_eq_error {n : Nat} {cs : List Command} {w w' : World σ τ} {h : Halt}
    (hs : skip sink n cs w = .error h w') : ∃ e w₁, emit sink e w₁ = .error h w' := by
  induction cs generalizing n w with
  | nil => cases hs
  | cons c cs ih =>
      rcases run_bind_eq_error_iff.mp hs with he | ⟨_, w₁, -, hs⟩
      · exact ⟨_, w, he⟩
      · rcases run_bind_eq_error_iff.mp hs with hr | ⟨_, w₂, -, hpure⟩
        · exact ih hr
        · cases hpure

theorem after_skip_cons (n : Nat) (c : Command) (cs : List Command) (w : World σ τ) :
    after (skip sink n (c :: cs) w) = match emit sink (.commandSkipped n c.id) w with
      | .ok _ w₁ => after (skip sink (n + 1) cs w₁)
      | .error _ w₁ => w₁ := by
  rw [skip, after_bind]
  cases emit sink (.commandSkipped n c.id) w with
  | ok u w₁ => exact after_bind_pure _ _ w₁
  | error h w₁ => rfl

/-- Skipping only tells events: the services and the results stay. -/
theorem services_store_skip (sink : Sink τ) (n : Nat) (cs : List Command) (w : World σ τ) :
    (after (skip sink n cs w)).services = w.services
      ∧ (after (skip sink n cs w)).store = w.store := by
  induction cs generalizing n w with
  | nil => exact ⟨rfl, rfl⟩
  | cons c cs ih =>
      rw [after_skip_cons]
      have hs := services_emit sink (.commandSkipped n c.id) w
      have ht := store_emit sink (.commandSkipped n c.id) w
      cases he : emit sink (.commandSkipped n c.id) w with
      | error h w₁ => simpa [he] using And.intro hs ht
      | ok u w₁ =>
          rw [he] at hs ht
          exact ⟨(ih (n + 1) w₁).1.trans hs, (ih (n + 1) w₁).2.trans ht⟩

/-! ## Where a run stands

`Performs` and `Halts` tell what becomes of one command. In a run, a command that succeeds
is told to be completed; one that fails is told to have failed, and the commands behind it
are skipped. -/

/-- The commands of `done`, the first with index `n`, succeed one after the other with the
parameters beside them. -/
inductive Completes (job : Job) (invoker : Invoker σ) (sink : Sink τ) :
    (n : Nat) → (done : List (Command × Value)) → World σ τ → World σ τ → Prop
  | nil {n : Nat} {w : World σ τ} : Completes job invoker sink n [] w w
  | cons {n : Nat} {c : Command} {p r : Value} {done : List (Command × Value)}
      {w w₁ w₂ w₃ : World σ τ}
      (performed : Performs job invoker sink n c p r w w₁)
      (told : emit sink (.commandCompleted n c.id (job.elapsed n)) w₁ = .ok () w₂)
      (rest : Completes job invoker sink (n + 1) done w₂ w₃) :
      Completes job invoker sink n ((c, p) :: done) w w₃

/-- The command `c` with index `n` fails with `f`, and the commands `rest` are skipped. -/
inductive Aborts (job : Job) (invoker : Invoker σ) (sink : Sink τ) (n : Nat) (c : Command)
    (rest : List Command) (w : World σ τ) (f : Failure) : World σ τ → Prop
  | intro {w₁ w₂ w₃ : World σ τ} {os : List Outcome}
      (halted : Halts job invoker sink n c w (.failure f) w₁)
      (told : emit sink (.commandFailed n c.id (job.elapsed n) f) w₁ = .ok () w₂)
      (skipped : skip sink (n + 1) rest w₂ = .ok os w₃) :
      Aborts job invoker sink n c rest w f w₃

/-- At the command `c` with index `n` an error ends the run without a report. -/
inductive Breaks (job : Job) (invoker : Invoker σ) (sink : Sink τ) (n : Nat) (c : Command)
    (rest : List Command) (w : World σ τ) : Halt → World σ τ → Prop
  /-- The command stops with a fault. -/
  | faulted {f : Fault} {w₁ : World σ τ}
      (halted : Halts job invoker sink n c w (.fault f) w₁) :
      Breaks job invoker sink n c rest w (.fault f) w₁
  /-- The sink refuses the event that the command is completed. -/
  | uncompleted {p r : Value} {h : Halt} {w₁ w₂ : World σ τ}
      (performed : Performs job invoker sink n c p r w w₁)
      (told : emit sink (.commandCompleted n c.id (job.elapsed n)) w₁ = .error h w₂) :
      Breaks job invoker sink n c rest w h w₂
  /-- The sink refuses the event that the command has failed. -/
  | unreported {f : Failure} {h : Halt} {w₁ w₂ : World σ τ}
      (halted : Halts job invoker sink n c w (.failure f) w₁)
      (told : emit sink (.commandFailed n c.id (job.elapsed n) f) w₁ = .error h w₂) :
      Breaks job invoker sink n c rest w h w₂
  /-- The sink refuses the event that a command behind it is skipped. -/
  | unskipped {f : Failure} {h : Halt} {w₁ w₂ w₃ : World σ τ}
      (halted : Halts job invoker sink n c w (.failure f) w₁)
      (told : emit sink (.commandFailed n c.id (job.elapsed n) f) w₁ = .ok () w₂)
      (skipped : skip sink (n + 1) rest w₂ = .error h w₃) :
      Breaks job invoker sink n c rest w h w₃

theorem performAll_cons_eq_ok_iff {n : Nat} {c : Command} {cs : List Command}
    {w w' : World σ τ} {os : List Outcome} :
    performAll job invoker sink n (c :: cs) w = .ok os w' ↔
      (∃ p r w₁ w₂ os', Performs job invoker sink n c p r w w₁
        ∧ emit sink (.commandCompleted n c.id (job.elapsed n)) w₁ = .ok () w₂
        ∧ performAll job invoker sink (n + 1) cs w₂ = .ok os' w'
        ∧ os = outcomeOf job n c .ok :: os')
      ∨ (∃ f, Aborts job invoker sink n c cs w f w'
        ∧ os = outcomeOf job n c (.failed f) :: skippedOutcomes (n + 1) cs) := by
  rw [performAll, run_bind_eq_ok_iff]
  constructor
  · rintro ⟨f | f, w₁, ha, hr⟩
    · simp only [run_bind_eq_ok_iff] at hr
      obtain ⟨_, w₂, he, os', w₃, hr, ho⟩ := hr
      obtain ⟨p, r, hp⟩ := perform_eq_ok_iff.mp (attempt_eq_none_iff.mp ha)
      cases ho
      exact .inl ⟨p, r, w₁, w₂, os', hp, he, hr, rfl⟩
    · simp only [run_bind_eq_ok_iff] at hr
      obtain ⟨_, w₂, he, os', w₃, hr, ho⟩ := hr
      have hh := perform_eq_error_iff.mp (attempt_eq_some_iff.mp ha)
      cases ho
      exact .inr ⟨f, .intro hh he hr, by rw [skip_eq_ok hr]; rfl⟩
  · rintro (⟨p, r, w₁, w₂, os', hp, he, hr, rfl⟩ | ⟨f, ⟨hh, he, hr⟩, rfl⟩)
    · refine ⟨none, w₁, attempt_eq_none_iff.mpr (perform_eq_ok_iff.mpr ⟨p, r, hp⟩), ?_⟩
      simp only [run_bind_eq_ok_iff]
      exact ⟨(), w₂, he, os', w', hr, rfl⟩
    · refine ⟨some f, _, attempt_eq_some_iff.mpr (perform_eq_error_iff.mpr hh), ?_⟩
      simp only [run_bind_eq_ok_iff]
      exact ⟨(), _, he, _, w', hr, by rw [skip_eq_ok hr]; rfl⟩

theorem performAll_cons_eq_error_iff {n : Nat} {c : Command} {cs : List Command}
    {w w' : World σ τ} {h : Halt} :
    performAll job invoker sink n (c :: cs) w = .error h w' ↔
      (∃ p r w₁ w₂, Performs job invoker sink n c p r w w₁
        ∧ emit sink (.commandCompleted n c.id (job.elapsed n)) w₁ = .ok () w₂
        ∧ performAll job invoker sink (n + 1) cs w₂ = .error h w')
      ∨ Breaks job invoker sink n c cs w h w' := by
  rw [performAll, run_bind_eq_error_iff]
  constructor
  · rintro (ha | ⟨f | f, w₁, ha, hr⟩)
    · obtain ⟨f, rfl, hf⟩ := attempt_eq_error_iff.mp ha
      exact .inr (.faulted (perform_eq_error_iff.mp hf))
    · obtain ⟨p, r, hp⟩ := perform_eq_ok_iff.mp (attempt_eq_none_iff.mp ha)
      simp only [run_bind_eq_error_iff] at hr
      rcases hr with he | ⟨_, w₂, he, hr | ⟨_, _, _, ho⟩⟩
      · exact .inr (.uncompleted hp he)
      · exact .inl ⟨p, r, w₁, w₂, hp, he, hr⟩
      · cases ho
    · have hh := perform_eq_error_iff.mp (attempt_eq_some_iff.mp ha)
      simp only [run_bind_eq_error_iff] at hr
      rcases hr with he | ⟨_, w₂, he, hr | ⟨_, _, _, ho⟩⟩
      · exact .inr (.unreported hh he)
      · exact .inr (.unskipped hh he hr)
      · cases ho
  · rintro (⟨p, r, w₁, w₂, hp, he, hr⟩ | hb)
    · refine .inr ⟨none, w₁, attempt_eq_none_iff.mpr (perform_eq_ok_iff.mpr ⟨p, r, hp⟩), ?_⟩
      simp only [run_bind_eq_error_iff]
      exact .inr ⟨(), w₂, he, .inl hr⟩
    · cases hb with
      | faulted hh => exact .inl (attempt_eq_error_iff.mpr ⟨_, rfl, perform_eq_error_iff.mpr hh⟩)
      | uncompleted hp he =>
          refine .inr ⟨none, _, attempt_eq_none_iff.mpr (perform_eq_ok_iff.mpr ⟨_, _, hp⟩), ?_⟩
          simp only [run_bind_eq_error_iff]
          exact .inl he
      | unreported hh he =>
          refine .inr ⟨some _, _, attempt_eq_some_iff.mpr (perform_eq_error_iff.mpr hh), ?_⟩
          simp only [run_bind_eq_error_iff]
          exact .inl he
      | unskipped hh he hs =>
          refine .inr ⟨some _, _, attempt_eq_some_iff.mpr (perform_eq_error_iff.mpr hh), ?_⟩
          simp only [run_bind_eq_error_iff]
          exact .inr ⟨(), _, he, .inl hs⟩

/-! ## Whole runs -/

theorem add_length_cons {α : Type} (n : Nat) (a : α) (as : List α) :
    n + (a :: as).length = n + 1 + as.length := by
  rw [List.length_cons]
  omega

/-- Every run goes through commands that succeed, and then is at its end or at a command
that fails. -/
theorem performAll_eq_ok_iff {n : Nat} {cs : List Command} {w w' : World σ τ}
    {os : List Outcome} :
    performAll job invoker sink n cs w = .ok os w' ↔
      (∃ done, Completes job invoker sink n done w w' ∧ cs = done.map Prod.fst
        ∧ os = okOutcomes job n cs)
      ∨ (∃ done c rest w₁ f, Completes job invoker sink n done w w₁
        ∧ Aborts job invoker sink (n + done.length) c rest w₁ f w'
        ∧ cs = done.map Prod.fst ++ c :: rest
        ∧ os = okOutcomes job n (done.map Prod.fst)
          ++ outcomeOf job (n + done.length) c (.failed f)
            :: skippedOutcomes (n + done.length + 1) rest) := by
  induction cs generalizing n w os with
  | nil =>
      simp only [performAll, run_pure, EStateM.Result.ok.injEq, okOutcomes]
      constructor
      · rintro ⟨rfl, rfl⟩
        exact .inl ⟨[], .nil, rfl, rfl⟩
      · rintro (⟨done, hd, hc, rfl⟩ | ⟨done, c, rest, w₁, f, -, -, hc, -⟩)
        · obtain rfl := List.map_eq_nil_iff.mp hc.symm
          cases hd
          exact ⟨rfl, rfl⟩
        · simp at hc
  | cons c cs ih =>
      rw [performAll_cons_eq_ok_iff]
      constructor
      · rintro (⟨p, r, w₁, w₂, os', hp, he, hr, rfl⟩ | ⟨f, ha, rfl⟩)
        · rcases ih.mp hr with ⟨done, hd, rfl, rfl⟩ | ⟨done, c', rest, w₃, f, hd, ha, rfl, rfl⟩
          · exact .inl ⟨(c, p) :: done, .cons hp he hd, rfl, rfl⟩
          · refine .inr ⟨(c, p) :: done, c', rest, w₃, f, .cons hp he hd, ?_, rfl, ?_⟩
            · rwa [add_length_cons]
            · rw [add_length_cons]
              rfl
        · exact .inr ⟨[], c, cs, w, f, .nil, ha, rfl, rfl⟩
      · rintro (⟨done, hd, hc, rfl⟩ | ⟨done, c', rest, w₁, f, hd, ha, hc, rfl⟩)
        · cases hd with
          | nil => simp at hc
          | cons hp he hd =>
              obtain ⟨rfl, rfl⟩ := List.cons.inj hc
              exact .inl ⟨_, _, _, _, _, hp, he, ih.mpr (.inl ⟨_, hd, rfl, rfl⟩), rfl⟩
        · cases hd with
          | nil =>
              obtain ⟨rfl, rfl⟩ := List.cons.inj hc
              exact .inr ⟨f, ha, rfl⟩
          | @cons _ _ _ _ done _ _ _ _ hp he hd =>
              obtain ⟨rfl, rfl⟩ := List.cons.inj hc
              rw [add_length_cons] at ha ⊢
              exact .inl ⟨_, _, _, _, _, hp, he,
                ih.mpr (.inr ⟨_, _, _, _, f, hd, ha, rfl, rfl⟩), rfl⟩

/-- A run that an error ends has gone through commands that succeed up to the one where
the error is. -/
theorem performAll_eq_error {n : Nat} {cs : List Command} {w w' : World σ τ} {h : Halt}
    (hr : performAll job invoker sink n cs w = .error h w') :
    ∃ done c rest w₁, Completes job invoker sink n done w w₁
      ∧ Breaks job invoker sink (n + done.length) c rest w₁ h w'
      ∧ cs = done.map Prod.fst ++ c :: rest := by
  induction cs generalizing n w with
  | nil => cases hr
  | cons c cs ih =>
      rcases performAll_cons_eq_error_iff.mp hr with ⟨p, r, w₁, w₂, hp, he, hr⟩ | hb
      · obtain ⟨done, c', rest, w₃, hd, hb, rfl⟩ := ih hr
        refine ⟨(c, p) :: done, c', rest, w₃, .cons hp he hd, ?_, rfl⟩
        rwa [add_length_cons]
      · exact ⟨[], c, cs, w, .nil, hb, rfl⟩

/-- The outcomes of a run behind those of the commands before it. -/
def prepend {ω : Type} (os : List Outcome) :
    EStateM.Result Halt ω (List Outcome) → EStateM.Result Halt ω (List Outcome)
  | .ok os' w => .ok (os ++ os') w
  | .error h w => .error h w

/-! ## Lists behind each other -/

theorem Completes.append {n : Nat} {done done' : List (Command × Value)} {w w₁ w' : World σ τ}
    (h : Completes job invoker sink n done w w₁)
    (h' : Completes job invoker sink (n + done.length) done' w₁ w') :
    Completes job invoker sink n (done ++ done') w w' := by
  induction h with
  | nil => exact h'
  | cons hp he _ ih =>
      rw [add_length_cons] at h'
      exact .cons hp he (ih h')

theorem Completes.exists_of_append {n : Nat} {done done' : List (Command × Value)}
    {w w' : World σ τ}
    (h : Completes job invoker sink n (done ++ done') w w') :
    ∃ w₁, Completes job invoker sink n done w w₁
      ∧ Completes job invoker sink (n + done.length) done' w₁ w' := by
  induction done generalizing n w with
  | nil => exact ⟨w, .nil, h⟩
  | cons d done ih =>
      obtain ⟨c, p⟩ := d
      cases h with
      | cons hp he hd =>
          obtain ⟨w₁, hd₁, hd₂⟩ := ih hd
          refine ⟨w₁, .cons hp he hd₁, ?_⟩
          rwa [add_length_cons]

/-- No command among the outcomes has failed. -/
def allOk (os : List Outcome) : Bool :=
  (os.find? fun o => o.status.failure?.isSome).isNone

theorem status_of_mem_okOutcomes {n : Nat} {cs : List Command} {o : Outcome}
    (h : o ∈ okOutcomes job n cs) : o.status = .ok := by
  induction cs generalizing n with
  | nil => cases h
  | cons c cs ih =>
      rcases List.mem_cons.mp h with rfl | h
      · rfl
      · exact ih h

theorem status_of_mem_skippedOutcomes {n : Nat} {cs : List Command} {o : Outcome}
    (h : o ∈ skippedOutcomes n cs) : o.status = .skipped := by
  induction cs generalizing n with
  | nil => cases h
  | cons c cs ih =>
      rcases List.mem_cons.mp h with rfl | h
      · rfl
      · exact ih h

theorem find?_okOutcomes (n : Nat) (cs : List Command) :
    (okOutcomes job n cs).find? (fun o => o.status.failure?.isSome) = none := by
  refine List.find?_eq_none.mpr fun o ho => ?_
  simp [status_of_mem_okOutcomes ho, Status.failure?]

theorem allOk_okOutcomes (n : Nat) (cs : List Command) : allOk (okOutcomes job n cs) = true := by
  rw [allOk, find?_okOutcomes]
  rfl

/-- What becomes of commands behind others that have all succeeded, or not. -/
def goOn (job : Job) (invoker : Invoker σ) (sink : Sink τ) (n : Nat) (cs : List Command) :
    (ok : Bool) → EStateM Halt (World σ τ) (List Outcome)
  | true => performAll job invoker sink n cs
  | false => skip sink n cs

theorem skip_append (n : Nat) (cs ds : List Command) :
    (skip sink n (cs ++ ds) : EStateM Halt (World σ τ) (List Outcome)) = do
      let os ← skip sink n cs
      let os' ← skip sink (n + cs.length) ds
      return os ++ os' := by
  induction cs generalizing n with
  | nil => simp [skip]
  | cons c cs ih =>
      rw [List.cons_append, skip, skip, ih (n + 1), add_length_cons]
      simp only [bind_assoc, pure_bind, List.cons_append]

/-- A run of `cs ++ ds` is a run of `cs`, and then one of `ds` or their skipping. -/
theorem performAll_append_eq_bind (n : Nat) (cs ds : List Command) :
    performAll job invoker sink n (cs ++ ds) = do
      let os ← performAll job invoker sink n cs
      let os' ← goOn job invoker sink (n + cs.length) ds (allOk os)
      return os ++ os' := by
  induction cs generalizing n with
  | nil => simp [performAll, allOk, goOn]
  | cons c cs ih =>
      rw [List.cons_append, performAll, performAll, bind_assoc, add_length_cons]
      refine bind_congr fun stopped => ?_
      cases stopped with
      | none =>
          have hall (t : Nat) (os : List Outcome) : allOk (⟨n, c.id, .ok, t⟩ :: os) = allOk os :=
            rfl
          simp only [ih, bind_assoc, pure_bind, hall, List.cons_append]
      | some f =>
          have hall (t : Nat) (os : List Outcome) : allOk (⟨n, c.id, .failed f, t⟩ :: os) = false :=
            rfl
          simp only [skip_append, bind_assoc, pure_bind, hall, goOn, List.cons_append]

theorem performAll_append_of_eq_ok {n : Nat} {cs : List Command} {w w₁ : World σ τ}
    {os : List Outcome} (h : performAll job invoker sink n cs w = .ok os w₁) (ds : List Command) :
    performAll job invoker sink n (cs ++ ds) w =
      prepend os (goOn job invoker sink (n + cs.length) ds (allOk os) w₁) := by
  rw [performAll_append_eq_bind]
  show EStateM.bind _ _ w = _
  rw [EStateM.bind, h]
  show EStateM.bind _ _ w₁ = _
  unfold EStateM.bind
  cases goOn job invoker sink (n + cs.length) ds (allOk os) w₁ <;> rfl

/-- Behind commands that succeed, a run goes on as a run of the commands that are left. -/
theorem performAll_append {n : Nat} {done : List (Command × Value)} {w w₁ : World σ τ}
    (hd : Completes job invoker sink n done w w₁) (rest : List Command) :
    performAll job invoker sink n (done.map Prod.fst ++ rest) w =
      prepend (okOutcomes job n (done.map Prod.fst))
        (performAll job invoker sink (n + done.length) rest w₁) := by
  have hp := performAll_eq_ok_iff.mpr (.inl ⟨done, hd, rfl, rfl⟩)
  rw [performAll_append_of_eq_ok hp, allOk_okOutcomes, goOn, List.length_map]

/-! ## Where a command begins -/

/-- A command that succeeds has begun behind those before it, and its parameters have been
resolved there. -/
theorem Completes.resolved {n : Nat} {done : List (Command × Value)} {w w' : World σ τ}
    (h : Completes job invoker sink n done w w') {i : Nat} {c : Command} {p : Value}
    (hi : done[i]? = some (c, p)) :
    ∃ w₁, Completes job invoker sink n (done.take i) w w₁
      ∧ Template.resolve (scope job w₁) c.params = .ok p := by
  induction h generalizing i with
  | nil => simp at hi
  | cons hp he _ ih =>
      cases i with
      | zero =>
          obtain ⟨rfl, rfl⟩ := Prod.mk.inj (Option.some.inj hi)
          obtain ⟨hr, -⟩ := hp
          exact ⟨_, .nil, hr⟩
      | succ i =>
          obtain ⟨w₁, hd, hr⟩ := ih hi
          exact ⟨w₁, .cons hp he hd, hr⟩

/-- In the run of `commands` from `w₀`, the command `c` with index `k` begins in `w`: all
before it have succeeded and left `w`. -/
def Begins (job : Job) (invoker : Invoker σ) (sink : Sink τ) (commands : List Command)
    (w₀ : World σ τ) (k : Nat) (c : Command) (w : World σ τ) : Prop :=
  commands[k]? = some c ∧ ∃ w₁ os,
    emit sink (.runStarted commands.length) w₀ = .ok () w₁
      ∧ performAll job invoker sink 0 (commands.take k) w₁ = .ok os w
      ∧ ∀ o ∈ os, o.status = .ok

theorem begins_iff {commands : List Command} {w₀ w : World σ τ} {k : Nat} {c : Command} :
    Begins job invoker sink commands w₀ k c w ↔
      commands[k]? = some c ∧ ∃ w₁ done,
        emit sink (.runStarted commands.length) w₀ = .ok () w₁
          ∧ Completes job invoker sink 0 done w₁ w ∧ done.map Prod.fst = commands.take k := by
  refine and_congr_right fun _ => ⟨?_, ?_⟩
  · rintro ⟨w₁, os, he, hr, hs⟩
    rcases performAll_eq_ok_iff.mp hr with ⟨done, hd, hc, -⟩ | ⟨done, c', rest, _, f, -, -, -, rfl⟩
    · exact ⟨w₁, done, he, hd, hc.symm⟩
    · cases hs _ (List.mem_append_right _ (List.mem_cons_self ..))
  · rintro ⟨w₁, done, he, hd, hc⟩
    refine ⟨w₁, _, he, performAll_eq_ok_iff.mpr (.inl ⟨done, hd, hc.symm, rfl⟩), fun o ho => ?_⟩
    exact status_of_mem_okOutcomes ho

/-- The command behind commands that succeed begins in the world they leave. -/
theorem Begins.intro {done : List (Command × Value)} {c : Command} {rest : List Command}
    {w₀ w₁ w : World σ τ}
    (he : emit sink (.runStarted (done.map Prod.fst ++ c :: rest).length) w₀ = .ok () w₁)
    (hd : Completes job invoker sink 0 done w₁ w) :
    Begins job invoker sink (done.map Prod.fst ++ c :: rest) w₀ done.length c w := by
  refine begins_iff.mpr ⟨?_, w₁, done, he, hd, ?_⟩
  · simp
  · simp

/-- A command that succeeds has begun, and its parameters have been resolved then. -/
theorem Begins.of_mem {done : List (Command × Value)} {rest : List Command} {w₀ w₁ w₂ : World σ τ}
    (he : emit sink (.runStarted (done.map Prod.fst ++ rest).length) w₀ = .ok () w₁)
    (hd : Completes job invoker sink 0 done w₁ w₂) {i : Nat} {c : Command} {p : Value}
    (hi : done[i]? = some (c, p)) :
    ∃ w, Begins job invoker sink (done.map Prod.fst ++ rest) w₀ i c w
      ∧ Template.resolve (scope job w) c.params = .ok p := by
  obtain ⟨w, hd', hr⟩ := hd.resolved hi
  have hlt : i < done.length := (List.getElem?_eq_some_iff.mp hi).1
  refine ⟨w, begins_iff.mpr ⟨?_, w₁, _, he, hd', ?_⟩, hr⟩
  · rw [List.getElem?_append_left (by simpa using hlt)]
    simp [hi]
  · rw [List.take_append_of_le_length (by simp; omega), List.map_take]

/-- From where a command begins, the run goes on as a run of that command and those behind
it. -/
theorem Begins.performAll_eq {commands : List Command} {w₀ w : World σ τ} {k : Nat} {c : Command}
    (h : Begins job invoker sink commands w₀ k c w) :
    ∃ w₁, emit sink (.runStarted commands.length) w₀ = .ok () w₁
      ∧ performAll job invoker sink 0 commands w₁ =
        prepend (okOutcomes job 0 (commands.take k))
          (performAll job invoker sink k (c :: commands.drop (k + 1)) w) := by
  obtain ⟨hk, w₁, done, he, hd, hc⟩ := begins_iff.mp h
  obtain ⟨hlt, hget⟩ := List.getElem?_eq_some_iff.mp hk
  have hlength : done.length = k := by
    have := congrArg List.length hc
    simp only [List.length_map, List.length_take] at this
    omega
  have hcons : commands.drop k = c :: commands.drop (k + 1) := by
    rw [← hget]
    exact List.drop_eq_getElem_cons hlt
  have hall := performAll_append hd (commands.drop k)
  rw [hc, List.take_append_drop, hlength, Nat.zero_add, hcons] at hall
  exact ⟨w₁, he, hall⟩

/-- A run reports what its commands came to, with the results that they left. -/
theorem submit_eq_ok_iff {runId : String} {commands : List Command} {w₀ w' : World σ τ}
    {report : RunReport} :
    submit job invoker sink runId commands w₀ = .ok report w' ↔
      ∃ w₁ os w₂, emit sink (.runStarted commands.length) w₀ = .ok () w₁
        ∧ performAll job invoker sink 0 commands w₁ = .ok os w₂
        ∧ report = ⟨runId, os, w₂.store⟩
        ∧ emit sink (.runFinished report.ok w₂.store.ids) w₂ = .ok () w' := by
  simp only [submit, run_bind_eq_ok_iff, published]
  constructor
  · rintro ⟨_, w₁, he, os, w₂, hp, _, _, hs, _, _, hf, hr⟩
    cases hs
    cases hr
    exact ⟨w₁, os, w₂, he, hp, rfl, hf⟩
  · rintro ⟨w₁, os, w₂, he, hp, rfl, hf⟩
    exact ⟨(), w₁, he, os, w₂, hp, _, _, rfl, (), w', hf, rfl⟩

theorem submit_eq_error_iff {runId : String} {commands : List Command} {w₀ w' : World σ τ}
    {h : Halt} :
    submit job invoker sink runId commands w₀ = .error h w' ↔
      emit sink (.runStarted commands.length) w₀ = .error h w'
      ∨ ∃ w₁, emit sink (.runStarted commands.length) w₀ = .ok () w₁
        ∧ (performAll job invoker sink 0 commands w₁ = .error h w'
          ∨ ∃ os w₂, performAll job invoker sink 0 commands w₁ = .ok os w₂
            ∧ emit sink (.runFinished (RunReport.mk runId os w₂.store).ok w₂.store.ids) w₂
              = .error h w') := by
  simp only [submit, run_bind_eq_error_iff, published]
  constructor
  · rintro (he | ⟨_, w₁, he, hp | ⟨os, w₂, hp, hs | ⟨_, _, hs, hf | ⟨_, _, _, hr⟩⟩⟩⟩)
    · exact .inl he
    · exact .inr ⟨w₁, he, .inl hp⟩
    · cases hs
    · cases hs
      exact .inr ⟨w₁, he, .inr ⟨os, w₂, hp, hf⟩⟩
    · cases hr
  · rintro (he | ⟨w₁, he, hp | ⟨os, w₂, hp, hf⟩⟩)
    · exact .inl he
    · exact .inr ⟨(), w₁, he, .inl hp⟩
    · exact .inr ⟨(), w₁, he, .inr ⟨os, w₂, hp, .inr ⟨_, _, rfl, .inl hf⟩⟩⟩

end CallPlan.Run
