/-!
# Steps one after the other

Steps that may fail, and steps that may fail and change a state, are put in a row by
`>>=`. A row succeeds exactly when each step does and fails exactly when one step does
after those before it have succeeded. Everything that is proved about runs and about
resolution takes rows apart by these lemmas and never unfolds them.
-/

namespace CallPlan.Sequencing

universe u v

/-! ## Steps that may fail -/

section

variable {ε ε' α β : Type u}

@[simp] theorem ok_bind (a : α) (f : α → Except ε β) : ((.ok a : Except ε α) >>= f) = f a := rfl

@[simp] theorem error_bind (e : ε) (f : α → Except ε β) :
    ((.error e : Except ε α) >>= f) = .error e := rfl

theorem bind_eq_ok_iff {x : Except ε α} {f : α → Except ε β} {b : β} :
    (x >>= f) = .ok b ↔ ∃ a, x = .ok a ∧ f a = .ok b := by
  cases x <;> simp [bind, Except.bind]

theorem bind_eq_error_iff {x : Except ε α} {f : α → Except ε β} {e : ε} :
    (x >>= f) = .error e ↔ x = .error e ∨ ∃ a, x = .ok a ∧ f a = .error e := by
  cases x <;> simp [bind, Except.bind]

@[simp] theorem pure_eq_ok_iff {a b : α} : (pure a : Except ε α) = .ok b ↔ a = b := by
  simp [pure, Except.pure]

theorem map_eq_ok_iff {x : Except ε α} {f : α → β} {b : β} :
    x.map f = .ok b ↔ ∃ a, x = .ok a ∧ f a = b := by
  cases x <;> simp [Except.map]

theorem exists_map_eq_ok_iff {x : Except ε α} {f : α → β} :
    (∃ b, x.map f = .ok b) ↔ ∃ a, x = .ok a := by
  cases x <;> simp [Except.map]

theorem map_eq_error_iff {x : Except ε α} {f : α → β} {e : ε} :
    x.map f = .error e ↔ x = .error e := by
  cases x <;> simp [Except.map]

theorem mapError_eq_ok_iff {x : Except ε α} {f : ε → ε'} {a : α} :
    x.mapError f = .ok a ↔ x = .ok a := by
  cases x with
  | ok a' => exact ⟨fun h => congrArg _ (Except.ok.inj h), fun h => congrArg _ (Except.ok.inj h)⟩
  | error e => exact ⟨nofun, nofun⟩

theorem mapError_eq_error_iff {x : Except ε α} {f : ε → ε'} {e : ε'} :
    x.mapError f = .error e ↔ ∃ e', x = .error e' ∧ f e' = e := by
  cases x with
  | ok a => exact ⟨nofun, nofun⟩
  | error e' =>
      constructor
      · intro h
        exact ⟨e', rfl, Except.error.inj h⟩
      · rintro ⟨_, h, rfl⟩
        cases h
        rfl

end

/-! ## Rows of stops -/

section

variable {ε α β : Type} {pass : α → Except ε Unit}

/-- What became of a step, without its value. -/
def completion (x : Except ε α) : Except ε Unit :=
  x.map fun _ => ()

theorem completion_eq_error_iff {x : Except ε α} {e : ε} :
    completion x = .error e ↔ x = .error e :=
  map_eq_error_iff

/-- Passes stops in their order, up to the first that is not passed. -/
def passAll (pass : α → Except ε Unit) : List α → Except ε Unit
  | [] => .ok ()
  | s :: ss => pass s >>= fun _ => passAll pass ss

theorem passAll_append (ss ts : List α) :
    passAll pass (ss ++ ts) = passAll pass ss >>= fun _ => passAll pass ts := by
  induction ss with
  | nil => rfl
  | cons s ss ih =>
      rw [List.cons_append, passAll, passAll, ih]
      cases pass s <;> rfl

theorem passAll_eq_ok_iff {ss : List α} :
    passAll pass ss = .ok () ↔ ∀ s ∈ ss, pass s = .ok () := by
  induction ss with
  | nil => simp [passAll]
  | cons s ss ih =>
      rw [passAll, bind_eq_ok_iff, List.forall_mem_cons, ih]
      exact ⟨fun ⟨_, hs, hss⟩ => ⟨hs, hss⟩, fun ⟨hs, hss⟩ => ⟨(), hs, hss⟩⟩

/-- A row fails as its first stop does that is not passed. -/
theorem passAll_eq_error_iff {ss : List α} {e : ε} :
    passAll pass ss = .error e ↔
      ∃ before s rest, ss = before ++ s :: rest
        ∧ (∀ s ∈ before, pass s = .ok ()) ∧ pass s = .error e := by
  induction ss with
  | nil => simp [passAll]
  | cons s ss ih =>
      rw [passAll, bind_eq_error_iff, ih]
      constructor
      · rintro (h | ⟨_, hs, before, t, rest, rfl, hb, ht⟩)
        · exact ⟨[], s, ss, rfl, by simp, h⟩
        · exact ⟨s :: before, t, rest, rfl, List.forall_mem_cons.mpr ⟨hs, hb⟩, ht⟩
      · rintro ⟨before, t, rest, hl, hb, ht⟩
        cases before with
        | nil =>
            cases hl
            exact .inl ht
        | cons b before =>
            cases hl
            obtain ⟨hs, hb⟩ := List.forall_mem_cons.mp hb
            exact .inr ⟨(), hs, before, t, rest, rfl, hb, ht⟩

end

/-! ## What steps fail with -/

section

variable {ε ε' α β : Type u} {P : ε → Prop}

/-- All that a step can fail with is of one kind. -/
def FailsOnly (P : ε → Prop) (x : Except ε α) : Prop :=
  ∀ e, x = .error e → P e

theorem failsOnly_ok (a : α) : FailsOnly P (.ok a : Except ε α) := nofun

theorem failsOnly_error {e : ε} (h : P e) : FailsOnly P (.error e : Except ε α) := by
  rintro _ ⟨⟩
  exact h

theorem FailsOnly.mono {Q : ε → Prop} {x : Except ε α} (hx : FailsOnly P x)
    (h : ∀ e, P e → Q e) : FailsOnly Q x :=
  fun e he => h e (hx e he)

/-- A row fails only as its steps do. -/
theorem FailsOnly.bind {x : Except ε α} {f : α → Except ε β} (hx : FailsOnly P x)
    (hf : ∀ a, FailsOnly P (f a)) : FailsOnly P (x >>= f) := by
  intro e he
  rcases bind_eq_error_iff.mp he with he | ⟨a, -, he⟩
  · exact hx e he
  · exact hf a e he

theorem FailsOnly.map {x : Except ε α} (hx : FailsOnly P x) (f : α → β) :
    FailsOnly P (x.map f) :=
  fun e he => hx e (map_eq_error_iff.mp he)

theorem FailsOnly.mapError {x : Except ε' α} {f : ε' → ε} {Q : ε' → Prop} (hx : FailsOnly Q x)
    (hf : ∀ e, Q e → P (f e)) : FailsOnly P (x.mapError f) := by
  intro e he
  obtain ⟨e', hx', rfl⟩ := mapError_eq_error_iff.mp he
  exact hf e' (hx e' hx')

end

/-! ## Steps that change a state -/

section

variable {ε ω α β : Type}

/-- The state that a step leaves, whether it succeeds or fails. -/
def after : EStateM.Result ε ω α → ω
  | .ok _ w => w
  | .error _ w => w

/-- What a step ends with, without the state. -/
def ending : EStateM.Result ε ω α → Except ε α
  | .ok a _ => .ok a
  | .error e _ => .error e

@[simp] theorem after_ok (a : α) (w : ω) : after (.ok a w : EStateM.Result ε ω α) = w := rfl

@[simp] theorem after_error (e : ε) (w : ω) : after (.error e w : EStateM.Result ε ω α) = w :=
  rfl

theorem run_bind_eq_ok_iff {x : EStateM ε ω α} {f : α → EStateM ε ω β} {w w' : ω} {b : β} :
    (x >>= f) w = .ok b w' ↔ ∃ a w₁, x w = .ok a w₁ ∧ f a w₁ = .ok b w' := by
  show EStateM.bind x f w = _ ↔ _
  unfold EStateM.bind
  cases x w <;> simp [and_assoc]

theorem run_bind_eq_error_iff {x : EStateM ε ω α} {f : α → EStateM ε ω β} {w w' : ω} {e : ε} :
    (x >>= f) w = .error e w' ↔
      x w = .error e w' ∨ ∃ a w₁, x w = .ok a w₁ ∧ f a w₁ = .error e w' := by
  show EStateM.bind x f w = _ ↔ _
  unfold EStateM.bind
  cases x w <;> simp [and_assoc]

/-- A row leaves the state that its last step leaves. -/
theorem after_bind (x : EStateM ε ω α) (f : α → EStateM ε ω β) (w : ω) :
    after ((x >>= f) w) = match x w with
      | .ok a w₁ => after (f a w₁)
      | .error _ w₁ => w₁ := by
  show after (EStateM.bind x f w) = _
  unfold EStateM.bind
  cases x w <;> rfl

theorem after_bind_pure (x : EStateM ε ω α) (g : α → β) (w : ω) :
    after ((x >>= fun a => pure (g a)) w) = after (x w) := by
  rw [after_bind]
  cases x w <;> rfl

@[simp] theorem run_pure (a : α) (w : ω) : (pure a : EStateM ε ω α) w = .ok a w := rfl

end

end CallPlan.Sequencing
