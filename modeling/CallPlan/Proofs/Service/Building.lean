import CallPlan.Proofs.Sequencing
import CallPlan.Service.Registry

/-!
# What a registry holds

A registry is made by going through commands and binding what is not registered yet. Registering
never meets a method that is registered already (`Registry.extend_cons`), so making a registry
fails only where the binder does (`Registry.extend_eq_error`). A registry that is made has a
handler for every command, and each of its handlers comes from the binder
(`Registry.exists_invoke_of_build`).
-/

namespace CallPlan

open Sequencing

variable {σ : Type} {binder : Binder σ} {source : String}

/-- The binder gives the handler for a method in some state. -/
def Binder.Gives (binder : Binder σ) (objectType method : String) (handler : Handler σ) : Prop :=
  ∃ s s', binder.bind objectType method s = .ok handler s'

/-- The binder has a handler for every method, whatever the state. -/
def Binder.Binds (binder : Binder σ) : Prop :=
  ∀ objectType method s, ∃ handler s', binder.bind objectType method s = .ok handler s'

/-- A step beside a record that it leaves alone. -/
def alongside {ρ α β : Type} (f : α → β) (x : EStateM Halt σ α) : EStateM Halt (σ × ρ) β :=
  fun (s, record) =>
    match x s with
    | .ok a s => .ok (f a) (s, record)
    | .error h s => .error h (s, record)

namespace Registry

theorem bind_eq_ok_iff {c : Command} {handler : Handler σ} {s s' : σ} :
    bind binder c s = .ok handler s' ↔ binder.bind c.objectType c.method s = .ok handler s' := by
  unfold bind
  split <;> simp [*]

theorem bind_eq_error_iff {c : Command} {h : Halt} {s s' : σ} :
    bind binder c s = .error h s' ↔
      ∃ h', binder.bind c.objectType c.method s = .error h' s'
        ∧ h = reported c.objectType c.method h' := by
  unfold bind
  split
  · next hb => simp [hb]
  · next h₁ s₁ hb =>
    simp only [hb, EStateM.Result.error.injEq]
    constructor
    · rintro ⟨rfl, rfl⟩
      exact ⟨h₁, ⟨rfl, rfl⟩, rfl⟩
    · rintro ⟨_, ⟨rfl, rfl⟩, rfl⟩
      exact ⟨rfl, rfl⟩

/-! ## One registration -/

/-- The registry with a handler behind those it has. -/
def appended (r : Registry σ) (objectType method : String) (handler : Handler σ)
    (source : String) : Registry σ :=
  ⟨r.capabilities ++ [((objectType, method), ⟨objectType, method, handler, source⟩)]⟩

theorem register_of_find?_eq_none {r : Registry σ} {objectType method : String}
    (h : r.find? objectType method = none) (handler : Handler σ) (source : String) :
    r.register objectType method handler source
      = .ok (r.appended objectType method handler source) := by
  simp [register, h, appended]

theorem find?_appended (r : Registry σ) (objectType method : String) (handler : Handler σ)
    (source : String) (objectType' method' : String) :
    (r.appended objectType method handler source).find? objectType' method' =
      (r.find? objectType' method').or
        (if (objectType, method) = (objectType', method') then
          some ⟨objectType, method, handler, source⟩ else none) := by
  rw [find?, appended, Fields.get?_append]
  rfl

/-- A command whose method is registered is passed over, and any other is bound and registered:
no method is registered twice. -/
theorem extend_cons (r : Registry σ) (c : Command) (cs : List Command) :
    extend binder source r (c :: cs) =
      if (r.find? c.objectType c.method).isSome then extend binder source r cs
      else bind binder c >>= fun handler =>
        extend binder source (r.appended c.objectType c.method handler source) cs := by
  rw [extend]
  split
  · rfl
  · next hn =>
    have hnone : r.find? c.objectType c.method = none := by simpa using hn
    simp only [register_of_find?_eq_none hnone]

/-! ## All registrations -/

/-- What making the registry `r'` from `r` for commands has done. -/
structure Extends (binder : Binder σ) (r : Registry σ) (cs : List Command) (r' : Registry σ) :
    Prop where
  kept : ∀ objectType method c, r.find? objectType method = some c →
    r'.find? objectType method = some c
  covered : ∀ c ∈ cs, (r'.find? c.objectType c.method).isSome
  bound : ∀ objectType method c, r'.find? objectType method = some c →
    r.find? objectType method = some c ∨ binder.Gives objectType method c.handler

theorem Extends.refl (r : Registry σ) : Extends binder r [] r where
  kept _ _ _ h := h
  covered := nofun
  bound _ _ _ h := .inl h

/-- A command whose method is registered adds nothing. -/
theorem Extends.cons_of_isSome {r r' : Registry σ} {c : Command} {cs : List Command}
    (hc : (r.find? c.objectType c.method).isSome) (h : Extends binder r cs r') :
    Extends binder r (c :: cs) r' where
  kept := h.kept
  covered := by
    obtain ⟨capability, hcap⟩ := Option.isSome_iff_exists.mp hc
    refine List.forall_mem_cons.mpr ⟨?_, h.covered⟩
    rw [h.kept _ _ _ hcap]
    rfl
  bound := h.bound

/-- A command whose method is bound adds the handler. -/
theorem Extends.cons_of_bound {r r' : Registry σ} {c : Command} {cs : List Command}
    {handler : Handler σ} (hb : binder.Gives c.objectType c.method handler)
    (h : Extends binder (r.appended c.objectType c.method handler source) cs r') :
    Extends binder r (c :: cs) r' where
  kept objectType method capability hcap :=
    h.kept _ _ _ (by rw [find?_appended, hcap]; rfl)
  covered := by
    refine List.forall_mem_cons.mpr ⟨?_, h.covered⟩
    have hsome : ((r.appended c.objectType c.method handler source).find? c.objectType
        c.method).isSome := by
      simp [find?_appended]
    obtain ⟨capability, hcap⟩ := Option.isSome_iff_exists.mp hsome
    rw [h.kept _ _ _ hcap]
    rfl
  bound objectType method capability hcap := by
    rcases h.bound _ _ _ hcap with hadded | hgives
    · rw [find?_appended, Option.or_eq_some_iff] at hadded
      rcases hadded with hr | ⟨-, hadded⟩
      · exact .inl hr
      · split at hadded
        · next hkey =>
          cases hkey
          cases hadded
          exact .inr hb
        · cases hadded
    · exact .inr hgives

theorem extends_of_extend {r r' : Registry σ} {cs : List Command} {s s' : σ}
    (h : extend binder source r cs s = .ok r' s') : Extends binder r cs r' := by
  -- Along the commands: each is passed over or appends one handler, from whatever registry.
  induction cs generalizing r s with
  | nil =>
      cases h
      exact .refl _
  | cons c cs ih =>
      rw [extend_cons] at h
      split at h
      · next hc => exact (ih h).cons_of_isSome hc
      · obtain ⟨handler, s₁, hb, h⟩ := run_bind_eq_ok_iff.mp h
        exact .cons_of_bound ⟨s, s₁, bind_eq_ok_iff.mp hb⟩ (ih h)

/-- Making a registry ends early only as the binder does. -/
theorem extend_eq_error {r : Registry σ} {cs : List Command} {s s' : σ} {h : Halt}
    (he : extend binder source r cs s = .error h s') :
    ∃ c ∈ cs, ∃ s₁ h', binder.bind c.objectType c.method s₁ = .error h' s'
      ∧ h = reported c.objectType c.method h' := by
  induction cs generalizing r s with
  | nil => cases he
  | cons c cs ih =>
      rw [extend_cons] at he
      split at he
      · obtain ⟨c', hc', hbind⟩ := ih he
        exact ⟨c', List.mem_cons_of_mem _ hc', hbind⟩
      · rcases run_bind_eq_error_iff.mp he with hb | ⟨handler, s₁, -, he⟩
        · obtain ⟨h', hbind, rfl⟩ := bind_eq_error_iff.mp hb
          exact ⟨c, List.mem_cons_self .., s, h', hbind, rfl⟩
        · obtain ⟨c', hc', hbind⟩ := ih he
          exact ⟨c', List.mem_cons_of_mem _ hc', hbind⟩

/-- A binder that always gives a handler makes a registry for any commands. -/
theorem exists_build_eq_ok (hb : binder.Binds) (source : String) (commands : List Command)
    (s : σ) : ∃ r s', build binder source commands s = .ok r s' := by
  cases hbuild : build binder source commands s with
  | ok r s' => exact ⟨r, s', rfl⟩
  | error h s' =>
      obtain ⟨c, -, s₁, h', hbind, -⟩ := extend_eq_error hbuild
      obtain ⟨handler, s₂, hok⟩ := hb c.objectType c.method s₁
      rw [hok] at hbind
      cases hbind

/-- A command that a registry was made for calls a handler of the binder. -/
theorem exists_invoke_of_build {commands : List Command} {r : Registry σ} {s s' : σ}
    (h : build binder source commands s = .ok r s') {c : Command} (hc : c ∈ commands) :
    ∃ handler, binder.Gives c.objectType c.method handler
      ∧ r.invoker.invoke c.objectType c.method = handler := by
  have hextends := extends_of_extend h
  obtain ⟨capability, hcap⟩ := Option.isSome_iff_exists.mp (hextends.covered c hc)
  rcases hextends.bound _ _ _ hcap with hempty | hgives
  · cases hempty
  · refine ⟨capability.handler, hgives, ?_⟩
    funext params s₁
    simp only [invoker, get, hcap]

end Registry

end CallPlan
