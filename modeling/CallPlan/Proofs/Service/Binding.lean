import CallPlan.Proofs.Fields
import CallPlan.Proofs.Service.Building

/-!
# What a binder is asked for

Making a registry for commands asks the binder for what they call (`methods`): for each method
once, in the order in which they call it first, up to the first one that the binder has no handler
for. So what is made, or what it fails with, depends on these methods and the answers of the binder
to them alone (`Registry.build_eq_ok_iff`, `Registry.build_eq_error_iff`).

To say what the binder is asked for, also where it fails, it is made to keep a record of it
(`Binder.noted`). A command reaches the handler that was bound for its own type of object and its
own method (`Registry.build_covers`). That two of these pairs may read the same with a point in
between makes no difference, since nothing is looked up by such a name.
-/

namespace CallPlan

open Sequencing

variable {σ : Type} {binder : Binder σ} {source : String}

/-- The type of object and the method that the command calls. -/
def Command.key (c : Command) : String × String :=
  (c.objectType, c.method)

/-- What commands call, each method once, in the order in which they call it first. -/
def methods (commands : List Command) : List (String × String) :=
  (commands.map Command.key).eraseDups

/-! ## Binders that are asked for several methods -/

namespace Binder

/-- Asked for one method after the other, the binder gives these handlers. -/
inductive InTurn (binder : Binder σ) : σ → List ((String × String) × Handler σ) → σ → Prop
  | nil {s : σ} : InTurn binder s [] s
  | cons {s s₁ s' : σ} {key : String × String} {handler : Handler σ}
      {bound : List ((String × String) × Handler σ)}
      (first : binder.bind key.1 key.2 s = .ok handler s₁) (rest : InTurn binder s₁ bound s') :
      InTurn binder s ((key, handler) :: bound) s'

/-- The handler beside a record that it leaves alone. -/
def besideRecord (handler : Handler σ) : Handler (σ × List (String × String)) :=
  fun params => alongside id (handler params)

/-- The binder with a record of what it is asked for, whatever it answers. -/
def noted (binder : Binder σ) : Binder (σ × List (String × String)) where
  bind objectType method := fun (s, asked) =>
    match binder.bind objectType method s with
    | .ok handler s => .ok (besideRecord handler) (s, asked ++ [(objectType, method)])
    | .error h s => .error h (s, asked ++ [(objectType, method)])

theorem InTurn.noted {s s' : σ} {bound : List ((String × String) × Handler σ)}
    (h : binder.InTurn s bound s') (asked : List (String × String)) :
    binder.noted.InTurn (s, asked) (bound.map fun b => (b.1, besideRecord b.2))
      (s', asked ++ bound.map Prod.fst) := by
  induction h generalizing asked with
  | nil =>
      rw [List.map_nil, List.map_nil, List.append_nil]
      exact .nil
  | @cons s s₁ s' key handler bound first rest ih =>
      have hfirst : binder.noted.bind key.1 key.2 (s, asked)
          = .ok (besideRecord handler) (s₁, asked ++ [key]) := by
        simp only [Binder.noted, first]
      have hrest := ih (asked ++ [key])
      rw [List.append_assoc] at hrest
      exact .cons hfirst hrest

end Binder

theorem nodup_eraseDups {α : Type} [BEq α] [LawfulBEq α] (l : List α) : l.eraseDups.Nodup := by
  -- On the length, since what comes behind the head is filtered before it is looked at.
  induction hn : l.length using Nat.strongRecOn generalizing l with
  | _ n ih =>
      cases l with
      | nil => exact List.nodup_nil
      | cons a l =>
          have hlt : (l.filter fun b => !b == a).length < n := by
            have hle := List.length_filter_le (fun b => !b == a) l
            rw [List.length_cons] at hn
            omega
          have hfirst : a ∉ (l.filter fun b => !b == a).eraseDups := by
            simp
          rw [List.eraseDups_cons]
          exact List.nodup_cons.mpr ⟨hfirst, ih _ hlt _ rfl⟩

/-- No method is named twice. -/
theorem nodup_methods (commands : List Command) : (methods commands).Nodup :=
  nodup_eraseDups _

theorem mem_methods_iff {key : String × String} {commands : List Command} :
    key ∈ methods commands ↔ ∃ c ∈ commands, c.key = key := by
  simp [methods]

namespace Registry

/-! ## What is not registered yet -/

/-- What commands call and the registry does not have, in the order of the first calls. -/
def unbound (r : Registry σ) (cs : List Command) : List (String × String) :=
  ((cs.map Command.key).filter (· ∉ r.keys)).eraseDups

/-- The registry with handlers behind those it has. -/
def provided (r : Registry σ) (source : String) (bound : List ((String × String) × Handler σ)) :
    Registry σ :=
  ⟨r.capabilities ++ bound.map fun b => (b.1, ⟨b.1.1, b.1.2, b.2, source⟩)⟩

section

variable {r : Registry σ} {c : Command} {cs : List Command}

theorem isSome_find?_iff {objectType method : String} :
    (r.find? objectType method).isSome ↔ (objectType, method) ∈ r.keys := by
  rw [Option.isSome_iff_ne_none, find?, ne_eq, Fields.get?_eq_none_iff, Decidable.not_not]
  rfl

theorem unbound_cons_of_mem (h : c.key ∈ r.keys) : r.unbound (c :: cs) = r.unbound cs := by
  simp [unbound, h]

/-- A command whose method is not registered has it bound, and those behind do not ask for it
again. -/
theorem unbound_cons_of_not_mem (h : c.key ∉ r.keys) (cs : List Command) :
    ∃ behind, r.unbound (c :: cs) = c.key :: behind ∧ ∀ (handler : Handler σ) (source : String),
      (r.appended c.objectType c.method handler source).unbound cs = behind := by
  have hfirst : ((c :: cs).map Command.key).filter (· ∉ r.keys) =
      c.key :: (cs.map Command.key).filter (· ∉ r.keys) := by
    simp [h]
  refine ⟨((cs.map Command.key).filter fun key => !key == c.key && key ∉ r.keys).eraseDups,
    ?_, fun handler source => ?_⟩
  · rw [unbound, hfirst, List.eraseDups_cons, List.filter_filter]
  · have hkeys : (r.appended c.objectType c.method handler source).keys = r.keys ++ [c.key] :=
      Fields.keys_append ..
    rw [unbound, hkeys]
    congr 1
    refine List.filter_congr fun key _ => ?_
    by_cases hkey : key = c.key <;> simp [hkey]

theorem unbound_empty : (empty : Registry σ).unbound cs = methods cs := by
  rw [unbound, List.filter_eq_self.mpr (by simp [empty, keys, Fields.keys])]
  rfl

theorem provided_nil : r.provided source [] = r := by
  simp [provided]

theorem provided_cons (handler : Handler σ) (bound : List ((String × String) × Handler σ)) :
    r.provided source ((c.key, handler) :: bound) =
      (r.appended c.objectType c.method handler source).provided source bound := by
  simp [provided, appended, Command.key]

end

/-! ## What is bound -/

/-- A registry is made if the binder has a handler for everything that is not registered yet, and
these handlers are added. -/
theorem extend_eq_ok_iff {r r' : Registry σ} {cs : List Command} {s s' : σ} :
    extend binder source r cs s = .ok r' s' ↔
      ∃ bound, r.unbound cs = bound.map Prod.fst ∧ binder.InTurn s bound s'
        ∧ r' = r.provided source bound := by
  induction cs generalizing r s with
  | nil =>
      constructor
      · intro h
        cases h
        exact ⟨[], rfl, .nil, provided_nil.symm⟩
      · rintro ⟨bound, hkeys, hturn, rfl⟩
        obtain rfl : bound = [] := List.map_eq_nil_iff.mp hkeys.symm
        cases hturn
        rw [provided_nil]
        rfl
  | cons c cs ih =>
      rw [extend_cons]
      by_cases hmem : c.key ∈ r.keys
      · rw [if_pos (isSome_find?_iff.mpr hmem), unbound_cons_of_mem hmem, ih]
      · obtain ⟨behind, hunbound, hbehind⟩ := unbound_cons_of_not_mem hmem cs
        rw [if_neg (mt isSome_find?_iff.mp hmem), run_bind_eq_ok_iff, hunbound]
        constructor
        · rintro ⟨handler, s₁, hbind, hrest⟩
          obtain ⟨bound, hkeys, hturn, rfl⟩ := ih.mp hrest
          rw [hbehind] at hkeys
          exact ⟨(c.key, handler) :: bound, congrArg (c.key :: ·) hkeys,
            .cons (bind_eq_ok_iff.mp hbind) hturn, (provided_cons handler bound).symm⟩
        · rintro ⟨bound, hkeys, hturn, rfl⟩
          cases hturn with
          | nil => cases hkeys
          | @cons _ s₁ _ key handler bound first rest =>
              obtain ⟨rfl, hbound⟩ := List.cons.inj hkeys
              exact ⟨handler, s₁, bind_eq_ok_iff.mpr first,
                ih.mpr ⟨bound, (hbehind ..).trans hbound, rest, provided_cons handler bound⟩⟩

/-- Making a registry fails at the first method that the binder has no handler for, behind those
that are bound. -/
theorem extend_eq_error_iff {r : Registry σ} {cs : List Command} {s s' : σ} {h : Halt} :
    extend binder source r cs s = .error h s' ↔
      ∃ bound key behind s₁ h', r.unbound cs = bound.map Prod.fst ++ key :: behind
        ∧ binder.InTurn s bound s₁ ∧ binder.bind key.1 key.2 s₁ = .error h' s'
        ∧ h = reported key.1 key.2 h' := by
  induction cs generalizing r s with
  | nil =>
      constructor
      · intro h
        cases h
      · rintro ⟨bound, key, behind, s₁, h', hkeys, -⟩
        cases bound <;> cases hkeys
  | cons c cs ih =>
      rw [extend_cons]
      by_cases hmem : c.key ∈ r.keys
      · rw [if_pos (isSome_find?_iff.mpr hmem), unbound_cons_of_mem hmem, ih]
      · obtain ⟨others, hunbound, hothers⟩ := unbound_cons_of_not_mem hmem cs
        rw [if_neg (mt isSome_find?_iff.mp hmem), run_bind_eq_error_iff, hunbound]
        constructor
        · rintro (hbind | ⟨handler, s₁, hbind, hrest⟩)
          · obtain ⟨h', hfails, rfl⟩ := bind_eq_error_iff.mp hbind
            exact ⟨[], c.key, others, s, h', rfl, .nil, hfails, rfl⟩
          · obtain ⟨bound, key, behind, s₂, h', hkeys, hturn, hfails⟩ := ih.mp hrest
            rw [hothers] at hkeys
            exact ⟨(c.key, handler) :: bound, key, behind, s₂, h', congrArg (c.key :: ·) hkeys,
              .cons (bind_eq_ok_iff.mp hbind) hturn, hfails⟩
        · rintro ⟨bound, key, behind, s₂, h', hkeys, hturn, hfails, rfl⟩
          cases hturn with
          | nil =>
              obtain ⟨rfl, -⟩ := List.cons.inj hkeys
              exact .inl (bind_eq_error_iff.mpr ⟨h', hfails, rfl⟩)
          | @cons _ s₁ _ key' handler bound first rest =>
              obtain ⟨rfl, hbound⟩ := List.cons.inj hkeys
              exact .inr ⟨handler, s₁, bind_eq_ok_iff.mpr first, ih.mpr
                ⟨bound, key, behind, s₂, h', (hothers ..).trans hbound, rest, hfails, rfl⟩⟩

section

variable {commands : List Command} {s s' : σ}

theorem build_eq_ok_iff {r : Registry σ} :
    build binder source commands s = .ok r s' ↔
      ∃ bound, methods commands = bound.map Prod.fst ∧ binder.InTurn s bound s'
        ∧ r = empty.provided source bound := by
  rw [build, extend_eq_ok_iff, unbound_empty]

theorem build_eq_error_iff {h : Halt} :
    build binder source commands s = .error h s' ↔
      ∃ bound key behind s₁ h', methods commands = bound.map Prod.fst ++ key :: behind
        ∧ binder.InTurn s bound s₁ ∧ binder.bind key.1 key.2 s₁ = .error h' s'
        ∧ h = reported key.1 key.2 h' := by
  rw [build, extend_eq_error_iff, unbound_empty]

end

/-! ## What commands reach -/

theorem keys_provided (source : String) (bound : List ((String × String) × Handler σ)) :
    (empty.provided source bound).keys = bound.map Prod.fst := by
  simp [provided, empty, keys, Fields.keys, Function.comp_def]

/-- Where no method is bound twice, each reaches the handler that is bound for it. -/
theorem invoke_provided {bound : List ((String × String) × Handler σ)}
    (hn : (bound.map Prod.fst).Nodup) {key : String × String} {handler : Handler σ}
    (hmem : (key, handler) ∈ bound) :
    (empty.provided source bound).invoker.invoke key.1 key.2 = handler := by
  have hfind : (empty.provided source bound).find? key.1 key.2
      = some ⟨key.1, key.2, handler, source⟩ := by
    rw [← keys_provided source] at hn
    exact Fields.get?_eq_some_of_mem hn (List.mem_map_of_mem hmem)
  funext params s
  simp only [invoker, get, hfind]

/-- **What a registry is made of.** If a registry is made for commands, its methods are those that
they call, and the binder was asked for each of these once, in the order of the first calls; every
command reaches the handler that was bound for its own method. If not, the binder was asked for the
methods up to the first one that it has no handler for. -/
theorem build_covers (binder : Binder σ) (source : String) (commands : List Command) (s : σ)
    (asked : List (String × String)) :
    (methods commands).Nodup
    ∧ (∀ r s', build binder source commands s = .ok r s' →
      r.keys = methods commands
      ∧ (∃ r', build binder.noted source commands (s, asked)
          = .ok r' (s', asked ++ methods commands))
      ∧ ∃ bound, methods commands = bound.map Prod.fst ∧ binder.InTurn s bound s'
        ∧ ∀ c ∈ commands, ∃ handler, (c.key, handler) ∈ bound
          ∧ r.invoker.invoke c.objectType c.method = handler)
    ∧ ∀ h s', build binder source commands s = .error h s' →
      ∃ bound key behind, methods commands = bound.map Prod.fst ++ key :: behind
        ∧ build binder.noted source commands (s, asked)
          = .error h (s', asked ++ bound.map Prod.fst ++ [key])
        ∧ ∃ s₁ h', binder.InTurn s bound s₁ ∧ binder.bind key.1 key.2 s₁ = .error h' s'
          ∧ h = reported key.1 key.2 h' := by
  refine ⟨nodup_methods commands, fun r s' hbuild => ?_, fun h s' hbuild => ?_⟩
  · obtain ⟨bound, hkeys, hturn, rfl⟩ := build_eq_ok_iff.mp hbuild
    refine ⟨(keys_provided source bound).trans hkeys.symm, ?_, bound, hkeys, hturn, fun c hc => ?_⟩
    · refine ⟨_, build_eq_ok_iff.mpr ⟨_, ?_, hkeys ▸ hturn.noted asked, rfl⟩⟩
      rw [hkeys, List.map_map]
      rfl
    · have hmem : c.key ∈ bound.map Prod.fst := hkeys ▸ mem_methods_iff.mpr ⟨c, hc, rfl⟩
      obtain ⟨⟨_, handler⟩, hbound, rfl⟩ := List.mem_map.mp hmem
      exact ⟨handler, hbound, invoke_provided (hkeys ▸ nodup_methods commands) hbound⟩
  · obtain ⟨bound, key, behind, s₁, h', hkeys, hturn, hfails, rfl⟩ := build_eq_error_iff.mp hbuild
    refine ⟨bound, key, behind, hkeys, ?_, s₁, h', hturn, hfails, rfl⟩
    refine build_eq_error_iff.mpr ⟨_, key, behind, _, h', ?_, hturn.noted asked, ?_, rfl⟩
    · rw [hkeys, List.map_map]
      rfl
    · simp only [Binder.noted, hfails]

/-! ## Methods that read the same -/

/-- A binder whose handlers answer with the number of handlers before them. It has none for a
method without a name. -/
def numbering : Binder Nat where
  bind objectType method := fun n =>
    if method = "" then .error (.cause (.unknownOperation objectType "")) n
    else .ok (fun _ => pure (.int n)) (n + 1)

def callOf (objectType method id : String) : Command :=
  ⟨objectType, method, .map [], id, []⟩

/-- Calls of two methods that read the same with a point in between. -/
def pointedCalls : List Command :=
  [callOf "a.b" "c" "first", callOf "a" "b.c" "second", callOf "a.b" "c" "third"]

/-- What the binder provides for them. -/
def pointedRegistry : Registry Nat :=
  empty.provided "numbering"
    [(("a.b", "c"), fun _ => pure (.int 0)), (("a", "b.c"), fun _ => pure (.int 1))]

/-- Calls of three methods, of which the binder does not know the second one. -/
def refusedCalls : List Command :=
  [callOf "a" "b" "first", callOf "a" "" "second", callOf "a" "c" "third"]

/-- Methods that read the same are bound both, and behind one that is refused none is asked for. -/
theorem build_covers_pointedCalls :
    (pointedCalls.map Command.capability = ["a.b.c", "a.b.c", "a.b.c"]
      ∧ pointedRegistry.keys = methods pointedCalls
      ∧ ∃ r', build numbering.noted "numbering" pointedCalls (0, [])
        = .ok r' (2, methods pointedCalls))
    ∧ ∃ (bound : List ((String × String) × Handler Nat)) (key : String × String)
      (behind : List (String × String)), methods refusedCalls = bound.map Prod.fst ++ key :: behind
      ∧ ∃ h, build numbering.noted "numbering" refusedCalls (0, [])
        = .error h (1, bound.map Prod.fst ++ [key]) := by
  constructor
  · have hbuild : build numbering "numbering" pointedCalls 0 = .ok pointedRegistry 2 := rfl
    obtain ⟨hkeys, hasked, -⟩ :=
      (build_covers numbering "numbering" pointedCalls 0 []).2.1 _ _ hbuild
    exact ⟨by decide, hkeys, hasked⟩
  · have hbuild : build numbering "numbering" refusedCalls 0
        = .error (.cause (.unknownOperation "a" "")) 1 := rfl
    obtain ⟨bound, key, behind, hkeys, hasked, -⟩ :=
      (build_covers numbering "numbering" refusedCalls 0 []).2.2 _ _ hbuild
    exact ⟨bound, key, behind, hkeys, _, hasked⟩

end Registry

end CallPlan
