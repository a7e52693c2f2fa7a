import CallPlan.Proofs.Sequencing
import CallPlan.Template.Resolution

/-!
# Variables in texts

A text has a variable in it if a name stands between two percent signs somewhere
(`HasVariable`). From left to right this is what the reader looks for
(`hasVariable_cons_iff`). A text without variables stands for itself in every environment
(`expand_of_not_hasVariable`); one that has a variable stands for nothing where none is set
(`exists_expand_eq_error`). In between, a text stands for something exactly if all the
variables that are read in it are set (`exists_expand_eq_ok_iff`).
-/

namespace CallPlan.Template

open Sequencing

/-! ## Names -/

theorem continuesName_of_mem {name : List Char} (h : isName name = true) {c : Char}
    (hc : c ∈ name) : continuesName c = true := by
  cases name with
  | nil => cases hc
  | cons first rest =>
      simp only [isName, Bool.and_eq_true, List.all_eq_true] at h
      rcases List.mem_cons.mp hc with rfl | hc
      · have hstart : c.isAlpha = true ∨ c = '_' := by simpa [startsName] using h.1
        rcases hstart with ha | rfl
        · simp [continuesName, Char.isAlphanum, ha]
        · rfl
      · exact h.2 c hc

theorem not_mem_of_isName {name : List Char} (h : isName name = true) {c : Char}
    (hc : continuesName c = false) : c ∉ name := by
  intro hm
  rw [continuesName_of_mem h hm] at hc
  cases hc

theorem name?_eq_some_iff {cs name behind : List Char} :
    name? cs = some (name, behind) ↔ cs = name ++ '%' :: behind ∧ isName name = true := by
  rw [name?, Option.filter_eq_some_iff]
  constructor
  · rintro ⟨hcut, hname⟩
    exact ⟨(eq_of_cut? hcut).1, hname⟩
  · rintro ⟨rfl, hname⟩
    exact ⟨cut?_append (not_mem_of_isName hname rfl) behind, hname⟩

/-! ## Variables -/

/-- A name stands between two percent signs somewhere in the text. -/
def HasVariable (cs : List Char) : Prop :=
  ∃ name, isName name = true ∧ ('%' :: (name ++ ['%'])) <:+: cs

theorem not_hasVariable_nil : ¬ HasVariable [] := by
  rintro ⟨name, -, hi⟩
  simp at hi

/-- A text has a variable if one begins with its first character or stands further on. -/
theorem hasVariable_cons_iff {c : Char} {cs : List Char} :
    HasVariable (c :: cs) ↔ (c = '%' ∧ (name? cs).isSome = true) ∨ HasVariable cs := by
  have hfirst : (∃ name, isName name = true ∧ ('%' :: (name ++ ['%'])) <+: c :: cs) ↔
      c = '%' ∧ (name? cs).isSome = true := by
    constructor
    · rintro ⟨name, hname, behind, hb⟩
      simp only [List.cons_append, List.append_assoc, List.nil_append, List.cons.injEq] at hb
      obtain ⟨rfl, rfl⟩ := hb
      exact ⟨rfl, Option.isSome_iff_exists.mpr ⟨_, name?_eq_some_iff.mpr ⟨rfl, hname⟩⟩⟩
    · rintro ⟨rfl, hsome⟩
      obtain ⟨⟨name, behind⟩, hn⟩ := Option.isSome_iff_exists.mp hsome
      obtain ⟨rfl, hname⟩ := name?_eq_some_iff.mp hn
      exact ⟨name, hname, behind, by simp⟩
  simp only [HasVariable, List.infix_cons_iff, and_or_left, exists_or, hfirst]

theorem percent_mem_of_hasVariable {cs : List Char} (h : HasVariable cs) : '%' ∈ cs := by
  obtain ⟨name, -, hi⟩ := h
  exact hi.subset (List.mem_cons_self ..)

instance HasVariable.decide : (cs : List Char) → Decidable (HasVariable cs)
  | [] => .isFalse not_hasVariable_nil
  | _ :: cs =>
    have := HasVariable.decide cs
    decidable_of_iff _ hasVariable_cons_iff.symm

example : HasVariable "100%a%".toList := by decide
example : ¬ HasVariable "100% of %a".toList := by decide

/-! ## Expanding -/

theorem expandChars_of_not_hasVariable (scope : Scope) {cs : List Char}
    (h : ¬ HasVariable cs) : expandChars scope cs = .ok cs := by
  fun_induction expandChars scope cs with
  | case1 => rfl
  | case2 rest _ ih =>
      rw [ih fun hv => h (hasVariable_cons_iff.mpr (.inr hv))]
      rfl
  | case3 rest name behind hn _ =>
      exact absurd (hasVariable_cons_iff.mpr (.inl ⟨rfl, by simp [hn]⟩)) h
  | case4 c rest _ ih =>
      rw [ih fun hv => h (hasVariable_cons_iff.mpr (.inr hv))]
      rfl

/-- A text without variables stands for itself. -/
theorem expand_of_not_hasVariable (scope : Scope) {text : String}
    (h : ¬ HasVariable text.toList) : expand scope text = .ok text := by
  rw [expand, expandChars_of_not_hasVariable scope h]
  simp [Except.map]

/-- A text without percent signs stands for itself. -/
theorem expand_of_not_mem (scope : Scope) {text : String} (h : '%' ∉ text.toList) :
    expand scope text = .ok text :=
  expand_of_not_hasVariable scope fun hv => h (percent_mem_of_hasVariable hv)

theorem exists_expandChars_eq_error {scope : Scope} (hs : ∀ name, scope.environ name = none)
    {cs : List Char} (h : HasVariable cs) : ∃ c, expandChars scope cs = .error c := by
  fun_induction expandChars scope cs with
  | case1 => exact absurd h not_hasVariable_nil
  | case2 rest hn ih =>
      have hrest : HasVariable rest := by simpa [hasVariable_cons_iff, hn] using h
      obtain ⟨c, hc⟩ := ih hrest
      exact ⟨c, map_eq_error_iff.mpr hc⟩
  | case3 rest name behind _ _ =>
      exact ⟨_, bind_eq_error_iff.mpr (.inl (by rw [Scope.env, hs]))⟩
  | case4 ch rest hch ih =>
      have hrest : HasVariable rest := by
        rcases hasVariable_cons_iff.mp h with ⟨rfl, -⟩ | hrest
        · exact absurd rfl hch
        · exact hrest
      obtain ⟨c, hc⟩ := ih hrest
      exact ⟨c, map_eq_error_iff.mpr hc⟩

/-- Where no variable is set, a text with a variable stands for nothing. -/
theorem exists_expand_eq_error {scope : Scope} (hs : ∀ name, scope.environ name = none)
    {text : String} (h : HasVariable text.toList) : ∃ c, expand scope text = .error c := by
  obtain ⟨c, hc⟩ := exists_expandChars_eq_error hs h
  exact ⟨c, map_eq_error_iff.mpr hc⟩

/-- The names of the variables that are read in a text, from left to right. A percent sign that
ends one variable begins no other. -/
def variableNames : List Char → List String
  | [] => []
  | '%' :: rest =>
    match _h : name? rest with
    | none => variableNames rest
    | some (name, behind) => String.ofList name :: variableNames behind
  | _ :: rest => variableNames rest
termination_by cs => cs.length
decreasing_by
  · simp only [List.length_cons]; omega
  · have := length_lt_of_name? _h; simp only [List.length_cons]; omega
  · simp only [List.length_cons]; omega

theorem env_eq_ok_iff {scope : Scope} {name v : String} :
    scope.env name = .ok v ↔ scope.environ name = some v := by
  unfold Scope.env
  split <;> simp [*]

theorem variableNames_of_name?_eq_none {rest : List Char} (hn : name? rest = none) :
    variableNames ('%' :: rest) = variableNames rest := by
  rw [variableNames]
  split
  · rfl
  · next h => rw [hn] at h; cases h

theorem variableNames_of_name?_eq_some {rest name behind : List Char}
    (hn : name? rest = some (name, behind)) :
    variableNames ('%' :: rest) = String.ofList name :: variableNames behind := by
  rw [variableNames]
  split
  · next h => rw [hn] at h; cases h
  · next h => rw [hn] at h; cases h; rfl

theorem variableNames_of_ne {c : Char} (hc : c ≠ '%') (rest : List Char) :
    variableNames (c :: rest) = variableNames rest := by
  rw [variableNames]
  rintro rfl
  exact hc rfl

theorem exists_expandChars_eq_ok_iff {scope : Scope} {cs : List Char} :
    (∃ ds, expandChars scope cs = .ok ds) ↔
      ∀ name ∈ variableNames cs, scope.environ name ≠ none := by
  fun_induction expandChars scope cs with
  | case1 => simp [variableNames]
  | case2 rest hn ih =>
      rw [variableNames_of_name?_eq_none hn, ← ih]
      exact exists_map_eq_ok_iff
  | case3 rest name behind hn ih =>
      rw [variableNames_of_name?_eq_some hn, List.forall_mem_cons, ← ih, Option.ne_none_iff_exists']
      simp only [bind_eq_ok_iff, env_eq_ok_iff, pure_eq_ok_iff]
      constructor
      · rintro ⟨_, v, hv, ds, hds, -⟩
        exact ⟨⟨v, hv⟩, ds, hds⟩
      · rintro ⟨⟨v, hv⟩, ds, hds⟩
        exact ⟨_, v, hv, ds, hds, rfl⟩
  | case4 c rest hc ih =>
      rw [variableNames_of_ne hc, ← ih]
      exact exists_map_eq_ok_iff

/-- A text stands for something exactly if all its variables are set. -/
theorem exists_expand_eq_ok_iff {scope : Scope} {text : String} :
    (∃ s, expand scope text = .ok s) ↔
      ∀ name ∈ variableNames text.toList, scope.environ name ≠ none := by
  rw [← exists_expandChars_eq_ok_iff]
  exact exists_map_eq_ok_iff

end CallPlan.Template
