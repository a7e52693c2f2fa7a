import CallPlan.Proofs.Template.Splicing
import CallPlan.Proofs.Template.Verbatim

/-!
# Texts without directives

The variables in a text are replaced in two ways: reading makes tokens of them, which are spliced
in, and expanding puts their values into the text as it goes. On a text without braces both cut
the text at the same places, also where candidates for names overlap, and stop at the same
variable (`tokens_bind_spliceAll`): the first one from the left that is not set
(`expand_eq_error_iff`). A text without any marker is left alone by both, so passing it over
changes nothing.
-/

namespace CallPlan.Template

open Sequencing

section

variable {scope : Scope}

/-! ## Expanding -/

theorem expandChars_of_name?_eq_none {rest : List Char} (hn : name? rest = none) :
    expandChars scope ('%' :: rest) = (expandChars scope rest).map ('%' :: ·) := by
  rw [expandChars]
  split
  · rfl
  · next h => rw [hn] at h; cases h

theorem expandChars_of_name?_eq_some {rest name behind : List Char}
    (hn : name? rest = some (name, behind)) :
    expandChars scope ('%' :: rest) =
      (scope.env (String.ofList name) >>= fun v =>
        (expandChars scope behind).map (v.toList ++ ·)) := by
  rw [expandChars]
  split
  · next h => rw [hn] at h; cases h
  · next h =>
    rw [hn] at h
    cases h
    rfl

theorem expandChars_of_ne {c : Char} (hc : c ≠ '%') (rest : List Char) :
    expandChars scope (c :: rest) = (expandChars scope rest).map (c :: ·) := by
  rw [expandChars]
  rintro rfl
  exact hc rfl

theorem env_eq_error_iff {name : String} {c : Failure.Cause} :
    scope.env name = .error c ↔ scope.environ name = none ∧ c = .unset name := by
  unfold Scope.env
  split <;> simp [*, eq_comm]

/-- The variable `name` is read in the text and not set, and all that are read before it are set. -/
def FirstUnset (environ : String → Option String) (text : List Char) (name : String) : Prop :=
  ∃ before rest, variableNames text = before ++ name :: rest
    ∧ (∀ other ∈ before, environ other ≠ none) ∧ environ name = none

theorem firstUnset_of_name?_eq_some {environ : String → Option String}
    {rest name behind : List Char} (hn : name? rest = some (name, behind)) {other : String} :
    FirstUnset environ ('%' :: rest) other ↔
      (environ (String.ofList name) = none ∧ other = String.ofList name)
        ∨ (environ (String.ofList name) ≠ none ∧ FirstUnset environ behind other) := by
  unfold FirstUnset
  rw [variableNames_of_name?_eq_some hn]
  constructor
  · rintro ⟨_ | ⟨first, before⟩, rest', hnames, hbefore, hother⟩
    · cases hnames
      exact .inl ⟨hother, rfl⟩
    · rw [List.cons_append, List.cons.injEq] at hnames
      obtain ⟨rfl, hnames⟩ := hnames
      obtain ⟨hfirst, hbefore⟩ := List.forall_mem_cons.mp hbefore
      exact .inr ⟨hfirst, before, rest', hnames, hbefore, hother⟩
  · rintro (⟨hnone, rfl⟩ | ⟨hset, before, rest', hnames, hbefore, hother⟩)
    · exact ⟨[], _, rfl, by simp, hnone⟩
    · refine ⟨String.ofList name :: before, rest', by rw [hnames]; rfl, ?_, hother⟩
      exact List.forall_mem_cons.mpr ⟨hset, hbefore⟩

theorem expandChars_eq_error_iff {cs : List Char} {c : Failure.Cause} :
    expandChars scope cs = .error c ↔
      ∃ name, FirstUnset scope.environ cs name ∧ c = .unset name := by
  fun_induction expandChars scope cs with
  | case1 => simp [FirstUnset, variableNames]
  | case2 rest hn ih =>
      unfold FirstUnset at ih ⊢
      rw [variableNames_of_name?_eq_none hn, ← ih]
      exact map_eq_error_iff
  | case3 rest name behind hn ih =>
      simp only [firstUnset_of_name?_eq_some hn]
      rw [bind_eq_error_iff, env_eq_error_iff]
      constructor
      · rintro (⟨hnone, rfl⟩ | ⟨v, hv, h⟩)
        · exact ⟨_, .inl ⟨hnone, rfl⟩, rfl⟩
        · obtain ⟨other, hother, rfl⟩ := ih.mp (map_eq_error_iff.mp h)
          exact ⟨other, .inr ⟨by simp [env_eq_ok_iff.mp hv], hother⟩, rfl⟩
      · rintro ⟨_, ⟨hnone, rfl⟩ | ⟨hset, hother⟩, rfl⟩
        · exact .inl ⟨hnone, rfl⟩
        · obtain ⟨v, hv⟩ := Option.ne_none_iff_exists'.mp hset
          exact .inr ⟨v, env_eq_ok_iff.mpr hv, map_eq_error_iff.mpr (ih.mpr ⟨_, hother, rfl⟩)⟩
  | case4 ch rest hch ih =>
      unfold FirstUnset at ih ⊢
      rw [variableNames_of_ne hch, ← ih]
      exact map_eq_error_iff

/-- Expanding stops at the first variable from the left that is not set. -/
theorem expand_eq_error_iff {text : String} {c : Failure.Cause} :
    expand scope text = .error c ↔
      ∃ name, FirstUnset scope.environ text.toList name ∧ c = .unset name := by
  rw [← expandChars_eq_error_iff]
  exact map_eq_error_iff

/-! ## Reading and splicing -/

theorem map_push_bind_spliceAll (c : Char) (ts : Except Failure.Cause (List Token)) :
    ((ts.map (push c)).mapError .cause >>= spliceAll scope) =
      (ts.mapError .cause >>= spliceAll scope).map (String.ofList [c] ++ ·) := by
  cases ts with
  | error e => rfl
  | ok ts => exact spliceAll_push c ts

theorem map_ofList_cons (c : Char) (cs : Except Failure.Cause (List Char)) :
    ((cs.map (c :: ·)).map String.ofList).mapError Halt.cause =
      ((cs.map String.ofList).mapError Halt.cause).map (String.ofList [c] ++ ·) := by
  cases cs with
  | error e => rfl
  | ok cs => simp [Except.map, Except.mapError]

/-- Without braces in a text, splicing in what is read in it expands it. -/
theorem tokens_bind_spliceAll {cs : List Char} (h : '\x7b' ∉ cs) :
    ((tokens cs).mapError .cause >>= spliceAll scope) =
      ((expandChars scope cs).map String.ofList).mapError .cause := by
  fun_induction tokens cs with
  | case1 =>
      rw [expandChars]
      rfl
  | case2 rest _ => simp at h
  | case3 rest _ _ => simp at h
  | case4 rest _ body behind _ _ => simp at h
  | case5 rest hn ih =>
      rw [map_push_bind_spliceAll, ih (fun hm => h (List.mem_cons_of_mem _ hm)),
        expandChars_of_name?_eq_none hn, map_ofList_cons]
  | case6 rest name behind hn ih =>
      have hbehind : '\x7b' ∉ behind := by
        obtain ⟨rfl, -⟩ := name?_eq_some_iff.mp hn
        intro hm
        exact h (by simp [hm])
      rw [expandChars_of_name?_eq_some hn]
      -- reading what follows cannot fail, so the variable is the first that can
      cases ht : tokens behind with
      | error c => exact absurd (tokens_eq_error ht).1 hbehind
      | ok ts =>
          have hrest := ih hbehind
          rw [ht] at hrest
          have hts : spliceAll scope ts =
              ((expandChars scope behind).map String.ofList).mapError .cause := hrest
          show spliceAll scope (.env (String.ofList name) false :: ts) = _
          rw [spliceAll, splice, hts]
          cases scope.env (String.ofList name) with
          | error c => rfl
          | ok v =>
              cases expandChars scope behind with
              | error c => rfl
              | ok ds =>
                  simp [bind, Except.bind, Except.map, Except.mapError, pure, Except.pure]
  | case7 c rest _ _ hc ih =>
      rw [map_push_bind_spliceAll, ih (fun hm => h (List.mem_cons_of_mem _ hm)),
        expandChars_of_ne hc, map_ofList_cons]

/-- Without braces, a text is spliced by expanding it. -/
theorem spliceText_eq_expand {text : String} (h : '\x7b' ∉ text.toList) :
    spliceText scope text = (expand scope text).mapError .cause := by
  rw [spliceText_eq, tokenize, tokens_bind_spliceAll h]
  rfl

theorem not_mem_of_hasMarkers {text : String} (h : hasMarkers text = false) :
    '\x7b' ∉ text.toList ∧ '%' ∉ text.toList := by
  have hno : ∀ c ∈ text.toList, c ≠ '\x7b' ∧ c ≠ '%' := by simpa [hasMarkers] using h
  exact ⟨fun hm => (hno _ hm).1 rfl, fun hm => (hno _ hm).2 rfl⟩

/-- **A text without braces resolves to what is delivered for its expansion.** Expanding it fails
exactly if a variable is not set, and then says so of the first one from the left. If the text has
no markers at all it is passed over, and reading it would have given it back. -/
theorem resolveText_of_no_brace (scope : Scope) {text : String} (h : '\x7b' ∉ text.toList) :
    resolveText scope text = ((expand scope text).mapError .cause >>= deliver scope)
    ∧ (∀ c, expand scope text = .error c ↔
      ∃ name, FirstUnset scope.environ text.toList name ∧ c = .unset name)
    ∧ (hasMarkers text = false →
      ((tokenize text).mapError .cause >>= spliceAll scope) = .ok text
        ∧ expand scope text = .ok text) := by
  refine ⟨by rw [resolveText, spliceText_eq_expand h], fun c => expand_eq_error_iff, ?_⟩
  intro hm
  have hexpand : expand scope text = .ok text :=
    expand_of_not_mem scope (not_mem_of_hasMarkers hm).2
  refine ⟨?_, hexpand⟩
  rw [← spliceText_eq, spliceText_eq_expand h, hexpand]
  rfl

end

/-! ## Names that overlap -/

/-- `%A%` is no variable of the first text, since its first sign ends `%N%`; the second text has a
sign that begins nothing, and two variables that are not set. -/
theorem resolveText_of_no_brace_overlapping :
    resolveText markedScope "%N%A%N%" = .ok (.text "\x7br.f\x7dA\x7br.f\x7d")
      ∧ resolveText markedScope "5% %N%%B%%C%" = .error (.cause (.unset "B"))
      ∧ ((tokenize "plain").mapError .cause >>= spliceAll markedScope) = .ok "plain" := by
  have hfirst : '\x7b' ∉ "%N%A%N%".toList := by decide
  have hsecond : '\x7b' ∉ "5% %N%%B%%C%".toList := by decide
  refine ⟨?_, ?_, ?_⟩
  · rw [(resolveText_of_no_brace markedScope hfirst).1]
    cbv
  · have hunset : FirstUnset markedScope.environ "5% %N%%B%%C%".toList "B" :=
      ⟨["N"], ["C"], by decide +kernel, by simp [markedScope], rfl⟩
    obtain ⟨hresolve, hunsets, -⟩ := resolveText_of_no_brace markedScope hsecond
    rw [hresolve, (hunsets _).mpr ⟨"B", hunset, rfl⟩]
    rfl
  · exact ((resolveText_of_no_brace markedScope (by decide)).2.2 (by decide)).1

end CallPlan.Template
