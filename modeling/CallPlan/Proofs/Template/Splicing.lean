import CallPlan.Proofs.Template.Spelling
import CallPlan.Proofs.Template.Variables

/-!
# Why a text is not spliced

Splicing fails in reading a text, or in following the first of its directives that leads
nowhere. The codes tell the two apart (`tokenize_eq_error`, `failsOnly_splice`); that a
result has not been published is said of exactly the result that a reference asks for. One
way to lead nowhere is no failure of resolution: an index with too many digits (`LongIndex`).
-/

namespace CallPlan.Template

open Sequencing

/-- The codes of texts that cannot be read. -/
def syntaxCodes : List String :=
  ["directive.malformed", "directive.unterminated"]

/-- The codes of directives that lead nowhere for a reason that has nothing to do with variables,
apart from that of results which have not been published. -/
def resultCodes : List String :=
  ["result.missing_field", "result.not_a_sequence", "result.bad_index",
    "result.index_out_of_range", "result.no_match", "result.null_value",
    "result.binary_value", "result.unrenderable"]

/-- These, and that of variables which are not set. -/
def lookupCodes : List String :=
  "env.missing" :: resultCodes

/-- The cause belongs to resolution and has one of the codes. -/
structure OfCodes (codes : List String) (c : Failure.Cause) : Prop where
  kind : c.kind = .resolution
  code : c.code ∈ codes

theorem OfCodes.mono {codes codes' : List String} {c : Failure.Cause} (h : OfCodes codes c)
    (hsub : codes ⊆ codes') : OfCodes codes' c :=
  ⟨h.kind, hsub h.code⟩

theorem resultCodes_subset : resultCodes ⊆ lookupCodes :=
  List.subset_cons_self ..

theorem missing_subset : ["env.missing"] ⊆ lookupCodes := by
  decide

theorem ne_missing_of_mem_resultCodes {code : String} (h : code ∈ resultCodes) :
    code ≠ "env.missing" := by
  rintro rfl
  revert h
  decide

/-! ## Reading -/

theorem failsOnly_directive (body : List Char) :
    FailsOnly (OfCodes syntaxCodes) (directive body) := by
  unfold directive
  split
  · exact failsOnly_ok _
  · split
    · exact failsOnly_ok _
    · exact failsOnly_error ⟨rfl, by simp [Failure.Cause.code, syntaxCodes]⟩

/-- A text that cannot be read has a brace, and the failure is one of syntax. -/
theorem tokens_eq_error {cs : List Char} {c : Failure.Cause} (h : tokens cs = .error c) :
    '\x7b' ∈ cs ∧ OfCodes syntaxCodes c := by
  fun_induction tokens cs with
  | case1 => cases h
  | case2 rest ih => exact ⟨List.mem_cons_self .., (ih (map_eq_error_iff.mp h)).2⟩
  | case3 rest _ _ =>
      cases h
      exact ⟨List.mem_cons_self .., rfl, by simp [Failure.Cause.code, syntaxCodes]⟩
  | case4 rest _ body behind _ ih =>
      refine ⟨List.mem_cons_self .., ?_⟩
      rcases bind_eq_error_iff.mp h with h | ⟨t, -, h⟩
      · exact failsOnly_directive body c h
      · rcases bind_eq_error_iff.mp h with h | ⟨ts, -, h⟩
        · exact (ih h).2
        · cases h
  | case5 rest _ ih =>
      obtain ⟨hb, hc⟩ := ih (map_eq_error_iff.mp h)
      exact ⟨List.mem_cons_of_mem _ hb, hc⟩
  | case6 rest name behind hn ih =>
      rcases bind_eq_error_iff.mp h with h | ⟨ts, -, h⟩
      · obtain ⟨hb, hc⟩ := ih h
        obtain ⟨rfl, -⟩ := eq_of_cut? (Option.filter_eq_some_iff.mp hn).1
        exact ⟨by simp [hb], hc⟩
      · cases h
  | case7 ch rest _ _ _ ih =>
      obtain ⟨hb, hc⟩ := ih (map_eq_error_iff.mp h)
      exact ⟨List.mem_cons_of_mem _ hb, hc⟩

theorem tokenize_eq_error {text : String} {c : Failure.Cause} (h : tokenize text = .error c) :
    hasMarkers text = true ∧ OfCodes syntaxCodes c := by
  obtain ⟨hb, hc⟩ := tokens_eq_error h
  exact ⟨List.any_eq_true.mpr ⟨_, hb, by simp⟩, hc⟩

/-- Only braces and percent signs make tokens that are not literal. -/
theorem exists_marker_of_mem_tokens {cs : List Char} {ts : List Token} {t : Token}
    (h : tokens cs = .ok ts) (ht : t ∈ ts) (hl : t.isLiteral = false) :
    ∃ c ∈ cs, c = '\x7b' ∨ c = '%' := by
  obtain ⟨front, hs, hi⟩ := (spelled_tokens h).exists_part ht
  have hfirst : ∃ c ∈ front, c = '\x7b' ∨ c = '%' := by
    cases hs with
    | ignoring => exact ⟨_, List.mem_cons_self .., .inl rfl⟩
    | exact =>
        cases t with
        | literal text => cases hl
        | reference r => exact ⟨_, List.mem_cons_self .., .inl rfl⟩
        | env name braced =>
            cases braced with
            | true => exact ⟨_, List.mem_cons_self .., .inl rfl⟩
            | false => exact ⟨_, List.mem_cons_self .., .inr rfl⟩
  obtain ⟨c, hc, hmarker⟩ := hfirst
  exact ⟨c, hi.subset hc, hmarker⟩

theorem hasMarkers_of_mem {text : String} {ts : List Token} {t : Token}
    (h : tokenize text = .ok ts) (ht : t ∈ ts) (hl : t.isLiteral = false) :
    hasMarkers text = true := by
  obtain ⟨c, hc, hmarker⟩ := exists_marker_of_mem_tokens h ht hl
  exact List.any_eq_true.mpr ⟨c, hc, by simpa using hmarker⟩

/-! ## Variables -/

section

variable {scope : Scope}

theorem failsOnly_env (name : String) : FailsOnly (OfCodes ["env.missing"]) (scope.env name) := by
  unfold Scope.env
  split
  · exact failsOnly_ok _
  · exact failsOnly_error ⟨rfl, List.mem_singleton_self _⟩

/-- Expanding fails only at a variable that is not set. -/
theorem failsOnly_expand (text : String) :
    FailsOnly (OfCodes ["env.missing"]) (expand scope text) := by
  refine FailsOnly.map ?_ _
  fun_induction expandChars scope text.toList with
  | case1 => exact failsOnly_ok _
  | case2 rest _ ih => exact ih.map _
  | case3 rest name behind _ ih =>
      exact (failsOnly_env _).bind fun v => ih.bind fun cs => failsOnly_ok _
  | case4 c rest _ ih => exact ih.map _

/-! ## References -/

theorem result_eq_error_iff {id : String} {c : Failure.Cause} :
    scope.result id = .error c ↔ scope.results id = none ∧ c = .unpublished id := by
  unfold Scope.result
  split <;> simp [*, eq_comm]

theorem failsOnly_fieldOf (v : Value) (name place : String) :
    FailsOnly (OfCodes resultCodes) (fieldOf v name place) := by
  unfold fieldOf
  split
  · exact failsOnly_ok _
  · exact failsOnly_error ⟨rfl, by simp [Failure.Cause.code, resultCodes]⟩

theorem failsOnly_itemsOf (v : Value) (place : String) :
    FailsOnly (OfCodes resultCodes) (itemsOf v place) := by
  unfold itemsOf
  split
  · exact failsOnly_ok _
  · exact failsOnly_error ⟨rfl, by simp [Failure.Cause.code, resultCodes]⟩

theorem failsOnly_elementWith (items : List Value) (place key wanted : String) :
    FailsOnly (OfCodes resultCodes) (elementWith items place key wanted) := by
  unfold elementWith
  split
  · exact failsOnly_ok _
  · exact failsOnly_error ⟨rfl, by simp [Failure.Cause.code, resultCodes]⟩

theorem failsOnly_render (v : Value) : FailsOnly (OfCodes resultCodes) (render v) := by
  intro c h
  refine ⟨kind_of_render_eq_error h, ?_⟩
  unfold render at h
  split at h
  · cases h
    decide
  · cases h
  · cases h
  · cases h
  · obtain ⟨f, -, rfl⟩ := mapError_eq_error_iff.mp h
    simp [Failure.Cause.code, resultCodes]
  · obtain ⟨e, -, rfl⟩ := mapError_eq_error_iff.mp h
    simp [Failure.Cause.code, resultCodes]

/-- The failure `c` is that no result is published under the id of the reference `r`. -/
def Unpublished (scope : Scope) (r : Reference) (c : Failure.Cause) : Prop :=
  ∃ id, expand scope r.id = .ok id ∧ scope.results id = none ∧ c = .unpublished id

/-- A reference names its result and its field unless that result has not been published, or for
one of the other reasons. -/
theorem failsOnly_target (r : Reference) :
    FailsOnly (fun c => Unpublished scope r c ∨ OfCodes lookupCodes c) (target scope r) := by
  intro c h
  rcases bind_eq_error_iff.mp h with h | ⟨id, hid, h⟩
  · exact .inr ((failsOnly_expand _ c h).mono missing_subset)
  rcases bind_eq_error_iff.mp h with h | ⟨field, -, h⟩
  · exact .inr ((failsOnly_expand _ c h).mono missing_subset)
  rcases bind_eq_error_iff.mp h with h | ⟨result, -, h⟩
  · obtain ⟨hn, rfl⟩ := result_eq_error_iff.mp h
    exact .inl ⟨id, hid, hn, rfl⟩
  rcases bind_eq_error_iff.mp h with h | ⟨v, -, h⟩
  · exact .inr ((failsOnly_fieldOf _ _ _ c h).mono resultCodes_subset)
  · cases h

/-- A reference whose id is written out leads nowhere where that id is not published. -/
theorem exists_target_eq_error {r : Reference} (hr : '%' ∉ r.id.toList)
    (hn : scope.results r.id = none) : ∃ c, target scope r = .error c := by
  have hres : scope.result r.id = .error (.unpublished r.id) :=
    result_eq_error_iff.mpr ⟨hn, rfl⟩
  rw [target, expand_of_not_mem scope hr, ok_bind]
  cases hf : expand scope r.field with
  | error c => exact ⟨c, rfl⟩
  | ok field =>
      rw [ok_bind, hres]
      exact ⟨_, rfl⟩

/-! ## Elements -/

/-- The index is read as a number of so many digits, which are too many. -/
def LongDigits (digits : Nat) (text : String) : Prop :=
  (∀ c ∈ text.toList, c.isDigit = true) ∧ text.toList.length = digits
    ∧ Numeral.maxDigits < digits

theorem index_eq_error_iff {text : String} {f : Fault} :
    index text = .error f ↔ ∃ digits, LongDigits digits text ∧ f = .longNumeral digits := by
  unfold index LongDigits
  simp only [List.all_eq_true]
  split
  · next hdigits =>
    split
    · next hshort =>
      simp only [reduceCtorEq, false_iff]
      rintro ⟨_, ⟨-, rfl, hlong⟩, -⟩
      omega
    · next hlong =>
      rw [Except.error.injEq]
      constructor
      · rintro rfl
        exact ⟨_, ⟨hdigits.2, rfl, by omega⟩, rfl⟩
      · rintro ⟨_, ⟨-, rfl, -⟩, rfl⟩
        rfl
  · next hdigits =>
    simp only [reduceCtorEq, false_iff]
    rintro ⟨_, ⟨hall, rfl, hlong⟩, -⟩
    refine hdigits ⟨?_, hall⟩
    rintro hnil
    rw [hnil] at hlong
    cases hlong

/-- What ends a directive that leads nowhere: a failure with a cause of one kind, or an index with
so many digits that it cannot be read as a number. -/
def Nowhere (P : Failure.Cause → Prop) (Q : Nat → Prop) (h : Halt) : Prop :=
  (∃ c, h = .cause c ∧ P c) ∨ ∃ digits, h = .fault (.longNumeral digits) ∧ Q digits

variable {P P' : Failure.Cause → Prop} {Q Q' : Nat → Prop}

@[simp] theorem nowhere_cause {c : Failure.Cause} : Nowhere P Q (.cause c) ↔ P c := by
  simp [Nowhere]

theorem Nowhere.imp {h : Halt} (hh : Nowhere P Q h) (hP : ∀ c, P c → P' c)
    (hQ : ∀ n, Q n → Q' n) : Nowhere P' Q' h :=
  Or.imp (fun ⟨c, hc, h⟩ => ⟨c, hc, hP c h⟩) (fun ⟨n, hn, h⟩ => ⟨n, hn, hQ n h⟩) hh

theorem failsOnly_cause {α : Type} {x : Except Failure.Cause α} (hx : FailsOnly P x) :
    FailsOnly (Nowhere P Q) (x.mapError .cause) :=
  hx.mapError fun _ h => nowhere_cause.mpr h

theorem mapError_cause_eq_error_iff {α : Type} {x : Except Failure.Cause α} {c : Failure.Cause} :
    x.mapError Halt.cause = .error (.cause c) ↔ x = .error c := by
  rw [mapError_eq_error_iff]
  simp

theorem failsOnly_elementAt (items : List Value) (place text : String) :
    FailsOnly (Nowhere (OfCodes resultCodes) (LongDigits · text)) (elementAt items place text) := by
  intro h he
  rcases bind_eq_error_iff.mp he with he | ⟨n?, -, he⟩
  · obtain ⟨f, hf, rfl⟩ := mapError_eq_error_iff.mp he
    obtain ⟨digits, hlong, rfl⟩ := index_eq_error_iff.mp hf
    exact .inr ⟨digits, rfl, hlong⟩
  · cases n? with
    | none =>
        cases he
        exact nowhere_cause.mpr ⟨rfl, by simp [Failure.Cause.code, resultCodes]⟩
    | some n =>
        simp only at he
        split at he
        · cases he
        · cases he
          exact nowhere_cause.mpr ⟨rfl, by simp [Failure.Cause.code, resultCodes]⟩

/-- The selector is an index, and stands for one with too many digits. -/
def LongSelector (scope : Scope) : Selector → Nat → Prop
  | .index raw, digits => ∃ text, expand scope raw = .ok text ∧ LongDigits digits text
  | .entry .., _ => False

theorem failsOnly_select (items : List Value) (place : String) (s : Selector) :
    FailsOnly (Nowhere (OfCodes lookupCodes) (LongSelector scope s))
      (select scope items place s) := by
  cases s with
  | index raw =>
      intro h he
      rcases bind_eq_error_iff.mp he with he | ⟨text, htext, he⟩
      · exact (failsOnly_cause (failsOnly_expand raw) h he).imp
          (fun _ hc => hc.mono missing_subset) fun _ hlong => hlong
      · exact (failsOnly_elementAt items place text h he).imp
          (fun _ hc => hc.mono resultCodes_subset)
          fun _ hlong => ⟨text, mapError_eq_ok_iff.mp htext, hlong⟩
  | entry key wanted =>
      refine failsOnly_cause ?_
      refine FailsOnly.bind ((failsOnly_expand key).mono fun _ hc => hc.mono missing_subset) ?_
      intro k
      refine FailsOnly.bind ((failsOnly_expand wanted).mono fun _ hc => hc.mono missing_subset) ?_
      intro w
      exact (failsOnly_elementWith items place k w).mono fun _ hc => hc.mono resultCodes_subset

/-- The reference names an element by an index with too many digits. -/
def LongIndex (scope : Scope) (r : Reference) (digits : Nat) : Prop :=
  ∃ selector sub, r.element = some (selector, sub) ∧ LongSelector scope selector digits

theorem follow_of_target_eq_error {r : Reference} {c : Failure.Cause}
    (h : target scope r = .error c) : follow scope r = .error (.cause c) := by
  rw [follow, h]
  rfl

/-- A reference leads nowhere because its result has not been published, or for one of the other
reasons. -/
theorem failsOnly_follow (r : Reference) :
    FailsOnly (Nowhere (fun c => Unpublished scope r c ∨ OfCodes lookupCodes c)
      (LongIndex scope r)) (follow scope r) := by
  intro h he
  have hown {c : Failure.Cause} (hc : OfCodes lookupCodes c) :
      Unpublished scope r c ∨ OfCodes lookupCodes c := .inr hc
  rcases bind_eq_error_iff.mp he with he | ⟨⟨place, v⟩, -, he⟩
  · exact failsOnly_cause (failsOnly_target r) h he
  simp only at he
  split at he
  · cases he
  next selector sub helement =>
  rcases bind_eq_error_iff.mp he with he | ⟨items, -, he⟩
  · exact failsOnly_cause ((failsOnly_itemsOf v place).mono
      fun _ hc => hown (hc.mono resultCodes_subset)) h he
  rcases bind_eq_error_iff.mp he with he | ⟨sub', -, he⟩
  · exact failsOnly_cause ((failsOnly_expand sub).mono
      fun _ hc => hown (hc.mono missing_subset)) h he
  rcases bind_eq_error_iff.mp he with he | ⟨⟨n, item⟩, -, he⟩
  · exact (failsOnly_select items place selector h he).imp (fun _ => hown)
      fun _ hlong => ⟨selector, sub, helement, hlong⟩
  · exact failsOnly_cause ((failsOnly_fieldOf item sub' _).mono
      fun _ hc => hown (hc.mono resultCodes_subset)) h he

/-! ## Splicing -/

theorem failsOnly_splice (t : Token) :
    FailsOnly (Nowhere
      (fun c => (∃ r, t = .reference r ∧ Unpublished scope r c) ∨ OfCodes lookupCodes c)
      fun digits => ∃ r, t = .reference r ∧ LongIndex scope r digits) (splice scope t) := by
  cases t with
  | literal text => exact failsOnly_ok text
  | env name braced =>
      exact failsOnly_cause ((failsOnly_env name).mono fun _ hc => .inr (hc.mono missing_subset))
  | reference r =>
      intro h he
      rcases bind_eq_error_iff.mp he with he | ⟨v, -, he⟩
      · exact (failsOnly_follow r h he).imp (fun _ hc => hc.imp_left fun hu => ⟨r, rfl, hu⟩)
          fun _ hlong => ⟨r, rfl, hlong⟩
      · exact failsOnly_cause ((failsOnly_render v).mono
          fun _ hc => .inr (hc.mono resultCodes_subset)) h he

theorem spliceAll_eq_error_iff {ts : List Token} {h : Halt} :
    spliceAll scope ts = .error h ↔
      ∃ before t rest, ts = before ++ t :: rest
        ∧ (∀ t ∈ before, ∃ s, splice scope t = .ok s) ∧ splice scope t = .error h := by
  induction ts with
  | nil => simp [spliceAll]
  | cons t ts ih =>
      rw [spliceAll, bind_eq_error_iff]
      constructor
      · rintro (h | ⟨s, hs, h⟩)
        · exact ⟨[], t, ts, rfl, by simp, h⟩
        · rcases bind_eq_error_iff.mp h with h | ⟨s', -, h⟩
          · obtain ⟨before, t', rest, rfl, hb, ht⟩ := ih.mp h
            refine ⟨t :: before, t', rest, rfl, ?_, ht⟩
            rintro u (_ | ⟨_, hu⟩)
            · exact ⟨s, hs⟩
            · exact hb u hu
          · cases h
      · rintro ⟨_ | ⟨u, before⟩, t', rest, hl, hb, ht⟩
        · cases hl
          exact .inl ht
        · cases hl
          obtain ⟨s, hs⟩ := hb _ (List.mem_cons_self ..)
          exact .inr ⟨s, hs, bind_eq_error_iff.mpr (.inl (ih.mpr ⟨before, t', rest, rfl,
            fun u hu => hb u (List.mem_cons_of_mem _ hu), ht⟩))⟩

/-- A row of tokens is not spliced if one of them is not. -/
theorem exists_spliceAll_eq_error {ts : List Token} {t : Token} (ht : t ∈ ts)
    {h : Halt} (he : splice scope t = .error h) : ∃ h', spliceAll scope ts = .error h' := by
  induction ts with
  | nil => cases ht
  | cons u ts ih =>
      rw [spliceAll]
      cases hu : splice scope u with
      | error h' => exact ⟨h', rfl⟩
      | ok s =>
          rcases List.mem_cons.mp ht with rfl | ht
          · rw [he] at hu
            cases hu
          · obtain ⟨h', hc⟩ := ih ht
            exact ⟨h', by rw [hc]; rfl⟩

/-- The token of a text at which splicing it ends with `h`: those before it are spliced. -/
def FailsAtToken (scope : Scope) (text : String) (t : Token) (h : Halt) : Prop :=
  ∃ before rest, tokenize text = .ok (before ++ t :: rest)
    ∧ (∀ t ∈ before, ∃ s, splice scope t = .ok s) ∧ splice scope t = .error h

theorem spliceText_eq_error_iff {text : String} {h : Halt} :
    spliceText scope text = .error h ↔
      hasMarkers text = true ∧
        ((∃ c, tokenize text = .error c ∧ h = .cause c) ∨ ∃ t, FailsAtToken scope text t h) := by
  unfold spliceText
  split
  · next hm =>
    simp only [hm, true_and, bind_eq_error_iff, spliceAll_eq_error_iff, FailsAtToken,
      mapError_eq_error_iff, mapError_eq_ok_iff]
    refine or_congr ⟨?_, ?_⟩ ⟨?_, ?_⟩
    · rintro ⟨c, hc, rfl⟩
      exact ⟨c, hc, rfl⟩
    · rintro ⟨c, hc, rfl⟩
      exact ⟨c, hc, rfl⟩
    · rintro ⟨_, hts, before, t, rest, rfl, hb, ht⟩
      exact ⟨t, before, rest, hts, hb, ht⟩
    · rintro ⟨t, before, rest, hts, hb, ht⟩
      exact ⟨_, hts, before, t, rest, rfl, hb, ht⟩
  · next hm => simp [hm]

/-- The codes of texts that are not spliced. -/
def splicingCodes : List String :=
  "result.unpublished" :: (syntaxCodes ++ lookupCodes)

/-- A text is not spliced for one of these reasons, or because of an index with too many digits in
one of its references. -/
theorem failsOnly_spliceText (text : String) :
    FailsOnly (Nowhere (OfCodes splicingCodes)
      fun digits => ∃ ts r, tokenize text = .ok ts ∧ .reference r ∈ ts ∧ LongIndex scope r digits)
      (spliceText scope text) := by
  intro h he
  obtain ⟨-, ⟨c, ht, rfl⟩ | ⟨t, before, rest, ht, -, hs⟩⟩ := spliceText_eq_error_iff.mp he
  · exact nowhere_cause.mpr ((tokenize_eq_error ht).2.mono (by decide))
  · refine (failsOnly_splice t h hs).imp (fun c hc => ?_) ?_
    · rcases hc with ⟨r, -, id, -, -, rfl⟩ | hc
      · exact ⟨rfl, List.mem_cons_self ..⟩
      · exact hc.mono (by decide)
    · rintro digits ⟨r, rfl, hlong⟩
      exact ⟨_, r, ht, by simp, hlong⟩

end

end CallPlan.Template
