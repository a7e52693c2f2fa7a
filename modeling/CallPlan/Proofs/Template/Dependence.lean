import CallPlan.Proofs.Template.Delivery
import CallPlan.Proofs.Template.Leaves

/-!
# What resolving depends on

Resolving parameters follows the references in them and looks at nothing else of what has been
published: what no reference asks for does not matter (`resolve_withResults`). Where it
succeeds, every reference has been followed to its end (`exists_follow_of_resolve`), so all that
the reference names is there.

Variables stand in texts as tokens of their own and inside every part of a reference. A
resolution that misses a variable misses one of these (`exists_unset_of_resolve`), and a
reference with an unset variable in any part leads nowhere (`not_unset_of_follow`).
-/

namespace CallPlan

open Sequencing Template

/-! ## The texts of a reference -/

def Selector.texts : Selector → List String
  | .index text => [text]
  | .entry key wanted => [key, wanted]

/-- The texts of a reference besides the id: its field and what names the element. -/
def Reference.details (r : Reference) : List String :=
  r.field :: match r.element with
    | none => []
    | some (selector, sub) => sub :: selector.texts

/-- A variable in the text is not set. -/
def Unset (environ : String → Option String) (text : String) : Prop :=
  ∃ name ∈ variableNames text.toList, environ name = none

namespace Template

variable {scope : Scope}

theorem unset_iff {text : String} :
    Unset scope.environ text ↔ ∃ c, expand scope text = .error c := by
  have hok := @exists_expand_eq_ok_iff scope text
  cases h : expand scope text with
  | ok s =>
      have hset := hok.mp ⟨s, h⟩
      simp only [Unset, reduceCtorEq, exists_false, iff_false]
      rintro ⟨name, hname, hnone⟩
      exact hset name hname hnone
  | error c =>
      have hno := mt hok.mpr (by simp [h])
      simpa [Unset] using hno

theorem not_unset_of_expand {text s : String} (h : expand scope text = .ok s) :
    ¬ Unset scope.environ text := by
  rw [unset_iff, h]
  simp

/-! ## Following references -/

/-- A reference that is followed to its end has all its variables set. -/
theorem not_unset_of_follow {r : Reference} {v : Value} (h : follow scope r = .ok v) :
    ∀ text ∈ r.id :: r.details, ¬ Unset scope.environ text := by
  obtain ⟨id, field, element⟩ := r
  obtain ⟨⟨place, x⟩, htarget, h⟩ := bind_eq_ok_iff.mp h
  obtain ⟨id', hid, htarget⟩ := bind_eq_ok_iff.mp (mapError_eq_ok_iff.mp htarget)
  obtain ⟨field', hfield, -⟩ := bind_eq_ok_iff.mp htarget
  simp only [Reference.details, List.forall_mem_cons]
  refine ⟨not_unset_of_expand hid, not_unset_of_expand hfield, ?_⟩
  cases element with
  | none => simp
  | some e =>
      obtain ⟨selector, sub⟩ := e
      obtain ⟨items, -, h⟩ := bind_eq_ok_iff.mp h
      obtain ⟨sub', hsub, h⟩ := bind_eq_ok_iff.mp h
      obtain ⟨found, hselect, -⟩ := bind_eq_ok_iff.mp h
      rw [List.forall_mem_cons]
      refine ⟨not_unset_of_expand (mapError_eq_ok_iff.mp hsub), ?_⟩
      cases selector with
      | index text =>
          obtain ⟨t, ht, -⟩ := bind_eq_ok_iff.mp hselect
          simpa [Selector.texts] using not_unset_of_expand (mapError_eq_ok_iff.mp ht)
      | entry key wanted =>
          obtain ⟨k, hk, hselect⟩ := bind_eq_ok_iff.mp (mapError_eq_ok_iff.mp hselect)
          obtain ⟨w, hw, -⟩ := bind_eq_ok_iff.mp hselect
          simpa [Selector.texts] using ⟨not_unset_of_expand hk, not_unset_of_expand hw⟩

theorem unset_of_select {items : List Value} {place : String} {s : Selector} {c : Failure.Cause}
    (h : select scope items place s = .error (.cause c)) (hc : c.code = "env.missing") :
    ∃ text ∈ s.texts, Unset scope.environ text := by
  have hother {c' : Failure.Cause} (hown : OfCodes resultCodes c') : c'.code ≠ "env.missing" :=
    ne_missing_of_mem_resultCodes hown.code
  cases s with
  | index text =>
      rcases bind_eq_error_iff.mp h with h | ⟨t, -, h⟩
      · exact ⟨text, by simp [Selector.texts], unset_iff.mpr ⟨c, mapError_cause_eq_error_iff.mp h⟩⟩
      · exact absurd hc (hother (nowhere_cause.mp (failsOnly_elementAt _ _ _ _ h)))
  | entry key wanted =>
      rcases bind_eq_error_iff.mp (mapError_cause_eq_error_iff.mp h) with h | ⟨k, -, h⟩
      · exact ⟨key, by simp [Selector.texts], unset_iff.mpr ⟨c, h⟩⟩
      rcases bind_eq_error_iff.mp h with h | ⟨w, -, h⟩
      · exact ⟨wanted, by simp [Selector.texts], unset_iff.mpr ⟨c, h⟩⟩
      · exact absurd hc (hother (failsOnly_elementWith _ _ _ _ _ h))

theorem unset_of_target {r : Reference} {c : Failure.Cause} (h : target scope r = .error c)
    (hc : c.code = "env.missing") : ∃ text ∈ [r.id, r.field], Unset scope.environ text := by
  rcases bind_eq_error_iff.mp h with h | ⟨id', -, h⟩
  · exact ⟨r.id, by simp, unset_iff.mpr ⟨c, h⟩⟩
  rcases bind_eq_error_iff.mp h with h | ⟨field', -, h⟩
  · exact ⟨r.field, by simp, unset_iff.mpr ⟨c, h⟩⟩
  rcases bind_eq_error_iff.mp h with h | ⟨result, -, h⟩
  · obtain ⟨-, rfl⟩ := result_eq_error_iff.mp h
    simp [Failure.Cause.code] at hc
  rcases bind_eq_error_iff.mp h with h | ⟨v, -, h⟩
  · exact absurd hc (ne_missing_of_mem_resultCodes (failsOnly_fieldOf _ _ _ _ h).code)
  · cases h

/-- A reference that misses a variable has one in its parts. -/
theorem unset_of_follow {r : Reference} {c : Failure.Cause}
    (h : follow scope r = .error (.cause c)) (hc : c.code = "env.missing") :
    ∃ text ∈ r.id :: r.details, Unset scope.environ text := by
  obtain ⟨id, field, element⟩ := r
  rcases bind_eq_error_iff.mp h with h | ⟨⟨place, x⟩, -, h⟩
  · obtain ⟨text, htext, hunset⟩ := unset_of_target (mapError_cause_eq_error_iff.mp h) hc
    refine ⟨text, ?_, hunset⟩
    rcases List.mem_pair.mp htext with rfl | rfl <;> simp [Reference.details]
  cases element with
  | none => cases h
  | some e =>
      obtain ⟨selector, sub⟩ := e
      rcases bind_eq_error_iff.mp h with h | ⟨items, -, h⟩
      · have hown := failsOnly_itemsOf _ _ _ (mapError_cause_eq_error_iff.mp h)
        exact absurd hc (ne_missing_of_mem_resultCodes hown.code)
      rcases bind_eq_error_iff.mp h with h | ⟨sub', -, h⟩
      · exact ⟨sub, by simp [Reference.details],
          unset_iff.mpr ⟨c, mapError_cause_eq_error_iff.mp h⟩⟩
      rcases bind_eq_error_iff.mp h with h | ⟨⟨n, item⟩, -, h⟩
      · obtain ⟨text, htext, hunset⟩ := unset_of_select h hc
        exact ⟨text, by simp [Reference.details, htext], hunset⟩
      · have hown := failsOnly_fieldOf _ _ _ _ (mapError_cause_eq_error_iff.mp h)
        exact absurd hc (ne_missing_of_mem_resultCodes hown.code)

/-- A token that misses a variable is one, or a reference with one in its parts. -/
theorem unset_of_splice {t : Token} {c : Failure.Cause} (h : splice scope t = .error (.cause c))
    (hc : c.code = "env.missing") :
    (∃ name braced, t = .env name braced ∧ scope.environ name = none)
      ∨ ∃ r, t = .reference r ∧ ∃ text ∈ r.id :: r.details, Unset scope.environ text := by
  cases t with
  | literal text => cases h
  | env name braced =>
      refine .inl ⟨name, braced, rfl, ?_⟩
      cases hv : scope.environ name with
      | none => rfl
      | some v =>
          rw [splice, env_eq_ok_iff.mpr hv] at h
          cases h
  | reference r =>
      refine .inr ⟨r, rfl, ?_⟩
      rcases bind_eq_error_iff.mp h with h | ⟨v, -, h⟩
      · exact unset_of_follow h hc
      · have hown := failsOnly_render _ _ (mapError_cause_eq_error_iff.mp h)
        exact absurd hc (ne_missing_of_mem_resultCodes hown.code)

/-! ## Resolving -/

/-- The parameters have the token in one of their texts. -/
def Has (params : Value) (t : Token) : Prop :=
  ∃ l ∈ leaves Place.top params, ∃ ts, tokenize l.2 = .ok ts ∧ t ∈ ts

/-- A text does not resolve if one of its references leads nowhere. -/
theorem exists_resolveText_eq_error_of_follow {text : String} {ts : List Token} {r : Reference}
    (ht : tokenize text = .ok ts) (hr : .reference r ∈ ts) {h : Halt}
    (hf : follow scope r = .error h) : ∃ h', resolveText scope text = .error h' := by
  have hsplice : splice scope (.reference r) = .error h := bind_eq_error_iff.mpr (.inl hf)
  obtain ⟨h', hall⟩ := exists_spliceAll_eq_error hr hsplice
  have htext : spliceText scope text = .error h' := by
    rw [spliceText, if_pos (hasMarkers_of_mem ht hr rfl), ht]
    exact hall
  exact ⟨h', resolveText_eq_error_iff.mpr (.inl htext)⟩

/-- A failure of resolution whose code is not one of delivering files comes from splicing one of
the texts, and tells its place. -/
theorem exists_spliceText_eq_error {params : Value} {f : Failure}
    (h : resolve scope params = .error (.failure f)) (hc : f.code ∉ deliveryCodes) :
    ∃ before place text rest, leaves Place.top params = before ++ (place, text) :: rest
      ∧ (∀ l ∈ before, ∃ y, resolveText scope l.2 = .ok y)
      ∧ spliceText scope text = .error (.cause f.cause) ∧ f.path = some place := by
  rcases exists_leaf_of_resolve h with hkey | ⟨before, place, text, rest, h', hl, hb, ht, he⟩
  · cases hkey
  refine ⟨before, place, text, rest, hl, hb, ?_⟩
  have hcause {c : Failure.Cause} (hh : h' = .cause c) : f = (Failure.of c).located place := by
    rw [hh] at he
    exact Halt.failure.inj he
  rcases resolveText_eq_error_iff.mp ht with hs | ⟨spliced, -, hd⟩
  · rcases failsOnly_spliceText text h' hs with ⟨c, rfl, -⟩ | ⟨digits, rfl, -⟩
    · rw [hcause rfl]
      exact ⟨hs, rfl⟩
    · cases he
  · rcases deliver_eq_error hd with ⟨c, hh, hcode⟩ | ⟨fault, raws, rfl, -⟩
    · rw [hcause hh] at hc
      exact absurd hcode hc
    · cases he

/-- A resolution that misses a variable misses one of a token in the parameters. -/
theorem exists_unset_of_resolve {params : Value} {f : Failure}
    (h : resolve scope params = .error (.failure f)) (hc : f.code = "env.missing") :
    (∃ name braced, Has params (.env name braced) ∧ scope.environ name = none)
      ∨ ∃ r, Has params (.reference r) ∧ ∃ text ∈ r.id :: r.details, Unset scope.environ text := by
  obtain ⟨before, place, text, rest, hl, -, hs, -⟩ :=
    exists_spliceText_eq_error h (by rw [hc]; decide)
  have hmem : (place, text) ∈ leaves Place.top params := by simp [hl]
  obtain ⟨-, ⟨c, ht, hcause⟩ | ⟨t, ts, us, ht, -, hsplice⟩⟩ := spliceText_eq_error_iff.mp hs
  · have hsyntax := (tokenize_eq_error ht).2.code
    have hcode : c.code = "env.missing" := Halt.cause_inj.mp hcause ▸ hc
    rw [hcode] at hsyntax
    exact absurd hsyntax (by decide)
  · have hhas : Has params t := ⟨_, hmem, _, ht, by simp⟩
    rcases unset_of_splice hsplice hc with ⟨name, braced, rfl, hnone⟩ | ⟨r, rfl, hunset⟩
    · exact .inl ⟨name, braced, hhas, hnone⟩
    · exact .inr ⟨r, hhas, hunset⟩

/-- Where parameters resolve, each of their references has been followed to its end. -/
theorem exists_follow_of_resolve {params y : Value} (h : resolve scope params = .ok y)
    {r : Reference} (hr : Has params (.reference r)) : ∃ v, follow scope r = .ok v := by
  obtain ⟨l, hl, ts, ht, hmem⟩ := hr
  cases hf : follow scope r with
  | ok v => exact ⟨v, rfl⟩
  | error halt =>
      obtain ⟨h', htext⟩ := exists_resolveText_eq_error_of_follow ht hmem hf
      obtain ⟨h'', he⟩ := exists_resolve_eq_error hl htext
      rw [h] at he
      cases he

/-! ## Results that no reference asks for -/

/-- A reference in the parameters asks for the result `id`, when the variables in it have been
expanded. -/
def Asks (scope : Scope) (params : Value) (id : String) : Prop :=
  ∃ r, Has params (.reference r) ∧ expand scope r.id = .ok id

theorem exists_result_of_follow {r : Reference} {v : Value} (h : follow scope r = .ok v) :
    ∃ id, expand scope r.id = .ok id ∧ scope.results id ≠ none := by
  obtain ⟨found, htarget, -⟩ := bind_eq_ok_iff.mp h
  obtain ⟨id, hid, h⟩ := bind_eq_ok_iff.mp (mapError_eq_ok_iff.mp htarget)
  obtain ⟨field, -, h⟩ := bind_eq_ok_iff.mp h
  obtain ⟨result, hresult, -⟩ := bind_eq_ok_iff.mp h
  refine ⟨id, hid, fun hnone => ?_⟩
  simp [Scope.result, hnone] at hresult

/-- Where parameters resolve, all that they ask for is there. -/
theorem results_ne_none_of_asks {params y : Value} (h : resolve scope params = .ok y)
    {id : String} (ha : Asks scope params id) : scope.results id ≠ none := by
  obtain ⟨r, hr, hid⟩ := ha
  obtain ⟨v, hv⟩ := exists_follow_of_resolve h hr
  obtain ⟨id', hid', hresult⟩ := exists_result_of_follow hv
  cases hid.symm.trans hid'
  exact hresult

theorem expandChars_congr {s s' : Scope} (h : s.environ = s'.environ) (cs : List Char) :
    expandChars s cs = expandChars s' cs := by
  have henv (name : String) : s.env name = s'.env name := by
    rw [Scope.env, Scope.env, h]
  fun_induction expandChars s cs with
  | case1 => simp [expandChars]
  | case2 rest hn ih =>
      rw [expandChars]
      split
      · rw [ih]
      · next h => rw [hn] at h; cases h
  | case3 rest name behind hn ih =>
      rw [expandChars]
      split
      · next h => rw [hn] at h; cases h
      · next h =>
        rw [hn] at h
        cases h
        rw [ih, henv]
  | case4 c rest hc ih =>
      rw [expandChars, ih]
      exact hc

/-- Expanding looks at the variables only. -/
theorem expand_congr {s s' : Scope} (h : s.environ = s'.environ) (text : String) :
    expand s text = expand s' text := by
  rw [expand, expand, expandChars_congr h]

theorem asks_congr {s s' : Scope} (h : s.environ = s'.environ) {params : Value} {id : String} :
    Asks s params id ↔ Asks s' params id := by
  simp only [Asks, expand_congr h]

/-- The scope with other results. -/
def withResults (scope : Scope) (results : String → Option Value) : Scope :=
  { scope with results }

section

variable {results : String → Option Value}

theorem expand_withResults (text : String) :
    expand (withResults scope results) text = expand scope text := by
  have henviron : (withResults scope results).environ = scope.environ := rfl
  exact expand_congr henviron text

theorem select_withResults (items : List Value) (place : String) (s : Selector) :
    select (withResults scope results) items place s = select scope items place s := by
  cases s <;> simp only [select, expand_withResults]

theorem result_withResults {id : String} (h : results id = scope.results id) :
    (withResults scope results).result id = scope.result id := by
  rw [Scope.result, Scope.result, ← h]
  rfl

theorem follow_withResults {r : Reference}
    (h : ∀ id, expand scope r.id = .ok id → results id = scope.results id) :
    follow (withResults scope results) r = follow scope r := by
  have htarget : target (withResults scope results) r = target scope r := by
    unfold target
    simp only [expand_withResults]
    cases hid : expand scope r.id with
    | error c => rfl
    | ok id => simp only [ok_bind, result_withResults (h id hid)]
  unfold follow
  simp only [htarget, expand_withResults, select_withResults]

theorem splice_withResults {t : Token}
    (h : ∀ r, t = .reference r → ∀ id, expand scope r.id = .ok id → results id = scope.results id) :
    splice (withResults scope results) t = splice scope t := by
  cases t with
  | literal text => rfl
  | env name braced => rfl
  | reference r => rw [splice, splice, follow_withResults (h r rfl)]

theorem spliceAll_withResults {ts : List Token}
    (h : ∀ r, .reference r ∈ ts → ∀ id, expand scope r.id = .ok id →
      results id = scope.results id) :
    spliceAll (withResults scope results) ts = spliceAll scope ts := by
  induction ts with
  | nil => rfl
  | cons t ts ih =>
      rw [spliceAll, spliceAll, ih fun r hr => h r (List.mem_cons_of_mem _ hr),
        splice_withResults fun r hr => h r (hr ▸ List.mem_cons_self ..)]

theorem resolveText_withResults {text : String}
    (h : ∀ r ts, tokenize text = .ok ts → .reference r ∈ ts →
      ∀ id, expand scope r.id = .ok id → results id = scope.results id) :
    resolveText (withResults scope results) text = resolveText scope text := by
  have hsplice : spliceText (withResults scope results) text = spliceText scope text := by
    unfold spliceText
    cases ht : tokenize text with
    | error c => rfl
    | ok ts =>
        split
        · exact spliceAll_withResults (h · ts ht)
        · rfl
  rw [resolveText, resolveText, hsplice]
  rfl

end

mutual

theorem resolveAt_congr {s s' : Scope} {path : String} {v : Value}
    (h : ∀ l ∈ leaves path v, resolveText s l.2 = resolveText s' l.2) :
    resolveAt s path v = resolveAt s' path v := by
  cases v with
  | text t => rw [resolveAt, resolveAt, h (path, t) (List.mem_cons_self ..)]
  | list xs => rw [resolveAt, resolveAt, resolveItems_congr h]
  | tuple xs => rw [resolveAt, resolveAt, resolveItems_congr h]
  | map es => rw [resolveAt, resolveAt, resolveEntries_congr h]
  | _ => rfl

theorem resolveItems_congr {s s' : Scope} {path : String} {n : Nat} {xs : List Value}
    (h : ∀ l ∈ itemLeaves path n xs, resolveText s l.2 = resolveText s' l.2) :
    resolveItems s path n xs = resolveItems s' path n xs := by
  cases xs with
  | nil => rfl
  | cons x xs =>
      rw [itemLeaves, List.forall_mem_append] at h
      rw [resolveItems, resolveItems, resolveAt_congr h.1, resolveItems_congr h.2]

theorem resolveEntries_congr {s s' : Scope} {path : String} {es : List (Value × Value)}
    (h : ∀ l ∈ entryLeaves path es, resolveText s l.2 = resolveText s' l.2) :
    resolveEntries s path es = resolveEntries s' path es := by
  cases es with
  | nil => rfl
  | cons e es =>
      obtain ⟨k, x⟩ := e
      rw [entryLeaves, List.forall_mem_append] at h
      rw [resolveEntries, resolveEntries, resolveAt_congr h.1, resolveEntries_congr h.2]

end

/-- Results that no reference asks for do not matter. -/
theorem resolve_withResults {results : String → Option Value} {params : Value}
    (h : ∀ id, Asks scope params id → results id = scope.results id) :
    resolve (withResults scope results) params = resolve scope params :=
  resolveAt_congr fun l hl => resolveText_withResults fun r ts ht hr id hid =>
    h id ⟨r, ⟨l, hl, ts, ht, hr⟩, hid⟩

end Template

end CallPlan
