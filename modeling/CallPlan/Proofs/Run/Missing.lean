import CallPlan.Proofs.Run.Checking

/-!
# What a clean check says of variables

A check that knows the environment of a run warns of variables that stand as tokens of their
own and are not set, and of references whose id depends on a variable. It does not look at the
other parts of a reference, and these are expanded as well when the reference is followed. So
where a check has found nothing, a run may still miss a variable, but only one in such a part
(`missing_of_clean_check`), and a command with such a variable never gets as far as its call.
-/

namespace CallPlan.Run

open Sequencing Plan Template

variable {σ τ : Type} {job : Job} {invoker : Invoker σ} {sink : Sink τ}

/-! ## What the check has looked at -/

section

variable {environ : String → Option String} {checked : FileSystem} {base : Option Path} {plan : Plan}
  {report : Report} {k : Nat} {c : Command}

/-- A check that has found nothing has nothing against any token. -/
theorem exists_tokenIssue?_eq_none
    (hr : checkReferences (some environ) checked base plan = .ok report)
    (hclean : report.errors = [] ∧ report.warnings = []) (hk : plan.commands[k]? = some c)
    {t : Token} (ht : Has c.params t) (hl : t.isLiteral = false) :
    ∃ b place, tokenIssue? (commandContext (some environ) checked b plan k c) place t = none := by
  obtain ⟨b, -, hbase, -, -⟩ := mem_issues_iff hr
  obtain ⟨⟨place, text⟩, hleaf, ts, hts, hmem⟩ := ht
  have hsnd : text ∈ (texts (paramsPlace k) c.params).map Prod.snd := by
    rw [← map_snd_leaves Place.top]
    exact List.mem_map_of_mem hleaf
  obtain ⟨⟨place', _⟩, htexts, rfl⟩ := List.mem_map.mp hsnd
  obtain ⟨s, rfl⟩ := exists_append_of_mem_texts htexts
  have hissues := textIssues_of_hasMarkers (hasMarkers_of_mem hts hmem hl) hts
    (commandContext (some environ) checked b plan k c) (paramsPlace k ++ s)
  refine ⟨b, paramsPlace k ++ s, Option.eq_none_iff_forall_ne_some.mpr fun i hi => ?_⟩
  obtain ⟨-, herror, hwarning⟩ := mem_report_of_mem_textIssues hr hbase hk htexts hissues
    (List.mem_filterMap.mpr ⟨t, hmem, hi⟩)
  rw [hclean.1, hclean.2] at *
  cases hseverity : i.severity with
  | error => cases herror hseverity
  | warning => cases hwarning hseverity

theorem environ_ne_none_of_clean_check
    (hr : checkReferences (some environ) checked base plan = .ok report)
    (hclean : report.errors = [] ∧ report.warnings = []) (hk : plan.commands[k]? = some c)
    {name : String} {braced : Bool} (ht : Has c.params (.env name braced)) :
    environ name ≠ none := by
  obtain ⟨b, place, hnone⟩ := exists_tokenIssue?_eq_none hr hclean hk ht rfl
  intro hunset
  simp [tokenIssue?, commandContext, Context.at, hunset] at hnone

theorem percent_not_mem_of_clean_check
    (hr : checkReferences (some environ) checked base plan = .ok report)
    (hclean : report.errors = [] ∧ report.warnings = []) (hk : plan.commands[k]? = some c)
    {r : Reference} (ht : Has c.params (.reference r)) : '%' ∉ r.id.toList := by
  obtain ⟨b, place, hnone⟩ := exists_tokenIssue?_eq_none hr hclean hk ht rfl
  intro hd
  have hissue : tokenIssue? (commandContext (some environ) checked b plan k c) place
      (.reference r) ≠ none := by
    obtain ⟨i, hi, -⟩ := exists_dynamic_idIssue? hd
    rw [tokenIssue?, hi]
    simp
  exact hissue hnone

end

/-! ## What it has not looked at -/

section

variable {environ : String → Option String} {checked : FileSystem} {base : Option Path} {plan : Plan}
  {report : Report} {k : Nat} {c : Command} {w₀ w : World σ τ}

/-- **What a clean check says of variables.** Where a check that knows the environment has found
nothing, resolving a command's parameters in a run misses a variable only if one is not set in
a part of a reference other than its id. Parameters with such a reference never resolve. -/
theorem missing_of_clean_check
    (hr : checkReferences (some environ) checked base plan = .ok report)
    (hclean : report.errors = [] ∧ report.warnings = []) (henv : job.environ = environ)
    (hb : Begins job invoker sink plan.commands w₀ k c w) :
    (∀ f, Template.resolve (scope job w) c.params = .error (.failure f) → f.code = "env.missing" →
      ∃ r, Has c.params (.reference r) ∧ ∃ text ∈ r.details, Unset environ text)
    ∧ ∀ r, Has c.params (.reference r) → (∃ text ∈ r.details, Unset environ text) →
      ∀ p, Template.resolve (scope job w) c.params ≠ .ok p := by
  subst henv
  constructor
  · intro f hf hcode
    rcases exists_unset_of_resolve hf hcode with ⟨name, braced, ht, hnone⟩ | ⟨r, ht, text, hm, hu⟩
    · exact absurd hnone (environ_ne_none_of_clean_check hr hclean hb.1 ht)
    · rcases List.mem_cons.mp hm with rfl | hm
      · have hd := percent_not_mem_of_clean_check hr hclean hb.1 ht
        exact absurd hu (not_unset_of_expand (expand_of_not_mem (scope job w) hd))
      · exact ⟨r, ht, text, hm, hu⟩
  · rintro r ht ⟨text, hm, hu⟩ p hp
    obtain ⟨v, hv⟩ := exists_follow_of_resolve hp ht
    exact not_unset_of_follow hv text (List.mem_cons_of_mem _ hm) hu

end

/-! ## A field whose name is a variable -/

/-- A call without parameters. -/
def plainCall : Command :=
  ⟨"object", "method", .map [], "a", []⟩

/-- A call that asks for a field of its result, whose name is a variable. -/
def vagueCall : Command :=
  ⟨"object", "method", .record [("x", .text "\x7ba.%X%\x7d")], "b", []⟩

/-- The document of a plan with the two calls, as it is read. -/
def vagueDocument : Value :=
  .record [("commands", .list ([plainCall, vagueCall].map fun c => .record [
    ("objectType", .text c.objectType), ("method", .text c.method), ("resultsID", .text c.id),
    ("params", c.params)]))]

/-- The plan that the document describes. -/
def vaguePlan : Plan := ⟨[plainCall, vagueCall], [], none⟩

/-- The world in which the second call begins. -/
def vagueWorld : World Nat (List Event) :=
  after (performAll bareJob onceOnly Sink.memory 0 [plainCall]
    (World.start 0 [.runStarted 2] .empty))

theorem ofDocument_vagueDocument : ofDocument none vagueDocument = .ok vaguePlan := rfl

theorem checkReferences_vaguePlan :
    checkReferences (some fun _ => none) .empty (some ⟨.single, []⟩) vaguePlan = .ok ⟨[], []⟩ := by
  cbv

theorem begins_vagueCall :
    Begins bareJob onceOnly Sink.memory vaguePlan.commands (World.start 0 [] .empty) 1
      vagueCall vagueWorld :=
  ⟨rfl, _, _, rfl, rfl, by simp⟩

theorem has_vagueCall : Has vagueCall.params (.reference ⟨"a", "%X%", none⟩) := by
  have hleaves : leaves Place.top vagueCall.params = [("$.x", "\x7ba.%X%\x7d")] := by cbv
  have htokens : tokenize "\x7ba.%X%\x7d" = .ok [.reference ⟨"a", "%X%", none⟩] := by cbv
  exact ⟨_, hleaves ▸ List.mem_singleton_self _, _, htokens, List.mem_singleton_self _⟩

/-- The second call of the plan never resolves. -/
theorem missing_of_clean_check_vaguePlan :
    Has vagueCall.params (.reference ⟨"a", "%X%", none⟩) ∧ Unset bareJob.environ "%X%"
      ∧ ∀ p, Template.resolve (scope bareJob vagueWorld) vagueCall.params ≠ .ok p := by
  have hnames : variableNames "%X%".toList = ["X"] := by cbv
  have hunset : Unset bareJob.environ "%X%" := ⟨"X", hnames ▸ List.mem_singleton_self _, rfl⟩
  exact ⟨has_vagueCall, hunset,
    (missing_of_clean_check checkReferences_vaguePlan ⟨rfl, rfl⟩ rfl begins_vagueCall).2 _
      has_vagueCall ⟨_, List.mem_cons_self .., hunset⟩⟩

/-- The check of the plan has found nothing, and its run misses a variable. -/
theorem resolve_vagueCall :
    ofDocument none vagueDocument = .ok vaguePlan
      ∧ checkReferences (some bareJob.environ) .empty (some ⟨.single, []⟩) vaguePlan = .ok ⟨[], []⟩
      ∧ Begins bareJob onceOnly Sink.memory vaguePlan.commands (World.start 0 [] .empty) 1
        vagueCall vagueWorld
      ∧ ∃ f, Template.resolve (scope bareJob vagueWorld) vagueCall.params = .error (.failure f)
        ∧ f.code = "env.missing" := by
  have hf : Template.resolve (scope bareJob vagueWorld) vagueCall.params =
      .error (.failure ((Failure.of (.unset "X")).located "$.x")) := by
    cbv
  exact ⟨ofDocument_vagueDocument, checkReferences_vaguePlan, begins_vagueCall, _, hf, rfl⟩

end CallPlan.Run
