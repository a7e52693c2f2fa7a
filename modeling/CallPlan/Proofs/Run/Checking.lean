import Mathlib.Data.List.Basic
import CallPlan.Proofs.Plan.Document
import CallPlan.Proofs.Plan.Findings
import CallPlan.Proofs.Run.Traces
import CallPlan.Proofs.Template.Dependence

/-!
# Checking foretells runs

Checking looks at a plan without running it, so it knows of a result only that an earlier
command publishes it. That is exactly what a run has when a command begins: the results of
the commands before it (`ids_of_begins`). Hence an error of the check is never a false
alarm (`never_called_of_error`), since the command it is about does not resolve, and no
structural error of a run is missed (`exists_error_of_unresolved`).
-/

namespace CallPlan.Run

open Sequencing Plan Template

variable {σ τ : Type} {job : Job} {invoker : Invoker σ} {sink : Sink τ}

/-! ## What is published when a command begins -/

/-- When a command begins, the results are those of the commands before it. -/
theorem ids_of_begins {commands : List Command} {s : σ} {t : τ} {files : FileSystem} {k : Nat}
    {c : Command} {w : World σ τ}
    (h : Begins job invoker sink commands (World.start s t files) k c w) :
    w.store.ids = (commands.take k).map Command.id := by
  obtain ⟨-, w₁, done, he, hd, hc⟩ := begins_iff.mp h
  rw [hd.ids, store_of_emit he, ← hc, List.map_map]
  rfl

theorem results_eq_none_iff {w : World σ τ} {id : String} :
    (scope job w).results id = none ↔ id ∉ w.store.ids :=
  Fields.get?_eq_none_iff

/-- What the command `cmd` with index `k` is checked against: it knows the ids of the commands
before it. -/
def commandContext (environ : Option (String → Option String)) (files : FileSystem)
    (base : Path) (p : Plan) (k : Nat) (cmd : Command) : Context :=
  Context.at ⟨"", [], declaredIds p.commands, environ, files, base⟩ p.commands k cmd

theorem mem_published_iff {environ : Option (String → Option String)} {files : FileSystem}
    {base : Path} {p : Plan} {k : Nat} {cmd : Command} {id : String} :
    id ∈ (commandContext environ files base p k cmd).published
      ↔ id ∈ (p.commands.take k).map Command.id := by
  simp [commandContext, Context.at]

/-- An id that occurs once does not occur before the command that has it. -/
theorem not_mem_take {commands : List Command} (hn : (commands.map Command.id).Nodup) {k : Nat}
    {c : Command} (hk : commands[k]? = some c) : c.id ∉ (commands.take k).map Command.id := by
  rw [List.map_take]
  intro hm
  obtain ⟨j, hj, hid⟩ := List.mem_take_iff_getElem.mp hm
  obtain ⟨hlt, hck⟩ := List.getElem?_eq_some_iff.mp hk
  have hlt' : k < (commands.map Command.id).length := by simpa using hlt
  have hkid : (commands.map Command.id)[k] = c.id := by simp [hck]
  have hjk : j = k := (List.getElem_inj hn).mp (hid.trans hkid.symm)
  omega

/-- A reference that dangles asks for a result that a run does not have. -/
theorem results_of_dangling {environ : Option (String → Option String)} {checked : FileSystem}
    {base : Path} {plan : Plan} (hn : (plan.commands.map Command.id).Nodup) {services : σ} {t : τ}
    {files : FileSystem} {k : Nat} {c : Command} {w : World σ τ}
    (hb : Begins job invoker sink plan.commands (World.start services t files) k c w)
    {r : Reference} (hd : Dangling (commandContext environ checked base plan k c) r) :
    (scope job w).results r.id = none := by
  rw [results_eq_none_iff, ids_of_begins hb]
  rcases hd.2 with ho | hp
  · rw [ho]
    exact not_mem_take hn hb.1
  · exact fun hm => hp (mem_published_iff.mpr hm)

/-! ## A plan with a forward reference -/

/-- A call that refers to the result of the one behind it. -/
def hasty : Command :=
  ⟨"object", "method", .record [("p", .text "\x7blater.x\x7d")], "sooner", []⟩

/-- The call that it refers to. -/
def later : Command :=
  ⟨"object", "method", .map [], "later", []⟩

/-- The document of a plan with two calls, as it is read. -/
def hastyDocument : Value :=
  .record [("commands", .list ([hasty, later].map fun c => .record [
    ("objectType", .text c.objectType), ("method", .text c.method), ("resultsID", .text c.id),
    ("params", c.params)]))]

/-- The plan that the document describes. -/
def hastyPlan : Plan := ⟨[hasty, later], [], none⟩

/-- What the check finds in it. -/
def hastyReport : Report :=
  ⟨[⟨.error, "reference.forward", "'later' is published later, by command 1",
    "$.commands[0].params.p"⟩], []⟩

theorem ofDocument_hastyDocument : ofDocument none hastyDocument = .ok hastyPlan := rfl

theorem checkReferences_hastyPlan :
    checkReferences none .empty (some ⟨.single, []⟩) hastyPlan = .ok hastyReport := by
  cbv

/-! ## No false alarms -/

/-- A text that is to blame does not resolve. -/
theorem exists_resolveText_eq_error {c : Context} {text : String} (hb : Blames c text)
    {scope : Scope} (hd : ∀ r, Dangling c r → scope.results r.id = none) :
    ∃ h, resolveText scope text = .error h := by
  cases hb with
  | @unreadable cause ht =>
      have hs : spliceText scope text = .error (.cause cause) :=
        spliceText_eq_error_iff.mpr ⟨(tokenize_eq_error ht).1, .inl ⟨cause, ht, rfl⟩⟩
      exact ⟨.cause cause, resolveText_eq_error_iff.mpr (.inl hs)⟩
  | @dangling ts r ht hr hdangling =>
      obtain ⟨cause, htarget⟩ := exists_target_eq_error hdangling.1 (hd r hdangling)
      exact exists_resolveText_eq_error_of_follow ht hr (follow_of_target_eq_error htarget)
  | @emptyPath cause hm hp =>
      have hs : spliceText scope text = .ok text := by simp [spliceText, hm]
      exact ⟨.cause cause, resolveText_eq_error_iff.mpr (.inr ⟨text, hs,
        bind_eq_error_iff.mpr (.inl (by rw [hp]; rfl))⟩)⟩

/-- The findings of a check are those about the texts of commands, each in its context. -/
theorem mem_issues_iff {environ : Option (String → Option String)} {files : FileSystem}
    {base : Option Path} {p : Plan} {report : Report}
    (h : checkReferences environ files base p = .ok report) :
    ∃ b issues, files.baseOr base = .ok b ∧ report = .ofIssues issues ∧ ∀ i, i ∈ issues ↔
      ∃ k cmd, p.commands[k]? = some cmd
        ∧ FoundIn (commandContext environ files b p k cmd) (texts (paramsPlace k) cmd.params) i := by
  obtain ⟨b, hb, h⟩ := bind_eq_ok_iff.mp h
  obtain ⟨issues, hf, h⟩ := bind_eq_ok_iff.mp h
  cases h
  refine ⟨b, issues, hb, rfl, fun i => ?_⟩
  have hmem := mem_commandsFindings_iff hf (i := i)
  simp only [Nat.zero_add] at hmem
  exact hmem

section

variable {source : Option Path} {v : Value} {plan : Plan}
  {environ : Option (String → Option String)} {checked : FileSystem} {base : Option Path}
  {report : Report} {i : Issue} {k : Nat} {s : String}

/-- An error about parameters of a command is about one of its texts. -/
theorem blames_of_error (hr : checkReferences environ checked base plan = .ok report)
    (hi : i ∈ report.errors) (hp : i.path = paramsPlace k ++ s) :
    ∃ b cmd place text, plan.commands[k]? = some cmd
      ∧ (place, text) ∈ texts (paramsPlace k) cmd.params
      ∧ Blames (commandContext environ checked b plan k cmd) text := by
  obtain ⟨b, issues, -, rfl, hissues⟩ := mem_issues_iff hr
  obtain ⟨hi, he⟩ := List.mem_filter.mp hi
  obtain ⟨j, cmd, hj, place, text, is, hm, ht, hi⟩ := (hissues i).mp hi
  obtain ⟨s', hs⟩ := exists_append_of_mem_texts hm
  have hk : k = j := eq_of_paramsPlace_append
    (hp.symm.trans ((path_of_mem_textIssues ht hi).trans hs))
  subst hk
  exact ⟨b, cmd, place, text, hj, hm, blames_of_mem_textIssues ht hi (by simpa using he)⟩

/-- A command that an error is about does not resolve when it begins, whatever the run. -/
theorem resolve_ne_ok_of_error (hv : ofDocument source v = .ok plan)
    (hr : checkReferences environ checked base plan = .ok report) (hi : i ∈ report.errors)
    (hp : i.path = paramsPlace k ++ s) {services : σ} {t : τ} {files : FileSystem}
    {c : Command} {w : World σ τ}
    (hb : Begins job invoker sink plan.commands (World.start services t files) k c w) (p : Value) :
    Template.resolve (scope job w) c.params ≠ .ok p := by
  obtain ⟨b, cmd, place, text, hk, hm, hblame⟩ := blames_of_error hr hi hp
  obtain rfl : c = cmd := Option.some.inj (hb.1.symm.trans hk)
  obtain ⟨h, ht⟩ := exists_resolveText_eq_error hblame fun r hd =>
    results_of_dangling (nodup_ids hv) hb hd
  have hsnd : text ∈ (leaves Place.top c.params).map Prod.snd := by
    rw [map_snd_leaves Place.top (paramsPlace k)]
    exact List.mem_map.mpr ⟨_, hm, rfl⟩
  obtain ⟨l, hl, rfl⟩ := List.mem_map.mp hsnd
  obtain ⟨h', hf⟩ := exists_resolve_eq_error hl ht
  simp [hf]

/-- A report with a failed outcome is that of a run that failed. -/
theorem ok_eq_false_of_mem {r : RunReport} {o : Outcome} (ho : o ∈ r.outcomes)
    (hf : o.status.failure?.isSome = true) : r.ok = false := by
  have hsome : r.failed?.isSome = true := List.find?_isSome.mpr ⟨o, ho, hf⟩
  simp only [RunReport.ok]
  cases hr : r.failed? with
  | none => simp [hr] at hsome
  | some o => rfl

/-- **Checking raises no false alarm.** If the check of a plan finds an error among the
parameters of command `k`, no run of the plan calls that command or one behind it, and none
reports success. -/
theorem never_called_of_error (hv : ofDocument source v = .ok plan)
    (hr : checkReferences environ checked base plan = .ok report) (hi : i ∈ report.errors)
    (hp : i.path = paramsPlace k ++ s) (job : Job) (invoker : Invoker σ) (sink : Sink τ)
    (runId : String) (services : σ) (t : τ) (files : FileSystem) :
    let run := submit job invoker.recorded sink runId plan.commands
      (World.start (services, []) t files)
    (∃ called, (after run).services.2 = callsOf called
      ∧ called.map Prod.fst <+: plan.commands ∧ called.length ≤ k)
    ∧ ∀ result w, run = .ok result w → result.ok = false := by
  have hnever {c : Command} {w : World (σ × List Call) τ}
      (hb : Begins job invoker.recorded sink plan.commands
        (World.start (services, []) t files) k c w) (p : Value) :
      Template.resolve (scope job w) c.params ≠ .ok p :=
    resolve_ne_ok_of_error hv hr hi hp hb p
  obtain ⟨-, cmd, -, -, hk, -, -⟩ := blames_of_error hr hi hp
  constructor
  · obtain ⟨called, hcalls, hprefix, hbegun⟩ := @exists_called _ _ job invoker sink runId
      plan.commands (World.start (services, []) t files) rfl
    refine ⟨called, hcalls, hprefix, Nat.le_of_not_lt fun hlt => ?_⟩
    obtain ⟨w, hb, hres⟩ := hbegun k _ _ (List.getElem?_eq_getElem hlt)
    exact hnever hb _ hres
  · intro result w hs
    obtain ⟨w₁, os, w₂, he, hperform, rfl, -⟩ := submit_eq_ok_iff.mp hs
    rcases performAll_eq_ok_iff.mp hperform with
      ⟨done, hd, hc, -⟩ | ⟨done, c, rest, w₃, f, -, -, -, rfl⟩
    · have hlt : k < done.length := by
        have := (List.getElem?_eq_some_iff.mp hk).1
        rwa [hc, List.length_map] at this
      rw [← List.append_nil (done.map Prod.fst)] at hc
      rw [hc] at he
      obtain ⟨w, hb, hres⟩ := Begins.of_mem he hd (List.getElem?_eq_getElem hlt)
      rw [← hc] at hb
      exact absurd hres (hnever hb _)
    · exact ok_eq_false_of_mem (List.mem_append_right _ (List.mem_cons_self ..)) rfl

/-- A plan with a forward reference never runs to its end. -/
theorem never_called_of_hasty :
    hastyReport.errors.length = 1
      ∧ ∀ result w, submit bareJob onceOnly.recorded Sink.memory "run" hastyPlan.commands
        (World.start (0, []) [] .empty) = .ok result w → result.ok = false :=
  ⟨rfl, (never_called_of_error (k := 0) (s := ".p") ofDocument_hastyDocument checkReferences_hastyPlan
    (List.mem_singleton_self _) (by cbv) bareJob onceOnly Sink.memory "run" 0 [] .empty).2⟩

end

/-! ## No missed errors -/

/-- Resolving parameters fails at the reference `r`: the texts before its own resolve, and so
do the tokens before it in its text. -/
def FailsAtReference (scope : Scope) (params : Value) (r : Reference) : Prop :=
  ∃ before place text rest h, leaves Place.top params = before ++ (place, text) :: rest
    ∧ (∀ l ∈ before, ∃ y, resolveText scope l.2 = .ok y)
    ∧ FailsAtToken scope text (.reference r) h

/-- Two first elements without a property are one. -/
theorem eq_of_first {α : Type} {P : α → Prop} {xs ys us vs : List α} {x y : α}
    (h : xs ++ x :: us = ys ++ y :: vs) (hxs : ∀ a ∈ xs, P a) (hys : ∀ a ∈ ys, P a)
    (hx : ¬ P x) (hy : ¬ P y) : x = y := by
  induction xs generalizing ys with
  | nil =>
      cases ys with
      | nil => exact (List.cons.inj h).1
      | cons b ys =>
          obtain ⟨rfl, -⟩ := List.cons.inj h
          exact absurd (hys x (List.mem_cons_self ..)) hx
  | cons a xs ih =>
      cases ys with
      | nil =>
          obtain ⟨rfl, -⟩ := List.cons.inj h
          exact absurd (hxs a (List.mem_cons_self ..)) hy
      | cons b ys =>
          obtain ⟨rfl, htail⟩ := List.cons.inj h
          exact ih htail (fun a ha => hxs a (List.mem_cons_of_mem _ ha))
            (fun a ha => hys a (List.mem_cons_of_mem _ ha))

theorem not_resolves_of_failsAtToken {scope : Scope} {text : String} {r : Reference}
    {h : Halt} (hat : FailsAtToken scope text (.reference r) h) :
    ¬ ∃ y, resolveText scope text = .ok y := by
  obtain ⟨ts, us, ht, -⟩ := id hat
  have hm : hasMarkers text = true := hasMarkers_of_mem (t := .reference r) ht (by simp) rfl
  have hs : spliceText scope text = .error h := spliceText_eq_error_iff.mpr ⟨hm, .inr ⟨_, hat⟩⟩
  have herr := resolveText_eq_error_iff.mpr (.inl hs)
  rintro ⟨y, hy⟩
  rw [herr] at hy
  cases hy

/-- Resolving fails at one reference only. -/
theorem FailsAtReference.unique {scope : Scope} {params : Value} {r r' : Reference}
    (h : FailsAtReference scope params r) (h' : FailsAtReference scope params r') : r = r' := by
  obtain ⟨before, place, text, rest, c, hl, hb, hat⟩ := h
  obtain ⟨before', place', text', rest', c', hl', hb', hat'⟩ := h'
  have hleaf : (place, text) = (place', text') :=
    eq_of_first (hl.symm.trans hl') hb hb' (not_resolves_of_failsAtToken hat)
      (not_resolves_of_failsAtToken hat')
  cases hleaf
  obtain ⟨ts, us, ht, hts, hs⟩ := hat
  obtain ⟨ts', us', ht', hts', hs'⟩ := hat'
  have htokens : ts ++ .reference r :: us = ts' ++ .reference r' :: us' :=
    Except.ok.inj (ht.symm.trans ht')
  have htoken : Token.reference r = .reference r' :=
    eq_of_first htokens hts hts' (by simp [hs]) (by simp [hs'])
  exact Token.reference.inj htoken

/-- Following references and delivering files fail with codes of their own. -/
theorem code_ne_of_mem {code : String} (h : code ∈ lookupCodes ∨ code ∈ deliveryCodes) :
    code ∉ syntaxCodes ∧ code ≠ "result.unpublished" := by
  have hall : ∀ code ∈ lookupCodes ++ deliveryCodes,
      code ∉ syntaxCodes ∧ code ≠ "result.unpublished" := by decide
  exact hall _ (List.mem_append.mpr h)

section

variable {source : Option Path} {v : Value} {plan : Plan}
  {environ : Option (String → Option String)} {checked : FileSystem} {base : Option Path}
  {report : Report} {k : Nat} {c : Command}

/-- The findings about a text of a command's parameters are in the report, at its place. -/
theorem mem_report_of_mem_textIssues
    (hr : checkReferences environ checked base plan = .ok report) {b : Path}
    (hbase : checked.baseOr base = .ok b) (hk : plan.commands[k]? = some c) {s text : String}
    (hm : (paramsPlace k ++ s, text) ∈ texts (paramsPlace k) c.params) {is : List Issue}
    (ht : textIssues (commandContext environ checked b plan k c) (paramsPlace k ++ s) text
      = .ok is) {i : Issue} (hi : i ∈ is) :
    i.path = paramsPlace k ++ s
      ∧ (i.severity = .error → i ∈ report.errors)
      ∧ (i.severity = .warning → i ∈ report.warnings) := by
  obtain ⟨b', issues, hbase', rfl, hissues⟩ := mem_issues_iff hr
  obtain rfl : b = b' := Except.ok.inj (hbase.symm.trans hbase')
  have hmem : i ∈ issues := (hissues i).mpr ⟨k, c, hk, _, text, is, hm, ht, hi⟩
  exact ⟨path_of_mem_textIssues ht hi, fun he => List.mem_filter.mpr ⟨hmem, by simpa using he⟩,
    fun hw => List.mem_filter.mpr ⟨hmem, by simpa using hw⟩⟩

/-- The check finds a reference whose result has not been published when its command begins: as
an error, or as a warning if its id depends on a variable. -/
theorem exists_idIssue_of_unpublished {services : σ} {t : τ} {files : FileSystem} {w : World σ τ}
    (hb : Begins job invoker sink plan.commands (World.start services t files) k c w)
    {r : Reference} {cause : Failure.Cause} (hu : Unpublished (scope job w) r cause)
    (b : Path) (place : String) :
    ∃ i, idIssue? (commandContext environ checked b plan k c) place r.id = some i
      ∧ (i.severity = .error
        ∨ '%' ∈ r.id.toList ∧ i.severity = .warning ∧ i.code = "reference.dynamic") := by
  obtain ⟨id, hid, hnone, -⟩ := hu
  by_cases hd : '%' ∈ r.id.toList
  · obtain ⟨i, hi, hw, hcode⟩ := exists_dynamic_idIssue? hd
    exact ⟨i, hi, .inr ⟨hd, hw, hcode⟩⟩
  · rw [expand_of_not_mem _ hd] at hid
    cases hid
    have hp : r.id ∉ (commandContext environ checked b plan k c).published := by
      rw [mem_published_iff, ← ids_of_begins hb]
      exact results_eq_none_iff.mp hnone
    obtain ⟨i, hi, he⟩ := exists_idIssue? hd hp
    exact ⟨i, hi, .inl he⟩

/-- A structural failure of resolution has been found by the check: as an error, or as a
warning about the reference where resolution fails. -/
theorem exists_issue_of_unresolved (hkeys : c.params.textKeyed = true)
    (hr : checkReferences environ checked base plan = .ok report) {services : σ} {t : τ}
    {files : FileSystem} {w : World σ τ}
    (hb : Begins job invoker sink plan.commands (World.start services t files) k c w) {f : Failure}
    (hf : Template.resolve (scope job w) c.params = .error (.failure f))
    (hc : f.code ∈ syntaxCodes ∨ f.code = "result.unpublished") :
    ∃ s, f.path = some (Place.top ++ s)
      ∧ ((∃ i ∈ report.errors, i.path = paramsPlace k ++ s)
        ∨ f.code = "result.unpublished"
          ∧ (∃ r, FailsAtReference (scope job w) c.params r ∧ '%' ∈ r.id.toList)
          ∧ ∃ i ∈ report.warnings, i.code = "reference.dynamic") := by
  have hdelivery : f.code ∉ deliveryCodes := fun hd =>
    absurd hc (not_or.mpr (code_ne_of_mem (.inr hd)))
  obtain ⟨before, place, text, rest, hl, hbefore, hsplice, hpath⟩ :=
    exists_spliceText_eq_error hf hdelivery
  have hm : (place, text) ∈ texts Place.top c.params := by
    rw [← leaves_eq_texts _ _ hkeys, hl]
    simp
  obtain ⟨s, rfl⟩ := exists_append_of_mem_texts hm
  have hmk : (paramsPlace k ++ s, text) ∈ texts (paramsPlace k) c.params :=
    mem_texts_append_iff.mp hm
  refine ⟨s, hpath, ?_⟩
  obtain ⟨b, -, hbase, -, -⟩ := mem_issues_iff hr
  obtain ⟨hmarkers, ⟨cause, ht, hcause⟩ | ⟨token, hat⟩⟩ := spliceText_eq_error_iff.mp hsplice
  · -- The check reads the text as the run does.
    have hissues : textIssues (commandContext environ checked b plan k c)
        (paramsPlace k ++ s) text = .ok [causeIssue (paramsPlace k ++ s) cause] := by
      simp [textIssues, ht]
    obtain ⟨hp, he, -⟩ :=
      mem_report_of_mem_textIssues hr hbase hb.1 hmk hissues (List.mem_singleton_self _)
    exact .inl ⟨_, he rfl, hp⟩
  · obtain ⟨ts, us, ht, hts, hs⟩ := id hat
    rcases nowhere_cause.mp (failsOnly_splice token _ hs) with ⟨r, rfl, hu⟩ | hlookup
    · have hissues := textIssues_of_hasMarkers hmarkers ht
        (commandContext environ checked b plan k c) (paramsPlace k ++ s)
      obtain ⟨i, hi, hkind⟩ := exists_idIssue_of_unpublished hb hu b (paramsPlace k ++ s)
      obtain ⟨hp, herror, hwarning⟩ := mem_report_of_mem_textIssues hr hbase hb.1 hmk hissues
        (List.mem_filterMap.mpr ⟨.reference r, by simp, hi⟩)
      rcases hkind with he | ⟨hd, hw, hcode⟩
      · exact .inl ⟨i, herror he, hp⟩
      · obtain ⟨id, -, -, hcause⟩ := hu
        have hunpublished : f.code = "result.unpublished" := by
          simp [Failure.code, hcause, Failure.Cause.code]
        exact .inr ⟨hunpublished, ⟨r, ⟨before, _, text, rest, _, hl, hbefore, hat⟩, hd⟩,
          i, hwarning hw, hcode⟩
    · obtain ⟨hns, hnu⟩ := code_ne_of_mem (.inl hlookup.code)
      exact absurd hc (not_or.mpr ⟨hns, hnu⟩)

/-- **Checking misses no structural error.** Where resolving a command's parameters fails in a
run because a directive cannot be read, or because of a reference to a result that is not
published and whose id is written out, the check has an error at the same place. If it finds
no error and no reference that depends on a variable, no run fails so. -/
theorem exists_error_of_unresolved (hkeys : v.textKeyed = true)
    (hv : ofDocument source v = .ok plan)
    (hr : checkReferences environ checked base plan = .ok report) (job : Job)
    (invoker : Invoker σ) (sink : Sink τ) (services : σ) (t : τ) (files : FileSystem) :
    (∀ k c w f s, Begins job invoker sink plan.commands (World.start services t files) k c w →
      Template.resolve (scope job w) c.params = .error (.failure f) →
      f.path = some (Place.top ++ s) →
      (f.code = "directive.malformed" ∨ f.code = "directive.unterminated"
        ∨ f.code = "result.unpublished"
          ∧ ∃ r, FailsAtReference (scope job w) c.params r ∧ '%' ∉ r.id.toList) →
      ∃ i ∈ report.errors, i.path = paramsPlace k ++ s)
    ∧ (report.errors = [] → (∀ i ∈ report.warnings, i.code ≠ "reference.dynamic") →
      ∀ k c w f, Begins job invoker sink plan.commands (World.start services t files) k c w →
        Template.resolve (scope job w) c.params = .error (.failure f) →
        f.code ≠ "directive.malformed" ∧ f.code ≠ "directive.unterminated"
          ∧ f.code ≠ "result.unpublished") := by
  have found {k : Nat} {c : Command} {w : World σ τ} {f : Failure}
      (hb : Begins job invoker sink plan.commands (World.start services t files) k c w)
      (hf : Template.resolve (scope job w) c.params = .error (.failure f))
      (hc : f.code ∈ syntaxCodes ∨ f.code = "result.unpublished") :=
    exists_issue_of_unresolved (textKeyed_params hkeys hv (List.mem_of_getElem? hb.1)) hr hb hf hc
  constructor
  · intro k c w f s hb hf hpath hcode
    have hc : f.code ∈ syntaxCodes ∨ f.code = "result.unpublished" := by
      rcases hcode with h | h | h
      · simp [h, syntaxCodes]
      · simp [h, syntaxCodes]
      · exact .inr h.1
    obtain ⟨s', hpath', herr | ⟨hu, ⟨r, hr, hd⟩, -⟩⟩ := found hb hf hc
    · rw [hpath] at hpath'
      rwa [(String.append_right_inj _).mp (Option.some.inj hpath')]
    · -- The reference that depends on a variable would be the one whose id is written out.
      rcases hcode with h | h | ⟨-, r', hr', hd'⟩
      · simp [h] at hu
      · simp [h] at hu
      · rw [hr'.unique hr] at hd'
        exact absurd hd hd'
  · intro herrors hwarnings k c w f hb hf
    have hnone : ¬ (f.code ∈ syntaxCodes ∨ f.code = "result.unpublished") := by
      intro hc
      obtain ⟨s, -, ⟨i, hi, -⟩ | ⟨-, -, i, hi, hcode⟩⟩ := found hb hf hc
      · rw [herrors] at hi
        cases hi
      · exact hwarnings i hi hcode
    simpa [syntaxCodes, not_or, and_assoc] using hnone

/-- The forward reference does not resolve, and the check has an error at its place. -/
theorem exists_error_of_hasty :
    Template.resolve (scope bareJob (World.start 0 ([] : List Event) .empty)) hasty.params
        = .error (.failure ⟨.unpublished "later", some "$.p"⟩)
      ∧ ∃ i ∈ hastyReport.errors, i.path = paramsPlace 0 ++ ".p" := by
  have hf : Template.resolve (scope bareJob (World.start 0 ([] : List Event) .empty)) hasty.params
      = .error (.failure ⟨.unpublished "later", some "$.p"⟩) := by
    cbv
  have hb : Begins bareJob onceOnly Sink.memory hastyPlan.commands
      (World.start 0 [] .empty) 0 hasty (World.start 0 [.runStarted 2] .empty) :=
    ⟨rfl, _, [], rfl, rfl, by simp⟩
  have ht : tokenize "\x7blater.x\x7d" = .ok ([] ++ .reference ⟨"later", "x", none⟩ :: []) := by
    cbv
  have hs : splice (scope bareJob (World.start 0 ([.runStarted 2] : List Event) .empty))
      (.reference ⟨"later", "x", none⟩) = .error (.cause (.unpublished "later")) := by
    cbv
  have hat : FailsAtReference (scope bareJob (World.start 0 ([.runStarted 2] : List Event) .empty))
      hasty.params ⟨"later", "x", none⟩ :=
    ⟨[], "$.p", _, [], _, rfl, by simp, [], [], ht, by simp, hs⟩
  exact ⟨hf, (exists_error_of_unresolved rfl ofDocument_hastyDocument checkReferences_hastyPlan
    bareJob onceOnly Sink.memory 0 [] .empty).1 0 hasty _ _ ".p" hb hf rfl
    (.inr (.inr ⟨rfl, _, hat, by decide⟩))⟩

end

end CallPlan.Run
