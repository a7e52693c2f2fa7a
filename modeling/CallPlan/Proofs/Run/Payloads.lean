import Mathlib.Data.String.Basic
import CallPlan.Proofs.Run.Checking
import CallPlan.Proofs.Template.Failures

/-!
# Payloads, checked and loaded

Loading a payload begins by asking for each of its paths whether something stands there, and
checking a plan asks the same of the paths that its texts name. The two differ in what they ask
and in what they make of the answers.

The check looks for paths in texts without markers only. What such a text fails with when it is
resolved, an empty path or a missing file, the check has found at its place
(`finding_of_payload_failure`). A text that is literal but has a marker all the same, an escaped
brace or a percent sign that belongs to no variable, is passed over.

Where asking fails, because a path is too long or a directory on it cannot be searched, loading
reports this as a failure like any other. The check does not: it ends at the first question that
fails and gives no report (`checkReferences_ends`). It ends in the same way at a key that cannot be
written, and before all questions where there is no directory that paths begin in.
-/

namespace CallPlan

open Sequencing

/-! ## What the check asks -/

namespace Plan

/-- The paths that a text names whatever is published, as far as the check looks for them: none
if the text has markers. -/
def fixedPaths (text : String) : List String :=
  if Template.hasMarkers text then [] else payloadPaths text

/-- What the check asks on its way through parameters. -/
inductive Question
  /-- Whether something stands at a path. -/
  | path (raw : String)
  /-- How a key is written. -/
  | key (k : Value)

/-- The check goes on where a question is answered, whatever the answer is. -/
def Question.ask (files : FileSystem) (base : Path) : Question → Except Fault Unit
  | .path raw => completion ((files.exists? ((Path.ofText raw).under base)).mapError .file)
  | .key k => if k.isWritable then .ok () else .error .longInteger

/-- What the check asks where resolving stops. -/
def questionsAt : Template.Stop → List Question
  | .text _ s => (fixedPaths s).map .path
  | .key k => [.key k]

/-- What the check asks of a plan, in its order. -/
def questions (p : Plan) : List Question :=
  p.commands.flatMap fun c => (Template.stops Place.top c.params).flatMap questionsAt

section

variable {c : Context}

theorem completion_fileIssues (place : String) (raws : List String) :
    completion ((fileIssues c place raws).mapError Fault.file) =
      passAll (Question.ask c.files c.base) (raws.map .path) := by
  induction raws with
  | nil => rfl
  | cons raw raws ih =>
      rw [List.map_cons, passAll, ← ih, Question.ask, fileIssues]
      cases c.files.exists? ((Path.ofText raw).under c.base) with
      | error e => rfl
      | ok there => cases fileIssues c place raws <;> rfl

theorem completion_payloadIssues (place text : String) :
    completion ((payloadIssues c place text).mapError Fault.file) =
      passAll (Question.ask c.files c.base) ((fixedPaths text).map .path) := by
  unfold payloadIssues fixedPaths payloadPaths
  split
  · rfl
  · split <;> rename_i hpaths
    · simp only [hpaths]
      rfl
    · simp only [hpaths]
      rfl
    · simp only [hpaths]
      exact completion_fileIssues place _

/-- Checking a text asks about the paths that it names. -/
theorem completion_textIssues (place text : String) :
    completion ((textIssues c place text).mapError Fault.file) =
      passAll (Question.ask c.files c.base) ((fixedPaths text).map .path) := by
  unfold textIssues
  split
  · next cause ht =>
    have hmarkers := (Template.tokenize_eq_error ht).1
    simp only [fixedPaths, hmarkers, if_true]
    rfl
  · next ts ht =>
    rw [← completion_payloadIssues place text]
    cases payloadIssues c place text <;> rfl

mutual

/-- Checking a value asks about its stops, whatever places these are given. -/
theorem completion_valueFindings (p q : String) (v : Value) :
    completion (valueFindings c p v) =
      passAll (Question.ask c.files c.base) ((Template.stops q v).flatMap questionsAt) := by
  cases v with
  | text s =>
      rw [Template.stops, List.flatMap_cons, List.flatMap_nil, List.append_nil, questionsAt,
        ← completion_textIssues p s, valueFindings]
  | list xs => exact completion_itemFindings p q 0 xs
  | tuple xs => exact completion_itemFindings p q 0 xs
  | map es => exact completion_entryFindings p q es
  | _ => rfl

theorem completion_itemFindings (p q : String) (n : Nat) (xs : List Value) :
    completion (itemFindings c p n xs) =
      passAll (Question.ask c.files c.base) ((Template.itemStops q n xs).flatMap questionsAt) := by
  cases xs with
  | nil => rfl
  | cons x xs =>
      rw [Template.itemStops, List.flatMap_append, passAll_append,
        ← completion_valueFindings (Place.item p n) (Place.item q n) x,
        ← completion_itemFindings p q (n + 1) xs, itemFindings]
      cases valueFindings c (Place.item p n) x with
      | error f => rfl
      | ok is => cases itemFindings c p (n + 1) xs <;> rfl

theorem completion_entryFindings (p q : String) (es : List (Value × Value)) :
    completion (entryFindings c p es) =
      passAll (Question.ask c.files c.base) ((Template.entryStops q es).flatMap questionsAt) := by
  cases es with
  | nil => rfl
  | cons e es =>
      obtain ⟨k, x⟩ := e
      rw [Template.entryStops, List.flatMap_cons, List.flatMap_append, passAll_append,
        passAll_append, ← completion_valueFindings (Place.field p k.plain) (Place.entry q k) x,
        ← completion_entryFindings p q es, questionsAt, passAll, Question.ask, entryFindings]
      split
      · cases valueFindings c (Place.field p k.plain) x with
        | error f => rfl
        | ok is => cases entryFindings c p es <;> rfl
      · rfl

end

theorem completion_commandsFindings (n : Nat) (cmds : List Command) :
    completion (commandsFindings c n cmds) = passAll (Question.ask c.files c.base)
      (cmds.flatMap fun cmd => (Template.stops Place.top cmd.params).flatMap questionsAt) := by
  -- Only the ids in the context change on the way, and these are not asked about.
  induction cmds generalizing c n with
  | nil => rfl
  | cons cmd cmds ih =>
      have hrest := ih (c := { c with published := cmd.id :: c.published }) (n + 1)
      have hfirst := completion_valueFindings (c := { c with own := cmd.id }) (paramsPlace n)
        Place.top cmd.params
      rw [List.flatMap_cons, passAll_append, ← hrest, ← hfirst, commandsFindings]
      cases valueFindings { c with own := cmd.id } (paramsPlace n) cmd.params with
      | error f => rfl
      | ok is =>
          cases commandsFindings { c with published := cmd.id :: c.published } (n + 1) cmds <;> rfl

end

/-- Checking a plan asks its questions in their order. -/
theorem completion_checkReferences (environ : Option (String → Option String))
    {files : FileSystem} {base : Option Path} {b : Path} (hb : files.baseOr base = .ok b)
    (plan : Plan) :
    completion (checkReferences environ files base plan) =
      passAll (Question.ask files b) plan.questions := by
  have h := completion_commandsFindings
    (c := ⟨"", [], declaredIds plan.commands, environ, files, b⟩) 0 plan.commands
  rw [questions, ← h, checkReferences, hb, ok_bind]
  cases commandsFindings ⟨"", [], declaredIds plan.commands, environ, files, b⟩ 0
    plan.commands <;> rfl

end Plan

/-! ## What loading reports -/

namespace Payload

variable {project : Project} {fs : FileSystem} {base : Path}

theorem existing_eq_error {raw : String} {h : Halt} (he : existing fs base raw = .error h) :
    (∃ e, h = .fault (.file e)) ∨ fs.exists? ((Path.ofText raw).under base) = .ok false := by
  rcases bind_eq_error_iff.mp he with he | ⟨there, hthere, he⟩
  · obtain ⟨e, -, rfl⟩ := mapError_eq_error_iff.mp he
    exact .inl ⟨e, rfl⟩
  · cases there with
    | false => exact .inr (mapError_eq_ok_iff.mp hthere)
    | true => cases he

/-- A failure to find files is about a file that is missing. -/
theorem exists_missing_of_allExisting {raws : List String} {c : Failure.Cause}
    (he : allExisting fs base raws = .error (.cause c)) :
    ∃ raw ∈ raws, fs.exists? ((Path.ofText raw).under base) = .ok false := by
  induction raws with
  | nil => cases he
  | cons raw raws ih =>
      rcases bind_eq_error_iff.mp he with he | ⟨p, -, he⟩
      · rcases existing_eq_error he with ⟨e, hfault⟩ | hmissing
        · cases hfault
        · exact ⟨raw, List.mem_cons_self .., hmissing⟩
      · rcases bind_eq_error_iff.mp he with he | ⟨ps, -, he⟩
        · obtain ⟨r, hr, hmissing⟩ := ih he
          exact ⟨r, List.mem_cons_of_mem _ hr, hmissing⟩
        · cases he

theorem existing_of_allExisting {raws : List String} {ps : List Path}
    (h : allExisting fs base raws = .ok ps) {raw : String} (hraw : raw ∈ raws) :
    ∃ p, existing fs base raw = .ok p := by
  induction raws generalizing ps with
  | nil => cases hraw
  | cons r raws ih =>
      obtain ⟨p, hp, h⟩ := bind_eq_ok_iff.mp h
      obtain ⟨qs, hqs, -⟩ := bind_eq_ok_iff.mp h
      rcases List.mem_cons.mp hraw with rfl | hraw
      · exact ⟨p, hp⟩
      · exact ih hqs hraw

theorem eq_unreadable_of_reported {f : Fault} {c : Failure.Cause}
    (h : reported (.fault f) = .cause c) : ∃ e, c = .payloadUnreadable e := by
  cases f with
  | file e =>
      simp only [reported] at h
      split at h
      · cases h
      · cases h
        exact ⟨e, rfl⟩
  | _ => cases h

/-- Packing never reports a file as missing. -/
theorem code_of_reported {h : Halt} (hh : OfPacking h) {c : Failure.Cause}
    (hr : reported h = .cause c) : c.code ≠ "payload.not_found" := by
  cases hh with
  | fault f =>
      obtain ⟨e, rfl⟩ := eq_unreadable_of_reported hr
      simp [Failure.Cause.code]
  | taken name =>
      cases hr
      simp [Failure.Cause.code]

/-- What loading reports as missing is. -/
theorem exists_missing_of_load {raws : List String} {c : Failure.Cause}
    (he : load project fs base raws = .error (.cause c)) (hcode : c.code = "payload.not_found") :
    ∃ raw ∈ raws, fs.exists? ((Path.ofText raw).under base) = .ok false := by
  obtain ⟨h, hbytes, hreported⟩ := mapError_eq_error_iff.mp he
  rcases bind_eq_error_iff.mp hbytes with hall | ⟨ps, -, hbytes⟩
  · cases h with
    | failure f =>
        cases hreported
        exact exists_missing_of_allExisting hall
    | fault f =>
        obtain ⟨e, rfl⟩ := eq_unreadable_of_reported hreported
        simp [Failure.Cause.code] at hcode
  · exact absurd hcode (code_of_reported (failsOnly_bytesOf ps _ hbytes) hreported)

/-- Where it cannot be told whether a file is there, loading reports a failure of resources. -/
theorem exists_load_eq_error {raws : List String} {raw : String} (hraw : raw ∈ raws)
    {e : FileError} (he : fs.exists? ((Path.ofText raw).under base) = .error e) :
    ∃ c, load project fs base raws = .error (.cause c) ∧ c.kind = .resource := by
  cases hall : allExisting fs base raws with
  | ok ps =>
      obtain ⟨p, hp⟩ := existing_of_allExisting hall hraw
      obtain ⟨there, hthere, -⟩ := bind_eq_ok_iff.mp hp
      rw [he] at hthere
      cases hthere
  | error h =>
      obtain ⟨c, hreported, -⟩ := reportable_allExisting hall
      have hload : load project fs base raws = .error (.cause c) :=
        mapError_eq_error_iff.mpr ⟨h, bind_eq_error_iff.mpr (.inl hall), hreported⟩
      exact ⟨c, hload, failsOnly_load raws _ hload c rfl⟩

end Payload

namespace Template

variable {scope : Scope} {text : String}

theorem resolveText_of_unmarked (h : hasMarkers text = false) :
    resolveText scope text = deliver scope text := by
  simp only [resolveText, spliceText, h]
  rfl

/-- A text that names files is delivered as loading them goes. -/
theorem deliver_of_paths {raws : List String} {base : Path}
    (hpaths : Payload.paths? text = .ok (some raws)) (hbase : scope.base = .ok base) :
    deliver scope text = (Payload.load scope.project scope.files base raws).map .bytes := by
  rw [deliver, hpaths, hbase]
  show (Payload.load scope.project scope.files base raws >>= fun bytes =>
    pure (Value.bytes bytes)) = _
  cases Payload.load scope.project scope.files base raws <;> rfl

/-- Delivering fails where the text names an empty path, or as loading does. -/
theorem deliver_eq_failure {f : Failure} (h : deliver scope text = .error (.failure f)) :
    (∃ c, Payload.paths? text = .error c ∧ f.code = "payload.empty_path")
      ∨ ∃ base raws c, scope.base = .ok base ∧ Payload.paths? text = .ok (some raws)
        ∧ Payload.load scope.project scope.files base raws = .error (.cause c)
        ∧ f.code = c.code ∧ c.code ∈ Payload.loadCodes := by
  rcases bind_eq_error_iff.mp h with h | ⟨paths, hpaths, h⟩
  · obtain ⟨c, hc, he⟩ := mapError_eq_error_iff.mp h
    cases he
    refine .inl ⟨c, hc, ?_⟩
    rw [Payload.paths?_eq_error hc]
    rfl
  · cases paths with
    | none => cases h
    | some raws =>
        rcases bind_eq_error_iff.mp h with h | ⟨base, hbase, h⟩
        · obtain ⟨_, -, he⟩ := mapError_eq_error_iff.mp h
          cases he
        rcases bind_eq_error_iff.mp h with h | ⟨bytes, -, h⟩
        · rcases Payload.load_eq_error h with ⟨c, hc, hcode⟩ | ⟨_, -, hfault⟩
          · cases hc
            exact .inr ⟨base, raws, c, mapError_eq_ok_iff.mp hbase, mapError_eq_ok_iff.mp hpaths,
              h, rfl, hcode⟩
          · cases hfault
        · cases h

end Template

/-! ## What the check finds -/

namespace Plan

variable {c : Context}

/-- The check warns of every file that is missing. -/
theorem exists_warning_of_missing {place : String} {raws : List String} {issues : List Issue}
    (h : fileIssues c place raws = .ok issues) {raw : String} (hraw : raw ∈ raws)
    (hmissing : c.files.exists? ((Path.ofText raw).under c.base) = .ok false) :
    ∃ i ∈ issues, i.severity = .warning ∧ i.code = "payload.missing" := by
  induction raws generalizing issues with
  | nil => cases hraw
  | cons r raws ih =>
      obtain ⟨there, hthere, h⟩ := bind_eq_ok_iff.mp h
      obtain ⟨rest, hrest, h⟩ := bind_eq_ok_iff.mp h
      cases h
      rcases List.mem_cons.mp hraw with rfl | hraw
      · obtain rfl : there = false := Except.ok.inj (hthere.symm.trans hmissing)
        exact ⟨_, List.mem_cons_self .., rfl, rfl⟩
      · obtain ⟨i, hi, hfound⟩ := ih hrest hraw
        refine ⟨i, ?_, hfound⟩
        split
        · exact hi
        · exact List.mem_cons_of_mem _ hi

/-- Of a literal text only the payload is looked at. -/
theorem textIssues_of_literal {place text : String} {ts : List Token}
    (ht : Template.tokenize text = .ok ts) (hliteral : ∀ t ∈ ts, t.isLiteral = true) :
    textIssues c place text = payloadIssues c place text := by
  have hnone : ts.filterMap (tokenIssue? c place) = [] := by
    rw [List.filterMap_eq_nil_iff]
    intro t hmem
    cases t with
    | literal s => rfl
    | env name braced => cases hliteral _ hmem
    | reference r => cases hliteral _ hmem
  simp only [textIssues, ht, hnone]
  cases payloadIssues c place text <;> rfl

end Plan

namespace Run

open Plan Template

section

variable {environ : Option (String → Option String)} {plan : Plan} {report : Report}
  {k : Nat} {c : Command} {place text : String}

/-- A check that gives a report has looked at every text. -/
theorem exists_textIssues {checked : FileSystem} {base : Option Path} {b : Path}
    (hr : checkReferences environ checked base plan = .ok report)
    (hbase : checked.baseOr base = .ok b) (hk : plan.commands[k]? = some c)
    (hleaf : (place, text) ∈ texts (paramsPlace k) c.params) :
    ∃ is, textIssues (commandContext environ checked b plan k c) place text = .ok is := by
  have hall : passAll (Question.ask checked b) plan.questions = .ok () := by
    rw [← completion_checkReferences environ hbase, hr]
    rfl
  have hsnd : text ∈ (leaves Place.top c.params).map Prod.snd := by
    rw [map_snd_leaves Place.top (paramsPlace k)]
    exact List.mem_map.mpr ⟨_, hleaf, rfl⟩
  obtain ⟨⟨place', text⟩, hleaf', rfl⟩ := List.mem_map.mp hsnd
  have hasked : passAll (Question.ask checked b) ((fixedPaths text).map .path) = .ok () := by
    refine passAll_eq_ok_iff.mpr fun q hq => passAll_eq_ok_iff.mp hall q ?_
    exact List.mem_flatMap.mpr ⟨c, List.mem_of_getElem? hk,
      List.mem_flatMap.mpr ⟨_, mem_leaves_iff.mp hleaf', hq⟩⟩
  have hissues := (completion_textIssues (c := commandContext environ checked b plan k c)
    place text).trans hasked
  obtain ⟨is, his, -⟩ := map_eq_ok_iff.mp hissues
  exact ⟨is, mapError_eq_ok_iff.mp his⟩

/-- **What the check says of payloads.** Let a literal text among the parameters of a command not
resolve. If the text has no markers, the check has found at its place that it names an empty path,
where that is the failure, or that a file is missing, where that is. If it has markers all the same,
the check finds nothing about it. -/
theorem finding_of_payload_failure {scope : Scope} {base : Option Path} {ts : List Token}
    {f : Failure} (hbase : scope.base = scope.files.baseOr base)
    (hr : checkReferences environ scope.files base plan = .ok report)
    (hk : plan.commands[k]? = some c) (hleaf : (place, text) ∈ texts (paramsPlace k) c.params)
    (ht : tokenize text = .ok ts) (hliteral : ∀ t ∈ ts, t.isLiteral = true)
    (hf : resolveText scope text = .error (.failure f)) :
    (hasMarkers text = false →
      (f.code = "payload.empty_path" →
        ∃ i ∈ report.errors, i.code = "payload.empty_path" ∧ i.path = place)
      ∧ (f.code = "payload.not_found" →
        ∃ i ∈ report.warnings, i.code = "payload.missing" ∧ i.path = place))
    ∧ (hasMarkers text = true → ∃ b, scope.base = .ok b
      ∧ textIssues (commandContext environ scope.files b plan k c) place text = .ok []) := by
  obtain ⟨b, -, hb, -, -⟩ := mem_issues_iff hr
  obtain ⟨is, his⟩ := exists_textIssues hr hb hk hleaf
  have hpayload := (textIssues_of_literal ht hliteral).symm.trans his
  constructor
  · intro hm
    obtain ⟨s, rfl⟩ := exists_append_of_mem_texts hleaf
    rw [payloadIssues, if_neg (by simp [hm])] at hpayload
    rw [resolveText_of_unmarked hm] at hf
    rcases deliver_eq_failure hf with
      ⟨cause, hpaths, hcode⟩ | ⟨b', raws, cause, hb', hpaths, hload, hcode, hown⟩
    · -- The one finding is the failure itself.
      simp only [hpaths] at hpayload
      cases hpayload
      constructor
      · intro _
        obtain ⟨hp, herror, -⟩ := mem_report_of_mem_textIssues hr hb hk hleaf his
          (List.mem_singleton_self _)
        refine ⟨_, herror rfl, ?_, hp⟩
        rw [Payload.paths?_eq_error hpaths]
        rfl
      · intro hmissing
        exact absurd (hcode.symm.trans hmissing) (by decide)
    · simp only [hpaths] at hpayload
      constructor
      · intro hempty
        rw [← hcode, hempty] at hown
        exact absurd hown (by decide)
      · intro hmissing
        obtain rfl : b = b' := Except.ok.inj (hb.symm.trans (hbase.symm.trans hb'))
        obtain ⟨raw, hraw, hnone⟩ := Payload.exists_missing_of_load hload (hcode ▸ hmissing)
        obtain ⟨i, hi, hwarning, hkind⟩ := exists_warning_of_missing hpayload hraw hnone
        obtain ⟨hp, -, hreported⟩ := mem_report_of_mem_textIssues hr hb hk hleaf his hi
        exact ⟨i, hreported hwarning, hkind, hp⟩
  · intro hm
    refine ⟨b, hbase.trans hb, ?_⟩
    rw [textIssues_of_literal ht hliteral, payloadIssues, if_pos hm]

end

/-! ## Payloads that are not there -/

/-- A scope without results, variables and files. -/
def vacantScope : Scope :=
  ⟨fun _ => none, fun _ => none, .empty, .ok ⟨.single, []⟩, .shipped⟩

/-- A call with two parameters. -/
def payloadCall (first second : String) : Command :=
  ⟨"object", "method", .record [("x", .text first), ("y", .text second)], "a", []⟩

/-- The document of a plan with such a call, as it is read. -/
def payloadDocument (first second : String) : Value :=
  .record [("commands", .list [.record [
    ("objectType", .text "object"), ("method", .text "method"), ("resultsID", .text "a"),
    ("params", (payloadCall first second).params)]])]

/-- The plan that the document describes. -/
def payloadPlan (first second : String) : Plan :=
  ⟨[payloadCall first second], [], none⟩

theorem ofDocument_payloadDocument (first second : String) :
    ofDocument none (payloadDocument first second) = .ok (payloadPlan first second) := rfl

theorem texts_payloadCall (first second : String) :
    texts (paramsPlace 0) (payloadCall first second).params =
      [("$.commands[0].params.x", first), ("$.commands[0].params.y", second)] := rfl

/-- Of two literal texts the check looks at the payloads. -/
theorem checkReferences_payloadPlan {environ : Option (String → Option String)}
    {files : FileSystem} {base : Path} {first second : String} {ts us : List Token}
    (hfirst : tokenize first = .ok ts) (hts : ∀ t ∈ ts, t.isLiteral = true)
    (hsecond : tokenize second = .ok us) (hus : ∀ t ∈ us, t.isLiteral = true) :
    let c := commandContext environ files base (payloadPlan first second) 0
      (payloadCall first second)
    checkReferences environ files (some base) (payloadPlan first second) = (do
      let is ← (payloadIssues c "$.commands[0].params.x" first).mapError .file
      let js ← (payloadIssues c "$.commands[0].params.y" second).mapError .file
      return Report.ofIssues (is ++ js)) := by
  intro c
  have hparams : valueFindings c (paramsPlace 0) (payloadCall first second).params = (do
      let is ← (textIssues c "$.commands[0].params.x" first).mapError .file
      let rest ← (do
        let js ← (textIssues c "$.commands[0].params.y" second).mapError .file
        let rest ← Except.ok []
        return js ++ rest)
      return is ++ rest) := rfl
  show (valueFindings c (paramsPlace 0) (payloadCall first second).params >>= fun is =>
    pure (is ++ [])) >>= (fun issues => pure (Report.ofIssues issues)) = _
  rw [hparams, textIssues_of_literal hfirst hts, textIssues_of_literal hsecond hus]
  cases payloadIssues c "$.commands[0].params.x" first with
  | error e => rfl
  | ok is =>
      cases payloadIssues c "$.commands[0].params.y" second with
      | error e => rfl
      | ok js =>
          show Except.ok (Report.ofIssues (is ++ (js ++ []) ++ [])) = _
          rw [List.append_nil, List.append_nil]
          rfl

/-- What the check finds where a file is missing and a path is empty. -/
def goneReport : Report :=
  ⟨[⟨.error, "payload.empty_path", "<b|>", "$.commands[0].params.y"⟩],
    [⟨.warning, "payload.missing", "/gone.js does not exist", "$.commands[0].params.x"⟩]⟩

/-- A missing file and an empty path, each of which is found. -/
theorem finding_of_payload_failure_gone :
    (∃ i ∈ goneReport.warnings, i.code = "payload.missing" ∧ i.path = "$.commands[0].params.x")
      ∧ ∃ i ∈ goneReport.errors, i.code = "payload.empty_path" ∧ i.path = "$.commands[0].params.y" := by
  have hfirst : tokenize "<gone.js>" = .ok [.literal "<gone.js>"] := by cbv
  have hsecond : tokenize "<b|>" = .ok [.literal "<b|>"] := by cbv
  have hreport : checkReferences none vacantScope.files (some ⟨.single, []⟩)
      (payloadPlan "<gone.js>" "<b|>") = .ok goneReport := by
    rw [checkReferences_payloadPlan hfirst (by decide) hsecond (by decide)]
    rfl
  have hgone : resolveText vacantScope "<gone.js>" =
      .error (.cause (.payloadMissing ⟨.single, ["gone.js"]⟩)) := rfl
  have hempty : resolveText vacantScope "<b|>" = .error (.cause (.emptyPath "<b|>")) := rfl
  constructor
  · exact ((finding_of_payload_failure rfl hreport rfl
      (texts_payloadCall "<gone.js>" "<b|>" ▸ List.mem_cons_self ..) hfirst (by decide) hgone).1
      (by decide)).2 rfl
  · exact ((finding_of_payload_failure rfl hreport rfl
      (texts_payloadCall "<gone.js>" "<b|>" ▸ List.mem_cons_of_mem _ (List.mem_cons_self ..))
      hsecond (by decide) hempty).1 (by decide)).1 rfl

/-- A literal text with a percent sign names a file that is missing, and the check of its plan
finds nothing. -/
theorem checkReferences_percent :
    ofDocument none (payloadDocument "<100%>" "") = .ok (payloadPlan "<100%>" "")
      ∧ ("$.commands[0].params.x", "<100%>") ∈ texts (paramsPlace 0) (payloadCall "<100%>" "").params
      ∧ tokenize "<100%>" = .ok [.literal "<100%>"]
      ∧ (∃ f, resolveText vacantScope "<100%>" = .error (.failure f) ∧ f.code = "payload.not_found")
      ∧ checkReferences none vacantScope.files (some ⟨.single, []⟩) (payloadPlan "<100%>" "")
        = .ok ⟨[], []⟩ := by
  have hfirst : tokenize "<100%>" = .ok [.literal "<100%>"] := by cbv
  have hsecond : tokenize "" = .ok [] := by cbv
  have hgone : resolveText vacantScope "<100%>" =
      .error (.cause (.payloadMissing ⟨.single, ["100%"]⟩)) := by
    rw [resolveText, spliceText, if_pos (by decide), hfirst]
    rfl
  have hreport : checkReferences none vacantScope.files (some ⟨.single, []⟩)
      (payloadPlan "<100%>" "") = .ok ⟨[], []⟩ := by
    rw [checkReferences_payloadPlan hfirst (by decide) hsecond (by decide)]
    rfl
  exact ⟨ofDocument_payloadDocument _ _, texts_payloadCall "<100%>" "" ▸ List.mem_cons_self ..,
    hfirst, ⟨_, hgone, rfl⟩, hreport⟩

/-! ## Whether the check gives a report -/

/-- **Where the check ends without a report.** Where there is no directory that paths begin in, the
check ends with that fault. Where there is one, it gives a report exactly if each of its questions
is answered, and otherwise ends as the first does that is not. A text that names a path about which
the question is not answered does not end a run in this way: it does not resolve, with a failure of
resources. -/
theorem checkReferences_ends (environ : Option (String → Option String)) (files : FileSystem)
    (base : Option Path) (plan : Plan) :
    (∀ f, files.baseOr base = .error f → checkReferences environ files base plan = .error f)
    ∧ ∀ b, files.baseOr base = .ok b →
      ((∃ report, checkReferences environ files base plan = .ok report) ↔
        ∀ q ∈ plan.questions, q.ask files b = .ok ())
      ∧ (∀ f, checkReferences environ files base plan = .error f ↔
        ∃ before q behind, plan.questions = before ++ q :: behind
          ∧ (∀ q ∈ before, q.ask files b = .ok ()) ∧ q.ask files b = .error f)
      ∧ ∀ scope : Scope, scope.files = files → scope.base = .ok b → ∀ text raw e,
        raw ∈ fixedPaths text → files.exists? ((Path.ofText raw).under b) = .error e →
          ∃ c, resolveText scope text = .error (.cause c) ∧ c.kind = .resource := by
  refine ⟨fun f hf => by rw [checkReferences, hf]; rfl, fun b hb => ⟨?_, fun f => ?_, ?_⟩⟩
  · rw [← passAll_eq_ok_iff, ← completion_checkReferences environ hb]
    cases checkReferences environ files base plan <;> simp [completion, Except.map]
  · rw [← passAll_eq_error_iff, ← completion_checkReferences environ hb,
      completion_eq_error_iff]
  · rintro scope rfl hbase text raw e hraw he
    unfold fixedPaths at hraw
    split at hraw
    · cases hraw
    · next hm =>
      unfold payloadPaths at hraw
      split at hraw
      · next raws hpaths =>
        obtain ⟨c, hload, hkind⟩ := Payload.exists_load_eq_error hraw he
        refine ⟨c, ?_, hkind⟩
        rw [resolveText_of_unmarked (by simpa using hm), deliver_of_paths hpaths hbase, hload]
        rfl
      · cases hraw

/-! ## A name that is too long -/

theorem pieces_of_not_mem {separator : Char} {cs : List Char} (h : separator ∉ cs) :
    Path.pieces separator cs = [cs] := by
  induction cs with
  | nil => rfl
  | cons c cs ih =>
      obtain ⟨hc, hcs⟩ := not_or.mp (List.mem_cons.not.mp h)
      rw [Path.pieces, if_neg (Ne.symm hc), ih hcs]

/-- A name of as many letters as a number says. -/
def lettersName (n : Nat) : String :=
  String.ofList (List.replicate n 'a')

/-- The text that names a file by it. -/
def lettersText (n : Nat) : String :=
  "<" ++ lettersName n ++ ">"

section

variable {n : Nat}

theorem toList_lettersName : (lettersName n).toList = List.replicate n 'a' :=
  String.toList_ofList

theorem utf8ByteSize_lettersName : (lettersName n).utf8ByteSize = n := by
  rw [lettersName, String.utf8ByteSize_ofList]
  induction n with
  | zero => rfl
  | succ n ih =>
      rw [List.replicate_succ, String.utf8Len_cons, ih]
      rfl

theorem paths?_lettersText (hn : n ≠ 0) :
    Payload.paths? (lettersText n) = .ok (some [lettersName n]) := by
  have hinside : Payload.inside? (lettersText n).toList = some (List.replicate n 'a') := by
    simp [lettersText, Payload.inside?, toList_lettersName, hn]
  have htrimmed : Text.trimmed (List.replicate n 'a') = List.replicate n 'a' := by
    simp [Text.trimmed, show Text.isBlank 'a' = false by decide]
  simp only [Payload.paths?, hinside]
  rw [pieces_of_not_mem (by simp)]
  simp [htrimmed, hn, lettersName]

theorem fixedPaths_lettersText (hn : n ≠ 0) : fixedPaths (lettersText n) = [lettersName n] := by
  have hm : hasMarkers (lettersText n) = false := by
    simp [hasMarkers, lettersText, toList_lettersName]
  simp [fixedPaths, hm, payloadPaths, paths?_lettersText hn]

theorem questions_lettersText (hn : n ≠ 0) : (payloadPlan (lettersText n) "").questions =
    [.key (.text "x"), .path (lettersName n), .key (.text "y")] := by
  have hempty : fixedPaths "" = [] := by decide
  show [Question.key (.text "x")] ++ ((fixedPaths (lettersText n)).map .path ++
    (.key (.text "y") :: ((fixedPaths "").map .path ++ []))) ++ [] = _
  rw [fixedPaths_lettersText hn, hempty]
  rfl

theorem ofText_lettersName (hn : n ≠ 0) :
    Path.ofText (lettersName n) = ⟨.relative, [lettersName n]⟩ := by
  obtain ⟨m, rfl⟩ := Nat.exists_eq_succ_of_ne_zero hn
  simp only [Path.ofText, toList_lettersName]
  rw [pieces_of_not_mem (by simp)]
  simp [lettersName, List.replicate_succ]

/-- The path as a whole is not too long, but the name is. -/
theorem exists?_lettersName (hname : 255 < n) (hpath : n < 4095) :
    vacantScope.files.exists? ((Path.ofText (lettersName n)).under ⟨.single, []⟩) =
      .error ⟨.nameTooLong, ⟨.single, [lettersName n]⟩⟩ := by
  have hunder : (Path.ofText (lettersName n)).under ⟨.single, []⟩ = ⟨.single, [lettersName n]⟩ := by
    rw [ofText_lettersName (by omega)]
    rfl
  have htext : Path.text ⟨.single, [lettersName n]⟩ = "/" ++ lettersName n := by
    simp [Path.text, Path.joined]
    rfl
  have hnull : '\x00' ∉ ("/" ++ lettersName n).toList := by
    simp [toList_lettersName]
  have hshort : ("/" ++ lettersName n).utf8ByteSize < 4096 := by
    have hslash : "/".utf8ByteSize = 1 := by decide
    rw [String.utf8ByteSize_append, utf8ByteSize_lettersName]
    omega
  have hrefusal : FileSystem.refusal? ⟨.single, [lettersName n]⟩ = none := by
    rw [FileSystem.refusal?, htext, if_neg hnull, if_neg (by omega)]
  have hup : lettersName n ≠ ".." := by
    intro h
    have hsize := utf8ByteSize_lettersName (n := n)
    have hdots : "..".utf8ByteSize = 2 := by decide
    rw [h] at hsize
    omega
  rw [hunder]
  refine FileSystem.test_eq_error_iff.mpr ⟨?_, rfl⟩
  simp [FileSystem.locate, hrefusal, FileSystem.walk, FileSystem.start, FileSystem.at?,
    Path.isAbsolute, hup, utf8ByteSize_lettersName, hname, Except.mapError, vacantScope,
    FileSystem.empty]

end

/-- Of a name of 256 letters the check gives no report, and a run fails with an error of its
own. -/
theorem checkReferences_ends_longName :
    (¬ ∃ report, checkReferences none vacantScope.files (some ⟨.single, []⟩)
      (payloadPlan (lettersText 256) "") = .ok report)
    ∧ ∃ c, resolveText vacantScope (lettersText 256) = .error (.cause c) ∧ c.kind = .resource := by
  have hask := exists?_lettersName (n := 256) (by decide) (by decide)
  obtain ⟨hreport, -, hrun⟩ := (checkReferences_ends none vacantScope.files (some ⟨.single, []⟩)
    (payloadPlan (lettersText 256) "")).2 _ rfl
  constructor
  · rw [hreport, questions_lettersText (by decide)]
    intro hall
    have hnamed := hall (.path (lettersName 256)) (by simp)
    rw [Question.ask, hask] at hnamed
    cases hnamed
  · refine hrun vacantScope rfl rfl (lettersText 256) (lettersName 256) _ ?_ hask
    rw [fixedPaths_lettersText (by decide)]
    exact List.mem_singleton_self _

/-- The document with this name is accepted, and the check of its plan ends with the error of the
operating system. -/
theorem checkReferences_longName :
    ofDocument none (payloadDocument (lettersText 256) "") = .ok (payloadPlan (lettersText 256) "")
      ∧ checkReferences none vacantScope.files (some ⟨.single, []⟩) (payloadPlan (lettersText 256) "")
        = .error (.file ⟨.nameTooLong, ⟨.single, [lettersName 256]⟩⟩) := by
  refine ⟨ofDocument_payloadDocument _ _, ?_⟩
  have hbase : vacantScope.files.baseOr (some ⟨.single, []⟩) = .ok ⟨.single, []⟩ := rfl
  have hasked := completion_checkReferences none hbase (payloadPlan (lettersText 256) "")
  rw [questions_lettersText (by decide), passAll, passAll, Question.ask, Question.ask,
    exists?_lettersName (by decide) (by decide)] at hasked
  exact completion_eq_error_iff.mp hasked

end Run

end CallPlan
