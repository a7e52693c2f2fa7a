import Mathlib
import CallPlan.Proofs.Json.Reading
import CallPlan.Proofs.Run.Checking

/-!
# When a run returns

A run keeps failures for its report, but a fault ends it without one. Neither calling nor
publishing raises a fault, and comparing raises one only over an expected value without canonical
text (`verify_eq_fault_iff`). So a run of a plan from a file returns exactly if none of its commands
faults: their parameters resolve or fail, and those that are answered expect only values that have
canonical text (`submit_returns_iff`).
-/

namespace CallPlan

open Sequencing

/-! ## Faults of comparing -/

namespace Expectation

/-- Comparing takes the canonical texts of what is expected, in their order. -/
theorem completion_compare (expected : List (Value × Value)) (result : Value) :
    completion (compare expected result) =
      passAll (fun x => completion (Canonical.text x.2)) expected := by
  induction expected with
  | nil => rfl
  | cons x expected ih =>
      obtain ⟨name, want⟩ := x
      rw [passAll, ← ih, compare]
      cases Canonical.text want with
      | error e => rfl
      | ok wanted => cases compare expected result <;> rfl

/-- The first expected value without canonical text has none for the reason `e`. -/
def Inexpressible (expected : List (Value × Value)) (e : Canonical.Error) : Prop :=
  ∃ before x rest, expected = before ++ x :: rest
    ∧ (∀ y ∈ before, ∃ s, Canonical.text y.2 = .ok s) ∧ Canonical.text x.2 = .error e

theorem compare_eq_error_iff {expected : List (Value × Value)} {result : Value}
    {e : Canonical.Error} : compare expected result = .error e ↔ Inexpressible expected e := by
  rw [← completion_eq_error_iff, completion_compare, passAll_eq_error_iff]
  simp only [completion, map_eq_error_iff, map_eq_ok_iff, and_true, Inexpressible]

/-- Mismatches have the names of expected properties. -/
theorem exists_of_mem_compare {expected : List (Value × Value)} {result : Value}
    {ms : List Mismatch} (h : compare expected result = .ok ms) {m : Mismatch} (hm : m ∈ ms) :
    ∃ x ∈ expected, m.name = x.1 := by
  induction expected generalizing ms with
  | nil => cases h; cases hm
  | cons x expected ih =>
      obtain ⟨name, want⟩ := x
      obtain ⟨wanted, -, h⟩ := bind_eq_ok_iff.mp h
      obtain ⟨rest, hr, h⟩ := bind_eq_ok_iff.mp h
      cases h
      rcases List.mem_append.mp hm with hm | hm
      · refine ⟨_, List.mem_cons_self .., ?_⟩
        unfold mismatch? at hm
        split at hm
        · simp only [Option.toList_some, List.mem_singleton] at hm
          rw [hm]
        · simp only at hm
          split at hm
          · cases hm
          · simp only [Option.toList_some, List.mem_singleton] at hm
            rw [hm]
      · obtain ⟨x, hx, he⟩ := ih hr hm
        exact ⟨x, List.mem_cons_of_mem _ hx, he⟩

/-- Where the names of expected properties are texts, the only fault of comparing is that an
expected value has no canonical text. -/
theorem verify_eq_fault_iff {id : String} {expected : List (Value × Value)} {result : Value}
    {f : Fault} (hnames : ∀ x ∈ expected, x.1.kind = .text) :
    verify id expected result = .error (.fault f) ↔
      ∃ e, f = .canonical e ∧ Inexpressible expected e := by
  rw [verify]
  cases hc : compare expected result with
  | error e =>
      have hfirst := compare_eq_error_iff.mp hc
      constructor
      · rintro ⟨⟩
        exact ⟨e, rfl, hfirst⟩
      · rintro ⟨e', rfl, hfirst'⟩
        obtain rfl : e = e' :=
          Except.error.inj (hc.symm.trans (compare_eq_error_iff.mpr hfirst'))
        rfl
  | ok ms =>
      have hnone : ¬ ∃ e, f = .canonical e ∧ Inexpressible expected e := by
        rintro ⟨e, -, hfirst⟩
        have herror : compare expected result = .error e := compare_eq_error_iff.mpr hfirst
        cases hc.symm.trans herror
      have hall : ms.all (·.name.kind = .text) = true := by
        refine List.all_eq_true.mpr fun m hm => ?_
        obtain ⟨x, hx, hn⟩ := exists_of_mem_compare hc hm
        simp [hn, hnames x hx]
      refine iff_of_false ?_ hnone
      cases ms with
      | nil => exact nofun
      | cons m ms =>
          simp only [hall, if_true]
          exact nofun

end Expectation

/-! ## Faults of a run -/

/-- The sink returns from every event. -/
def Sink.Returns {τ : Type} (sink : Sink τ) : Prop :=
  ∀ e s, ∃ s', sink.emit e s = .ok () s'

theorem Sink.returns_memory : Sink.memory.Returns :=
  fun e s => ⟨(s.1 ++ [e], s.2), rfl⟩

namespace Run

variable {σ τ : Type} {job : Job} {invoker : Invoker σ} {sink : Sink τ}

theorem emit_ne_error_of_returns (hs : sink.Returns) {e : Event} {w w' : World σ τ} {h : Halt} :
    emit sink e w ≠ .error h w' := by
  obtain ⟨s', he⟩ := hs e (w.sink, w.files)
  simp [emit, he]

theorem exists_emit_of_returns (hs : sink.Returns) (e : Event) (w : World σ τ) :
    ∃ w', emit sink e w = .ok () w' := by
  cases he : emit sink e w with
  | ok u w' => exact ⟨w', rfl⟩
  | error h w' => exact absurd he (emit_ne_error_of_returns hs)

theorem skip_ne_error (hs : sink.Returns) {n : Nat} {cs : List Command} {w w' : World σ τ}
    {h : Halt} : skip sink n cs w ≠ .error h w' := by
  intro hskip
  obtain ⟨e, w₁, he⟩ := exists_emit_of_skip_eq_error hskip
  exact emit_ne_error_of_returns hs he

/-- The command `c`, which begins in `w`, is called and answered. -/
def Answered (job : Job) (invoker : Invoker σ) (c : Command) (w : World σ τ) : Prop :=
  ∃ p r s, Template.resolve (scope job w) c.params = .ok p
    ∧ invoker.invoke c.objectType c.method p w.services = .ok r s

/-- A call reports whatever it ends with. -/
theorem reported_ne_fault {capability : String} {h : Halt} {f : Fault} :
    reported capability h ≠ .fault f := by
  cases h <;> simp [reported, Halt.cause]

/-- The command `c`, which begins in `w`, ends the run without a report: its parameters neither
resolve nor fail, or it is answered and has an expected value without canonical text. -/
inductive Faults (job : Job) (invoker : Invoker σ) (c : Command) (w : World σ τ) : Fault → Prop
  | unresolved {f : Fault}
      (resolved : Template.resolve (scope job w) c.params = .error (.fault f)) :
      Faults job invoker c w f
  | inexpressible {e : Canonical.Error} (answered : Answered job invoker c w)
      (expected : Expectation.Inexpressible c.expected e) :
      Faults job invoker c w (.canonical e)

theorem Faults.of_halts (hs : sink.Returns) {n : Nat} {c : Command}
    (hnames : ∀ x ∈ c.expected, x.1.kind = .text) {w w' : World σ τ} {f : Fault}
    (h : Halts job invoker sink n c w (.fault f) w') : Faults job invoker c w f := by
  cases h with
  | unresolved hp => exact .unresolved hp
  | untold _ he => exact absurd he (emit_ne_error_of_returns hs)
  | uncalled _ _ hc =>
      obtain ⟨h', s, -, hr, -⟩ := call_eq_error_iff.mp hc
      exact absurd hr.symm reported_ne_fault
  | unpublished _ _ _ hu =>
      obtain ⟨-, hf, -⟩ := publish_eq_error_iff.mp hu
      cases hf
  | unexpected hp he hc _ hv =>
      obtain ⟨s, hi, -⟩ := call_eq_ok_iff.mp hc
      rw [services_of_emit he] at hi
      obtain ⟨e, rfl, hfirst⟩ := (Expectation.verify_eq_fault_iff hnames).mp hv
      exact .inexpressible ⟨_, _, _, hp, hi⟩ hfirst

/-- Conversely, a command with a free id that faults stops with its fault. -/
theorem Faults.halts (hs : sink.Returns) (n : Nat) {c : Command}
    (hnames : ∀ x ∈ c.expected, x.1.kind = .text) {w : World σ τ} (hfree : c.id ∉ w.store.ids)
    {f : Fault} (h : Faults job invoker c w f) :
    ∃ w', Halts job invoker sink n c w (.fault f) w' := by
  cases h with
  | unresolved hp => exact ⟨w, .unresolved hp⟩
  | inexpressible ha hfirst =>
      obtain ⟨p, r, s, hp, hi⟩ := ha
      obtain ⟨w₁, he⟩ := exists_emit_of_returns hs (.commandStarted n c.id c.capability p.summary) w
      rw [← services_of_emit he] at hi
      have hc := call_eq_ok_iff.mpr ⟨s, hi, rfl⟩
      have hfree₁ : w₁.store.get? c.id = none := by
        rw [store_of_emit he]
        exact Fields.get?_eq_none_iff.mpr hfree
      have hu : publish c.id r { w₁ with services := s } = .ok () _ :=
        publish_eq_ok_iff.mpr ⟨hfree₁, rfl⟩
      exact ⟨_, .unexpected hp he hc hu
        ((Expectation.verify_eq_fault_iff hnames).mpr ⟨_, rfl, hfirst⟩)⟩

/-! ## A plan that expects an undefined number -/

/-- A plan file whose only call expects an undefined number. -/
def undefinedText : String :=
  "\x7b\"commands\": [\x7b\"objectType\": \"S3\", \"method\": \"getObject\", " ++
    "\"resultsID\": \"a\", \"expectedResults\": \x7b\"n\": NaN\x7d\x7d]\x7d"

/-- The files with one plan file. -/
def planFiles (bytes : List UInt8) : FileSystem :=
  { FileSystem.empty with entries := [(["plan.json"], .file 0o644 bytes)] }

theorem read_planFiles (bytes : List UInt8) :
    (planFiles bytes).read (.ofText "plan.json") = .ok bytes := by
  have hparts : (Path.ofText "plan.json").parts = ["plan.json"] := by cbv
  have hstart : (planFiles bytes).start (.ofText "plan.json") = [] := by cbv
  have hrefusal : FileSystem.refusal? (.ofText "plan.json") = none := by cbv
  have hat : (planFiles bytes).at? ["plan.json"] = some (.file 0o644 bytes) := by
    simp [planFiles, FileSystem.at?, Fields.get?]
  have hsize : "plan.json".utf8ByteSize = 9 := by cbv
  have hwalk : (planFiles bytes).walk [] ["plan.json"] = .ok ["plan.json"] := by
    simp [FileSystem.walk, FileSystem.at?, Fields.get?, planFiles, FileSystem.empty, hsize]
  have hforbids (l : Location) (r : Right) : (planFiles bytes).forbids l r = false := rfl
  simp [FileSystem.read, FileSystem.stat, hforbids, FileSystem.locate, hrefusal, hstart, hparts,
    hwalk, Except.mapError, hat, bind, Except.bind]

theorem readDocument_planFiles {bytes : List UInt8} {v : Value}
    (h : Plan.jsonDocument bytes = .ok v) :
    Plan.readDocument (planFiles bytes) (.ofText "plan.json") = .ok v := by
  have hsuffix : Text.lower (Path.ofText "plan.json").suffix ≠ ".toml" := by
    decide
  simp only [Plan.readDocument, read_planFiles, if_neg hsuffix, h]
  rfl

/-- The call. -/
def undefinedCall : Command :=
  ⟨"S3", "getObject", .map [], "a", [(.text "n", .float .nan)]⟩

/-- The document in the file. -/
def undefinedDocument : Value :=
  .record [("commands", .list [.record [
    ("objectType", .text "S3"), ("method", .text "getObject"), ("resultsID", .text "a"),
    ("expectedResults", .record [("n", .float .nan)])]])]

set_option maxRecDepth 4000 in
theorem decodeText_undefinedText :
    Text.Utf8.decodeText (Text.Utf8.encode undefinedText) = .ok undefinedText := by
  cbv

set_option maxRecDepth 4000 in
theorem ofText_undefinedText :
    (Json.ofText undefinedText).map Value.ofJson = .ok undefinedDocument := by
  cbv

theorem jsonDocument_undefinedText :
    Plan.jsonDocument (Text.Utf8.encode undefinedText) = .ok undefinedDocument :=
  (Plan.jsonDocument_of_decodeText decodeText_undefinedText).trans ofText_undefinedText

theorem ofDocument_undefinedDocument :
    Plan.ofDocument none undefinedDocument = .ok ⟨[undefinedCall], [], none⟩ := by
  cbv

/-- The run of the plan, with a service that answers. -/
def undefinedRun : EStateM.Result Halt (World Nat (List Event)) RunReport :=
  submit bareJob onceOnly Sink.memory "run" [undefinedCall] (World.start 0 [] .empty)

/-! ## Whole runs -/

theorem prepend_eq_ok_iff {ω : Type} {os os' : List Outcome} {w : ω}
    {r : EStateM.Result Halt ω (List Outcome)} :
    prepend os r = .ok os' w ↔ ∃ os₁, r = .ok os₁ w ∧ os' = os ++ os₁ := by
  cases r with
  | ok os₁ w₁ =>
      simp only [prepend, EStateM.Result.ok.injEq]
      constructor
      · rintro ⟨rfl, rfl⟩
        exact ⟨os₁, ⟨rfl, rfl⟩, rfl⟩
      · rintro ⟨_, ⟨rfl, rfl⟩, rfl⟩
        exact ⟨rfl, rfl⟩
  | error h w₁ => simp [prepend]

/-- A run that returns has gone on from where a command begins, and reports what came of it
behind the commands before it. -/
theorem Begins.performAll_of_submit {commands : List Command} {w₀ w w₁ : World σ τ} {k : Nat}
    {c : Command} {runId : String} {report : RunReport}
    (hb : Begins job invoker sink commands w₀ k c w₁)
    (h : submit job invoker sink runId commands w₀ = .ok report w) :
    ∃ os w₂, performAll job invoker sink k (c :: commands.drop (k + 1)) w₁ = .ok os w₂
      ∧ report.outcomes = okOutcomes job 0 (commands.take k) ++ os := by
  obtain ⟨w₂, os, w₃, he, hall, rfl, -⟩ := submit_eq_ok_iff.mp h
  obtain ⟨w₂', he', hrest⟩ := hb.performAll_eq
  obtain rfl : w₂ = w₂' := by
    rw [he] at he'
    cases he'
    rfl
  rw [hrest] at hall
  obtain ⟨os₁, hcons, rfl⟩ := prepend_eq_ok_iff.mp hall
  exact ⟨os₁, w₃, hcons, rfl⟩

/-- A command that begins and fails has its failure in the report. -/
theorem status_of_failure {commands : List Command} {w₀ w w₁ w₂ : World σ τ} {k : Nat}
    {c : Command} {f : Failure} {runId : String} {report : RunReport}
    (hb : Begins job invoker sink commands w₀ k c w₁)
    (hp : perform job invoker sink k c w₁ = .error (.failure f) w₂)
    (h : submit job invoker sink runId commands w₀ = .ok report w) :
    report.outcomes[k]?.map Outcome.status = some (.failed f) := by
  obtain ⟨os, w₃, hcons, houtcomes⟩ := hb.performAll_of_submit h
  have hk : (okOutcomes job 0 (commands.take k)).length = k := by
    have := (List.getElem?_eq_some_iff.mp hb.1).1
    simp
    omega
  rcases performAll_cons_eq_ok_iff.mp hcons with ⟨p, r, w₆, -, -, hperforms, -⟩ | ⟨f', ha, rfl⟩
  · rw [perform_eq_ok_iff.mpr ⟨p, r, hperforms⟩] at hp
    cases hp
  · obtain ⟨hh, -, -⟩ := ha
    rw [perform_eq_error_iff.mpr hh] at hp
    cases hp
    rw [houtcomes, List.getElem?_append_right (by omega), hk, Nat.sub_self]
    rfl

section

variable {docs : FileSystem} {path : Path} {source : Option Path} {v : Value} {plan : Plan}

/-- The names of properties that a plan from a file expects are texts. -/
theorem kind_name_of_readDocument (hread : Plan.readDocument docs path = .ok v)
    (hv : Plan.ofDocument source v = .ok plan) {c : Command} (hc : c ∈ plan.commands) :
    ∀ x ∈ c.expected, x.1.kind = .text := fun _ =>
  Plan.kind_name_of_mem_expected (Plan.textKeyed_of_readDocument hread) hv hc

/-- A run of a plan from a file that does not return has been ended by a command that faults. -/
theorem exists_faults_of_error (hread : Plan.readDocument docs path = .ok v)
    (hv : Plan.ofDocument source v = .ok plan) (hs : sink.Returns) {runId : String}
    {w₀ w : World σ τ} {h : Halt}
    (herror : submit job invoker sink runId plan.commands w₀ = .error h w) :
    ∃ k c w₁ f, Begins job invoker sink plan.commands w₀ k c w₁ ∧ Faults job invoker c w₁ f
      ∧ h = .fault f := by
  rcases submit_eq_error_iff.mp herror with he | ⟨w₁, he, hall | ⟨os, w₂, -, hf⟩⟩
  · exact absurd he (emit_ne_error_of_returns hs)
  · obtain ⟨done, c, rest, w₂, hd, hbreak, hc⟩ := performAll_eq_error hall
    have hnames := kind_name_of_readDocument hread hv (c := c) (by simp [hc])
    rw [hc] at he ⊢
    cases hbreak with
    | faulted hh => exact ⟨_, c, w₂, _, .intro he hd, .of_halts hs hnames hh, rfl⟩
    | uncompleted _ ht => exact absurd ht (emit_ne_error_of_returns hs)
    | unreported _ ht => exact absurd ht (emit_ne_error_of_returns hs)
    | unskipped _ _ hskip => exact absurd hskip (skip_ne_error hs)
  · exact absurd hf (emit_ne_error_of_returns hs)

/-- A command of a plan that begins and faults ends the run. -/
theorem submit_ne_ok_of_faults (hread : Plan.readDocument docs path = .ok v)
    (hv : Plan.ofDocument source v = .ok plan) (hs : sink.Returns) {services : σ} {t : τ}
    {files : FileSystem} {k : Nat} {c : Command} {w₁ : World σ τ}
    (hb : Begins job invoker sink plan.commands (World.start services t files) k c w₁)
    {f : Fault} (hf : Faults job invoker c w₁ f) {runId : String} {report : RunReport}
    {w : World σ τ} :
    submit job invoker sink runId plan.commands (World.start services t files) ≠ .ok report w := by
  intro h
  have hfree : c.id ∉ w₁.store.ids := by
    rw [ids_of_begins hb]
    exact not_mem_take (Plan.nodup_ids hv) hb.1
  have hnames := kind_name_of_readDocument hread hv (List.mem_of_getElem? hb.1)
  obtain ⟨w₂, hh⟩ := hf.halts hs k hnames hfree
  obtain ⟨os, w₃, hcons, -⟩ := hb.performAll_of_submit h
  have hbreak : Breaks job invoker sink k c (plan.commands.drop (k + 1)) w₁ (.fault f) w₂ :=
    .faulted hh
  rw [performAll_cons_eq_error_iff.mpr (.inr hbreak)] at hcons
  cases hcons

/-- **When a run returns.** A run of a plan from a file, with a sink that returns, gives a report
exactly if none of the commands that begin faults. The report then holds every failure, and the end
of the run is the last that is told. Otherwise the run is ended by the fault of such a command. -/
theorem submit_returns_iff (hread : Plan.readDocument docs path = .ok v)
    (hv : Plan.ofDocument source v = .ok plan) (hs : sink.Returns) (job : Job)
    (invoker : Invoker σ) (runId : String) (services : σ) (t : τ) (files : FileSystem) :
    let start := World.start services t files
    let run := submit job invoker sink runId plan.commands start
    ((∃ report w, run = .ok report w) ↔
      ∀ k c w, Begins job invoker sink plan.commands start k c w →
        ∀ f, ¬ Faults job invoker c w f)
    ∧ (∀ report w, run = .ok report w →
      (∃ w₁, emit sink (.runFinished report.ok report.results.ids) w₁ = .ok () w)
        ∧ ∀ k c w₁ f w₂, Begins job invoker sink plan.commands start k c w₁ →
          perform job invoker sink k c w₁ = .error (.failure f) w₂ →
          report.outcomes[k]?.map Outcome.status = some (.failed f))
    ∧ ∀ h w, run = .error h w →
      ∃ k c w₁ f, Begins job invoker sink plan.commands start k c w₁
        ∧ Faults job invoker c w₁ f ∧ h = .fault f := by
  refine ⟨⟨?_, ?_⟩, ?_, fun h w => exists_faults_of_error hread hv hs⟩
  · rintro ⟨report, w, h⟩ k c w₁ hb f hf
    exact submit_ne_ok_of_faults hread hv hs hb hf h
  · intro hall
    cases h : submit job invoker sink runId plan.commands (World.start services t files) with
    | ok report w => exact ⟨report, w, rfl⟩
    | error halt w =>
        obtain ⟨k, c, w₁, f, hb, hf, -⟩ := exists_faults_of_error hread hv hs h
        exact absurd hf (hall k c w₁ hb f)
  · intro report w h
    refine ⟨?_, fun k c w₁ f w₂ hb hp => status_of_failure hb hp h⟩
    obtain ⟨w₁, os, w₂, -, -, rfl, hf⟩ := submit_eq_ok_iff.mp h
    exact ⟨w₂, hf⟩

end

/-- The run of the plan gives no report. -/
theorem submit_returns_iff_undefinedRun : ¬ ∃ report w, undefinedRun = .ok report w := by
  intro hreturns
  have hread := readDocument_planFiles jsonDocument_undefinedText
  have hall := (submit_returns_iff hread ofDocument_undefinedDocument Sink.returns_memory
    bareJob onceOnly "run" 0 [] .empty).1.mp hreturns
  have hb : Begins bareJob onceOnly Sink.memory [undefinedCall] (World.start 0 [] .empty) 0
      undefinedCall (World.start 0 [.runStarted 1] .empty) :=
    ⟨rfl, _, [], rfl, rfl, by simp⟩
  exact hall 0 undefinedCall _ hb (.canonical .notFinite)
    (.inexpressible ⟨_, _, _, rfl, rfl⟩ ⟨[], _, [], rfl, by simp, rfl⟩)

/-- The fault that ends it. -/
theorem undefinedRun_eq_error :
    ∃ w, undefinedRun = .error (.fault (.canonical .notFinite)) w :=
  ⟨_, rfl⟩

end Run

end CallPlan
