import Mathlib.Logic.Function.Basic
import CallPlan.Proofs.Run.Prefix
import CallPlan.Proofs.Template.Dependence

/-!
# Exchanging neighbours

If the services answer each call by a function of what is called and with which parameters, then
all that a command depends on is the results it asks for. So in a run that is ok, two neighbours
may change places if the second does not ask for the result of the first (`submit_exchange`). That
the first does not ask for the result of the second need not be said: it has been resolved before
that result was there.

`Performable` says what it takes for a command to succeed, and `Adds` what it leaves. Neither
looks at the sink or the services, and both see of the results only what each id leads to.
-/

namespace CallPlan

open Sequencing

variable {σ τ : Type}

/-- What a call ends with is a function of the object type, the method and the parameters. -/
def Invoker.Answers (invoker : Invoker σ)
    (answer : (objectType method : String) → Value → Except Halt Value) : Prop :=
  ∀ objectType method params s,
    ending (invoker.invoke objectType method params s) = answer objectType method params

theorem Invoker.Answers.recorded {invoker : Invoker σ}
    {answer : (objectType method : String) → Value → Except Halt Value}
    (h : invoker.Answers answer) : invoker.recorded.Answers answer := by
  intro objectType method params s
  rw [← h objectType method params s.1, Invoker.recorded]
  simp only
  cases invoker.invoke objectType method params s.1 <;> rfl

/-- The sink leaves the files alone, and a run survives every error that it raises. -/
structure Sink.Harmless (sink : Sink τ) : Prop where
  files : sink.SparesFiles
  ordinary : ∀ e s h s', sink.emit e s = .error h s' → Run.isOrdinary h = true

theorem Sink.harmless_memory : Sink.memory.Harmless := by
  refine ⟨sparesFiles_memory, ?_⟩
  rintro e ⟨told, files⟩ h s' he
  cases he

namespace Run

open Template

variable {job : Job} {invoker : Invoker σ} {sink : Sink τ}
  {answer : (objectType method : String) → Value → Except Halt Value}

/-! ## What a command takes and leaves -/

/-- In `w` the command `c` can succeed, with parameters `p` and result `r`. -/
structure Performable (job : Job)
    (answer : (objectType method : String) → Value → Except Halt Value) (c : Command)
    (p r : Value) (w : World σ τ) : Prop where
  resolved : Template.resolve (scope job w) c.params = .ok p
  answered : answer c.objectType c.method p = .ok r
  free : w.store.get? c.id = none
  verified : Expectation.verify c.id c.expected r = .ok ()

/-- The second world has the files of the first, and beside its results `r` under `id`. -/
structure Adds (id : String) (r : Value) (w w' : World σ τ) : Prop where
  files : w'.files = w.files
  results : w'.store.get? = Function.update w.store.get? id (some r)

/-- The worlds have the same files and lead to the same results. -/
structure SameView (w v : World σ τ) : Prop where
  files : w.files = v.files
  results : w.store.get? = v.store.get?

theorem SameView.scope_eq {w v : World σ τ} (h : SameView w v) : scope job w = scope job v := by
  rw [scope, scope, h.files, h.results]

theorem SameView.adds {id : String} {r : Value} {w w' v v' : World σ τ} (h : SameView w v)
    (hw : Adds id r w w') (hv : Adds id r v v') : SameView w' v' := by
  refine ⟨?_, ?_⟩
  · rw [hw.files, hv.files, h.files]
  · rw [hw.results, hv.results, h.results]

theorem Performable.of_view {c : Command} {p r : Value} {w v : World σ τ}
    (hc : Performable job answer c p r w) (h : SameView w v) : Performable job answer c p r v := by
  obtain ⟨hresolved, hanswered, hfree, hverified⟩ := hc
  refine ⟨?_, hanswered, ?_, hverified⟩
  · rwa [← h.scope_eq]
  · rwa [← h.results]

/-- Times do not matter for a command. -/
theorem Performable.timed {c : Command} {p r : Value} {w : World σ τ}
    (hc : Performable job answer c p r w) (elapsed : Nat → Nat) :
    Performable (job.timed elapsed) answer c p r w :=
  ⟨hc.resolved, hc.answered, hc.free, hc.verified⟩

theorem exists_emit_of_harmless (hsink : sink.Harmless) (e : Event) (w : World σ τ) :
    ∃ t, emit sink e w = .ok () { w with sink := t } := by
  have hfiles := hsink.files e (w.sink, w.files)
  cases he : sink.emit e (w.sink, w.files) with
  | ok u s =>
      obtain ⟨t, fs⟩ := s
      rw [he] at hfiles
      obtain rfl : fs = w.files := hfiles
      exact ⟨t, by simp [emit, he]⟩
  | error h s =>
      obtain ⟨t, fs⟩ := s
      rw [he] at hfiles
      obtain rfl : fs = w.files := hfiles
      exact ⟨t, by simp [emit, he, hsink.ordinary _ _ _ _ he]⟩

theorem results_push {s : Store} {id : String} {r : Value} (h : s.get? id = none) :
    (s.push id r h).get? = Function.update s.get? id (some r) := by
  funext other
  rw [Store.get?_publish (Store.publish_of_get?_eq_none h r), Function.update_apply]
  simp only [eq_comm]

/-- A command that succeeds could, and has published its result. -/
theorem Performs.performable (hinvoker : invoker.Answers answer) (hsink : sink.Harmless) {n : Nat}
    {c : Command} {p r : Value} {w w' : World σ τ} (h : Performs job invoker sink n c p r w w') :
    Performable job answer c p r w ∧ Adds c.id r w w' := by
  obtain ⟨hp, ht, hc, hu, hv⟩ := h
  obtain ⟨t, ht'⟩ := exists_emit_of_harmless hsink (.commandStarted n c.id c.capability p.summary) w
  cases ht.symm.trans ht'
  obtain ⟨s, hi, rfl⟩ := call_eq_ok_iff.mp hc
  obtain ⟨hfree, rfl⟩ := publish_eq_ok_iff.mp hu
  refine ⟨⟨hp, ?_, hfree, hv⟩, rfl, results_push hfree⟩
  rw [← hinvoker c.objectType c.method p w.services, hi, ending]

/-- A command that could succeed does so. -/
theorem Performable.exists_performs (hinvoker : invoker.Answers answer) (hsink : sink.Harmless)
    {c : Command} {p r : Value} {w : World σ τ} (h : Performable job answer c p r w) (n : Nat) :
    ∃ w', Performs job invoker sink n c p r w w' := by
  obtain ⟨hp, ha, hfree, hv⟩ := h
  obtain ⟨t, ht⟩ := exists_emit_of_harmless hsink (.commandStarted n c.id c.capability p.summary) w
  have hi := hinvoker c.objectType c.method p w.services
  rw [ha] at hi
  cases hcall : invoker.invoke c.objectType c.method p w.services with
  | error e s =>
      rw [hcall] at hi
      cases hi
  | ok r' s =>
      rw [hcall] at hi
      cases hi
      exact ⟨_, .intro hp ht (call_eq_ok_iff.mpr ⟨s, hcall, rfl⟩)
        (publish_eq_ok_iff.mpr ⟨hfree, rfl⟩) hv⟩

/-! ## Rows of commands that succeed -/

section

variable {w w' v : World σ τ} {n : Nat} {c : Command} {p : Value} {done : List (Command × Value)}

theorem Completes.exists_performable (hinvoker : invoker.Answers answer) (hsink : sink.Harmless)
    (h : Completes job invoker sink n ((c, p) :: done) w w') :
    ∃ r w₁, Performable job answer c p r w ∧ Adds c.id r w w₁
      ∧ Completes job invoker sink (n + 1) done w₁ w' := by
  cases h with
  | @cons _ _ _ r _ _ w₁ w₂ _ hp he hd =>
      obtain ⟨hc, hadds⟩ := hp.performable hinvoker hsink
      obtain ⟨t, he'⟩ := exists_emit_of_harmless hsink (.commandCompleted n c.id (job.elapsed n)) w₁
      cases he.symm.trans he'
      exact ⟨r, { w₁ with sink := t }, hc, ⟨hadds.files, hadds.results⟩, hd⟩

theorem Performable.exists_completes (hinvoker : invoker.Answers answer) (hsink : sink.Harmless)
    {r : Value} (h : Performable job answer c p r w) (n : Nat) :
    ∃ w₁, Adds c.id r w w₁ ∧ ∀ done w', Completes job invoker sink (n + 1) done w₁ w' →
      Completes job invoker sink n ((c, p) :: done) w w' := by
  obtain ⟨w₁, hp⟩ := h.exists_performs hinvoker hsink n
  obtain ⟨-, hadds⟩ := hp.performable hinvoker hsink
  obtain ⟨t, he⟩ := exists_emit_of_harmless hsink (.commandCompleted n c.id (job.elapsed n)) w₁
  exact ⟨{ w₁ with sink := t }, ⟨hadds.files, hadds.results⟩, fun done w' hd => .cons hp he hd⟩

/-- Commands that succeed in one world do so in every world with the same view. -/
theorem Completes.of_view (hinvoker : invoker.Answers answer) (hsink : sink.Harmless)
    (elapsed : Nat → Nat) (h : Completes job invoker sink n done w w') (hs : SameView w v) :
    ∃ v', Completes (job.timed elapsed) invoker sink n done v v' ∧ SameView w' v' := by
  induction done generalizing n w v with
  | nil =>
      cases h
      exact ⟨v, .nil, hs⟩
  | cons d done ih =>
      obtain ⟨c, p⟩ := d
      obtain ⟨r, w₁, hc, hw, hd⟩ := h.exists_performable hinvoker hsink
      obtain ⟨v₁, hv, hcons⟩ := ((hc.of_view hs).timed elapsed).exists_completes hinvoker hsink n
      obtain ⟨v', hd', hs'⟩ := ih hd (hs.adds hw hv)
      exact ⟨v', hcons _ _ hd', hs'⟩

end

/-! ## Neighbours -/

section

variable {a b : Command} {p q ra rb : Value} {w w₁ : World σ τ}

/-- What does not ask for a result resolves without it. -/
theorem Performable.of_adds (hb : Performable job answer b q rb w₁) (ha : Adds a.id ra w w₁)
    (hask : ¬ Asks (scope job w) b.params a.id) : Performable job answer b q rb w := by
  obtain ⟨hresolved, hanswered, hfree, hverified⟩ := hb
  have hscope : scope job w₁ = withResults (scope job w) w₁.store.get? := by
    rw [scope, ha.files]
    rfl
  refine ⟨?_, hanswered, ?_, hverified⟩
  · rw [hscope, resolve_withResults] at hresolved
    · exact hresolved
    · intro id hid
      have hne : id ≠ a.id := fun h => hask (h ▸ hid)
      rw [ha.results, Function.update_of_ne hne]
      rfl
  · by_cases hid : b.id = a.id
    · rw [ha.results, hid, Function.update_self] at hfree
      cases hfree
    · rwa [ha.results, Function.update_of_ne hid] at hfree

/-- What has resolved still does beside a result that was not there. -/
theorem Performable.after_adds (hc : Performable job answer a p ra w) {v : World σ τ}
    (hb : Adds b.id rb w v) (hfree : w.store.get? b.id = none) (hne : a.id ≠ b.id) :
    Performable job answer a p ra v := by
  obtain ⟨hresolved, hanswered, hfreea, hverified⟩ := hc
  have hscope : scope job v = withResults (scope job w) v.store.get? := by
    rw [scope, hb.files]
    rfl
  refine ⟨?_, hanswered, ?_, hverified⟩
  · rw [hscope, resolve_withResults, hresolved]
    intro id hid
    have hid' : id ≠ b.id := fun h => results_ne_none_of_asks hresolved hid (h ▸ hfree)
    rw [hb.results, Function.update_of_ne hid']
    rfl
  · rwa [hb.results, Function.update_of_ne hne]

/-- Two commands that succeed one after the other do so the other way round. -/
theorem Completes.exchange (hinvoker : invoker.Answers answer) (hsink : sink.Harmless)
    (elapsed : Nat → Nat) {n : Nat} {behind : List (Command × Value)} {w' v : World σ τ}
    (h : Completes job invoker sink n ((a, p) :: (b, q) :: behind) w w') (hs : SameView w v)
    (hask : ¬ Asks (scope job w) b.params a.id) :
    ∃ v', Completes (job.timed elapsed) invoker sink n ((b, q) :: (a, p) :: behind) v v'
      ∧ SameView w' v' := by
  obtain ⟨ra, w₁, ha, hw₁, h⟩ := h.exists_performable hinvoker hsink
  obtain ⟨rb, w₂, hb, hw₂, hbehind⟩ := h.exists_performable hinvoker hsink
  have hb₀ : Performable job answer b q rb w := hb.of_adds hw₁ hask
  have hne : a.id ≠ b.id := by
    intro hid
    have hfree := hb.free
    rw [hw₁.results, ← hid, Function.update_self] at hfree
    cases hfree
  obtain ⟨v₁, hv₁, hconsb⟩ :=
    ((hb₀.of_view hs).timed elapsed).exists_completes hinvoker hsink n
  have ha₁ : Performable job answer a p ra v₁ :=
    (ha.of_view hs).after_adds hv₁ (hb₀.of_view hs).free hne
  obtain ⟨v₂, hv₂, hconsa⟩ := (ha₁.timed elapsed).exists_completes hinvoker hsink (n + 1)
  have hs₂ : SameView w₂ v₂ := by
    refine ⟨?_, ?_⟩
    · rw [hw₂.files, hw₁.files, hv₂.files, hv₁.files, hs.files]
    · rw [hw₂.results, hw₁.results, hv₂.results, hv₁.results, hs.results,
        Function.update_comm hne]
  obtain ⟨v', hd, hs'⟩ := hbehind.of_view hinvoker hsink elapsed hs₂
  exact ⟨v', hconsb _ _ (hconsa _ _ hd), hs'⟩

end

/-! ## Whole runs -/

section

variable {runId : String} {commands : List Command} {w₀ w : World σ τ} {report : RunReport}

/-- In a run that is ok, all commands succeed. -/
theorem exists_completes_of_ok (hr : submit job invoker sink runId commands w₀ = .ok report w)
    (hok : report.ok = true) :
    ∃ done w₁ w₂, emit sink (.runStarted commands.length) w₀ = .ok () w₁
      ∧ Completes job invoker sink 0 done w₁ w₂ ∧ commands = done.map Prod.fst
      ∧ report.results = w₂.store ∧ w.services = w₂.services := by
  obtain ⟨w₁, os, w₂, he, hp, rfl, hf⟩ := submit_eq_ok_iff.mp hr
  rcases performAll_eq_ok_iff.mp hp with ⟨done, hd, hc, -⟩ | ⟨done, c, rest, w₃, f, -, -, -, rfl⟩
  · exact ⟨done, w₁, w₂, he, hd, hc, rfl, services_of_emit hf⟩
  · rw [← List.length_map Prod.fst, Nat.zero_add, ← stoppedOutcomes] at hok
    rw [RunReport.ok, failed?_stoppedOutcomes] at hok
    cases hok

/-- A run in which all commands succeed is ok. -/
theorem exists_submit_of_completes (hsink : sink.Harmless) {done : List (Command × Value)}
    {w₁ w₂ : World σ τ}
    (he : emit sink (.runStarted (done.map Prod.fst).length) w₀ = .ok () w₁)
    (hd : Completes job invoker sink 0 done w₁ w₂) (runId : String) :
    ∃ report w, submit job invoker sink runId (done.map Prod.fst) w₀ = .ok report w
      ∧ report.ok = true ∧ report.results = w₂.store ∧ w.services = w₂.services := by
  have hp := performAll_eq_ok_iff.mpr (.inl ⟨done, hd, rfl, rfl⟩)
  have hok : (RunReport.mk runId (okOutcomes job 0 (done.map Prod.fst)) w₂.store).ok = true :=
    allOk_okOutcomes 0 _
  obtain ⟨t, hf⟩ := exists_emit_of_harmless hsink (.runFinished _ w₂.store.ids) w₂
  exact ⟨_, _, submit_eq_ok_iff.mpr ⟨w₁, _, w₂, he, hp, rfl, hf⟩, hok, rfl, rfl⟩

end

/-- **Neighbours change places.** Of two neighbours in a run that is ok, the second may come
first if it does not ask for the result of the other. That run is ok as well, every command is
called with the parameters that it had, and each id leads to the result that it had. -/
theorem submit_exchange (hinvoker : invoker.Answers answer) (hsink : sink.Harmless)
    {cs ds : List Command} {a b : Command} {runId : String} {s : σ} {t : τ} {files : FileSystem}
    {report : RunReport} {w : World (σ × List Call) τ}
    (hr : submit job invoker.recorded sink runId (cs ++ a :: b :: ds)
      (World.start (s, []) t files) = .ok report w)
    (hok : report.ok = true)
    (hask : ¬ Asks (scope job (World.start s t files)) b.params a.id)
    (runId' : String) (elapsed' : Nat → Nat) (s' : σ) (t' : τ) :
    ∃ report' w' before p q behind,
      submit (job.timed elapsed') invoker.recorded sink runId' (cs ++ b :: a :: ds)
        (World.start (s', []) t' files) = .ok report' w'
      ∧ report'.ok = true
      ∧ cs = before.map Prod.fst ∧ ds = behind.map Prod.fst
      ∧ w.services.2 = callsOf (before ++ (a, p) :: (b, q) :: behind)
      ∧ w'.services.2 = callsOf (before ++ (b, q) :: (a, p) :: behind)
      ∧ ∀ id, report'.results.get? id = report.results.get? id := by
  have hrecorded := hinvoker.recorded
  obtain ⟨done, w₁, w₂, he, hd, hc, hresults, hservices⟩ := exists_completes_of_ok hr hok
  obtain ⟨before, rest, rfl, rfl, hrest⟩ := List.map_eq_append_iff.mp hc.symm
  obtain ⟨⟨a, p⟩, rest', rfl, rfl, hrest'⟩ := List.map_eq_cons_iff.mp hrest
  obtain ⟨⟨b, q⟩, behind, rfl, rfl, rfl⟩ := List.map_eq_cons_iff.mp hrest'
  obtain ⟨w₃, hbefore, hbehind⟩ := hd.exists_of_append
  -- The other run begins with the same view.
  let done' := before ++ (b, q) :: (a, p) :: behind
  obtain ⟨t₁, ht₁⟩ := exists_emit_of_harmless hsink (.runStarted (before.map Prod.fst ++ _).length)
    (World.start (s, ([] : List Call)) t files)
  obtain ⟨t₂, ht₂⟩ := exists_emit_of_harmless hsink (.runStarted (done'.map Prod.fst).length)
    (World.start (s', ([] : List Call)) t' files)
  cases he.symm.trans ht₁
  obtain ⟨v₁, hbefore', hs₁⟩ := hbefore.of_view hrecorded hsink elapsed'
    (v := ⟨(s', []), t₂, files, .empty⟩) ⟨rfl, rfl⟩
  have henviron : (scope job w₃).environ = (scope job (World.start s t files)).environ := rfl
  obtain ⟨v₂, hbehind', hs₂⟩ := hbehind.exchange hrecorded hsink elapsed' hs₁
    (mt (asks_congr henviron).mp hask)
  have hd' := hbefore'.append hbehind'
  obtain ⟨report', w', hr', hok', hresults', hservices'⟩ :=
    exists_submit_of_completes hsink ht₂ hd' runId'
  refine ⟨report', w', before, p, q, behind, ?_, hok', rfl, rfl, ?_, ?_, fun id => ?_⟩
  · simpa [done'] using hr'
  · rw [hservices, hd.calls]
    rfl
  · rw [hservices', hd'.calls]
    rfl
  · rw [hresults, hresults', hs₂.results]

/-- A service that answers every call alike. -/
def steady : Invoker Unit where
  invoke _ _ _ := fun s => .ok (.record [("x", .text "y")]) s

theorem steady_answers : steady.Answers fun _ _ _ => .ok (.record [("x", .text "y")]) :=
  fun _ _ _ _ => rfl

/-- A call with one parameter. -/
def callWithText (id text : String) : Command :=
  ⟨"object", "method", .record [("p", .text text)], id, []⟩

/-- The run of calls to a service that answers every call alike. -/
def steadyRun (commands : List Command) :
    EStateM.Result Halt (World (Unit × List Call) (List Event)) RunReport :=
  submit bareJob steady.recorded Sink.memory "run" commands (World.start ((), []) [] .empty)

/-- The run has ended with a report that is ok. -/
def endsOk {ω : Type} : EStateM.Result Halt ω RunReport → Bool
  | .ok report _ => report.ok
  | .error _ _ => false

/-- Of four calls the third asks for the result of the first, and the fourth for those of the
second and the third. The two in the middle change places. -/
theorem submit_exchange_steady :
    let a := callWithText "a" "1"
    let b := callWithText "b" "2"
    let c := callWithText "c" "\x7ba.x\x7d"
    let d := callWithText "d" "\x7bb.x\x7d\x7bc.x\x7d"
    ∃ report w report' w', steadyRun [a, b, c, d] = .ok report w ∧ report.ok = true
      ∧ steadyRun [a, c, b, d] = .ok report' w' ∧ report'.ok = true
      ∧ ∀ id, report'.results.get? id = report.results.get? id := by
  intro a b c d
  let start : World Unit (List Event) := World.start () [] .empty
  have hask : ¬ Asks (scope bareJob start) c.params "b" := by
    have hleaves : leaves Place.top c.params = [("$.p", "\x7ba.x\x7d")] := by cbv
    have htokens : tokenize "\x7ba.x\x7d" = .ok [.reference ⟨"a", "x", none⟩] := by cbv
    have hid : expand (scope bareJob start) "a" = .ok "a" := by cbv
    rintro ⟨r, ⟨l, hl, ts, ht, hr⟩, hb⟩
    rw [hleaves, List.mem_singleton] at hl
    rw [hl, htokens] at ht
    cases ht
    cases List.mem_singleton.mp hr
    rw [hid] at hb
    exact absurd (Except.ok.inj hb) (by decide)
  have hrun : endsOk (steadyRun [a, b, c, d]) = true := by
    decide +kernel
  cases hr : steadyRun [a, b, c, d] with
  | error h w =>
      rw [hr] at hrun
      cases hrun
  | ok report w =>
      rw [hr] at hrun
      have hsplit : submit bareJob steady.recorded Sink.memory "run" ([a] ++ b :: c :: [d])
          (World.start ((), []) [] .empty) = .ok report w := hr
      obtain ⟨report', w', -, -, -, -, hr', hok', -, -, -, -, hresults⟩ :=
        submit_exchange steady_answers Sink.harmless_memory hsplit hrun hask "run"
          bareJob.elapsed () []
      exact ⟨report, w, report', w', rfl, hrun, hr', hok', hresults⟩

end Run

end CallPlan
