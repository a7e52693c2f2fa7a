import CallPlan.Proofs.Number.Range
import CallPlan.Proofs.Service.Precedence

/-!
# Which settings can be used

Whatever a configuration holds under sessions, the settings that come of it are usable: at least
one attempt, and timeouts greater than zero. Values that cannot be converted fall back, but for
numbers that are too large. These make resolving fail: an integer of the configuration that has no
nearest timeout, if no stronger source has one (`Overflows`), an infinite number of attempts
(`Endless`), and an integer too long to be written among the versions or aliases, which become
texts. Nothing else does (`Settings.resolve_usable`).

A timeout can be infinite, if the source that decides it says so.
-/

namespace CallPlan

open Sequencing

namespace Settings

variable {environ : String → Option String} {project : Project}

/-! ## Conversions that fail -/

theorem realNumber_eq_error {v : Value} {f : Fault} (h : Project.realNumber v = .error f) :
    Project.isUnusable f = true
    ∨ f = .hugeNumber ∧ ∃ n, v = .int n ∧ Binary64.leastInfinite ≤ n.natAbs := by
  unfold Project.realNumber at h
  split at h
  · next n =>
    split at h
    · cases h
    · next hnone =>
      cases h
      exact .inr ⟨rfl, n, rfl, Binary64.ofInt?_eq_none_iff.mp hnone⟩
  · cases h
  · cases h
  · split at h <;> cases h
    exact .inl rfl
  · cases h
    exact .inl rfl

/-- The configuration cannot be read as a number only where it is an integer that is too large. -/
theorem configuredNumber?_eq_error_iff {v : Option Value} {f : Fault} :
    configuredNumber? v = .error f ↔
      f = .hugeNumber ∧ ∃ n, v = some (.int n) ∧ Binary64.leastInfinite ≤ n.natAbs := by
  constructor
  · intro h
    cases v with
    | none => cases h
    | some w =>
        cases hw : Project.realNumber w with
        | ok x =>
            rw [configuredNumber?_of_ok hw] at h
            cases h
        | error g =>
            rw [configuredNumber?_of_error hw] at h
            split at h
            · cases h
            · next hg =>
              cases h
              obtain ⟨hf, n, rfl, hn⟩ := (realNumber_eq_error hw).resolve_left hg
              exact ⟨hf, n, rfl, hn⟩
  · rintro ⟨rfl, n, rfl, hn⟩
    have herror : Project.realNumber (.int n) = .error .hugeNumber := by
      simp only [Project.realNumber, Binary64.ofInt?_eq_none_iff.mpr hn]
    exact configuredNumber?_of_error herror

theorem pickNumber_eq_error_iff {commandLine environment : Option String}
    {configuration : Option Value} {default : Binary64} {f : Fault} :
    pickNumber commandLine environment configuration default = .error f ↔
      usableNumber? commandLine = none ∧ usableNumber? environment = none
        ∧ configuredNumber? configuration = .error f := by
  unfold pickNumber
  cases usableNumber? commandLine <;> cases usableNumber? environment <;>
    simp [map_eq_error_iff]

theorem wholeNumber_eq_error {v : Value} {f : Fault} (h : Project.wholeNumber v = .error f) :
    Project.isUnusable f = true
    ∨ f = .infiniteInteger ∧ ∃ negative, v = .float (.infinite negative) := by
  cases v with
  | float x =>
      cases x with
      | nan =>
          cases h
          exact .inl rfl
      | infinite negative =>
          cases h
          exact .inr ⟨rfl, negative, rfl⟩
      | finite negative biased fraction => cases h
  | text s =>
      simp only [Project.wholeNumber] at h
      split at h <;> cases h
      exact .inl rfl
  | _ =>
      cases h
      try exact .inl rfl

/-- The attempts cannot be read as a number only where they are infinite. -/
theorem attempts_eq_error_iff {v : Option Value} {f : Fault} :
    attempts v = .error f ↔
      f = .infiniteInteger ∧ ∃ negative, v = some (.float (.infinite negative)) := by
  constructor
  · intro h
    unfold attempts at h
    split at h
    · cases h
    · next g hg =>
      split at h
      · cases h
      · next hunusable =>
        cases h
        obtain ⟨hf, negative, hv⟩ := (wholeNumber_eq_error hg).resolve_left hunusable
        cases v with
        | none => cases hv
        | some w => exact ⟨hf, negative, congrArg some hv⟩
  · rintro ⟨rfl, negative, rfl⟩
    rfl

theorem one_le_of_attempts {v : Option Value} {n : Int} (h : attempts v = .ok n) : 1 ≤ n := by
  unfold attempts at h
  split at h
  · cases h
    exact Int.le_max_left ..
  · split at h <;> cases h
    exact Int.le_refl 1

/-! ## Timeouts -/

/-- It is up to the configuration, and that holds an integer which is too large for a timeout. -/
def Overflows (held : Origin → Option Value) : Prop :=
  (∀ o, o.Stronger .configuration → ¬ Offers held UsableTimeout o)
    ∧ ∃ n, held .configuration = some (.int n) ∧ Binary64.leastInfinite ≤ n.natAbs

theorem usableNumber?_eq_none_iff (held : Origin → Option Value) (o : Origin) {s : Option String}
    (h : held o = s.map .text) : usableNumber? s = none ↔ ¬ Offers held UsableTimeout o := by
  rw [Option.eq_none_iff_forall_ne_some, Offers, h]
  simp only [ne_eq, reads_number s _]
  constructor
  · rintro hnone ⟨v, x, hv, hx⟩
    exact hnone x ⟨v, hv, hx⟩
  · rintro hnone x ⟨v, hv, hx⟩
    exact hnone ⟨v, x, hv, hx⟩

theorem timeoutFrom_eq_error_iff {name setting : String} {default : Binary64} {f : Fault} :
    timeoutFrom environ project name setting default = .error f ↔
      f = .hugeNumber ∧ Overflows (held environ project name setting) := by
  have hc := usableNumber?_eq_none_iff (held environ project name setting) .commandLine rfl
  have he := usableNumber?_eq_none_iff (held environ project name setting) .environment rfl
  rw [timeoutFrom, pickNumber_eq_error_iff, configuredNumber?_eq_error_iff, hc, he, Overflows]
  constructor
  · rintro ⟨hcommandLine, henvironment, hf, hhuge⟩
    refine ⟨hf, fun o ho => ?_, hhuge⟩
    rcases Origin.stronger_configuration_iff.mp ho with rfl | rfl
    · exact hcommandLine
    · exact henvironment
  · rintro ⟨hf, hstronger, hhuge⟩
    exact ⟨hstronger _ (by decide), hstronger _ (by decide), hf, hhuge⟩

theorem exists_timeoutFrom_iff {name setting : String} {default : Binary64} :
    (∃ s, timeoutFrom environ project name setting default = .ok s) ↔
      ¬ Overflows (held environ project name setting) := by
  constructor
  · rintro ⟨s, hs⟩ hoverflows
    rw [timeoutFrom_eq_error_iff.mpr ⟨rfl, hoverflows⟩] at hs
    cases hs
  · intro hnot
    cases h : timeoutFrom environ project name setting default with
    | ok s => exact ⟨s, rfl⟩
    | error f => exact absurd (timeoutFrom_eq_error_iff.mp h).2 hnot

theorem isPositive_of_decided {held : Origin → Option Value} {default : Binary64}
    {s : Setting Binary64} (hdefault : default.isPositive = true)
    (h : Decided held UsableTimeout default s) : s.value.isPositive = true := by
  cases h with
  | source _ usable _ => exact usable.2
  | unsourced _ => exact hdefault

/-- Of the numbers greater than zero, one is not finite. -/
theorem isFinite_eq_false_iff {x : Binary64} (h : x.isPositive = true) :
    x.isFinite = false ↔ x = .infinite false := by
  cases x with
  | nan => cases h
  | infinite negative =>
      cases negative with
      | false => exact ⟨fun _ => rfl, fun _ => rfl⟩
      | true => cases h
  | finite => simp [Binary64.isFinite]

/-- The source holds or writes an infinite number. -/
def HoldsInfinity (held : Origin → Option Value) (o : Origin) : Prop :=
  ∃ v, held o = some v ∧ Project.realNumber v = .ok (.infinite false)

theorem isFinite_eq_false_iff_of_decided {held : Origin → Option Value} {default : Binary64}
    {s : Setting Binary64} (hdefault : default.isFinite = true) (hheld : held .default = none)
    (h : Decided held UsableTimeout default s) :
    s.value.isFinite = false ↔ HoldsInfinity held s.origin := by
  cases h with
  | @source o v x holds usable _ =>
      show x.isFinite = false ↔ HoldsInfinity held o
      rw [isFinite_eq_false_iff usable.2]
      constructor
      · rintro rfl
        exact ⟨v, holds, usable.1⟩
      · rintro ⟨w, hw, hinfinite⟩
        obtain rfl : w = v := Option.some.inj (hw.symm.trans holds)
        exact Except.ok.inj (usable.1.symm.trans hinfinite)
  | unsourced _ => simp [HoldsInfinity, hheld, hdefault]

/-! ## All settings -/

section

variable {versions : List (Value × Value)} {table : Toml.Members}

theorem exists_policy (table : Toml.Members) :
    ∃ policy, Settings.policy (.settings table) = .ok policy := by
  have hsection : ∃ v, (Project.settings table).setting "invoker" (.map []) = .ok v := by
    simp only [Project.setting]
    cases Project.find? (Project.keys "invoker") (.table table) <;> exact ⟨_, rfl⟩
  obtain ⟨v, hv⟩ := hsection
  exact ⟨v.entries?.getD [], bind_eq_ok_iff.mpr ⟨v, hv, rfl⟩⟩

/-- The configuration asks for infinitely many attempts. -/
def Endless (project : Project) : Prop :=
  ∃ negative, configured project "max_attempts" = some (.float (.infinite negative))

/-- The versions and the configuration's aliases can be written as texts. -/
structure Writable (versions : List (Value × Value)) (project : Project) : Prop where
  versions : Value.entriesWritable versions = true
  aliases : Value.entriesWritable (configuredAliases project) = true

theorem exists_lowered_iff {es : List (Value × Value)} :
    (∃ texts, lowered es = .ok texts) ↔ Value.entriesWritable es = true := by
  unfold lowered
  split
  · next h => exact ⟨fun _ => h, fun _ => ⟨_, rfl⟩⟩
  · next h => exact ⟨nofun, fun hw => absurd hw h⟩

theorem lowered_eq_error {es : List (Value × Value)} {f : Fault} (h : lowered es = .error f) :
    f = .longInteger := by
  unfold lowered at h
  split at h
  · cases h
  · cases h
    rfl

theorem exists_attempts_iff :
    (∃ n, attempts (configured project "max_attempts") = .ok n) ↔ ¬ Endless project := by
  constructor
  · rintro ⟨n, hn⟩ hendless
    rw [attempts_eq_error_iff.mpr ⟨rfl, hendless⟩] at hn
    cases hn
  · intro hnot
    cases h : attempts (configured project "max_attempts") with
    | ok n => exact ⟨n, rfl⟩
    | error f => exact absurd (attempts_eq_error_iff.mp h).2 hnot

theorem exists_resolve_iff :
    (∃ settings, resolve versions environ (.settings table) = .ok settings) ↔
      ¬ Overflows (heldConnectTimeout environ (.settings table))
      ∧ ¬ Overflows (heldReadTimeout environ (.settings table))
      ∧ ¬ Endless (.settings table) ∧ Writable versions (.settings table) := by
  obtain ⟨policy, hpolicy⟩ := exists_policy table
  rw [resolve_of_policy hpolicy]
  constructor
  · rintro ⟨settings, h⟩
    obtain ⟨connectTimeout, hconnect, h⟩ := bind_eq_ok_iff.mp h
    obtain ⟨readTimeout, hread, h⟩ := bind_eq_ok_iff.mp h
    obtain ⟨maxAttempts, hattempts, h⟩ := bind_eq_ok_iff.mp h
    obtain ⟨texts, hversions, h⟩ := bind_eq_ok_iff.mp h
    obtain ⟨aliases, haliases, -⟩ := bind_eq_ok_iff.mp h
    exact ⟨exists_timeoutFrom_iff.mp ⟨_, hconnect⟩, exists_timeoutFrom_iff.mp ⟨_, hread⟩,
      exists_attempts_iff.mp ⟨_, hattempts⟩, exists_lowered_iff.mp ⟨_, hversions⟩,
      exists_lowered_iff.mp ⟨_, haliases⟩⟩
  · rintro ⟨hconnect, hread, hendless, hwritable⟩
    obtain ⟨connectTimeout, hconnect⟩ := exists_timeoutFrom_iff.mpr hconnect
    obtain ⟨readTimeout, hread⟩ := exists_timeoutFrom_iff.mpr hread
    obtain ⟨maxAttempts, hattempts⟩ := exists_attempts_iff.mpr hendless
    obtain ⟨texts, hversions⟩ := exists_lowered_iff.mpr hwritable.versions
    obtain ⟨aliases, haliases⟩ := exists_lowered_iff.mpr hwritable.aliases
    exact ⟨_, bind_eq_ok_iff.mpr ⟨_, hconnect, bind_eq_ok_iff.mpr ⟨_, hread,
      bind_eq_ok_iff.mpr ⟨_, hattempts, bind_eq_ok_iff.mpr ⟨_, hversions,
        bind_eq_ok_iff.mpr ⟨_, haliases, rfl⟩⟩⟩⟩⟩⟩

/-- Resolving fails with an overflow or, where timeouts and attempts can be used, at an integer that
cannot be written. -/
theorem of_resolve_eq_error {f : Fault}
    (h : resolve versions environ (.settings table) = .error f) :
    f.family = .overflow ∨ f = .longInteger ∧ ¬ Writable versions (.settings table) := by
  obtain ⟨policy, hpolicy⟩ := exists_policy table
  rw [resolve_of_policy hpolicy] at h
  rcases bind_eq_error_iff.mp h with hconnect | ⟨connectTimeout, -, h⟩
  · rw [(timeoutFrom_eq_error_iff.mp hconnect).1]
    exact .inl rfl
  rcases bind_eq_error_iff.mp h with hread | ⟨readTimeout, -, h⟩
  · rw [(timeoutFrom_eq_error_iff.mp hread).1]
    exact .inl rfl
  rcases bind_eq_error_iff.mp h with hattempts | ⟨maxAttempts, -, h⟩
  · rw [(attempts_eq_error_iff.mp hattempts).1]
    exact .inl rfl
  rcases bind_eq_error_iff.mp h with hversions | ⟨texts, -, h⟩
  · refine .inr ⟨lowered_eq_error hversions, fun hwritable => ?_⟩
    obtain ⟨texts, htexts⟩ := exists_lowered_iff.mpr hwritable.versions
    cases htexts.symm.trans hversions
  rcases bind_eq_error_iff.mp h with haliases | ⟨aliases, -, h⟩
  · refine .inr ⟨lowered_eq_error haliases, fun hwritable => ?_⟩
    obtain ⟨texts, htexts⟩ := exists_lowered_iff.mpr hwritable.aliases
    cases htexts.symm.trans haliases
  · cases h

/-- **Settings can be used, whatever the configuration holds, but for numbers that are too large.**
For each table of values and each environment, resolving succeeds exactly if the configuration
neither decides a timeout with an integer that has no nearest binary number nor asks for infinitely
many attempts, and no version or alias has an integer that is too long to be written. It only ever
fails with an overflow or at such an integer. The settings that come of it make at least one
attempt, and both timeouts are greater than zero. A timeout is infinite exactly if the source that
decides it holds or writes an infinite number. -/
theorem resolve_usable (versions : List (Value × Value)) (environ : String → Option String)
    (table : Toml.Members) :
    ((∃ settings, resolve versions environ (.settings table) = .ok settings) ↔
      ¬ Overflows (heldConnectTimeout environ (.settings table))
      ∧ ¬ Overflows (heldReadTimeout environ (.settings table))
      ∧ ¬ Endless (.settings table) ∧ Writable versions (.settings table))
    ∧ (∀ f, resolve versions environ (.settings table) = .error f →
      f.family = .overflow ∨ f = .longInteger ∧ ¬ Writable versions (.settings table))
    ∧ ∀ settings, resolve versions environ (.settings table) = .ok settings →
      1 ≤ settings.maxAttempts
      ∧ settings.connectTimeout.value.isPositive = true
      ∧ settings.readTimeout.value.isPositive = true
      ∧ (settings.connectTimeout.value.isFinite = false ↔
        HoldsInfinity (heldConnectTimeout environ (.settings table))
          settings.connectTimeout.origin)
      ∧ (settings.readTimeout.value.isFinite = false ↔
        HoldsInfinity (heldReadTimeout environ (.settings table)) settings.readTimeout.origin) := by
  refine ⟨exists_resolve_iff, fun f => of_resolve_eq_error, fun settings h => ?_⟩
  obtain ⟨-, -, hconnect, hread⟩ := decided_of_resolve h
  obtain ⟨-, -, -, -, hattempts⟩ := parts_of_resolve h
  exact ⟨one_le_of_attempts hattempts, isPositive_of_decided (by decide) hconnect,
    isPositive_of_decided (by decide) hread,
    isFinite_eq_false_iff_of_decided (by decide) rfl hconnect,
    isFinite_eq_false_iff_of_decided (by decide) rfl hread⟩

/-! ## Odd values -/

/-- Values that cannot be used, among them an integer that is too large. -/
def oddTable : Toml.Members :=
  [("invoker", .table [
    ("connect_timeout_s", .int (10 ^ 309)), ("read_timeout_s", .list []),
    ("max_attempts", .float .nan)])]

/-- The integer does not matter where the environment has a timeout. -/
theorem resolve_usable_oddTable :
    ∃ settings, resolve [] (Fields.get? · [("INVOKER_CONNECT_TIMEOUT", "5")]) (.settings oddTable)
        = .ok settings
      ∧ 1 ≤ settings.maxAttempts
      ∧ settings.connectTimeout.value.isPositive = true
      ∧ settings.readTimeout.value.isPositive = true := by
  obtain ⟨settings, h⟩ : ∃ settings, resolve [] (Fields.get? · [("INVOKER_CONNECT_TIMEOUT", "5")])
      (.settings oddTable) = .ok settings := ⟨_, rfl⟩
  obtain ⟨hattempts, hconnect, hread, -⟩ := (resolve_usable [] _ oddTable).2.2 settings h
  exact ⟨settings, h, hattempts, hconnect, hread⟩

/-- Infinitely many attempts are not replaced by one, and an infinite timeout is used. -/
theorem resolve_infinite :
    resolve [] (fun _ => none)
        (.settings [("invoker", .table [("max_attempts", .float (.infinite false))])])
      = .error .infiniteInteger
    ∧ ∃ settings, resolve [] (Fields.get? · [("CLI_INVOKER_READ_TIMEOUT", "inf")]) .bare
        = .ok settings ∧ settings.readTimeout = ⟨.infinite false, .commandLine⟩ :=
  ⟨by rfl, _, by rfl, rfl⟩

end

end Settings

end CallPlan
