import CallPlan.Proofs.Sequencing
import CallPlan.Service.Settings

/-!
# Which source decides a setting

The region, the profile and the two timeouts are looked for in four places, one stronger than the
other (`Origin.Stronger`): a variable that the command line sets, one of the environment, an entry
of the configuration, and at last a default. What a place holds of a setting (`held`) may be
unusable, and then it is as good as nothing.

The strongest source that holds a usable value decides (`Decided`). This determines the setting by
what is held there and above, so whatever the weaker sources hold makes no difference
(`Decided.eq_of_agree`). That settings are resolved in this way is `Settings.precedence_strict`.
-/

namespace CallPlan

open Sequencing

/-! ## Sources -/

namespace Origin

/-- How many sources are asked before this one. -/
def rank : Origin → Nat
  | commandLine => 0
  | environment => 1
  | configuration => 2
  | default => 3

/-- The first source is asked before the second. -/
def Stronger (o o' : Origin) : Prop :=
  o.rank < o'.rank

instance : DecidableRel Stronger := fun o o' => inferInstanceAs (Decidable (o.rank < o'.rank))

theorem rank_injective {o o' : Origin} (h : o.rank = o'.rank) : o = o' := by
  cases o <;> cases o' <;> first | rfl | cases h

theorem not_stronger_commandLine (o : Origin) : ¬ o.Stronger commandLine :=
  Nat.not_lt_zero _

theorem stronger_environment_iff {o : Origin} : o.Stronger environment ↔ o = commandLine := by
  cases o <;> decide

theorem stronger_configuration_iff {o : Origin} :
    o.Stronger configuration ↔ o = commandLine ∨ o = environment := by
  cases o <;> decide

theorem not_default_stronger (o : Origin) : ¬ default.Stronger o := by
  cases o <;> decide

end Origin

/-! ## Decisions -/

section

variable {α : Type} {held held' : Origin → Option Value} {Usable : Value → α → Prop}
  {fallback : α} {s s' : Setting α}

/-- The source holds a value that can be used. -/
def Offers (held : Origin → Option Value) (Usable : Value → α → Prop) (o : Origin) : Prop :=
  ∃ v a, held o = some v ∧ Usable v a

/-- The setting comes from the strongest source that holds a usable value, or is the default where
there is none. -/
inductive Decided (held : Origin → Option Value) (Usable : Value → α → Prop) (fallback : α) :
    Setting α → Prop
  | source {o : Origin} {v : Value} {a : α} (holds : held o = some v) (usable : Usable v a)
      (strongest : ∀ o', o'.Stronger o → ¬ Offers held Usable o') :
      Decided held Usable fallback ⟨a, o⟩
  | unsourced (none : ∀ o, ¬ Offers held Usable o) :
      Decided held Usable fallback ⟨fallback, .default⟩

/-- Sources that agree on all that is not weaker than the one that decides decide alike. -/
theorem Decided.eq_of_agree (functional : ∀ v a b, Usable v a → Usable v b → a = b)
    (h : Decided held Usable fallback s) (h' : Decided held' Usable fallback s')
    (agree : ∀ o, ¬ s.origin.Stronger o → held' o = held o) : s' = s := by
  cases h with
  | @source o v a holds usable strongest =>
      have hoffers : Offers held' Usable o :=
        ⟨v, a, (agree o (Nat.lt_irrefl _)).trans holds, usable⟩
      cases h' with
      | @source o' v' a' holds' usable' strongest' =>
          rcases Nat.lt_trichotomy o'.rank o.rank with hlt | heq | hgt
          · have hagree := agree o' (Nat.lt_asymm hlt)
            exact absurd ⟨v', a', hagree ▸ holds', usable'⟩ (strongest o' hlt)
          · obtain rfl := Origin.rank_injective heq
            have hv : v' = v := by
              rw [agree o' (Nat.lt_irrefl _), holds] at holds'
              exact (Option.some.inj holds').symm
            subst hv
            rw [functional v' a a' usable usable']
          · exact absurd hoffers (strongest' o hgt)
      | unsourced none => exact absurd hoffers (none o)
  | unsourced none =>
      -- The default is the weakest, so all sources hold the same.
      have hall : ∀ o, held' o = held o := fun o => agree o (Origin.not_default_stronger o)
      cases h' with
      | @source o' v' a' holds' usable' strongest' =>
          exact absurd ⟨v', a', hall o' ▸ holds', usable'⟩ (none o')
      | unsourced _ => rfl

/-! ## Deciding -/

/-- The value is what can be used of that which a source holds. -/
def Reads (Usable : Value → α → Prop) (v : Option Value) (read : Option α) : Prop :=
  ∀ a, read = some a ↔ ∃ w, v = some w ∧ Usable w a

/-- The first value in the order of the sources, or the default. -/
def firstOf (fallback : α) (commandLine environment configuration : Option α) : Setting α :=
  match commandLine, environment, configuration with
  | some a, _, _ => ⟨a, .commandLine⟩
  | none, some a, _ => ⟨a, .environment⟩
  | none, none, some a => ⟨a, .configuration⟩
  | none, none, none => ⟨fallback, .default⟩

theorem Reads.not_offers {o : Origin} (h : Reads Usable (held o) none) :
    ¬ Offers held Usable o := by
  rintro ⟨v, a, hv, ha⟩
  cases (h a).mpr ⟨v, hv, ha⟩

/-- Where the values are what can be used of the sources, the first of them decides. -/
theorem decided_firstOf {commandLine environment configuration : Option α}
    (hc : Reads Usable (held .commandLine) commandLine)
    (he : Reads Usable (held .environment) environment)
    (hp : Reads Usable (held .configuration) configuration) (hd : held .default = none) :
    Decided held Usable fallback (firstOf fallback commandLine environment configuration) := by
  cases commandLine with
  | some a =>
      obtain ⟨v, hv, ha⟩ := (hc a).mp rfl
      exact .source hv ha fun o ho => absurd ho (Origin.not_stronger_commandLine o)
  | none =>
  cases environment with
  | some a =>
      obtain ⟨v, hv, ha⟩ := (he a).mp rfl
      refine .source hv ha fun o ho => ?_
      obtain rfl := Origin.stronger_environment_iff.mp ho
      exact hc.not_offers
  | none =>
  cases configuration with
  | some a =>
      obtain ⟨v, hv, ha⟩ := (hp a).mp rfl
      refine .source hv ha fun o ho => ?_
      rcases Origin.stronger_configuration_iff.mp ho with rfl | rfl
      · exact hc.not_offers
      · exact he.not_offers
  | none =>
      refine .unsourced fun o => ?_
      cases o with
      | commandLine => exact hc.not_offers
      | environment => exact he.not_offers
      | configuration => exact hp.not_offers
      | default =>
          rintro ⟨v, a, hv, -⟩
          rw [hd] at hv
          cases hv

end

namespace Settings

variable {environ : String → Option String} {project : Project}

/-! ## What sources hold -/

/-- The entry of the configuration about sessions. -/
def configured (project : Project) (setting : String) : Option Value :=
  match project with
  | .settings table => (Project.find? ["invoker", setting] (.table table)).map .ofToml
  | .unreadable _ => none

/-- What the sources hold of a setting that is called by these names in the environment and in the
configuration. The command line sets variables with a mark in front of their names. -/
def held (environ : String → Option String) (project : Project) (name setting : String) :
    Origin → Option Value
  | .commandLine => (environ ("CLI_" ++ name)).map .text
  | .environment => (environ name).map .text
  | .configuration => configured project setting
  | .default => none

def heldRegion (environ : String → Option String) (project : Project) : Origin → Option Value :=
  held environ project "AWS_REGION" "region"

def heldProfile (environ : String → Option String) (project : Project) : Origin → Option Value :=
  held environ project "AWS_PROFILE" "profile"

def heldConnectTimeout (environ : String → Option String) (project : Project) :
    Origin → Option Value :=
  held environ project "INVOKER_CONNECT_TIMEOUT" "connect_timeout_s"

def heldReadTimeout (environ : String → Option String) (project : Project) :
    Origin → Option Value :=
  held environ project "INVOKER_READ_TIMEOUT" "read_timeout_s"

theorem lookup?_ofTomlMembers (name : String) (ms : Toml.Members) :
    Value.lookup? name (Value.ofTomlMembers ms) = (Fields.get? name ms).map .ofToml := by
  induction ms with
  | nil => rfl
  | cons m ms ih =>
      obtain ⟨key, x⟩ := m
      rw [Value.ofTomlMembers, Value.lookup?_record_cons, Fields.get?]
      split
      · rfl
      · exact ih

/-- A section that is no table holds nothing, like one that is missing. -/
theorem lookup?_policy {policy : List (Value × Value)} (h : Settings.policy project = .ok policy)
    (setting : String) : Value.lookup? setting policy = configured project setting := by
  obtain ⟨v, hv, hpolicy⟩ := bind_eq_ok_iff.mp h
  obtain rfl := pure_eq_ok_iff.mp hpolicy
  cases project with
  | unreadable fault => cases hv
  | settings table =>
      have hkeys : Project.keys "invoker" = ["invoker"] := by decide
      simp only [Project.setting, hkeys, Project.find?] at hv
      simp only [configured, Project.find?]
      cases hsection : Fields.get? "invoker" table with
      | none =>
          rw [hsection] at hv
          cases hv
          rfl
      | some x =>
          rw [hsection] at hv
          cases hv
          cases x with
          | table ms =>
              have hentry : Project.find? [setting] (.table ms) = Fields.get? setting ms := by
                rw [Project.find?]
                cases Fields.get? setting ms <;> rfl
              show Value.lookup? setting (Value.ofTomlMembers ms) =
                (Project.find? [setting] (.table ms)).map .ofToml
              rw [lookup?_ofTomlMembers, hentry]
          | _ => rfl

/-! ## Usable values -/

/-- A text that is not empty is usable as it is. -/
def UsableText (v : Value) (text : Option String) : Prop :=
  ∃ s, v = .text s ∧ s ≠ "" ∧ text = some s

/-- A timeout is what a value is or writes as a number, if this is greater than zero. -/
def UsableTimeout (v : Value) (x : Binary64) : Prop :=
  Project.realNumber v = .ok x ∧ x.isPositive = true

theorem UsableText.functional (v : Value) (a b : Option String) (ha : UsableText v a)
    (hb : UsableText v b) : a = b := by
  obtain ⟨s, rfl, -, rfl⟩ := ha
  obtain ⟨_, ⟨⟩, -, rfl⟩ := hb
  rfl

theorem UsableTimeout.functional (v : Value) (x y : Binary64) (hx : UsableTimeout v x)
    (hy : UsableTimeout v y) : x = y :=
  Except.ok.inj (hx.1.symm.trans hy.1)

theorem usableText?_eq_some_iff {s : Option String} {t : String} :
    usableText? s = some t ↔ s = some t ∧ t ≠ "" := by
  simp [usableText?, Option.filter_eq_some_iff]

theorem reads_text (s : Option String) :
    Reads UsableText (s.map .text) ((usableText? s).map some) := by
  intro a
  simp only [Option.map_eq_some_iff, usableText?_eq_some_iff, UsableText]
  constructor
  · rintro ⟨t, ⟨rfl, ht⟩, rfl⟩
    exact ⟨.text t, ⟨t, rfl, rfl⟩, t, rfl, ht, rfl⟩
  · rintro ⟨_, ⟨t, rfl, rfl⟩, _, ⟨⟩, ht, rfl⟩
    exact ⟨t, ⟨rfl, ht⟩, rfl⟩

theorem reads_configuredText (v : Option Value) :
    Reads UsableText v ((configuredText? v).map some) := by
  cases v with
  | none => simp [Reads, configuredText?]
  | some w =>
      cases w with
      | text s => exact reads_text (some s)
      | _ => simp [Reads, configuredText?, UsableText]

/-- A text writes a usable timeout if it writes a number greater than zero. -/
theorem usableTimeout_text_iff {s : String} {x : Binary64} :
    UsableTimeout (.text s) x ↔ Numeral.binary64? s = some x ∧ x.isPositive = true := by
  simp only [UsableTimeout, Project.realNumber]
  cases Numeral.binary64? s <;> simp

theorem reads_number (s : Option String) : Reads UsableTimeout (s.map .text) (usableNumber? s) := by
  intro x
  simp only [usableNumber?, Option.filter_eq_some_iff, Option.bind_eq_some_iff]
  constructor
  · rintro ⟨⟨t, rfl, ht⟩, hx⟩
    exact ⟨.text t, rfl, usableTimeout_text_iff.mpr ⟨ht, hx⟩⟩
  · rintro ⟨v, hv, hx⟩
    obtain ⟨t, rfl, rfl⟩ := Option.map_eq_some_iff.mp hv
    obtain ⟨ht, hx⟩ := usableTimeout_text_iff.mp hx
    exact ⟨⟨t, rfl, ht⟩, hx⟩

theorem configuredNumber?_of_ok {v : Value} {x : Binary64} (h : Project.realNumber v = .ok x) :
    configuredNumber? (some v) = .ok (if x.isPositive then some x else none) := by
  cases v with
  | null => cases h
  | _ => simp only [configuredNumber?, h]

theorem configuredNumber?_of_error {v : Value} {f : Fault} (h : Project.realNumber v = .error f) :
    configuredNumber? (some v) = if Project.isUnusable f then .ok none else .error f := by
  cases v with
  | null =>
      cases h
      rfl
  | _ => simp only [configuredNumber?, h]

/-- What is read of the configuration, where that succeeds, is what can be used of it. -/
theorem reads_configuredNumber (v : Option Value) :
    Reads UsableTimeout v ((configuredNumber? v).toOption.join) := by
  intro x
  cases v with
  | none => simp [configuredNumber?, Except.toOption]
  | some w =>
      simp only [Option.some.injEq, exists_eq_left', UsableTimeout]
      cases hw : Project.realNumber w with
      | ok y =>
          rw [configuredNumber?_of_ok hw]
          by_cases hy : y.isPositive = true
          · simp only [hy, if_true, Except.toOption, Option.join_some, Option.some.injEq,
              Except.ok.injEq]
            constructor
            · rintro rfl
              exact ⟨rfl, hy⟩
            · exact And.left
          · simp only [hy]
            constructor
            · intro h
              cases h
            · rintro ⟨⟨⟩, hx⟩
              exact absurd hx hy
      | error f =>
          rw [configuredNumber?_of_error hw]
          split <;> simp [Except.toOption]

/-! ## Settings -/

theorem pickText_eq_firstOf (commandLine environment : Option String)
    (configuration : Option Value) :
    pickText commandLine environment configuration =
      firstOf none ((usableText? commandLine).map some) ((usableText? environment).map some)
        ((configuredText? configuration).map some) := by
  unfold pickText
  cases usableText? commandLine <;> cases usableText? environment <;>
    cases configuredText? configuration <;> rfl

theorem pickNumber_eq_ok {commandLine environment : Option String} {configuration : Option Value}
    {default : Binary64} {s : Setting Binary64}
    (h : pickNumber commandLine environment configuration default = .ok s) :
    s = firstOf default (usableNumber? commandLine) (usableNumber? environment)
      (configuredNumber? configuration).toOption.join := by
  unfold pickNumber at h
  split at h
  · next hc =>
    cases h
    rw [hc]
    rfl
  · next hc he =>
    cases h
    rw [hc, he]
    rfl
  · next hc he =>
    obtain ⟨x, hx, rfl⟩ := map_eq_ok_iff.mp h
    rw [hc, he, hx]
    cases x <;> rfl

/-- The setting that is picked from what the sources hold of a text. -/
def textFrom (environ : String → Option String) (project : Project) (name setting : String) :
    Setting (Option String) :=
  pickText (environ ("CLI_" ++ name)) (environ name) (configured project setting)

/-- The setting that is picked from what the sources hold of a timeout. -/
def timeoutFrom (environ : String → Option String) (project : Project) (name setting : String)
    (default : Binary64) : Except Fault (Setting Binary64) :=
  pickNumber (environ ("CLI_" ++ name)) (environ name) (configured project setting) default

theorem decided_textFrom (environ : String → Option String) (project : Project)
    (name setting : String) :
    Decided (held environ project name setting) UsableText none
      (textFrom environ project name setting) := by
  rw [textFrom, pickText_eq_firstOf]
  exact decided_firstOf (reads_text _) (reads_text _) (reads_configuredText _) rfl

theorem decided_of_timeoutFrom {name setting : String} {default : Binary64} {s : Setting Binary64}
    (h : timeoutFrom environ project name setting default = .ok s) :
    Decided (held environ project name setting) UsableTimeout default s := by
  rw [pickNumber_eq_ok h]
  exact decided_firstOf (reads_number _) (reads_number _) (reads_configuredNumber _) rfl

def connectTimeoutFrom (environ : String → Option String) (project : Project) :
    Except Fault (Setting Binary64) :=
  timeoutFrom environ project "INVOKER_CONNECT_TIMEOUT" "connect_timeout_s" defaultConnectTimeout

def readTimeoutFrom (environ : String → Option String) (project : Project) :
    Except Fault (Setting Binary64) :=
  timeoutFrom environ project "INVOKER_READ_TIMEOUT" "read_timeout_s" defaultReadTimeout

/-- The aliases in the configuration, if it has a table of them. -/
def configuredAliases (project : Project) : List (Value × Value) :=
  ((configured project "service_aliases").bind Value.entries?).getD []

/-- Each setting is picked from what its own sources hold. -/
theorem resolve_of_policy {policy : List (Value × Value)}
    (h : Settings.policy project = .ok policy) (versions : List (Value × Value))
    (environ : String → Option String) :
    resolve versions environ project = do
      let connectTimeout ← connectTimeoutFrom environ project
      let readTimeout ← readTimeoutFrom environ project
      let maxAttempts ← attempts (configured project "max_attempts")
      let versions ← lowered versions
      let aliases ← lowered (configuredAliases project)
      return {
        region := textFrom environ project "AWS_REGION" "region"
        profile := textFrom environ project "AWS_PROFILE" "profile"
        versions, aliases, connectTimeout, readTimeout, maxAttempts } := by
  simp only [resolve, aliasesOf, h, bind, Except.bind, lookup?_policy h]
  rfl

theorem parts_of_resolve {versions : List (Value × Value)} {settings : Settings}
    (h : resolve versions environ project = .ok settings) :
    settings.region = textFrom environ project "AWS_REGION" "region"
    ∧ settings.profile = textFrom environ project "AWS_PROFILE" "profile"
    ∧ connectTimeoutFrom environ project = .ok settings.connectTimeout
    ∧ readTimeoutFrom environ project = .ok settings.readTimeout
    ∧ attempts (configured project "max_attempts") = .ok settings.maxAttempts := by
  obtain ⟨policy, hpolicy, -⟩ := bind_eq_ok_iff.mp h
  rw [resolve_of_policy hpolicy] at h
  obtain ⟨connectTimeout, hconnect, h⟩ := bind_eq_ok_iff.mp h
  obtain ⟨readTimeout, hread, h⟩ := bind_eq_ok_iff.mp h
  obtain ⟨maxAttempts, hattempts, h⟩ := bind_eq_ok_iff.mp h
  obtain ⟨versions, -, h⟩ := bind_eq_ok_iff.mp h
  obtain ⟨aliases, -, h⟩ := bind_eq_ok_iff.mp h
  obtain rfl := pure_eq_ok_iff.mp h
  exact ⟨rfl, rfl, hconnect, hread, hattempts⟩

/-- The four settings that have several sources are decided by these. -/
theorem decided_of_resolve {versions : List (Value × Value)} {settings : Settings}
    (h : resolve versions environ project = .ok settings) :
    Decided (heldRegion environ project) UsableText none settings.region
    ∧ Decided (heldProfile environ project) UsableText none settings.profile
    ∧ Decided (heldConnectTimeout environ project) UsableTimeout defaultConnectTimeout
      settings.connectTimeout
    ∧ Decided (heldReadTimeout environ project) UsableTimeout defaultReadTimeout
      settings.readTimeout := by
  obtain ⟨hregion, hprofile, hconnect, hread, -⟩ := parts_of_resolve h
  rw [hregion, hprofile]
  exact ⟨decided_textFrom .., decided_textFrom .., decided_of_timeoutFrom hconnect,
    decided_of_timeoutFrom hread⟩

/-- The sources hold the same as others, except for those weaker than this one. -/
def AgreeDownTo (o : Origin) (held held' : Origin → Option Value) : Prop :=
  ∀ o', ¬ o.Stronger o' → held' o' = held o'

/-- **The strongest source decides, and the weaker ones do not count.** The region, the profile
and the timeouts are what the strongest source with a usable value holds, and tell this source; the
default stands where no source has one. If settings are resolved from other sources, each of the
four is the same, value and source, unless the source that it comes from or a stronger one holds
something else: whatever is changed or removed in weaker ones, or concerns other settings, makes no
difference. -/
theorem precedence_strict {versions : List (Value × Value)} {settings : Settings}
    (h : resolve versions environ project = .ok settings) :
    (Decided (heldRegion environ project) UsableText none settings.region
      ∧ Decided (heldProfile environ project) UsableText none settings.profile
      ∧ Decided (heldConnectTimeout environ project) UsableTimeout defaultConnectTimeout
        settings.connectTimeout
      ∧ Decided (heldReadTimeout environ project) UsableTimeout defaultReadTimeout
        settings.readTimeout)
    ∧ ∀ versions' environ' project' settings', resolve versions' environ' project' = .ok settings' →
      (AgreeDownTo settings.region.origin (heldRegion environ project)
          (heldRegion environ' project') → settings'.region = settings.region)
      ∧ (AgreeDownTo settings.profile.origin (heldProfile environ project)
          (heldProfile environ' project') → settings'.profile = settings.profile)
      ∧ (AgreeDownTo settings.connectTimeout.origin (heldConnectTimeout environ project)
          (heldConnectTimeout environ' project') →
        settings'.connectTimeout = settings.connectTimeout)
      ∧ (AgreeDownTo settings.readTimeout.origin (heldReadTimeout environ project)
          (heldReadTimeout environ' project') → settings'.readTimeout = settings.readTimeout) := by
  refine ⟨decided_of_resolve h, fun versions' environ' project' settings' h' => ?_⟩
  obtain ⟨hregion, hprofile, hconnect, hread⟩ := decided_of_resolve h
  obtain ⟨hregion', hprofile', hconnect', hread'⟩ := decided_of_resolve h'
  exact ⟨hregion.eq_of_agree UsableText.functional hregion',
    hprofile.eq_of_agree UsableText.functional hprofile',
    hconnect.eq_of_agree UsableTimeout.functional hconnect',
    hread.eq_of_agree UsableTimeout.functional hread'⟩

/-! ## Unusable values in strong places -/

/-- An environment with values that cannot be used where stronger sources are. -/
def spoiltEnviron (name : String) : Option String :=
  Fields.get? name [
    ("CLI_AWS_REGION", ""), ("AWS_REGION", "eu-west-1"),
    ("CLI_INVOKER_CONNECT_TIMEOUT", "nan"), ("INVOKER_CONNECT_TIMEOUT", "-1"),
    ("CLI_INVOKER_READ_TIMEOUT", "soon"), ("INVOKER_READ_TIMEOUT", "12")]

/-- A configuration with a region, a profile and timeouts of its own. -/
def settledProject : Project :=
  .settings [("invoker", .table [
    ("region", .text "us-east-1"), ("profile", .text ""),
    ("connect_timeout_s", .text "20"), ("read_timeout_s", .bool true)])]

/-- What is settled by it and the environment. -/
def settledSettings : Settings where
  region := ⟨some "eu-west-1", .environment⟩
  profile := ⟨none, .default⟩
  versions := []
  aliases := []
  connectTimeout := ⟨.ofDecimal false 20 0, .configuration⟩
  readTimeout := ⟨.ofDecimal false 12 0, .environment⟩
  maxAttempts := 1

/-- Unusable values do not stand in the way of weaker sources, and the configuration's region and
read timeout, which decide nothing, can as well be missing. -/
theorem precedence_strict_spoilt :
    resolve [] spoiltEnviron settledProject = .ok settledSettings
    ∧ (∃ settings', resolve [] spoiltEnviron .bare = .ok settings'
      ∧ settings'.region = settledSettings.region
      ∧ settings'.readTimeout = settledSettings.readTimeout) := by
  have h : resolve [] spoiltEnviron settledProject = .ok settledSettings := by rfl
  have h' : ∃ settings', resolve [] spoiltEnviron .bare = .ok settings' := ⟨_, rfl⟩
  obtain ⟨settings', h'⟩ := h'
  obtain ⟨hregion, -, -, hread⟩ := (precedence_strict h).2 _ _ _ _ h'
  refine ⟨h, settings', h', hregion fun o ho => ?_, hread fun o ho => ?_⟩
  · cases o with
    | configuration => exact absurd (by decide) ho
    | _ => rfl
  · cases o with
    | configuration => exact absurd (by decide) ho
    | _ => rfl

end Settings

end CallPlan
