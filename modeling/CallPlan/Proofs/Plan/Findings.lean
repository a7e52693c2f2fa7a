import CallPlan.Proofs.Template.Leaves

/-!
# Where findings come from

Checking a plan looks at every text of every command on its own, so a finding comes from
one text (`mem_commandsFindings_iff`) and stands at its place (`path_of_mem_textIssues`).
The place tells the command (`eq_of_paramsPlace_append`). An error about a text has one of
three reasons (`Blames`): the text cannot be read, one of its references asks for a result
that no earlier command publishes, or it names an empty path.
-/

namespace CallPlan.Plan

open Sequencing

/-! ## Places of commands -/

theorem toList_field (place name : String) :
    (Place.field place name).toList = place.toList ++ ".".toList ++ name.toList := by
  simp [Place.field]

theorem toList_item (place : String) (n : Nat) :
    (Place.item place n).toList = place.toList ++ '[' :: (Nat.toDigits 10 n ++ [']']) := by
  simp [Place.item, toString, Nat.toList_repr]

theorem toList_paramsPlace_append (k : Nat) (s : String) :
    (paramsPlace k ++ s).toList =
      (Place.field Place.top "commands").toList
        ++ '[' :: (Nat.toDigits 10 k ++ ']' :: (".".toList ++ "params".toList ++ s.toList)) := by
  rw [paramsPlace, String.toList_append, toList_field, toList_item]
  simp only [List.append_assoc, List.cons_append, List.nil_append]

theorem not_mem_toDigits (k : Nat) : ']' ∉ Nat.toDigits 10 k := by
  intro h
  have hd : Char.isDigit ']' = true := Nat.isDigit_of_mem_toDigits (by decide) (by decide) h
  exact absurd hd (by decide)

/-- A place among the parameters of a command is among those of no other. -/
theorem eq_of_paramsPlace_append {k j : Nat} {s t : String}
    (h : paramsPlace k ++ s = paramsPlace j ++ t) : k = j := by
  have hlist := congrArg String.toList h
  rw [toList_paramsPlace_append, toList_paramsPlace_append] at hlist
  have hbehind := List.tail_eq_of_cons_eq (List.append_cancel_left hlist)
  have hcut := congrArg (Template.cut? ']') hbehind
  rw [Template.cut?_append (not_mem_toDigits k), Template.cut?_append (not_mem_toDigits j)] at hcut
  have hdigits : Nat.toDigits 10 k = Nat.toDigits 10 j :=
    congrArg Prod.fst (Option.some.inj hcut)
  rw [← @Nat.ofDigitChars_ten_toDigits k, hdigits, Nat.ofDigitChars_ten_toDigits]

/-- The place of a text begins with that of the value it is in. -/
theorem exists_append_of_mem_texts {a place text : String} {v : Value}
    (h : (place, text) ∈ texts a v) : ∃ s, place = a ++ s := by
  have ha := Template.texts_append a "" v
  rw [String.append_empty] at ha
  rw [ha] at h
  obtain ⟨l, -, hl⟩ := List.mem_map.mp h
  cases hl
  exact ⟨l.1, rfl⟩

/-! ## One text -/

/-- All findings stand at one place. -/
def AllAt (place : String) (issues : List Issue) : Prop :=
  ∀ i ∈ issues, i.path = place

theorem path_of_idIssue? {c : Context} {place id : String} {i : Issue}
    (h : idIssue? c place id = some i) : i.path = place := by
  unfold idIssue? at h
  simp only at h
  split at h
  · cases h
    rfl
  · split at h
    · cases h
      rfl
    · split at h
      · cases h
      · split at h <;> cases h <;> rfl

theorem path_of_tokenIssue? {c : Context} {place : String} {t : Token} {i : Issue}
    (h : tokenIssue? c place t = some i) : i.path = place := by
  unfold tokenIssue? at h
  split at h
  · cases h
  · split at h
    · cases h
    · split at h <;> cases h
      rfl
  · exact path_of_idIssue? h

theorem allAt_fileIssues {c : Context} {place : String} {raws : List String}
    {issues : List Issue} (h : fileIssues c place raws = .ok issues) :
    AllAt place issues ∧ ∀ i ∈ issues, i.severity = .warning := by
  induction raws generalizing issues with
  | nil => cases h; simp [AllAt]
  | cons raw raws ih =>
      obtain ⟨there, -, h⟩ := bind_eq_ok_iff.mp h
      obtain ⟨rest, hr, h⟩ := bind_eq_ok_iff.mp h
      obtain ⟨hp, hw⟩ := ih hr
      cases h
      split
      · exact ⟨hp, hw⟩
      · constructor
        · rintro i (_ | ⟨_, hi⟩)
          · rfl
          · exact hp i hi
        · rintro i (_ | ⟨_, hi⟩)
          · rfl
          · exact hw i hi

/-- The findings about a payload: those about its files, or that it names an empty path. -/
theorem payloadIssues_eq_ok {c : Context} {place text : String} {issues : List Issue}
    (h : payloadIssues c place text = .ok issues) :
    AllAt place issues
      ∧ ∀ i ∈ issues, i.severity = .error →
        Template.hasMarkers text = false ∧ ∃ cause, Payload.paths? text = .error cause := by
  unfold payloadIssues at h
  split at h
  · cases h
    simp [AllAt]
  · next hm =>
    split at h
    · next cause hp =>
      cases h
      exact ⟨by simp [AllAt, causeIssue], fun _ _ _ => ⟨by simpa using hm, cause, hp⟩⟩
    · cases h
      simp [AllAt]
    · obtain ⟨hp, hw⟩ := allAt_fileIssues h
      exact ⟨hp, fun i hi he => by simp [hw i hi] at he⟩

/-- In a text with markers the tokens are all that is looked at. -/
theorem textIssues_of_hasMarkers {text : String} {ts : List Token}
    (hm : Template.hasMarkers text = true) (ht : Template.tokenize text = .ok ts) (c : Context)
    (place : String) : textIssues c place text = .ok (ts.filterMap (tokenIssue? c place)) := by
  simp [textIssues, ht, payloadIssues, hm, bind, Except.bind, pure, Except.pure]

/-- Every finding about a text stands at the place of the text. -/
theorem path_of_mem_textIssues {c : Context} {place text : String} {issues : List Issue}
    (h : textIssues c place text = .ok issues) {i : Issue} (hi : i ∈ issues) :
    i.path = place := by
  unfold textIssues at h
  split at h
  · cases h
    simp only [List.mem_singleton] at hi
    subst hi
    rfl
  · obtain ⟨payload, hp, h⟩ := bind_eq_ok_iff.mp h
    cases h
    rcases List.mem_append.mp hi with hi | hi
    · obtain ⟨t, -, ht⟩ := List.mem_filterMap.mp hi
      exact path_of_tokenIssue? ht
    · exact (payloadIssues_eq_ok hp).1 i hi

/-- The reference `r` asks for a result that is not there when a command begins: its own, or
one that no command before it publishes. -/
def Dangling (c : Context) (r : Reference) : Prop :=
  '%' ∉ r.id.toList ∧ (r.id = c.own ∨ r.id ∉ c.published)

/-- Why a text is to blame. -/
inductive Blames (c : Context) (text : String) : Prop
  | unreadable {cause : Failure.Cause} (read : Template.tokenize text = .error cause)
  | dangling {ts : List Token} {r : Reference} (read : Template.tokenize text = .ok ts)
      (mem : .reference r ∈ ts) (dangling : Dangling c r)
  | emptyPath {cause : Failure.Cause} (unmarked : Template.hasMarkers text = false)
      (named : Payload.paths? text = .error cause)

theorem dangling_of_idIssue? {c : Context} {place : String} {r : Reference} {i : Issue}
    (h : idIssue? c place r.id = some i) (he : i.severity = .error) : Dangling c r := by
  unfold idIssue? at h
  simp only at h
  split at h
  · cases h
    cases he
  · next hd =>
    split at h
    · next ho => exact ⟨hd, .inl ho⟩
    · split at h
      · cases h
      · next hp => exact ⟨hd, .inr hp⟩

/-- Only references are to blame among tokens. -/
theorem dangling_of_tokenIssue? {c : Context} {place : String} {t : Token} {i : Issue}
    (h : tokenIssue? c place t = some i) (he : i.severity = .error) :
    ∃ r, t = .reference r ∧ Dangling c r := by
  unfold tokenIssue? at h
  split at h
  · cases h
  · split at h
    · cases h
    · split at h <;> cases h
      cases he
  · exact ⟨_, rfl, dangling_of_idIssue? h he⟩

/-- An error about a text has one of three reasons. -/
theorem blames_of_mem_textIssues {c : Context} {place text : String} {issues : List Issue}
    (h : textIssues c place text = .ok issues) {i : Issue} (hi : i ∈ issues)
    (he : i.severity = .error) : Blames c text := by
  unfold textIssues at h
  split at h
  · next cause ht => exact .unreadable ht
  · next ts ht =>
    obtain ⟨payload, hp, h⟩ := bind_eq_ok_iff.mp h
    cases h
    rcases List.mem_append.mp hi with hi | hi
    · obtain ⟨t, hm, ht'⟩ := List.mem_filterMap.mp hi
      obtain ⟨r, rfl, hd⟩ := dangling_of_tokenIssue? ht' he
      exact .dangling ht hm hd
    · obtain ⟨hm, cause, hc⟩ := (payloadIssues_eq_ok hp).2 i hi he
      exact .emptyPath hm hc

/-- A reference whose id is written out and not published is found, as an error. -/
theorem exists_idIssue? {c : Context} {place : String} {r : Reference}
    (hd : '%' ∉ r.id.toList) (hp : r.id ∉ c.published) :
    ∃ i, idIssue? c place r.id = some i ∧ i.severity = .error := by
  unfold idIssue?
  simp only [hd, hp, if_false]
  split
  · exact ⟨_, rfl, rfl⟩
  · split <;> exact ⟨_, rfl, rfl⟩

/-- A reference whose id depends on a variable is found, as a warning. -/
theorem exists_dynamic_idIssue? {c : Context} {place : String} {r : Reference}
    (hd : '%' ∈ r.id.toList) :
    ∃ i, idIssue? c place r.id = some i ∧ i.severity = .warning ∧ i.code = "reference.dynamic" := by
  unfold idIssue?
  simp only [hd, if_true]
  exact ⟨_, rfl, rfl, rfl⟩

/-! ## Whole plans -/

/-- What the command `cmd` with index `k` is checked against. -/
def Context.at (c : Context) (cmds : List Command) (k : Nat) (cmd : Command) : Context :=
  { c with own := cmd.id, published := ((cmds.take k).map Command.id).reverse ++ c.published }

/-- Something is found in one of the texts. -/
def FoundIn (c : Context) (ts : List (String × String)) (i : Issue) : Prop :=
  ∃ place text is, (place, text) ∈ ts ∧ textIssues c place text = .ok is ∧ i ∈ is

section

variable {c : Context} {i : Issue}

theorem not_foundIn_nil : ¬ FoundIn c [] i := by
  rintro ⟨place, text, is, hm, -, -⟩
  cases hm

theorem foundIn_append {ts us : List (String × String)} :
    FoundIn c (ts ++ us) i ↔ FoundIn c ts i ∨ FoundIn c us i := by
  simp only [FoundIn, List.mem_append, or_and_right, exists_or]

mutual

/-- What is found in a value is found in its texts. -/
theorem mem_valueFindings_iff {place : String} {v : Value} {issues : List Issue}
    (h : valueFindings c place v = .ok issues) : i ∈ issues ↔ FoundIn c (texts place v) i := by
  cases v with
  | text s =>
      have hs : textIssues c place s = .ok issues := mapError_eq_ok_iff.mp h
      constructor
      · exact fun hi => ⟨place, s, issues, List.mem_singleton_self _, hs, hi⟩
      · rintro ⟨_, _, is, hm, his, hi⟩
        cases List.mem_singleton.mp hm
        cases his.symm.trans hs
        exact hi
  | list xs => exact mem_itemFindings_iff h
  | tuple xs => exact mem_itemFindings_iff h
  | map es => exact mem_entryFindings_iff h
  | _ =>
      cases h
      exact iff_of_false List.not_mem_nil not_foundIn_nil

theorem mem_itemFindings_iff {place : String} {n : Nat} {xs : List Value} {issues : List Issue}
    (h : itemFindings c place n xs = .ok issues) :
    i ∈ issues ↔ FoundIn c (itemTexts place n xs) i := by
  cases xs with
  | nil =>
      cases h
      exact iff_of_false List.not_mem_nil not_foundIn_nil
  | cons x xs =>
      obtain ⟨is, his, h⟩ := bind_eq_ok_iff.mp h
      obtain ⟨rest, hrest, h⟩ := bind_eq_ok_iff.mp h
      cases h
      rw [List.mem_append, mem_valueFindings_iff his, mem_itemFindings_iff hrest, itemTexts,
        foundIn_append]

theorem mem_entryFindings_iff {place : String} {es : List (Value × Value)} {issues : List Issue}
    (h : entryFindings c place es = .ok issues) :
    i ∈ issues ↔ FoundIn c (entryTexts place es) i := by
  cases es with
  | nil =>
      cases h
      exact iff_of_false List.not_mem_nil not_foundIn_nil
  | cons e es =>
      obtain ⟨k, x⟩ := e
      unfold entryFindings at h
      split at h
      · obtain ⟨is, his, h⟩ := bind_eq_ok_iff.mp h
        obtain ⟨rest, hrest, h⟩ := bind_eq_ok_iff.mp h
        cases h
        rw [List.mem_append, mem_valueFindings_iff his, mem_entryFindings_iff hrest, entryTexts,
          foundIn_append]
      · cases h

end

end

/-- The findings about commands are those about their texts, each checked against the
commands before its own. -/
theorem mem_commandsFindings_iff {c : Context} {n : Nat} {cmds : List Command}
    {issues : List Issue} (h : commandsFindings c n cmds = .ok issues) {i : Issue} :
    i ∈ issues ↔ ∃ k cmd, cmds[k]? = some cmd
      ∧ FoundIn (c.at cmds k cmd) (texts (paramsPlace (n + k)) cmd.params) i := by
  induction cmds generalizing c n issues with
  | nil => cases h; simp
  | cons cmd cmds ih =>
      obtain ⟨is, his, h⟩ := bind_eq_ok_iff.mp h
      obtain ⟨rest, hr, h⟩ := bind_eq_ok_iff.mp h
      cases h
      -- The context of a command behind the first is that of the list behind the first.
      have hshift (k : Nat) (cmd' : Command) :
          c.at (cmd :: cmds) (k + 1) cmd' =
            Context.at { c with published := cmd.id :: c.published } cmds k cmd' := by
        simp [Context.at]
      rw [List.mem_append, mem_valueFindings_iff his, ih hr]
      constructor
      · rintro (hi | ⟨k, cmd', hk, hi⟩)
        · exact ⟨0, cmd, rfl, hi⟩
        · refine ⟨k + 1, cmd', hk, ?_⟩
          rwa [hshift, ← Nat.add_assoc, Nat.add_right_comm]
      · rintro ⟨_ | k, cmd', hk, hi⟩
        · cases hk
          exact .inl hi
        · refine .inr ⟨k, cmd', hk, ?_⟩
          rwa [hshift, ← Nat.add_assoc, Nat.add_right_comm] at hi

end CallPlan.Plan
