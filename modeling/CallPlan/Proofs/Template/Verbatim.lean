import CallPlan.Proofs.Template.Writing

/-!
# Values stand in texts as they are

A text that is written from tokens becomes the values of the tokens in a row
(`spliceText_write`): values are put next to each other and never read, so markers in them
mean nothing. What can go wrong is that literals in a row make a variable together, which the
template then has although neither literal has it (`resolveText_fused`).
-/

namespace CallPlan

/-! ## Payloads -/

namespace Payload

/-- The text is one pair of angle brackets around something, and so names files. -/
def Named (text : String) : Prop :=
  ∃ inner, text.toList = '<' :: (inner ++ ['>']) ∧ inner ≠ [] ∧ '<' ∉ inner ∧ '>' ∉ inner

theorem named_of_inside? {text : String} {inner : List Char}
    (h : inside? text.toList = some inner) : Named text := by
  unfold inside? at h
  split at h
  · next rest htext =>
    split at h
    · next hlast =>
      simp only at h
      split at h
      · next hinner =>
        cases h
        refine ⟨rest.dropLast, ?_, hinner⟩
        rw [htext, List.dropLast_append_getLast? _ hlast]
      · cases h
    · cases h
  · cases h

theorem not_named_of_head? {text : String} (h : text.toList.head? ≠ some '<') : ¬ Named text := by
  rintro ⟨inner, hinner, -⟩
  exact h (by rw [hinner, List.head?_cons])

theorem paths?_of_not_named {text : String} (h : ¬ Named text) : paths? text = .ok none := by
  unfold paths?
  split
  · rfl
  · next inner hinner => exact absurd (named_of_inside? hinner) h

end Payload

namespace Template

open Sequencing Token

/-- A text that names no files is delivered as it is. -/
theorem deliver_of_not_named (scope : Scope) {text : String} (h : ¬ Payload.Named text) :
    deliver scope text = .ok (.text text) := by
  rw [deliver, Payload.paths?_of_not_named h]
  rfl

/-! ## Splicing -/

section

variable {scope : Scope}

theorem spliceAll_eq_ok_iff {ts : List Token} {s : String} :
    spliceAll scope ts = .ok s ↔
      ∃ vs, List.Forall₂ (fun t v => splice scope t = .ok v) ts vs ∧ String.join vs = s := by
  induction ts generalizing s with
  | nil => simp [spliceAll]
  | cons t ts ih =>
      simp only [spliceAll, bind_eq_ok_iff, pure_eq_ok_iff, ih]
      constructor
      · rintro ⟨v, hv, _, ⟨vs, hvs, rfl⟩, rfl⟩
        exact ⟨v :: vs, .cons hv hvs, String.join_cons⟩
      · rintro ⟨vs, hvs, rfl⟩
        cases hvs with
        | cons hv hvs => exact ⟨_, hv, _, ⟨_, hvs, rfl⟩, String.join_cons.symm⟩

theorem spliceAll_push (c : Char) (ts : List Token) :
    spliceAll scope (push c ts) = (spliceAll scope ts).map (String.ofList [c] ++ ·) := by
  unfold push
  split
  · next text ts =>
    have htext : String.ofList (c :: text.toList) = String.ofList [c] ++ text := by simp
    simp only [spliceAll, splice, htext]
    cases spliceAll scope ts with
    | ok s => simp [bind, Except.bind, pure, Except.pure, Except.map, String.append_assoc]
    | error c => rfl
  · simp only [spliceAll, splice]
    cases spliceAll scope ts <;> rfl

theorem spliceAll_foldr_push (cs : List Char) (ts : List Token) :
    spliceAll scope (cs.foldr push ts) =
      (spliceAll scope ts).map (String.ofList cs ++ ·) := by
  induction cs with
  | nil =>
      rw [List.foldr_nil]
      cases spliceAll scope ts <;> simp [Except.map]
  | cons c cs ih =>
      rw [List.foldr_cons, spliceAll_push, ih]
      cases spliceAll scope ts with
      | ok s =>
          have hcons : String.ofList (c :: cs) = String.ofList [c] ++ String.ofList cs := by simp
          simp [Except.map, hcons, String.append_assoc]
      | error c => rfl

/-- Joining literals changes nothing of what tokens become. -/
theorem spliceAll_joined (ts : List Token) :
    spliceAll scope (joined ts) = spliceAll scope ts := by
  induction ts with
  | nil => rfl
  | cons t ts ih =>
      cases t with
      | literal text =>
          rw [joined, spliceAll_foldr_push, ih, String.ofList_toList]
          simp only [spliceAll, splice]
          cases spliceAll scope ts <;> rfl
      | env name braced => rw [joined_cons rfl, spliceAll, spliceAll, ih]
      | reference r => rw [joined_cons rfl, spliceAll, spliceAll, ih]

end

/-- A text without markers is its own outcome, as it would be if it were read. -/
theorem spliceText_eq (scope : Scope) (text : String) :
    spliceText scope text = (tokenize text).mapError .cause >>= spliceAll scope := by
  unfold spliceText
  split
  · rfl
  · next hm =>
    have hmarkers : ∀ c ∈ text.toList, c ≠ '\x7b' ∧ c ≠ '%' := by
      simpa [hasMarkers] using hm
    have hchars : literalChars text.toList ++ [] = text.toList := by
      rw [List.append_nil, literalChars_of_not_mem fun h => (hmarkers _ h).1 rfl]
    have hread : tokens text.toList = .ok (text.toList.foldr push []) := by
      rw [← hchars, tokens_literalChars_append
        (fun h => (hmarkers _ (percent_mem_of_hasVariable h)).2 rfl) (by simp [EndsLiteral]),
        hchars, tokens.eq_1]
      rfl
    rw [tokenize, hread]
    show _ = spliceAll scope (text.toList.foldr push [])
    rw [spliceAll_foldr_push]
    simp [spliceAll, Except.map]

/-- A text that is written from tokens becomes what the tokens become, if they can be read once
their literals are joined. -/
theorem spliceText_write {scope : Scope} {ts : List Token} (h : ∀ t ∈ joined ts, t.Readable) :
    spliceText scope (Token.write ts) = spliceAll scope ts := by
  rw [spliceText_eq, tokenize, Token.write, String.toList_ofList, tokens_chars h,
    ← spliceAll_joined ts]
  rfl

/-- Such a text resolves to what is delivered for the text that its tokens become. -/
theorem resolveText_written {scope : Scope} {ts : List Token}
    (h : ∀ t ∈ joined ts, t.Readable) :
    resolveText scope (Token.write ts) =
      spliceAll scope ts >>= deliver scope := by
  rw [resolveText, spliceText_write h]

/-! ## Literals in a row -/

/-- No variable comes about where literals stand in a row: together they have none. -/
def Unfused (ts : List Token) : Prop :=
  ∀ texts : List String, texts.map .literal <:+: ts → ¬ HasVariable (texts.flatMap String.toList)

theorem Unfused.tail {t : Token} {ts : List Token} (h : Unfused (t :: ts)) : Unfused ts :=
  fun texts hi => h texts (hi.trans (List.suffix_cons ..).isInfix)

/-- Tokens are readable once they are joined, also behind text that makes no variable with the
literals that come first. -/
theorem readable_foldr_push {ts : List Token} (cs : List Char)
    (hfirst : ∀ texts : List String, texts.map .literal <+: ts →
      ¬ HasVariable (cs ++ texts.flatMap String.toList))
    (hrow : Unfused ts) (h : ∀ t ∈ ts, t.isLiteral = false → t.Readable) :
    ∀ t ∈ cs.foldr push (joined ts), t.Readable := by
  have hcs : ¬ HasVariable cs := by simpa using hfirst [] (by simp)
  induction ts generalizing cs with
  | nil => exact (forall_readable_foldr_push_iff (by simp [joined])).mpr ⟨hcs, by simp [joined]⟩
  | cons t ts ih =>
      obtain ⟨ht, hts⟩ := List.forall_mem_cons.mp h
      cases hl : t.isLiteral with
      | true =>
          cases t with
          | literal text =>
              have hnext (texts : List String) (hp : texts.map .literal <+: ts) :
                  ¬ HasVariable (cs ++ text.toList ++ texts.flatMap String.toList) := by
                simpa using hfirst (text :: texts) (List.cons_prefix_cons.mpr ⟨rfl, hp⟩)
              rw [joined, ← List.foldr_append]
              exact ih _ hnext hrow.tail hts (by simpa using hnext [] (by simp))
          | env name braced => cases hl
          | reference r => cases hl
      | false =>
          rw [joined_cons hl]
          have hrest : ∀ u ∈ joined ts, u.Readable :=
            ih [] (fun texts hp => hrow.tail texts hp.isInfix) hrow.tail hts
              not_hasVariable_nil
          exact (forall_readable_foldr_push_iff (by simpa using hl)).mpr
            ⟨hcs, List.forall_mem_cons.mpr ⟨ht hl, hrest⟩⟩

theorem readable_joined {ts : List Token} (hrow : Unfused ts)
    (h : ∀ t ∈ ts, t.isLiteral = false → t.Readable) : ∀ t ∈ joined ts, t.Readable :=
  readable_foldr_push [] (fun texts hp => hrow texts hp.isInfix) hrow h

/-! ## What tokens stand for -/

/-- The name is a part of a reference in which nothing is expanded. -/
structure IsPlain (name : String) : Prop where
  component : IsComponent name
  constant : ¬ HasVariable name.toList

/-- The result that has been published under an id has a value in a field. -/
def Publishes (scope : Scope) (id field : String) (v : Value) : Prop :=
  ∃ result, scope.results id = some result ∧ result.field? field = some v

/-- A token stands for a text: a literal for itself, a variable in braces for its value, and
a reference to a field that holds a text for that text. -/
inductive StandsFor (scope : Scope) : Token → String → Prop
  | literal (text : String) : StandsFor scope (.literal text) text
  | env {name v : String} (isName : isName name.toList = true)
      (set : scope.environ name = some v) : StandsFor scope (.env name true) v
  | field {id field v : String} (id_isPlain : IsPlain id) (unescaped : id.toList.head? ≠ some '!')
      (field_isPlain : IsPlain field) (published : Publishes scope id field (.text v)) :
      StandsFor scope (.reference ⟨id, field, none⟩) v

section

variable {scope : Scope}

theorem splice_reference {id field v : String} (hid : IsPlain id) (hfield : IsPlain field)
    (hp : Publishes scope id field (.text v)) :
    splice scope (.reference ⟨id, field, none⟩) = .ok v := by
  obtain ⟨result, hresult, hv⟩ := hp
  have hlookup : scope.result id = .ok result := by rw [Scope.result, hresult]
  have hfieldOf : fieldOf result field id = .ok (.text v) := by rw [fieldOf, hv]
  have hfollow : follow scope ⟨id, field, none⟩ = .ok (.text v) := by
    simp only [follow, target, expand_of_not_hasVariable scope hid.constant,
      expand_of_not_hasVariable scope hfield.constant, ok_bind, hlookup, hfieldOf]
    rfl
  rw [splice, hfollow]
  rfl

theorem StandsFor.splice_eq {t : Token} {v : String} (h : StandsFor scope t v) :
    splice scope t = .ok v := by
  cases h with
  | literal => rfl
  | env _ set =>
      rw [splice, Scope.env, set]
      rfl
  | field hid _ hfield hp => exact splice_reference hid hfield hp

theorem StandsFor.readable {t : Token} {v : String} (h : StandsFor scope t v)
    (hl : t.isLiteral = false) : t.Readable := by
  cases h with
  | literal => cases hl
  | env isName _ => exact ⟨rfl, isName⟩
  | field hid unescaped hfield _ =>
      exact ⟨hid.component, unescaped, hfield.component, nofun⟩

theorem exists_standsFor {ts : List Token} {vs : List String}
    (h : List.Forall₂ (StandsFor scope) ts vs) {t : Token} (ht : t ∈ ts) :
    ∃ v, StandsFor scope t v := by
  induction h with
  | nil => cases ht
  | cons first _ ih =>
      rcases List.mem_cons.mp ht with rfl | ht
      · exact ⟨_, first⟩
      · exact ih ht

/-- **Values stand in texts as they are.** A text that is written from literals, variables in
braces and references to texts resolves to what these stand for in a row, whatever characters
that has in it. Literals in a row must have no variable together, and the whole must not name
files. -/
theorem resolveText_write {ts : List Token} {vs : List String}
    (h : List.Forall₂ (StandsFor scope) ts vs) (hrow : Unfused ts)
    (hn : ¬ Payload.Named (String.join vs)) :
    resolveText scope (Token.write ts) = .ok (.text (String.join vs)) := by
  have hreadable : ∀ t ∈ ts, t.isLiteral = false → t.Readable := by
    intro t ht hl
    obtain ⟨v, hv⟩ := exists_standsFor h ht
    exact hv.readable hl
  have hspliced : spliceAll scope ts = .ok (String.join vs) :=
    spliceAll_eq_ok_iff.mpr ⟨vs, h.imp fun _ _ => StandsFor.splice_eq, rfl⟩
  rw [resolveText_written (readable_joined hrow hreadable), hspliced]
  exact deliver_of_not_named scope hn

end

/-! ## Markers in values, and literals that make a variable -/

/-- A scope whose only variable and only result hold markers. -/
def markedScope : Scope where
  results id := if id = "r" then some (.record [("f", .text "%N%\x7d\x7b!")]) else none
  environ name := if name = "N" then some "\x7br.f\x7d" else none
  files := .empty
  base := .ok ⟨.relative, []⟩
  project := .shipped

def markedTokens : List Token :=
  [.env "N" true, .reference ⟨"r", "f", none⟩, .literal "100%", .literal "\x7b"]

theorem standsFor_markedTokens :
    List.Forall₂ (StandsFor markedScope) markedTokens
      ["\x7br.f\x7d", "%N%\x7d\x7b!", "100%", "\x7b"] := by
  have hr : IsPlain "r" := ⟨by decide, by decide⟩
  have hf : IsPlain "f" := ⟨by decide, by decide⟩
  exact .cons (.env (by decide) rfl)
    (.cons (.field hr (by decide) hf ⟨_, rfl, rfl⟩)
      (.cons (.literal _) (.cons (.literal _) .nil)))

theorem unfused_markedTokens : Unfused markedTokens := by
  intro texts h
  have hrow : texts ∈ [[], ["100%"], ["100%", "\x7b"], ["\x7b"]] := by
    simp only [markedTokens, List.infix_cons_iff, List.prefix_cons_iff, List.map_eq_nil_iff,
      List.map_eq_cons_iff] at h
    simp at h
    grind
  have hnone : ∀ texts ∈ [[], ["100%"], ["100%", "\x7b"], ["\x7b"]],
      ¬ HasVariable (texts.flatMap String.toList) := by
    decide
  exact hnone texts hrow

/-- The markers in the values are left alone. -/
theorem resolveText_write_markedTokens :
    resolveText markedScope (Token.write markedTokens) =
      .ok (.text "\x7br.f\x7d%N%\x7d\x7b!100%\x7b") := by
  have hn : ¬ Payload.Named (String.join ["\x7br.f\x7d", "%N%\x7d\x7b!", "100%", "\x7b"]) :=
    Payload.not_named_of_head? (by decide)
  exact resolveText_write standsFor_markedTokens unfused_markedTokens hn

/-- Two literals without variables that make one when they are written in a row: the text
resolves to the value of that variable, and not to the literals. -/
theorem resolveText_fused :
    ¬ HasVariable "%N".toList ∧ ¬ HasVariable "%".toList
      ∧ List.Forall₂ (StandsFor markedScope) [.literal "%N", .literal "%"] ["%N", "%"]
      ∧ ¬ Payload.Named (String.join ["%N", "%"])
      ∧ resolveText markedScope (Token.write [.literal "%N", .literal "%"]) =
        .ok (.text "\x7br.f\x7d") := by
  exact ⟨by decide, by decide, .cons (.literal _) (.cons (.literal _) .nil),
    Payload.not_named_of_head? (by decide), by cbv⟩

end Template

end CallPlan
