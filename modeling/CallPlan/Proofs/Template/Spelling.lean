import Mathlib.Data.List.Chain
import CallPlan.Proofs.Template.Variables

/-!
# Texts and the tokens read from them

Reading loses nothing and invents nothing: a text is its tokens' written forms in a row,
but for what stands between an opening bracket and the first dollar sign behind it, which
means nothing (`spelled_tokens`). The tokens are as few as they can be: no literal is empty,
and no literal stands next to another (`separate_tokens`). Nothing has been overlooked: no
literal has a variable left in it (`not_hasVariable_of_mem_tokens`).
-/

namespace CallPlan

namespace Token

def isLiteral : Token → Bool
  | .literal _ => true
  | _ => false

/-- The characters are the written form of the token. Where the token names an element by a
key, its written form may have characters that mean nothing in front of the first dollar
sign. -/
inductive Spells : Token → List Char → Prop
  | exact (t : Token) : Spells t t.chars
  | ignoring (id field key wanted sub : String) (ignored : List Char)
      (h : ∀ c ∈ ignored, c ∉ ['$', '[', ']', '\x7d']) :
      Spells (.reference ⟨id, field, some (.entry key wanted, sub)⟩)
        ('\x7b' :: (id.toList ++ '.' :: (field.toList ++ '[' :: (ignored ++
          ((Selector.entry key wanted).chars ++ ']' :: '.' :: (sub.toList ++ ['\x7d']))))))

/-- The characters are written forms of the tokens in a row. -/
inductive Spelled : List Token → List Char → Prop
  | nil : Spelled [] []
  | cons {t : Token} {ts : List Token} {front behind : List Char} (first : t.Spells front)
      (rest : Spelled ts behind) : Spelled (t :: ts) (front ++ behind)

theorem Spelled.exists_part {ts : List Token} {cs : List Char} (h : Spelled ts cs) {t : Token}
    (ht : t ∈ ts) : ∃ front, t.Spells front ∧ front <:+: cs := by
  induction h with
  | nil => cases ht
  | @cons _ _ front behind first rest ih =>
      rcases List.mem_cons.mp ht with rfl | ht
      · exact ⟨front, first, (List.prefix_append ..).isInfix⟩
      · obtain ⟨part, hs, hi⟩ := ih ht
        exact ⟨part, hs, hi.trans (List.suffix_append ..).isInfix⟩

/-- No token is an empty literal, and no two literals stand next to each other. -/
structure Separate (ts : List Token) : Prop where
  nonempty : .literal "" ∉ ts
  apart : ts.IsChain fun t u => ¬ (t.isLiteral = true ∧ u.isLiteral = true)

theorem Separate.nil : Separate [] :=
  ⟨by simp, by simp⟩

theorem Separate.cons {t : Token} {ts : List Token} (ht : t.isLiteral = false)
    (h : Separate ts) : Separate (t :: ts) where
  nonempty := by
    rintro (_ | ⟨_, hm⟩)
    · cases ht
    · exact h.nonempty hm
  apart := List.isChain_cons.mpr ⟨by simp [ht], h.apart⟩

end Token

namespace Template

open Sequencing Token

/-! ## Directives -/

theorem eq_of_parts? {cs id field : List Char} (h : parts? cs = some (id, field)) :
    cs = id ++ '.' :: field :=
  (eq_of_cut? (Option.filter_eq_some_iff.mp h).1).1

theorem eq_of_sub? {cs : List Char} {sub : String} (h : sub? cs = some sub) :
    cs = '.' :: sub.toList := by
  unfold sub? at h
  split at h
  · split at h <;> cases h
    simp
  · cases h

/-- Brackets hold an index, or a key and a value behind characters that mean nothing. -/
theorem eq_of_selector? {inner : List Char} {s : Selector} (h : selector? inner = some s) :
    inner = s.chars ∨ ∃ ignored key wanted,
      s = .entry key wanted ∧ '$' ∉ ignored ∧ inner = ignored ++ s.chars := by
  unfold selector? at h
  split at h
  · cases h
    exact .inl (by simp [Selector.chars])
  · next ignored behind hcut =>
    obtain ⟨rfl, hn⟩ := eq_of_cut? hcut
    split at h
    · cases h
    · cases h
    · next key wanted _ hkey =>
      cases h
      obtain ⟨rfl, -⟩ := eq_of_cut? hkey
      exact .inr ⟨ignored, _, _, rfl, hn, by simp [Selector.chars]⟩

/-- A reference to a field is its written form; one to an element has what its brackets hold
between the written forms of its other parts. -/
theorem eq_of_reference? {body : List Char} {r : Reference} (h : reference? body = some r) :
    (r.element = none ∧ body = r.chars)
      ∨ ∃ s sub inner, r.element = some (s, sub) ∧ selector? inner = some s
        ∧ '[' ∉ inner ∧ ']' ∉ inner
        ∧ body = r.id.toList ++ '.' :: (r.field.toList ++ '[' :: (inner ++ ']' :: '.' ::
          sub.toList)) := by
  unfold reference? at h
  split at h
  · obtain ⟨⟨id, field⟩, hp, rfl⟩ := Option.map_eq_some_iff.mp h
    exact .inl ⟨rfl, by simp [Reference.chars, eq_of_parts? hp]⟩
  · next front behind hcut =>
    obtain ⟨rfl, -⟩ := eq_of_cut? hcut
    obtain ⟨⟨id, field⟩, hp, hfront⟩ := Option.bind_eq_some_iff.mp h
    obtain ⟨⟨inner, tail⟩, hinner, hbehind⟩ := Option.bind_eq_some_iff.mp hfront
    obtain ⟨rfl, hclose⟩ := eq_of_cut? hinner
    simp only at hbehind
    split at hbehind
    · cases hbehind
    · next hopen =>
      obtain ⟨s, hs, hbehind⟩ := Option.bind_eq_some_iff.mp hbehind
      obtain ⟨sub, hsub, hbehind⟩ := Option.bind_eq_some_iff.mp hbehind
      cases hbehind
      refine .inr ⟨s, sub, inner, rfl, hs, hopen, hclose, ?_⟩
      simp [eq_of_parts? hp, eq_of_sub? hsub]

theorem eq_of_bracedName? {body : List Char} {name : String} (h : bracedName? body = some name) :
    body = envChars name ∧ isName name.toList = true := by
  unfold bracedName? at h
  split at h
  · split at h
    · next rest _ hname =>
      cases h
      obtain ⟨hcut, hn⟩ := Option.filter_eq_some_iff.mp hname
      obtain ⟨rfl, -⟩ := eq_of_cut? hcut
      exact ⟨by simp [envChars], by simpa using hn⟩
    · cases h
  · cases h

/-- A directive is a written form of its token. -/
theorem spells_of_directive {body : List Char} {t : Token} (h : directive body = .ok t)
    (hb : '\x7d' ∉ body) : t.Spells ('\x7b' :: (body ++ ['\x7d'])) := by
  unfold directive at h
  split at h
  · next name hname =>
    cases h
    rw [(eq_of_bracedName? hname).1]
    exact .exact (.env name true)
  · split at h
    · next r hr =>
      cases h
      rcases eq_of_reference? hr with ⟨-, rfl⟩ | ⟨s, sub, inner, he, hs, hopen, hclose, rfl⟩
      · exact .exact (.reference r)
      · obtain ⟨id, field, element⟩ := r
        obtain rfl := he
        rcases eq_of_selector? hs with rfl | ⟨ignored, key, wanted, rfl, hdollar, rfl⟩
        · simpa [Token.chars, Reference.chars] using
            Spells.exact (.reference ⟨id, field, some (s, sub)⟩)
        · simp only [List.mem_append, List.mem_cons, not_or] at hb hopen hclose
          simpa using Spells.ignoring id field key wanted sub ignored (by grind)
    · cases h

theorem isLiteral_of_directive {body : List Char} {t : Token} (h : directive body = .ok t) :
    t.isLiteral = false := by
  unfold directive at h
  split at h
  · cases h
    rfl
  · split at h <;> cases h
    rfl

/-! ## Texts -/

theorem literalChars_cons (c : Char) (cs : List Char) :
    literalChars (c :: cs) = literalChars [c] ++ literalChars cs := by
  simp [literalChars]

theorem literalChars_of_ne {c : Char} (h : c ≠ '\x7b') : literalChars [c] = [c] := by
  simp [literalChars, h]

theorem literalChars_of_not_mem {cs : List Char} (h : '\x7b' ∉ cs) : literalChars cs = cs := by
  induction cs with
  | nil => rfl
  | cons c cs ih =>
      simp only [List.mem_cons, not_or] at h
      rw [literalChars_cons, literalChars_of_ne (Ne.symm h.1), ih h.2]
      rfl

theorem spelled_push {ts : List Token} {cs : List Char} (h : Spelled ts cs) (c : Char) :
    Spelled (push c ts) (literalChars [c] ++ cs) := by
  unfold push
  split
  · next text ts =>
    cases h with
    | cons first rest =>
        cases first with
        | exact =>
            have hs := Spells.exact (.literal (String.ofList (c :: text.toList)))
            simp only [Token.chars, String.toList_ofList] at hs ⊢
            rw [literalChars_cons] at hs
            rw [← List.append_assoc]
            exact .cons hs rest
  · have hs := Spells.exact (.literal (String.ofList [c]))
    simp only [Token.chars, String.toList_ofList] at hs
    exact .cons hs h

theorem separate_push {ts : List Token} (h : Separate ts) (c : Char) : Separate (push c ts) := by
  have hne (text : String) : String.ofList (c :: text.toList) ≠ "" := by
    intro he
    simpa using congrArg String.toList he
  unfold push
  split
  · next text ts =>
    obtain ⟨hempty, hchain⟩ := h
    refine ⟨?_, ?_⟩
    · rintro hm
      rcases List.mem_cons.mp hm with he | hm
      · exact hne text (Token.literal.inj he).symm
      · exact hempty (List.mem_cons_of_mem _ hm)
    · exact List.isChain_cons.mpr (List.isChain_cons.mp hchain)
  · next hnot =>
    refine ⟨?_, List.isChain_cons.mpr ⟨?_, h.apart⟩⟩
    · rintro hm
      rcases List.mem_cons.mp hm with he | hm
      · exact hne "" (Token.literal.inj he).symm
      · exact h.nonempty hm
    · rintro t ht ⟨-, hliteral⟩
      cases t with
      | literal text =>
          obtain ⟨us, rfl⟩ := List.head?_eq_some_iff.mp ht
          exact hnot text us rfl
      | env name braced => cases hliteral
      | reference r => cases hliteral

/-- What is read from a text is what it spells. -/
theorem spelled_tokens {cs : List Char} {ts : List Token} (h : tokens cs = .ok ts) :
    Spelled ts cs := by
  fun_induction tokens cs generalizing ts with
  | case1 =>
      cases h
      exact .nil
  | case2 rest ih =>
      obtain ⟨us, hus, rfl⟩ := map_eq_ok_iff.mp h
      exact spelled_push (ih hus) '\x7b'
  | case3 rest _ _ => cases h
  | case4 rest _ body behind hcut ih =>
      obtain ⟨t, ht, h⟩ := bind_eq_ok_iff.mp h
      obtain ⟨us, hus, h⟩ := bind_eq_ok_iff.mp h
      cases h
      obtain ⟨rfl, hb⟩ := eq_of_cut? hcut
      simpa using Spelled.cons (spells_of_directive ht hb) (ih hus)
  | case5 rest _ ih =>
      obtain ⟨us, hus, rfl⟩ := map_eq_ok_iff.mp h
      exact spelled_push (ih hus) '%'
  | case6 rest name behind hname ih =>
      obtain ⟨us, hus, h⟩ := bind_eq_ok_iff.mp h
      cases h
      obtain ⟨rfl, -⟩ := eq_of_cut? (Option.filter_eq_some_iff.mp hname).1
      simpa [Token.chars, envChars] using
        Spelled.cons (Spells.exact (.env (String.ofList name) false)) (ih hus)
  | case7 c rest _ hbrace _ ih =>
      obtain ⟨us, hus, rfl⟩ := map_eq_ok_iff.mp h
      simpa [literalChars_of_ne hbrace] using spelled_push (ih hus) c

theorem separate_tokens {cs : List Char} {ts : List Token} (h : tokens cs = .ok ts) :
    Separate ts := by
  fun_induction tokens cs generalizing ts with
  | case1 =>
      cases h
      exact .nil
  | case2 rest ih | case5 rest _ ih | case7 _ rest _ _ _ ih =>
      obtain ⟨us, hus, rfl⟩ := map_eq_ok_iff.mp h
      exact separate_push (ih hus) _
  | case3 rest _ _ => cases h
  | case4 rest _ body behind _ ih =>
      obtain ⟨t, ht, h⟩ := bind_eq_ok_iff.mp h
      obtain ⟨us, hus, h⟩ := bind_eq_ok_iff.mp h
      cases h
      exact .cons (isLiteral_of_directive ht) (ih hus)
  | case6 rest name behind _ ih =>
      obtain ⟨us, hus, h⟩ := bind_eq_ok_iff.mp h
      cases h
      exact .cons rfl (ih hus)

/-! ## What is left in literals -/

/-- The text of the literal that comes first, if one does. -/
def leadingText : List Token → List Char
  | .literal text :: _ => text.toList
  | _ => []

theorem eq_or_mem_of_mem_push {c : Char} {ts : List Token} {text : String}
    (h : .literal text ∈ push c ts) :
    text.toList = c :: leadingText ts ∨ .literal text ∈ ts := by
  unfold push at h
  split at h
  · rcases List.mem_cons.mp h with he | hm
    · exact .inl (by simp [Token.literal.inj he, leadingText])
    · exact .inr (List.mem_cons_of_mem _ hm)
  · next hnot =>
    rcases List.mem_cons.mp h with he | hm
    · refine .inl ?_
      rw [leadingText]
      · simp [Token.literal.inj he]
      · exact hnot
    · exact .inr hm

theorem exists_leadingText_append {ts : List Token} {cs : List Char} (h : Spelled ts cs) :
    ∃ behind, cs = literalChars (leadingText ts) ++ behind := by
  cases h with
  | nil => exact ⟨[], rfl⟩
  | @cons t ts front behind first rest =>
      cases t with
      | literal text =>
          cases first
          exact ⟨behind, rfl⟩
      | env name braced => exact ⟨front ++ behind, rfl⟩
      | reference r => exact ⟨front ++ behind, rfl⟩

theorem not_hasVariable_leadingText {ts : List Token}
    (h : ∀ text, .literal text ∈ ts → ¬ HasVariable text.toList) :
    ¬ HasVariable (leadingText ts) := by
  unfold leadingText
  split
  · exact h _ (List.mem_cons_self ..)
  · exact not_hasVariable_nil

theorem not_hasVariable_of_mem_push {c : Char} {ts : List Token}
    (hc : c = '%' → name? (leadingText ts) = none)
    (h : ∀ text, .literal text ∈ ts → ¬ HasVariable text.toList) :
    ∀ text, .literal text ∈ push c ts → ¬ HasVariable text.toList := by
  intro text ht
  rcases eq_or_mem_of_mem_push ht with he | hm
  · rw [he, hasVariable_cons_iff]
    rintro (⟨rfl, hsome⟩ | hv)
    · simp [hc rfl] at hsome
    · exact not_hasVariable_leadingText h hv
  · exact h text hm

/-- A name that ends in a written literal ends in the literal itself. -/
theorem name?_eq_none_of_literalChars {cs behind : List Char}
    (h : name? (literalChars cs ++ behind) = none) : name? cs = none := by
  cases hn : name? cs with
  | none => rfl
  | some found =>
      obtain ⟨rfl, hname⟩ := name?_eq_some_iff.mp hn
      have hchars : literalChars (found.1 ++ '%' :: found.2) ++ behind =
          found.1 ++ '%' :: (literalChars found.2 ++ behind) := by
        have hsame := literalChars_of_not_mem (not_mem_of_isName hname (c := '\x7b') rfl)
        simp only [literalChars, List.flatMap_append, List.flatMap_cons] at hsame ⊢
        simp [hsame]
      rw [hchars, name?_eq_some_iff.mpr ⟨rfl, hname⟩] at h
      cases h

theorem not_hasVariable_of_mem_tokens {cs : List Char} {ts : List Token}
    (h : tokens cs = .ok ts) : ∀ text, .literal text ∈ ts → ¬ HasVariable text.toList := by
  fun_induction tokens cs generalizing ts with
  | case1 =>
      cases h
      simp
  | case2 rest ih =>
      obtain ⟨us, hus, rfl⟩ := map_eq_ok_iff.mp h
      exact not_hasVariable_of_mem_push (fun hc => absurd hc (by decide)) (ih hus)
  | case3 rest _ _ => cases h
  | case4 rest _ body behind _ ih =>
      obtain ⟨t, ht, h⟩ := bind_eq_ok_iff.mp h
      obtain ⟨us, hus, h⟩ := bind_eq_ok_iff.mp h
      cases h
      intro text hm
      rcases List.mem_cons.mp hm with rfl | hm
      · cases isLiteral_of_directive ht
      · exact ih hus text hm
  | case5 rest hnone ih =>
      obtain ⟨us, hus, rfl⟩ := map_eq_ok_iff.mp h
      obtain ⟨behind, hrest⟩ := exists_leadingText_append (spelled_tokens hus)
      rw [hrest] at hnone
      exact not_hasVariable_of_mem_push (fun _ => name?_eq_none_of_literalChars hnone) (ih hus)
  | case6 rest name behind _ ih =>
      obtain ⟨us, hus, h⟩ := bind_eq_ok_iff.mp h
      cases h
      intro text hm
      exact ih hus text (by simpa using hm)
  | case7 c rest _ _ hpercent ih =>
      obtain ⟨us, hus, rfl⟩ := map_eq_ok_iff.mp h
      exact not_hasVariable_of_mem_push (fun hc => absurd hc hpercent) (ih hus)

/-- **Reading loses nothing and invents nothing.** What is read from a text spells it; no
literal among it is empty, stands next to another, or has a variable left in it. -/
theorem spelled_of_tokenize {text : String} {ts : List Token} (h : tokenize text = .ok ts) :
    Spelled ts text.toList ∧ Separate ts
      ∧ ∀ s, .literal s ∈ ts → ¬ HasVariable s.toList :=
  ⟨spelled_tokens h, separate_tokens h, not_hasVariable_of_mem_tokens h⟩

/-- A text with a literal brace, a variable, and brackets with something to pass over. -/
theorem spelled_of_tokenize_passedOver :
    let ts := [.literal "a\x7b", .env "B" false,
      .reference ⟨"r", "f", some (.entry "k" "v", "g")⟩]
    Spelled ts "a\x7b!%B%\x7br.f[x$k$v].g\x7d".toList ∧ Separate ts :=
  have h : tokenize "a\x7b!%B%\x7br.f[x$k$v].g\x7d" = .ok [.literal "a\x7b", .env "B" false,
      .reference ⟨"r", "f", some (.entry "k" "v", "g")⟩] := by
    cbv
  ⟨(spelled_of_tokenize h).1, (spelled_of_tokenize h).2.1⟩

end Template

end CallPlan
