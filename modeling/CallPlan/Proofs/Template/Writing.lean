import CallPlan.Proofs.Template.Spelling
import CallPlan.Proofs.Template.Variables

/-!
# Reading what has been written

Tokens that can be read (`Readable`) are read again from their written form, where literals
in a row come back as one (`tokens_chars`). This is an induction over the tokens that carries
the literal text which has been written in front of them but not ended yet: only a brace ends
it. Literals that are joined may make a variable together, so what counts is that they have
none once they are joined.
-/

namespace CallPlan

/-! ## Tokens that can be read -/

/-- The name can stand as a part of a reference: it is not empty and has no character that
ends a part. -/
def IsComponent (s : String) : Prop :=
  s ≠ "" ∧ ∀ c ∈ s.toList, c ∉ ['.', '[', ']', '\x7d']

-- The characters of the text are looked at, and not all characters there are.
instance (s : String) : Decidable (IsComponent s) :=
  @instDecidableAnd _ _ _ (List.decidableBAll _ _)

namespace Selector

/-- The selector can be read between brackets. -/
def Readable : Selector → Prop
  | .index text => ∀ c ∈ text.toList, c ∉ ['[', ']', '\x7d', '$']
  | .entry key wanted =>
    key ≠ "" ∧ (∀ c ∈ key.toList, c ∉ ['[', ']', '\x7d', '$']) ∧
      ∀ c ∈ wanted.toList, c ∉ ['[', ']', '\x7d']

instance : (s : Selector) → Decidable s.Readable
  | .index _ => List.decidableBAll _ _
  | .entry _ _ =>
    @instDecidableAnd _ _ _ (@instDecidableAnd _ _ (List.decidableBAll _ _) (List.decidableBAll _ _))

theorem Readable.not_mem {s : Selector} (h : s.Readable) {c : Char}
    (hc : c ∈ ['[', ']', '\x7d']) : c ∉ s.chars := by
  cases s with
  | index text =>
      intro hm
      have hno := h c hm
      grind
  | entry key wanted =>
      obtain ⟨-, hkey, hwanted⟩ := h
      simp only [chars, List.mem_cons, List.mem_append, not_or]
      refine ⟨?_, fun hm => ?_, ?_, fun hm => hwanted c hm hc⟩
      · rintro rfl
        simp at hc
      · have hno := hkey c hm
        grind
      · rintro rfl
        simp at hc

end Selector

/-- The reference can be read between braces: its id does not make the brace in front of it
a literal one. -/
structure Reference.Readable (r : Reference) : Prop where
  id : IsComponent r.id
  unescaped : r.id.toList.head? ≠ some '!'
  field : IsComponent r.field
  element : ∀ e ∈ r.element, e.1.Readable ∧ IsComponent e.2

instance (r : Reference) : Decidable r.Readable :=
  decidable_of_iff
    (IsComponent r.id ∧ r.id.toList.head? ≠ some '!' ∧ IsComponent r.field ∧
      ∀ e ∈ r.element, e.1.Readable ∧ IsComponent e.2)
    ⟨fun ⟨hid, hfirst, hfield, helement⟩ => ⟨hid, hfirst, hfield, helement⟩,
      fun ⟨hid, hfirst, hfield, helement⟩ => ⟨hid, hfirst, hfield, helement⟩⟩

namespace Token

/-- The token can be read again from its written form. Variables are written in braces. -/
def Readable : Token → Prop
  | .literal text => ¬ Template.HasVariable text.toList
  | .env name braced => braced = true ∧ Template.isName name.toList = true
  | .reference r => r.Readable

instance : (t : Token) → Decidable t.Readable
  | .literal _ => inferInstanceAs (Decidable (¬ _))
  | .env _ _ => inferInstanceAs (Decidable (_ ∧ _))
  | .reference r => inferInstanceAs (Decidable r.Readable)

/-- The tokens with literals in a row made one, and without empty literals. -/
def joined : List Token → List Token
  | [] => []
  | .literal text :: ts => text.toList.foldr Template.push (joined ts)
  | t :: ts => t :: joined ts

end Token

namespace Template

open Sequencing Token

/-! ## Directives -/

theorem isPart_of_isComponent {s : String} (h : IsComponent s) : isPart s.toList = true := by
  obtain ⟨hne, hall⟩ := h
  simp only [isPart, Bool.and_eq_true, Bool.not_eq_true', List.isEmpty_eq_false_iff,
    List.all_eq_true, decide_eq_true_eq]
  refine ⟨by simpa using hne, fun c hc => ?_⟩
  have hno := hall c hc
  grind

theorem not_mem_of_isComponent {s : String} (h : IsComponent s) {c : Char}
    (hc : c ∈ ['.', '[', ']', '\x7d']) : c ∉ s.toList :=
  fun hm => h.2 c hm hc

theorem parts?_chars {id field : String} (hid : IsComponent id) (hfield : IsComponent field) :
    parts? (id.toList ++ '.' :: field.toList) = some (id.toList, field.toList) := by
  rw [parts?, cut?_append (not_mem_of_isComponent hid (by simp))]
  simp [isPart_of_isComponent hid, isPart_of_isComponent hfield]

theorem selector?_chars {s : Selector} (h : s.Readable) : selector? s.chars = some s := by
  cases s with
  | index text =>
      have hdollar : '$' ∉ text.toList := fun hm => by simpa using h '$' hm
      simp [selector?, Selector.chars, cut?_eq_none_iff.mpr hdollar]
  | entry key wanted =>
      obtain ⟨hne, hkey, -⟩ := h
      have hdollar : '$' ∉ key.toList := fun hm => by simpa using hkey '$' hm
      have hcut := cut?_append hdollar wanted.toList
      have hfirst : cut? '$' (Selector.entry key wanted).chars =
          some ([], key.toList ++ '$' :: wanted.toList) := by
        simp [Selector.chars, cut?]
      simp [selector?, hfirst, hcut, hne]

theorem sub?_chars {sub : String} (h : IsComponent sub) :
    sub? ('.' :: sub.toList) = some sub := by
  simp [sub?, isPart_of_isComponent h]

theorem reference?_chars {r : Reference} (h : r.Readable) : reference? r.chars = some r := by
  obtain ⟨id, field, element⟩ := r
  obtain ⟨hid, -, hfield, helement⟩ := h
  have hfront : '[' ∉ id.toList ++ '.' :: field.toList := by
    simp [not_mem_of_isComponent hid, not_mem_of_isComponent hfield]
  cases element with
  | none =>
      simp [reference?, Reference.chars, cut?_eq_none_iff.mpr hfront, parts?_chars hid hfield]
  | some e =>
      obtain ⟨s, sub⟩ := e
      obtain ⟨hs, hsub⟩ := helement (s, sub) rfl
      have hchars : (Reference.mk id field (some (s, sub))).chars =
          (id.toList ++ '.' :: field.toList) ++ '[' :: (s.chars ++ ']' :: '.' :: sub.toList) := by
        simp [Reference.chars]
      have hopen : '[' ∉ s.chars := hs.not_mem (by simp)
      rw [reference?, hchars, cut?_append hfront]
      simp [parts?_chars hid hfield, cut?_append (hs.not_mem (c := ']') (by simp)), hopen,
        selector?_chars hs, sub?_chars hsub]

/-- A reference has a point in it, and no name has. -/
theorem bracedName?_chars (r : Reference) : bracedName? r.chars = none := by
  cases hbraced : bracedName? r.chars with
  | none => rfl
  | some name =>
      obtain ⟨heq, hname⟩ := eq_of_bracedName? hbraced
      have hpoint : '.' ∈ envChars name := heq ▸ by simp [Reference.chars]
      have hno : '.' ∉ name.toList := not_mem_of_isName hname rfl
      simp [envChars, hno] at hpoint

theorem bracedName?_envChars {name : String} (h : isName name.toList = true) :
    bracedName? (envChars name) = some name := by
  have hname : name? (name.toList ++ ['%']) = some (name.toList, []) :=
    name?_eq_some_iff.mpr ⟨rfl, h⟩
  simp [bracedName?, envChars, hname]

theorem not_mem_chars_of_readable {r : Reference} (h : r.Readable) : '\x7d' ∉ r.chars := by
  obtain ⟨id, field, element⟩ := r
  obtain ⟨hid, -, hfield, helement⟩ := h
  have hend : '\x7d' ∉ id.toList ∧ '\x7d' ∉ field.toList :=
    ⟨not_mem_of_isComponent hid (by simp), not_mem_of_isComponent hfield (by simp)⟩
  cases element with
  | none => simp [Reference.chars, hend]
  | some e =>
      obtain ⟨s, sub⟩ := e
      obtain ⟨hs, hsub⟩ := helement (s, sub) rfl
      have hclose : '\x7d' ∉ s.chars := hs.not_mem (by simp)
      have hno : '\x7d' ∉ sub.toList := not_mem_of_isComponent hsub (by simp)
      simp [Reference.chars, hend, hclose, hno]

theorem head?_chars_of_readable {r : Reference} (h : r.Readable) :
    r.chars.head? ≠ some '!' := by
  have hne : r.id.toList ≠ [] := by simpa using h.id.1
  obtain ⟨c, cs, hc⟩ := List.exists_cons_of_ne_nil hne
  simpa [Reference.chars, hc] using h.unescaped

/-- What is written between the braces of a token that is no literal is the directive of that
token, and it neither ends at an earlier brace nor makes a literal of the first one. -/
theorem exists_directive {t : Token} (h : t.Readable) (hl : t.isLiteral = false) :
    ∃ body, t.chars = '\x7b' :: (body ++ ['\x7d']) ∧ '\x7d' ∉ body
      ∧ body.head? ≠ some '!' ∧ directive body = .ok t := by
  cases t with
  | literal text => cases hl
  | env name braced =>
      obtain ⟨rfl, hname⟩ := h
      refine ⟨envChars name, rfl, ?_, by simp [envChars], ?_⟩
      · have hno : '\x7d' ∉ name.toList := not_mem_of_isName hname rfl
        simp [envChars, hno]
      · rw [directive, bracedName?_envChars hname]
  | reference r =>
      refine ⟨r.chars, rfl, not_mem_chars_of_readable h, head?_chars_of_readable h, ?_⟩
      rw [directive, bracedName?_chars, reference?_chars h]

theorem tokens_directive {body : List Char} {t : Token} (hend : '\x7d' ∉ body)
    (hhead : body.head? ≠ some '!') (h : directive body = .ok t) (behind : List Char) :
    tokens ('\x7b' :: (body ++ ['\x7d']) ++ behind) = (tokens behind).map (t :: ·) := by
  have hcut : cut? '\x7d' (body ++ '\x7d' :: behind) = some (body, behind) :=
    cut?_append hend behind
  have hno : ∀ rest, body ++ '\x7d' :: behind = '!' :: rest → False := by
    intro rest he
    cases body with
    | nil => simp at he
    | cons c body =>
        simp only [List.cons_append, List.cons.injEq] at he
        simp [he.1] at hhead
  have htext : '\x7b' :: (body ++ ['\x7d']) ++ behind = '\x7b' :: (body ++ '\x7d' :: behind) := by
    simp
  rw [htext, tokens.eq_3 _ hno]
  split
  · next hnone => rw [hcut] at hnone; cases hnone
  · next hsome =>
    rw [hcut] at hsome
    cases hsome
    rw [h]
    cases tokens behind <;> rfl

/-! ## Literals -/

/-- The characters cannot add to literal text in front of them: a brace comes first, if
anything does. -/
def EndsLiteral (behind : List Char) : Prop :=
  ∀ c ∈ behind.head?, c = '\x7b'

theorem exists_cons_of_literalChars_append {cs behind rest : List Char} {c : Char}
    (hb : EndsLiteral behind) (hc : c ≠ '\x7b') (h : literalChars cs ++ behind = c :: rest) :
    ∃ cs', cs = c :: cs' ∧ literalChars cs' ++ behind = rest := by
  cases cs with
  | nil => exact absurd (hb c (by simp_all [literalChars])) hc
  | cons d cs =>
      by_cases hd : d = '\x7b'
      · subst hd
        simp only [literalChars, List.flatMap_cons, if_true, List.cons_append,
          List.cons.injEq] at h
        exact absurd h.1.symm hc
      · rw [literalChars_cons, literalChars_of_ne hd] at h
        obtain ⟨rfl, hrest⟩ := List.cons.inj h
        exact ⟨cs, rfl, hrest⟩

/-- A name between percent signs that stands in a written literal stands in the literal. -/
theorem exists_of_literalChars_append {cs behind name rest : List Char}
    (hb : EndsLiteral behind) (hname : '\x7b' ∉ name)
    (h : literalChars cs ++ behind = name ++ '%' :: rest) :
    ∃ rest', cs = name ++ '%' :: rest' := by
  induction name generalizing cs with
  | nil =>
      obtain ⟨cs', rfl, -⟩ := exists_cons_of_literalChars_append hb (by decide) h
      exact ⟨cs', rfl⟩
  | cons c name ih =>
      simp only [List.mem_cons, not_or] at hname
      obtain ⟨cs', rfl, hcs⟩ := exists_cons_of_literalChars_append hb (Ne.symm hname.1) h
      obtain ⟨rest', rfl⟩ := ih hname.2 hcs
      exact ⟨rest', rfl⟩

theorem name?_literalChars_append {cs behind : List Char} (hb : EndsLiteral behind)
    (h : name? cs = none) : name? (literalChars cs ++ behind) = none := by
  cases hn : name? (literalChars cs ++ behind) with
  | none => rfl
  | some found =>
      obtain ⟨heq, hname⟩ := name?_eq_some_iff.mp hn
      obtain ⟨rest', rfl⟩ :=
        exists_of_literalChars_append hb (not_mem_of_isName hname rfl) heq
      rw [name?_eq_some_iff.mpr ⟨rfl, hname⟩] at h
      cases h

/-- Literal text without variables is read character by character, up to where it ends. -/
theorem tokens_literalChars_append {cs behind : List Char} (h : ¬ HasVariable cs)
    (hb : EndsLiteral behind) :
    tokens (literalChars cs ++ behind) = (tokens behind).map (cs.foldr push ·) := by
  induction cs with
  | nil =>
      show tokens behind = _
      cases tokens behind <;> rfl
  | cons c cs ih =>
      rw [hasVariable_cons_iff, not_or] at h
      have hrest : tokens (literalChars cs ++ behind) = (tokens behind).map (cs.foldr push ·) :=
        ih h.2
      have hpush : (tokens (literalChars cs ++ behind)).map (push c) =
          (tokens behind).map ((c :: cs).foldr push ·) := by
        rw [hrest]
        cases tokens behind <;> rfl
      rw [← hpush, literalChars_cons, List.append_assoc]
      by_cases hbrace : c = '\x7b'
      · subst hbrace
        exact tokens.eq_2 _
      · rw [literalChars_of_ne hbrace]
        by_cases hpercent : c = '%'
        · subst hpercent
          have hnone : name? cs = none := by simpa using h.1
          rw [List.singleton_append, tokens.eq_4]
          split
          · rfl
          · next hsome =>
            rw [name?_literalChars_append hb hnone] at hsome
            cases hsome
        · exact tokens.eq_5 _ _ (fun _ hc => absurd hc hbrace) hbrace hpercent

/-! ## Written tokens -/

theorem endsLiteral_chars {t : Token} (h : t.Readable) (hl : t.isLiteral = false)
    (behind : List Char) : EndsLiteral (t.chars ++ behind) := by
  obtain ⟨body, hchars, -⟩ := exists_directive h hl
  simp [EndsLiteral, hchars]

/-- What is pushed on tokens that do not begin with a literal is a literal of its own. -/
theorem foldr_push {ts : List Token} (hts : ∀ t ∈ ts.head?, t.isLiteral = false) {cs : List Char}
    (hne : cs ≠ []) : cs.foldr push ts = .literal (String.ofList cs) :: ts := by
  induction cs with
  | nil => exact absurd rfl hne
  | cons c cs ih =>
      by_cases hcs : cs = []
      · subst hcs
        cases ts with
        | nil => rfl
        | cons t ts =>
            have ht := hts t rfl
            cases t with
            | literal text => cases ht
            | _ => rfl
      · rw [List.foldr_cons, ih hcs]
        simp [push]

theorem joined_cons {t : Token} (hl : t.isLiteral = false) (ts : List Token) :
    joined (t :: ts) = t :: joined ts := by
  cases t with
  | literal text => cases hl
  | _ => rfl

/-- Text in front of tokens that do not begin with a literal leaves all of them readable if it
has no variable. -/
theorem forall_readable_foldr_push_iff {ts : List Token}
    (hts : ∀ t ∈ ts.head?, t.isLiteral = false) {cs : List Char} :
    (∀ t ∈ cs.foldr push ts, t.Readable) ↔ ¬ HasVariable cs ∧ ∀ t ∈ ts, t.Readable := by
  by_cases hne : cs = []
  · subst hne
    simp [not_hasVariable_nil]
  · rw [foldr_push hts hne, List.forall_mem_cons]
    simp [Token.Readable]

/-- Tokens behind literal text are read again, with the text in front of them. -/
theorem tokens_chars_append (ts : List Token) (cs : List Char)
    (h : ∀ t ∈ cs.foldr push (joined ts), t.Readable) :
    tokens (literalChars cs ++ ts.flatMap Token.chars) = .ok (cs.foldr push (joined ts)) := by
  induction ts generalizing cs with
  | nil =>
      have hcs : ¬ HasVariable cs := ((forall_readable_foldr_push_iff (by simp [joined])).mp h).1
      have hnil : tokens (List.flatMap Token.chars []) = .ok [] := tokens.eq_1
      rw [tokens_literalChars_append hcs (by simp [EndsLiteral]), hnil]
      rfl
  | cons t ts ih =>
      cases hl : t.isLiteral with
      | true =>
          cases t with
          | literal text =>
              have hjoined : cs.foldr push (joined (.literal text :: ts)) =
                  (cs ++ text.toList).foldr push (joined ts) := by
                rw [joined, List.foldr_append]
              rw [hjoined] at h ⊢
              have hchars : literalChars cs ++ (Token.literal text :: ts).flatMap Token.chars =
                  literalChars (cs ++ text.toList) ++ ts.flatMap Token.chars := by
                simp [Token.chars, literalChars]
              rw [hchars]
              exact ih _ h
          | env name braced => cases hl
          | reference r => cases hl
      | false =>
          rw [joined_cons hl] at h ⊢
          have hhead : ∀ u ∈ (t :: joined ts).head?, u.isLiteral = false := by simpa using hl
          obtain ⟨hcs, hall⟩ := (forall_readable_foldr_push_iff hhead).mp h
          obtain ⟨ht, hts⟩ := List.forall_mem_cons.mp hall
          have hrest : tokens (ts.flatMap Token.chars) = .ok (joined ts) := ih [] hts
          obtain ⟨body, hchars, hend, hfirst, hd⟩ := exists_directive ht hl
          rw [List.flatMap_cons, tokens_literalChars_append hcs (endsLiteral_chars ht hl _),
            hchars, tokens_directive hend hfirst hd, hrest]
          rfl

/-- Tokens are read again from their written form, with
literals in a row made one, if all of them can be read once their literals are joined. -/
theorem tokens_chars {ts : List Token} (h : ∀ t ∈ joined ts, t.Readable) :
    tokens (ts.flatMap Token.chars) = .ok (joined ts) :=
  tokens_chars_append ts [] h

theorem joined_of_separate {ts : List Token} (h : Separate ts) : joined ts = ts := by
  induction ts with
  | nil => rfl
  | cons t ts ih =>
      obtain ⟨hempty, hchain⟩ := h
      simp only [List.mem_cons, not_or] at hempty
      obtain ⟨hhead, htail⟩ := List.isChain_cons.mp hchain
      have hts : joined ts = ts := ih ⟨hempty.2, htail⟩
      cases t with
      | literal text =>
          have hne : text.toList ≠ [] := by
            intro hnil
            exact hempty.1 (by rw [String.toList_eq_nil_iff.mp hnil])
          have hnext : ∀ u ∈ ts.head?, u.isLiteral = false := by
            intro u hu
            simpa [Token.isLiteral] using hhead u hu
          rw [joined, hts, foldr_push hnext hne, String.ofList_toList]
      | env name braced => rw [joined_cons rfl, hts]
      | reference r => rw [joined_cons rfl, hts]

/-- **Reading undoes writing.** Tokens that can be read are read again from their written form,
if no literal is empty and no two literals stand next to each other. -/
theorem tokenize_write {ts : List Token} (h : ∀ t ∈ ts, t.Readable) (hs : Separate ts) :
    tokenize (Token.write ts) = .ok ts := by
  rw [tokenize, Token.write, String.toList_ofList, tokens_chars, joined_of_separate hs]
  rwa [joined_of_separate hs]

/-- Tokens of all kinds, with markers in literals and in parts of references. -/
def mixedTokens : List Token :=
  [.literal "%a\x7b", .env "B" true, .reference ⟨"$r\x7b", "f!", none⟩, .literal "\x7d!",
    .reference ⟨"%r%", "f", some (.index "0.%N%", "g")⟩,
    .reference ⟨"r", "f", some (.entry "k.\x7b" "$v$", "!g")⟩]

def mixedText : String :=
  "%a\x7b!\x7b%B%\x7d\x7b$r\x7b.f!\x7d\x7d!" ++
    "\x7b%r%.f[0.%N%].g\x7d\x7br.f[$k.\x7b$$v$].!g\x7d"

theorem tokenize_write_mixedTokens : tokenize mixedText = .ok mixedTokens := by
  have hwrite : Token.write mixedTokens = mixedText := by decide
  have hreadable : ∀ t ∈ mixedTokens, t.Readable := by decide
  rw [← hwrite]
  exact tokenize_write hreadable ⟨by decide, by decide⟩

end Template

end CallPlan
