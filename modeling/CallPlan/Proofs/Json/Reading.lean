import CallPlan.Json.Reader
import CallPlan.Json.Writer
import CallPlan.Proofs.Fields
import CallPlan.Proofs.Number.Digits
import CallPlan.Proofs.Sequencing

/-!
# Reading JSON text that has been written

Data without binary numbers whose objects have every name once is read back from its dense
text, if no integer in it is too long (`ofText_write`). So no two such data have one text
(`write_injective`).

A written text or object ends at its closing character and a word at its last letter, but
digits go on as long as digits follow. Every piece is therefore read with the rest of the text
behind it, and for a number the rest must not go on with what could belong to it: inside
dense text a comma or a closing bracket follows every item (`Stops`).
-/

namespace CallPlan.Json

open Sequencing

/-! ## Data in order -/

/-- The data has no binary number in it, and in all its objects each name is `R` to all names
that come after it. -/
inductive Arranged (R : String → String → Prop) : Json → Prop
  | null : Arranged R .null
  | bool (b : Bool) : Arranged R (.bool b)
  | int (n : Int) : Arranged R (.int n)
  | text (s : String) : Arranged R (.text s)
  | list {xs : List Json} (items : ∀ x ∈ xs, Arranged R x) : Arranged R (.list xs)
  | object {ms : List (String × Json)} (names : (Fields.keys ms).Pairwise R)
      (values : ∀ m ∈ ms, Arranged R m.2) : Arranged R (.object ms)

theorem Arranged.mono {R R' : String → String → Prop} (hR : ∀ a b, R a b → R' a b) {j : Json}
    (h : Arranged R j) : Arranged R' j := by
  induction h with
  | null => exact .null
  | bool b => exact .bool b
  | int n => exact .int n
  | text s => exact .text s
  | list _ ih => exact .list ih
  | object names _ ih => exact .object (names.imp (hR _ _)) ih

/-! ## Texts -/

/-- A character is written as a letter that stands for it, as its code unit or as itself. -/
theorem escape_cases (c : Char) :
    (∃ e, letterEscape? e = some c ∧ escape false c = ['\\', e]) ∨
    (c.toNat < 0x20 ∧ escape false c = unitEscape c.toNat) ∨
    (¬ c.toNat < 0x20 ∧ c ≠ '"' ∧ c ≠ '\\' ∧ escape false c = [c]) := by
  unfold escape
  by_cases hquote : c = '"' ∨ c = '\\'
  · rcases hquote with rfl | rfl
    · exact .inl ⟨'"', rfl, rfl⟩
    · exact .inl ⟨'\\', rfl, rfl⟩
  by_cases hn : c = '\n'
  · subst hn; exact .inl ⟨'n', rfl, rfl⟩
  by_cases hr : c = '\r'
  · subst hr; exact .inl ⟨'r', rfl, rfl⟩
  by_cases ht : c = '\t'
  · subst ht; exact .inl ⟨'t', rfl, rfl⟩
  by_cases hb : c = '\x08'
  · subst hb; exact .inl ⟨'b', rfl, rfl⟩
  by_cases hf : c = '\x0c'
  · subst hf; exact .inl ⟨'f', rfl, rfl⟩
  by_cases hcontrol : c.toNat < 0x20
  · have hshort : c.toNat < 0x10000 := by omega
    exact .inr (.inl ⟨hcontrol, by simp [hquote, hn, hr, ht, hb, hf, hcontrol, hshort]⟩)
  · refine .inr (.inr ⟨hcontrol, fun h => hquote (.inl h), fun h => hquote (.inr h), ?_⟩)
    simp [hquote, hn, hr, ht, hb, hf, hcontrol]

theorem string?_letter {e c : Char} (h : letterEscape? e = some c) (cs : List Char) :
    string? ('\\' :: e :: cs) = (string? cs).map fun r => (c :: r.1, r.2) := by
  have hu : e ≠ 'u' := by
    rintro rfl
    cases h
  rw [string?]
  · cases string? cs <;> simp [h]
  · rintro _ _ _ _ _ rfl
    exact absurd rfl hu

theorem string?_unitEscape {c : Char} (h : c.toNat < 0x20) (cs : List Char) :
    string? (unitEscape c.toNat ++ cs) = (string? cs).map fun r => (c :: r.1, r.2) := by
  have hread : ∀ n < 0x20, unit? (Text.hexDigit (n / 16 / 16 / 16 % 16))
      (Text.hexDigit (n / 16 / 16 % 16)) (Text.hexDigit (n / 16 % 16))
      (Text.hexDigit (n % 16)) = some n := by decide
  have hchars : unitEscape c.toNat = ['\\', 'u', Text.hexDigit (c.toNat / 16 / 16 / 16 % 16),
      Text.hexDigit (c.toNat / 16 / 16 % 16), Text.hexDigit (c.toNat / 16 % 16),
      Text.hexDigit (c.toNat % 16)] := rfl
  have hlow : ¬ (0xd800 ≤ c.toNat ∧ c.toNat < 0xdc00) := by omega
  have hhigh : ¬ (0xdc00 ≤ c.toNat ∧ c.toNat < 0xe000) := by omega
  rw [hchars]
  simp only [List.cons_append, List.nil_append, string?, hread _ h, Option.bind_eq_bind,
    Option.bind_some, if_neg hlow, if_neg hhigh, Char.ofNat_toNat]
  cases string? cs <;> rfl

theorem string?_self {c : Char} (h : ¬ c.toNat < 0x20) (hquote : c ≠ '"') (hback : c ≠ '\\')
    (cs : List Char) : string? (c :: cs) = (string? cs).map fun r => (c :: r.1, r.2) := by
  rw [string?]
  · cases string? cs <;> simp [h, hback]
  all_goals grind

/-- What is written for one character is read back as the character. -/
theorem string?_escape (c : Char) (cs : List Char) :
    string? (escape false c ++ cs) = (string? cs).map fun r => (c :: r.1, r.2) := by
  obtain ⟨e, he, hw⟩ | ⟨h, hw⟩ | ⟨h, hquote, hback, hw⟩ := escape_cases c
  · rw [hw]
    exact string?_letter he cs
  · rw [hw]
    exact string?_unitEscape h cs
  · rw [hw]
    exact string?_self h hquote hback cs

theorem string?_quote (s : List Char) (rest : List Char) :
    string? (s.flatMap (escape false) ++ '"' :: rest) = some (s, rest) := by
  induction s with
  | nil => simp [string?]
  | cons c s ih => rw [List.flatMap_cons, List.append_assoc, string?_escape, ih]; rfl

/-! ## Numbers -/

/-- The text is at its end or goes on with a character that may follow an item. -/
def Stops (cs : List Char) : Prop :=
  ∀ c ∈ cs.head?, c = ',' ∨ c = ']' ∨ c = '\x7d'

theorem stops_cons {c : Char} (h : c = ',' ∨ c = ']' ∨ c = '\x7d') (cs : List Char) :
    Stops (c :: cs) := by
  simpa [Stops] using h

/-- Only zero is written with a leading zero. -/
theorem eq_zero_of_toDigits {n : Nat} {ds : List Char} (h : Nat.toDigits 10 n = '0' :: ds) :
    n = 0 := by
  induction n using Nat.strongRecOn generalizing ds with
  | ind n ih =>
      by_cases hn : n < 10
      · rw [Nat.toDigits_of_lt_base hn] at h
        have hsmall : ∀ m < 10, m.digitChar = '0' → m = 0 := by decide
        exact hsmall n hn (List.cons.inj h).1
      · rw [Nat.toDigits_of_base_le (by decide) (by omega)] at h
        cases hfront : Nat.toDigits 10 (n / 10) with
        | nil => exact absurd hfront Nat.toDigits_ne_nil
        | cons d front =>
            rw [hfront, List.cons_append, List.cons.injEq] at h
            have hzero := ih (n / 10) (by omega) (h.1 ▸ hfront)
            omega

theorem digits_append {ds rest : List Char} (hds : ∀ c ∈ ds, c.isDigit = true)
    (h : Stops rest) : digits (ds ++ rest) = (ds, rest) := by
  have hrest : rest.takeWhile Char.isDigit = [] ∧ rest.dropWhile Char.isDigit = rest := by
    cases rest with
    | nil => simp
    | cons c rest =>
        have hc : c.isDigit = false := by
          rcases h c (by simp) with rfl | rfl | rfl <;> decide
        simp [hc]
  rw [digits, List.takeWhile_append_of_pos hds, List.dropWhile_append_of_pos hds, hrest.1, hrest.2,
    List.append_nil]

theorem exists_toDigits (n : Nat) :
    ∃ d ds, Nat.toDigits 10 n = d :: ds ∧ d.isDigit = true := by
  cases h : Nat.toDigits 10 n with
  | nil => exact absurd h Nat.toDigits_ne_nil
  | cons d ds => exact ⟨d, ds, rfl, Numeral.isDigit_toDigits d (h ▸ List.mem_cons_self ..)⟩

theorem whole?_toDigits (n : Nat) {rest : List Char} (h : Stops rest) :
    whole? (Nat.toDigits 10 n ++ rest) = some (Nat.toDigits 10 n, rest) := by
  by_cases hn : n = 0
  · subst hn
    rfl
  · rw [whole?]
    · rw [digits_append Numeral.isDigit_toDigits h]
      split
      · next heq => exact absurd (congrArg Prod.fst heq) Nat.toDigits_ne_nil
      · rfl
    · intro rest' heq
      obtain ⟨d, ds, hds, -⟩ := exists_toDigits n
      rw [hds, List.cons_append, List.cons.injEq] at heq
      exact hn (eq_zero_of_toDigits (heq.1 ▸ hds))

theorem fraction_of_stops {rest : List Char} (h : Stops rest) : fraction rest = ([], rest) := by
  unfold fraction
  split
  · rcases h _ rfl with hc | hc | hc <;> cases hc
  · rfl

theorem power_of_stops {rest : List Char} (h : Stops rest) : power rest = ([], rest) := by
  have hno : ∀ c cs, rest = c :: cs → c ≠ 'e' ∧ c ≠ 'E' := by
    rintro c cs rfl
    rcases h c rfl with rfl | rfl | rfl <;> decide
  unfold power
  split
  all_goals grind

theorem chars_int (l : Layout) (level : Nat) (n : Int) :
    chars l level (.int n) = (if n < 0 then ['-'] else []) ++ Nat.toDigits 10 n.natAbs := by
  cases n with
  | ofNat m =>
      have hm : ¬ (Int.ofNat m < 0) := by simp
      rw [if_neg hm, chars, toString]
      exact Nat.toList_repr
  | negSucc m =>
      have hm : Int.negSucc m < 0 := Int.negSucc_lt_zero m
      rw [if_pos hm, chars]
      change ("-" ++ Nat.repr (m + 1)).toList = _
      rw [String.toList_append, Nat.toList_repr]
      rfl

/-- A written integer begins with a digit, or with a sign and a digit. -/
theorem exists_chars_int (l : Layout) (level : Nat) (n : Int) :
    ∃ d ds, d.isDigit = true ∧
      (chars l level (.int n) = d :: ds ∨ chars l level (.int n) = '-' :: d :: ds) := by
  obtain ⟨d, ds, hds, hd⟩ := exists_toDigits n.natAbs
  rw [chars_int, hds]
  split
  · exact ⟨d, ds, hd, .inr rfl⟩
  · exact ⟨d, ds, hd, .inl rfl⟩

theorem number_int (l : Layout) (level : Nat) {n : Int} (hn : Numeral.isWritable n = true)
    {rest : List Char} (h : Stops rest) :
    number (chars l level (.int n) ++ rest) = .ok (.int n, rest) := by
  have hwhole := whole?_toDigits n.natAbs h
  have hlength : (Nat.toDigits 10 n.natAbs).length ≤ Numeral.maxDigits := of_decide_eq_true hn
  rw [chars_int]
  by_cases hneg : n < 0
  · simp only [hneg, if_true, number, List.cons_append, List.nil_append, hwhole,
      ReadError.require_some, ok_bind, fraction_of_stops h, power_of_stops h]
    have hvalue : -(n.natAbs : Int) = n := by omega
    simp only [Numeral.natOfDigits_toDigits, hvalue, if_pos hlength]
    rfl
  · have hsign : ∀ cs, Nat.toDigits 10 n.natAbs ++ rest ≠ '-' :: cs := by
      intro cs heq
      obtain ⟨d, ds, hds, hd⟩ := exists_toDigits n.natAbs
      rw [hds, List.cons_append, List.cons.injEq] at heq
      rw [heq.1] at hd
      cases hd
    simp only [hneg, if_false, List.nil_append]
    unfold number
    split
    next hunsigned =>
      split at hunsigned
      · next heq => exact absurd heq (hsign _)
      · cases hunsigned
        simp only [hwhole, ReadError.require_some, ok_bind, fraction_of_stops h,
          power_of_stops h]
        have hvalue : (n.natAbs : Int) = n := by omega
        simp only [Numeral.natOfDigits_toDigits, hvalue, if_pos hlength]
        rfl

/-! ## Items and members -/

/-- The head of written data without binary numbers is no blank and closes nothing. -/
theorem Arranged.exists_chars {R : String → String → Prop} {j : Json} (h : Arranged R j)
    (level : Nat) :
    ∃ c cs, chars .dense level j = c :: cs ∧ isBlank c = false ∧ c ≠ ']' := by
  cases h with
  | null => exact ⟨_, _, rfl, rfl, by decide⟩
  | bool b => cases b <;> exact ⟨_, _, rfl, rfl, by decide⟩
  | int n =>
      obtain ⟨d, ds, hd, hchars | hchars⟩ := exists_chars_int .dense level n
      · refine ⟨d, ds, hchars, ?_, ?_⟩
        · simp only [isBlank, Bool.or_eq_false_iff, decide_eq_false_iff_not]
          refine ⟨⟨⟨?_, ?_⟩, ?_⟩, ?_⟩ <;> (rintro rfl; cases hd)
        · rintro rfl
          cases hd
      · exact ⟨_, _, hchars, rfl, by decide⟩
  | text s => exact ⟨_, _, rfl, rfl, by decide⟩
  | @list xs =>
      cases xs <;> exact ⟨_, _, rfl, rfl, by decide⟩
  | @object ms =>
      cases ms <;> exact ⟨_, _, rfl, rfl, by decide⟩

theorem skip_of_not_isBlank {c : Char} (h : isBlank c = false) (cs : List Char) :
    skip (c :: cs) = c :: cs := by
  simp [skip, h]

/-- Data is read back from what is written for it, whatever comes after that. -/
def ReadsBack (j : Json) : Prop :=
  ∀ level steps rest, (chars .dense level j).length ≤ steps → Stops rest →
    value steps (chars .dense level j ++ rest) = .ok (j, rest)

/-- What dense text has between the brackets of a row: its items, divided by commas. -/
def divided (item : List Char) (items : List (List Char)) : List Char :=
  item ++ items.flatMap (',' :: ·)

theorem divided_cons (item other : List Char) (items : List (List Char)) :
    divided item (other :: items) = item ++ ',' :: divided other items := by
  simp [divided]

theorem enclose_dense (level : Nat) (opening closing : Char) (item : List Char)
    (items : List (List Char)) :
    Layout.dense.enclose level opening closing (item :: items) =
      opening :: (divided item items ++ [closing]) := by
  simp [Layout.enclose, Layout.dense, Layout.break, divided]

theorem skip_chars {R : String → String → Prop} {j : Json} (h : Arranged R j) (level : Nat)
    (cs : List Char) : skip (chars .dense level j ++ cs) = chars .dense level j ++ cs := by
  obtain ⟨c, tail, hchars, hblank, -⟩ := h.exists_chars level
  rw [hchars, List.cons_append]
  exact skip_of_not_isBlank hblank _

theorem skip_divided {R : String → String → Prop} {j : Json} (h : Arranged R j) (level : Nat)
    (items : List (List Char)) (cs : List Char) :
    skip (divided (chars .dense level j) items ++ cs) =
      divided (chars .dense level j) items ++ cs := by
  rw [divided, List.append_assoc]
  exact skip_chars h level _

theorem items_divided {R : String → String → Prop} {x : Json} {xs : List Json}
    (harr : ∀ y ∈ x :: xs, Arranged R y) (h : ∀ y ∈ x :: xs, ReadsBack y)
    (level steps : Nat) (rest : List Char)
    (hsteps : (divided (chars .dense level x) (itemChars .dense level xs)).length < steps) :
    items steps (divided (chars .dense level x) (itemChars .dense level xs) ++ ']' :: rest) =
      .ok (x :: xs, rest) := by
  obtain ⟨m, rfl⟩ : ∃ m, steps = m + 1 := ⟨steps - 1, by omega⟩
  have hx : ReadsBack x := h x (List.mem_cons_self ..)
  induction xs generalizing x m with
  | nil =>
      simp only [itemChars, divided, List.flatMap_nil, List.append_nil] at hsteps ⊢
      rw [items, hx level m _ (by omega) (stops_cons (by simp) _)]
      rfl
  | cons y ys ih =>
      rw [itemChars, divided_cons] at hsteps ⊢
      simp only [List.length_append, List.length_cons] at hsteps
      obtain ⟨k, rfl⟩ : ∃ k, m = k + 1 := ⟨m - 1, by omega⟩
      have hys := ih (List.forall_mem_cons.mp harr).2 (List.forall_mem_cons.mp h).2 k (by omega)
        (h y (by simp))
      rw [List.append_assoc, List.cons_append, items,
        hx level _ _ (by omega) (stops_cons (.inl rfl) _)]
      simp only [ok_bind, skip_of_not_isBlank (show isBlank ',' = false from rfl),
        skip_divided (harr y (by simp)), hys]
      rfl

theorem name?_quote (name : String) (cs : List Char) :
    name? (quote false name ++ ':' :: cs) = some (name, skip cs) := by
  rw [quote, List.cons_append, List.append_assoc]
  simp only [name?, List.cons_append, List.nil_append, string?_quote,
    skip_of_not_isBlank (show isBlank ':' = false from rfl), String.ofList_toList]

theorem memberChars_cons (level : Nat) (name : String) (x : Json) (ms : List (String × Json)) :
    memberChars .dense level ((name, x) :: ms) =
      (quote false name ++ ':' :: chars .dense level x) :: memberChars .dense level ms := by
  simp [memberChars, Layout.dense]

theorem skip_divided_quote (name : String) (cs : List Char) (items : List (List Char))
    (rest : List Char) :
    skip (divided (quote false name ++ cs) items ++ rest) =
      divided (quote false name ++ cs) items ++ rest :=
  skip_of_not_isBlank rfl _

theorem members_divided {R : String → String → Prop} {name : String} {x : Json}
    {ms : List (String × Json)} (harr : ∀ m ∈ (name, x) :: ms, Arranged R m.2)
    (h : ∀ m ∈ (name, x) :: ms, ReadsBack m.2) (level steps : Nat) (rest : List Char)
    (hsteps : (divided (quote false name ++ ':' :: chars .dense level x)
      (memberChars .dense level ms)).length < steps) :
    members steps (divided (quote false name ++ ':' :: chars .dense level x)
      (memberChars .dense level ms) ++ '\x7d' :: rest) = .ok ((name, x) :: ms, rest) := by
  obtain ⟨k, rfl⟩ : ∃ k, steps = k + 1 := ⟨steps - 1, by omega⟩
  have hx : ReadsBack x := h (name, x) (List.mem_cons_self ..)
  have hskip := skip_chars (harr (name, x) (List.mem_cons_self ..)) level
  induction ms generalizing name x k with
  | nil =>
      simp only [memberChars, divided, List.flatMap_nil, List.append_nil, List.length_append,
        List.length_cons] at hsteps ⊢
      rw [List.append_assoc, List.cons_append, members, name?_quote, hskip]
      simp only [ReadError.require_some, ok_bind]
      rw [hx level k _ (by omega) (stops_cons (by simp) _)]
      rfl
  | cons m ms ih =>
      obtain ⟨other, y⟩ := m
      rw [memberChars_cons, divided_cons] at hsteps ⊢
      simp only [List.length_append, List.length_cons] at hsteps
      obtain ⟨k, rfl⟩ : ∃ l, k = l + 1 := ⟨k - 1, by omega⟩
      have hms := ih (List.forall_mem_cons.mp harr).2 (List.forall_mem_cons.mp h).2 k (by omega)
        (h (other, y) (by simp)) (skip_chars (harr (other, y) (by simp)) level)
      rw [List.append_assoc, List.append_assoc, List.cons_append, List.cons_append, members,
        name?_quote, hskip]
      simp only [ReadError.require_some, ok_bind]
      rw [hx level _ _ (by omega) (stops_cons (.inl rfl) _)]
      simp only [ok_bind, skip_of_not_isBlank (show isBlank ',' = false from rfl),
        skip_divided_quote, hms]
      rfl

/-! ## Data -/

theorem value_word {cs : List Char} {j : Json} {rest : List Char} (steps : Nat)
    (h : word? cs = some (j, rest)) : value (steps + 1) cs = .ok (j, rest) := by
  rw [value]
  · rw [h]
  all_goals
    rintro _ rfl
    cases h

/-- What begins like a number is read as one. -/
theorem value_of_isDigit {d : Char} (hd : d.isDigit = true) (steps : Nat) (cs : List Char) :
    value (steps + 1) (d :: cs) = number (d :: cs) ∧
      value (steps + 1) ('-' :: d :: cs) = number ('-' :: d :: cs) := by
  have hword : word? (d :: cs) = none ∧ word? ('-' :: d :: cs) = none := by
    unfold word?
    constructor <;> split
    all_goals first | rfl | (next heq => cases heq <;> cases hd)
  constructor
  · rw [value, hword.1]
    all_goals
      rintro _ heq
      cases heq
      cases hd
  · rw [value, hword.2]
    all_goals
      rintro _ heq
      cases heq

theorem value_int (l : Layout) (level steps : Nat) {n : Int}
    (hn : Numeral.isWritable n = true) {rest : List Char} (h : Stops rest) :
    value (steps + 1) (chars l level (.int n) ++ rest) = .ok (.int n, rest) := by
  rw [← number_int l level hn h]
  obtain ⟨d, ds, hd, hchars | hchars⟩ := exists_chars_int l level n
  · rw [hchars]
    exact (value_of_isDigit hd steps _).1
  · rw [hchars]
    exact (value_of_isDigit hd steps _).2

theorem value_text (s : String) (level steps : Nat) (rest : List Char) :
    value (steps + 1) (chars .dense level (.text s) ++ rest) = .ok (.text s, rest) := by
  rw [chars, quote, List.cons_append, List.append_assoc, value]
  simp only [Layout.dense, List.cons_append, List.nil_append, string?_quote,
    ReadError.require_some, Except.map, String.ofList_toList]

theorem value_list {R : String → String → Prop} {xs : List Json}
    (harr : ∀ x ∈ xs, Arranged R x) (h : ∀ x ∈ xs, ReadsBack x) {level steps : Nat}
    (rest : List Char) (hsteps : (chars .dense level (.list xs)).length ≤ steps + 1) :
    value (steps + 1) (chars .dense level (.list xs) ++ rest) = .ok (.list xs, rest) := by
  cases xs with
  | nil => rfl
  | cons x xs =>
      rw [chars, itemChars, enclose_dense] at hsteps ⊢
      simp only [List.length_cons, List.length_append] at hsteps
      have hitems := items_divided harr h (level + 1) steps rest (by omega)
      rw [List.cons_append, List.append_assoc, List.cons_append, List.nil_append, value,
        skip_divided (harr x (List.mem_cons_self ..))]
      split
      · next heq =>
        obtain ⟨c, cs, hchars, -, hclose⟩ :=
          (harr x (List.mem_cons_self ..)).exists_chars (level + 1)
        rw [hchars] at heq
        exact absurd (List.cons.inj heq).1 hclose
      · rw [hitems]
        rfl

theorem value_object {R : String → String → Prop} {ms : List (String × Json)}
    (names : (Fields.keys ms).Nodup) (harr : ∀ m ∈ ms, Arranged R m.2)
    (h : ∀ m ∈ ms, ReadsBack m.2) {level steps : Nat} (rest : List Char)
    (hsteps : (chars .dense level (.object ms)).length ≤ steps + 1) :
    value (steps + 1) (chars .dense level (.object ms) ++ rest) = .ok (.object ms, rest) := by
  cases ms with
  | nil => rfl
  | cons m ms =>
      obtain ⟨name, x⟩ := m
      rw [chars, memberChars_cons, enclose_dense] at hsteps ⊢
      simp only [List.length_cons, List.length_append] at hsteps
      have hmembers := members_divided harr h (level + 1) steps rest (by omega)
      rw [List.cons_append, List.append_assoc, List.cons_append, List.nil_append, value,
        skip_divided_quote]
      split
      · next heq => cases heq
      · simp only [hmembers, Except.map, Fields.distinct_of_nodup names]

theorem itemsWritable_iff {xs : List Json} :
    itemsWritable xs = true ↔ ∀ x ∈ xs, x.isWritable = true := by
  induction xs with
  | nil => simp [itemsWritable]
  | cons x xs ih => simp [itemsWritable, ih]

theorem membersWritable_iff {ms : List (String × Json)} :
    membersWritable ms = true ↔ ∀ m ∈ ms, m.2.isWritable = true := by
  induction ms with
  | nil => simp [membersWritable]
  | cons m ms ih => simp [membersWritable, ih]

/-- Data whose objects have every name once is read back, if it can be written. -/
theorem readsBack_of_arranged {j : Json} (h : Arranged (· ≠ ·) j) (hw : j.isWritable = true) :
    ReadsBack j := by
  induction h with
  | null =>
      rintro level (_ | steps) rest hsteps -
      · cases hsteps
      · exact value_word steps rfl
  | bool b =>
      rintro level (_ | steps) rest hsteps -
      · cases b <;> cases hsteps
      · cases b <;> exact value_word steps rfl
  | int n =>
      rintro level (_ | steps) rest hsteps hrest
      · obtain ⟨d, ds, -, hchars | hchars⟩ := exists_chars_int .dense level n <;>
          simp [hchars] at hsteps
      · exact value_int .dense level steps hw hrest
  | text s =>
      rintro level (_ | steps) rest hsteps -
      · cases hsteps
      · exact value_text s level steps rest
  | @list xs harr ih =>
      have hread : ∀ x ∈ xs, ReadsBack x := fun x hx => ih x hx (itemsWritable_iff.mp hw x hx)
      rintro level (_ | steps) rest hsteps -
      · cases xs <;> cases hsteps
      · exact value_list harr hread rest hsteps
  | @object ms names harr ih =>
      have hread : ∀ m ∈ ms, ReadsBack m.2 :=
        fun m hm => ih m hm (membersWritable_iff.mp hw m hm)
      rintro level (_ | steps) rest hsteps -
      · cases ms <;> cases hsteps
      · exact value_object names harr hread rest hsteps

/-- Writing loses nothing: the dense text of data is read as the data. -/
theorem ofText_write {j : Json} (h : Arranged (· ≠ ·) j) (hw : j.isWritable = true) :
    ofText (write .dense j) = .ok j := by
  have hread := readsBack_of_arranged h hw 0 (((chars .dense 0 j).length) + 1) [] (by omega)
    (by simp [Stops])
  have hskip := skip_chars h 0 []
  rw [List.append_nil] at hread hskip
  rw [ofText, write, String.toList_ofList, ofChars, hskip, hread]
  rfl

/-- No two data have one text. -/
theorem write_injective {j j' : Json} (h : Arranged (· ≠ ·) j) (h' : Arranged (· ≠ ·) j')
    (hw : j.isWritable = true) (hw' : j'.isWritable = true)
    (heq : write .dense j = write .dense j') : j = j' := by
  have hj := ofText_write h hw
  rw [heq, ofText_write h' hw'] at hj
  exact (Except.ok.inj hj).symm

end CallPlan.Json
