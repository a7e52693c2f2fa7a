import CallPlan.Proofs.Number.Digits
import CallPlan.Proofs.Template.Verbatim

/-!
# Elements by key and by index

An element that is named by the value it has under a key is the first one that has it
(`firstWanted_eq_some_iff`). A reference by key therefore becomes what a reference by the index
of that element becomes, however the index is written, and one that no element answers fails for
want of a match (`splice_byKey`). What stands in front of the element is skipped, whatever it is.
-/

namespace CallPlan.Template

open Sequencing

/-! ## Which elements are wanted -/

/-- The item is a mapping with a value under the key that is neither null nor a container and has
the wanted text. -/
def Matches (key wanted : String) (item : Value) : Prop :=
  ∃ v, item.field? key = some v ∧ v.kind ∉ [.null, .list, .tuple, .map] ∧ render v = .ok wanted

/-- Of the items, the one at `n` is the first that matches. -/
structure FirstMatch (key wanted : String) (items : List Value) (n : Nat) (item : Value) :
    Prop where
  found : items[n]? = some item
  isMatch : Matches key wanted item
  first : ∀ m < n, ∀ x, items[m]? = some x → ¬ Matches key wanted x

section

variable {key wanted : String} {item : Value} {items : List Value}

theorem isWanted_iff : isWanted key wanted item = true ↔ Matches key wanted item := by
  unfold isWanted Matches
  split
  · next h => simp [h]
  · next h => simp [h, Value.kind]
  · next h => simp [h, Value.kind]
  · next h => simp [h, Value.kind]
  · next h => simp [h, Value.kind]
  · next v hnull hlist htuple hmap h =>
    have hkind : v.kind ∉ [.null, .list, .tuple, .map] := by
      cases v <;> simp_all [Value.kind]
    simp only [h, Option.some.injEq, exists_eq_left', hkind, not_false_eq_true, true_and]
    cases render v <;> simp

theorem firstMatch_cons_of_matches {x : Value} (hx : Matches key wanted x) {n : Nat} :
    FirstMatch key wanted (x :: items) n item ↔ n = 0 ∧ item = x := by
  constructor
  · intro h
    have hn : n = 0 := by
      by_contra hpos
      exact h.first 0 (by omega) x rfl hx
    subst hn
    exact ⟨rfl, (Option.some.inj h.found).symm⟩
  · rintro ⟨rfl, rfl⟩
    exact ⟨rfl, hx, by simp⟩

theorem firstMatch_cons_of_not_matches {x : Value} (hx : ¬ Matches key wanted x) {n : Nat} :
    FirstMatch key wanted (x :: items) n item ↔
      ∃ m, n = m + 1 ∧ FirstMatch key wanted items m item := by
  constructor
  · intro h
    cases n with
    | zero =>
        obtain rfl := Option.some.inj h.found
        exact absurd h.isMatch hx
    | succ m =>
        exact ⟨m, rfl, h.found, h.isMatch, fun k hk => h.first (k + 1) (by omega)⟩
  · rintro ⟨m, rfl, h⟩
    refine ⟨h.found, h.isMatch, ?_⟩
    intro k hk y hy
    cases k with
    | zero =>
        obtain rfl := Option.some.inj hy
        exact hx
    | succ k => exact h.first k (by omega) y hy

/-- The search finds the first item that matches, with its number. -/
theorem firstWanted_eq_some_iff {count n : Nat} :
    firstWanted key wanted count items = some (n, item) ↔
      ∃ m, n = count + m ∧ FirstMatch key wanted items m item := by
  induction items generalizing count with
  | nil =>
      simp only [firstWanted, reduceCtorEq, false_iff]
      rintro ⟨m, -, h⟩
      simpa using h.found
  | cons x items ih =>
      rw [firstWanted]
      by_cases hx : Matches key wanted x
      · rw [if_pos (isWanted_iff.mpr hx)]
        simp only [firstMatch_cons_of_matches hx]
        constructor
        · rintro ⟨⟩
          exact ⟨0, rfl, rfl, rfl⟩
        · rintro ⟨_, rfl, rfl, rfl⟩
          rfl
      · rw [if_neg (mt isWanted_iff.mp hx), ih]
        simp only [firstMatch_cons_of_not_matches hx]
        constructor
        · rintro ⟨m, rfl, h⟩
          exact ⟨m + 1, by omega, m, rfl, h⟩
        · rintro ⟨_, rfl, m, rfl, h⟩
          exact ⟨m, by omega, h⟩

theorem elementWith_of_firstMatch {n : Nat} (h : FirstMatch key wanted items n item)
    (place : String) : elementWith items place key wanted = .ok (n, item) := by
  have hfound : firstWanted key wanted 0 items = some (n, item) :=
    firstWanted_eq_some_iff.mpr ⟨n, by omega, h⟩
  rw [elementWith, hfound]

theorem elementWith_of_no_match (h : ¬ ∃ n item, FirstMatch key wanted items n item)
    (place : String) :
    elementWith items place key wanted = .error (.noMatch place key wanted) := by
  have hnone : firstWanted key wanted 0 items = none := by
    rw [Option.eq_none_iff_forall_ne_some]
    rintro ⟨n, item⟩ hfound
    obtain ⟨m, -, hm⟩ := firstWanted_eq_some_iff.mp hfound
    exact h ⟨m, item, hm⟩
  rw [elementWith, hnone]

end

/-! ## Indices in digits -/

theorem toList_toString (n : Nat) : (toString n).toList = Nat.toDigits 10 n :=
  String.toList_ofList

/-- A number that is not too long is read from its digits. -/
theorem index_toString {n : Nat} (hn : Numeral.isWritable n = true) :
    index (toString n) = .ok (some n) := by
  have hne : Nat.toDigits 10 n ≠ [] := Nat.toDigits_ne_nil
  have hdigits : (Nat.toDigits 10 n).all Char.isDigit = true :=
    List.all_eq_true.mpr Numeral.isDigit_toDigits
  have hshort : (Nat.toDigits 10 n).length ≤ Numeral.maxDigits := of_decide_eq_true hn
  rw [index, toList_toString, if_pos ⟨hne, hdigits⟩, if_pos hshort, Numeral.natOfDigits_toDigits]

theorem expand_toString (scope : Scope) (n : Nat) :
    expand scope (toString n) = .ok (toString n) := by
  refine expand_of_not_mem scope ?_
  rw [toList_toString]
  intro hpercent
  exact absurd (Numeral.isDigit_toDigits _ hpercent) (by decide)

theorem elementAt_of_index {items : List Value} {text : String} {n : Nat} {item : Value}
    (hindex : index text = .ok (some n)) (h : items[n]? = some item) (place : String) :
    elementAt items place text = .ok (n, item) := by
  rw [elementAt, hindex]
  simp only [Except.mapError, ok_bind, h]
  rfl

/-! ## References to elements -/

/-- A reference to a field of an element, as a token. -/
def ofElement (id field : String) (selector : Selector) (sub : String) : Token :=
  .reference ⟨id, field, some (selector, sub)⟩

section

variable {scope : Scope} {id id' field field' sub sub' : String} {v : Value} {items : List Value}

/-- The id and the field of a reference lead to the items of a sequence, and the field of its
elements is expanded. -/
structure LeadsToItems (scope : Scope) (id field sub id' field' sub' : String)
    (items : List Value) : Prop where
  id : expand scope id = .ok id'
  field : expand scope field = .ok field'
  sub : expand scope sub = .ok sub'
  sequence : ∃ v, Publishes scope id' field' v ∧ v.items? = some items

/-- Where id and field lead to a sequence, a reference becomes what the field of the element is
that the selector finds. -/
theorem splice_ofElement (h : LeadsToItems scope id field sub id' field' sub' items)
    (selector : Selector) :
    splice scope (ofElement id field selector sub) =
      (select scope items (Place.field id' field') selector >>= fun found =>
        (fieldOf found.2 sub' (Place.item (Place.field id' field') found.1) >>= render).mapError
          .cause) := by
  obtain ⟨v, ⟨result, hresult, hv⟩, hitems⟩ := h.sequence
  have hlookup : scope.result id' = .ok result := by rw [Scope.result, hresult]
  have hfieldOf : fieldOf result field' id' = .ok v := by rw [fieldOf, hv]
  have hitemsOf : itemsOf v (Place.field id' field') = .ok items := by rw [itemsOf, hitems]
  have htarget : target scope ⟨id, field, some (selector, sub)⟩ =
      .ok (Place.field id' field', v) := by
    simp only [target, h.id, h.field, ok_bind, hlookup, hfieldOf]
    rfl
  simp only [ofElement, splice, follow, htarget, Except.mapError, ok_bind, hitemsOf, h.sub]
  cases select scope items (Place.field id' field') selector with
  | error halt => rfl
  | ok found =>
      simp only [ok_bind]
      cases fieldOf found.2 sub' (Place.item (Place.field id' field') found.1) <;> rfl

theorem splice_byIndex (h : LeadsToItems scope id field sub id' field' sub' items)
    {raw text : String} (hraw : expand scope raw = .ok text) {n : Nat}
    (hindex : index text = .ok (some n)) {item : Value} (hitem : items[n]? = some item) :
    splice scope (ofElement id field (.index raw) sub) =
      (fieldOf item sub' (Place.item (Place.field id' field') n) >>= render).mapError .cause := by
  have hselect : select scope items (Place.field id' field') (.index raw) = .ok (n, item) := by
    rw [select, hraw]
    exact elementAt_of_index hindex hitem _
  rw [splice_ofElement h, hselect, ok_bind]

/-- **By key is by the index of the first match.** Where id and field of a reference lead to a
sequence and everything in it is expanded, the reference by key becomes the same as one by the
index of the first matching item, in its digits or in whatever stands for a text that is read as
that number. What it becomes depends on that item only. If no item matches, it fails for that
reason. -/
theorem splice_byKey {key key' wanted wanted' : String}
    (h : LeadsToItems scope id field sub id' field' sub' items)
    (hkey : expand scope key = .ok key') (hwanted : expand scope wanted = .ok wanted') :
    (∀ n item, FirstMatch key' wanted' items n item →
      (∀ raw text, expand scope raw = .ok text → index text = .ok (some n) →
        splice scope (ofElement id field (.entry key wanted) sub) =
          splice scope (ofElement id field (.index raw) sub))
      ∧ (Numeral.isWritable n = true →
        splice scope (ofElement id field (.entry key wanted) sub) =
          splice scope (ofElement id field (.index (toString n)) sub))
      ∧ splice scope (ofElement id field (.entry key wanted) sub) =
        (fieldOf item sub' (Place.item (Place.field id' field') n) >>= render).mapError .cause)
    ∧ ((¬ ∃ n item, FirstMatch key' wanted' items n item) →
      splice scope (ofElement id field (.entry key wanted) sub) =
        .error (.cause (.noMatch (Place.field id' field') key' wanted'))) := by
  have hentry : select scope items (Place.field id' field') (.entry key wanted) =
      (elementWith items (Place.field id' field') key' wanted').mapError .cause := by
    simp only [select, hkey, hwanted, ok_bind]
  refine ⟨fun n item hfirst => ?_, fun hnone => ?_⟩
  · have hfield : splice scope (ofElement id field (.entry key wanted) sub) =
        (fieldOf item sub' (Place.item (Place.field id' field') n) >>= render).mapError .cause := by
      rw [splice_ofElement h, hentry, elementWith_of_firstMatch hfirst]
      rfl
    refine ⟨fun raw text hraw hindex => ?_, fun hn => ?_, hfield⟩
    · rw [hfield, splice_byIndex h hraw hindex hfirst.found]
    · rw [hfield, splice_byIndex h (expand_toString scope n) (index_toString hn) hfirst.found]
  · rw [splice_ofElement h, hentry, elementWith_of_no_match hnone]
    rfl

end

/-! ## A sequence of all kinds of items -/

/-- Items that do not match `1.5` for various reasons, and one at the end that does. -/
def mixedItems : List Value :=
  [.int 3, .record [("n", .text "no key")], .record [("k", .null)],
    .record [("k", .list [.text "1.5"])], .record [("k", .float .nan)],
    .record [("k", .decimal (.finite false 150 (-2))), ("n", .text "found")]]

/-- The items are published as a tuple, under the id that the only variable holds. -/
def mixedScope : Scope where
  results id := if id = "r" then some (.record [("f", .tuple mixedItems)]) else none
  environ name := if name = "R" then some "r" else none
  files := .empty
  base := .ok ⟨.relative, []⟩
  project := .shipped

theorem leadsToItems_mixedScope :
    LeadsToItems mixedScope "%R%" "f" "n" "r" "f" "n" mixedItems where
  id := by cbv
  field := by cbv
  sub := by cbv
  sequence := ⟨.tuple mixedItems, ⟨_, rfl, rfl⟩, rfl⟩

theorem firstMatch_mixedItems :
    FirstMatch "k" "1.5" mixedItems 5
      (.record [("k", .decimal (.finite false 150 (-2))), ("n", .text "found")]) := by
  have hfront : ∀ x ∈ mixedItems.take 5, isWanted "k" "1.5" x = false := by decide
  refine ⟨rfl, isWanted_iff.mp (by decide), ?_⟩
  intro m hm x hx hmatch
  have hmem : x ∈ mixedItems.take 5 := by
    rw [← List.getElem?_take_of_lt hm] at hx
    exact List.mem_of_getElem? hx
  have hanswer := hfront x hmem
  rw [isWanted_iff.mpr hmatch] at hanswer
  cases hanswer

/-- The decimal with two places has the text of a decimal with one. -/
theorem splice_byKey_mixedItems :
    splice mixedScope (ofElement "%R%" "f" (.entry "k" "1.5") "n") =
        splice mixedScope (ofElement "%R%" "f" (.index "5") "n")
      ∧ splice mixedScope (ofElement "%R%" "f" (.entry "k" "1.5") "n") = .ok "found"
      ∧ splice mixedScope (ofElement "%R%" "f" (.entry "k" "1.50") "n") =
        .error (.cause (.noMatch "r.f" "k" "1.50")) := by
  have hkey : expand mixedScope "k" = .ok "k" := by cbv
  have hwanted : expand mixedScope "1.5" = .ok "1.5" := by cbv
  have hother : expand mixedScope "1.50" = .ok "1.50" := by cbv
  have hnone : ∀ x ∈ mixedItems, isWanted "k" "1.50" x = false := by decide
  obtain ⟨-, hindex, hfield⟩ :=
    (splice_byKey leadsToItems_mixedScope hkey hwanted).1 5 _ firstMatch_mixedItems
  refine ⟨hindex (by decide), hfield, (splice_byKey leadsToItems_mixedScope hkey hother).2 ?_⟩
  rintro ⟨n, item, h⟩
  have hitem := hnone item (List.mem_of_getElem? h.found)
  rw [isWanted_iff.mpr h.isMatch] at hitem
  cases hitem

end CallPlan.Template
