import CallPlan.Plan.References
import CallPlan.Proofs.Sequencing
import CallPlan.Proofs.Value.TextKeys

/-!
# The texts among parameters

Parameters are walked twice: checking collects their texts with places, and resolving
resolves them where they stand. Both see the same texts in the same order
(`map_snd_leaves`), and at the same places where keys are texts (`leaves_eq_texts`).

Resolving stops at each text and at each key, and ends at the first stop that it does not pass
(`resolveAt_stops`): a text that does not resolve, whose place the failure then tells, or a key
that cannot be written.
-/

namespace CallPlan.Template

open Sequencing Plan

mutual

/-- The texts in a value with the places that resolving gives them. -/
def leaves (place : String) : Value → List (String × String)
  | .text s => [(place, s)]
  | .list xs => itemLeaves place 0 xs
  | .tuple xs => itemLeaves place 0 xs
  | .map es => entryLeaves place es
  | _ => []

/-- The texts in the items of a sequence, from an index on. -/
def itemLeaves (place : String) : (index : Nat) → List Value → List (String × String)
  | _, [] => []
  | n, x :: xs => leaves (Place.item place n) x ++ itemLeaves place (n + 1) xs

/-- The texts in the values of entries. -/
def entryLeaves (place : String) : List (Value × Value) → List (String × String)
  | [] => []
  | (k, x) :: es => leaves (Place.entry place k) x ++ entryLeaves place es

end

/-! ## Both walks -/

mutual

/-- Both walks see the same texts, whatever places they give them. -/
theorem map_snd_leaves (p q : String) (v : Value) :
    (leaves p v).map Prod.snd = (texts q v).map Prod.snd := by
  cases v with
  | list xs => exact map_snd_itemLeaves p q 0 xs
  | tuple xs => exact map_snd_itemLeaves p q 0 xs
  | map es => exact map_snd_entryLeaves p q es
  | _ => rfl

theorem map_snd_itemLeaves (p q : String) (n : Nat) (xs : List Value) :
    (itemLeaves p n xs).map Prod.snd = (itemTexts q n xs).map Prod.snd := by
  cases xs with
  | nil => rfl
  | cons x xs =>
      rw [itemLeaves, itemTexts, List.map_append, List.map_append, map_snd_leaves _ _ x,
        map_snd_itemLeaves p q (n + 1) xs]

theorem map_snd_entryLeaves (p q : String) (es : List (Value × Value)) :
    (entryLeaves p es).map Prod.snd = (entryTexts q es).map Prod.snd := by
  cases es with
  | nil => rfl
  | cons e es =>
      obtain ⟨k, x⟩ := e
      rw [entryLeaves, entryTexts, List.map_append, List.map_append, map_snd_leaves _ _ x,
        map_snd_entryLeaves p q es]

end

mutual

/-- Where keys are texts, both walks give the texts the same places. -/
theorem leaves_eq_texts (place : String) (v : Value) (h : v.textKeyed = true) :
    leaves place v = texts place v := by
  cases v with
  | list xs => exact itemLeaves_eq_itemTexts place 0 xs h
  | tuple xs => exact itemLeaves_eq_itemTexts place 0 xs h
  | map es => exact entryLeaves_eq_entryTexts place es h
  | _ => rfl

theorem itemLeaves_eq_itemTexts (place : String) (n : Nat) (xs : List Value)
    (h : Value.itemsTextKeyed xs = true) : itemLeaves place n xs = itemTexts place n xs := by
  cases xs with
  | nil => rfl
  | cons x xs =>
      simp only [Value.itemsTextKeyed, Bool.and_eq_true] at h
      rw [itemLeaves, itemTexts, leaves_eq_texts _ x h.1,
        itemLeaves_eq_itemTexts place (n + 1) xs h.2]

theorem entryLeaves_eq_entryTexts (place : String) (es : List (Value × Value))
    (h : Value.entriesTextKeyed es = true) : entryLeaves place es = entryTexts place es := by
  cases es with
  | nil => rfl
  | cons e es =>
      obtain ⟨k, x⟩ := e
      simp only [Value.entriesTextKeyed, Bool.and_eq_true, decide_eq_true_eq] at h
      obtain ⟨s, rfl⟩ := Value.kind_eq_text_iff.mp h.1.1
      rw [entryLeaves, entryTexts, leaves_eq_texts _ x h.1.2,
        entryLeaves_eq_entryTexts place es h.2]
      rfl

end

/-! ## Places are relative -/

theorem item_append (a b : String) (n : Nat) : Place.item (a ++ b) n = a ++ Place.item b n := by
  simp [Place.item, String.append_assoc, toString]

theorem field_append (a b name : String) :
    Place.field (a ++ b) name = a ++ Place.field b name := by
  simp [Place.field, String.append_assoc]

/-- Texts with `a` in front of their places. -/
def behind (a : String) (ts : List (String × String)) : List (String × String) :=
  ts.map fun t => (a ++ t.1, t.2)

theorem behind_append (a : String) (ts us : List (String × String)) :
    behind a (ts ++ us) = behind a ts ++ behind a us :=
  List.map_append ..

mutual

/-- The places of texts begin with that of the value. -/
theorem texts_append (a b : String) (v : Value) : texts (a ++ b) v = behind a (texts b v) := by
  cases v with
  | list xs => exact itemTexts_append a b 0 xs
  | tuple xs => exact itemTexts_append a b 0 xs
  | map es => exact entryTexts_append a b es
  | _ => rfl

theorem itemTexts_append (a b : String) (n : Nat) (xs : List Value) :
    itemTexts (a ++ b) n xs = behind a (itemTexts b n xs) := by
  cases xs with
  | nil => rfl
  | cons x xs =>
      rw [itemTexts, itemTexts, behind_append, item_append, texts_append a _ x,
        itemTexts_append a b (n + 1) xs]

theorem entryTexts_append (a b : String) (es : List (Value × Value)) :
    entryTexts (a ++ b) es = behind a (entryTexts b es) := by
  cases es with
  | nil => rfl
  | cons e es =>
      obtain ⟨k, x⟩ := e
      rw [entryTexts, entryTexts, behind_append, field_append, texts_append a _ x,
        entryTexts_append a b es]

end

/-- A text has the same place seen from anywhere, but for where the way to it begins. -/
theorem mem_texts_append_iff {a b s text : String} {v : Value} :
    (a ++ s, text) ∈ texts a v ↔ (b ++ s, text) ∈ texts b v := by
  have key (c : String) : (c ++ s, text) ∈ texts c v ↔ (s, text) ∈ texts "" v := by
    have hc : texts c v = behind c (texts "" v) := by
      have := texts_append c "" v
      rwa [String.append_empty] at this
    rw [hc]
    simp [behind, String.append_right_inj]
  rw [key a, key b]

/-! ## Resolving stop by stop -/

/-- Where resolving stops on its way through a value. -/
inductive Stop
  | text (place text : String)
  | key (k : Value)

/-- The text of a stop with its place. -/
def Stop.leaf? : Stop → Option (String × String)
  | .text place s => some (place, s)
  | .key _ => none

mutual

def stops (place : String) : Value → List Stop
  | .text s => [.text place s]
  | .list xs => itemStops place 0 xs
  | .tuple xs => itemStops place 0 xs
  | .map es => entryStops place es
  | _ => []

/-- The stops in the items of a sequence, from an index on. -/
def itemStops (place : String) : (index : Nat) → List Value → List Stop
  | _, [] => []
  | n, x :: xs => stops (Place.item place n) x ++ itemStops place (n + 1) xs

/-- The stops in entries: each key comes before what is in its value. -/
def entryStops (place : String) : List (Value × Value) → List Stop
  | [] => []
  | (k, x) :: es => .key k :: (stops (Place.entry place k) x ++ entryStops place es)

end

mutual

/-- The texts are the stops that are no keys. -/
theorem leaves_eq_filterMap (place : String) (v : Value) :
    leaves place v = (stops place v).filterMap Stop.leaf? := by
  cases v with
  | list xs => exact itemLeaves_eq_filterMap place 0 xs
  | tuple xs => exact itemLeaves_eq_filterMap place 0 xs
  | map es => exact entryLeaves_eq_filterMap place es
  | _ => rfl

theorem itemLeaves_eq_filterMap (place : String) (n : Nat) (xs : List Value) :
    itemLeaves place n xs = (itemStops place n xs).filterMap Stop.leaf? := by
  cases xs with
  | nil => rfl
  | cons x xs =>
      rw [itemLeaves, itemStops, List.filterMap_append, leaves_eq_filterMap _ x,
        itemLeaves_eq_filterMap place (n + 1) xs]

theorem entryLeaves_eq_filterMap (place : String) (es : List (Value × Value)) :
    entryLeaves place es = (entryStops place es).filterMap Stop.leaf? := by
  cases es with
  | nil => rfl
  | cons e es =>
      obtain ⟨k, x⟩ := e
      rw [entryLeaves, entryStops, List.filterMap_cons_none rfl, List.filterMap_append,
        leaves_eq_filterMap _ x, entryLeaves_eq_filterMap place es]

end

section

variable {scope : Scope}

/-- Passes a stop: a text has to resolve, a key has to be one that can be written. -/
def Stop.pass (scope : Scope) : Stop → Except Halt Unit
  | .text place s => completion ((resolveText scope s).mapError (Halt.located place))
  | .key k => if k.isWritable then .ok () else .error (.fault .longInteger)

theorem Stop.pass_text_eq_ok_iff {place text : String} :
    (Stop.text place text).pass scope = .ok () ↔ ∃ v, resolveText scope text = .ok v := by
  simp [Stop.pass, completion, map_eq_ok_iff, mapError_eq_ok_iff]

theorem Stop.pass_text_eq_error_iff {place text : String} {h : Halt} :
    (Stop.text place text).pass scope = .error h ↔
      ∃ h', resolveText scope text = .error h' ∧ h = h'.located place := by
  rw [Stop.pass, completion_eq_error_iff, mapError_eq_error_iff]
  exact exists_congr fun h' => and_congr_right fun _ => eq_comm

theorem Stop.pass_key_eq_error_iff {k : Value} {h : Halt} :
    (Stop.key k).pass scope = .error h ↔ k.isWritable = false ∧ h = .fault .longInteger := by
  rw [Stop.pass]
  cases k.isWritable <;> simp [eq_comm]

mutual

/-- Resolving a value comes to passing its stops in a row. -/
theorem resolveAt_stops (scope : Scope) (path : String) (v : Value) :
    completion (resolveAt scope path v) = passAll (Stop.pass scope) (stops path v) := by
  cases v with
  | text s =>
      simp only [resolveAt, stops, passAll, Stop.pass]
      cases (resolveText scope s).mapError (Halt.located path) <;> rfl
  | list xs =>
      rw [stops, ← resolveItems_stops scope path 0 xs, resolveAt]
      cases resolveItems scope path 0 xs <;> rfl
  | tuple xs =>
      rw [stops, ← resolveItems_stops scope path 0 xs, resolveAt]
      cases resolveItems scope path 0 xs <;> rfl
  | map es =>
      rw [stops, ← resolveEntries_stops scope path es, resolveAt]
      cases resolveEntries scope path es <;> rfl
  | _ => rfl

theorem resolveItems_stops (scope : Scope) (path : String) (n : Nat) (xs : List Value) :
    completion (resolveItems scope path n xs) =
      passAll (Stop.pass scope) (itemStops path n xs) := by
  cases xs with
  | nil => rfl
  | cons x xs =>
      rw [itemStops, passAll_append, ← resolveAt_stops scope _ x,
        ← resolveItems_stops scope path (n + 1) xs, resolveItems]
      cases resolveAt scope (Place.item path n) x with
      | error h => rfl
      | ok y => cases resolveItems scope path (n + 1) xs <;> rfl

theorem resolveEntries_stops (scope : Scope) (path : String) (es : List (Value × Value)) :
    completion (resolveEntries scope path es) =
      passAll (Stop.pass scope) (entryStops path es) := by
  cases es with
  | nil => rfl
  | cons e es =>
      obtain ⟨k, x⟩ := e
      rw [entryStops, passAll, passAll_append, ← resolveAt_stops scope _ x,
        ← resolveEntries_stops scope path es, resolveEntries, Stop.pass]
      split
      · cases resolveAt scope (Place.entry path k) x with
        | error h => rfl
        | ok y => cases resolveEntries scope path es <;> rfl
      · rfl

end

/-- Parameters resolve where all of their stops are passed. -/
theorem exists_resolve_eq_ok_iff {v : Value} :
    (∃ y, resolve scope v = .ok y) ↔
      ∀ s ∈ stops Place.top v, s.pass scope = .ok () := by
  rw [← passAll_eq_ok_iff, ← resolveAt_stops, completion, resolve, map_eq_ok_iff]
  simp

/-- Parameters fail to resolve exactly as the first of their stops does that is not passed. -/
theorem resolve_eq_error_iff {v : Value} {h : Halt} :
    resolve scope v = .error h ↔
      ∃ before s rest, stops Place.top v = before ++ s :: rest
        ∧ (∀ s ∈ before, s.pass scope = .ok ()) ∧ s.pass scope = .error h := by
  rw [resolve, ← completion_eq_error_iff, resolveAt_stops, passAll_eq_error_iff]

theorem mem_leaves_iff {v : Value} {place text : String} :
    (place, text) ∈ leaves Place.top v ↔ .text place text ∈ stops Place.top v := by
  rw [leaves_eq_filterMap, List.mem_filterMap]
  constructor
  · rintro ⟨_ | _, hs, hleaf⟩ <;> cases hleaf
    exact hs
  · exact fun hs => ⟨_, hs, rfl⟩

/-- Where it is no key, resolving parameters fails at the first text that does not resolve. -/
theorem exists_leaf_of_resolve {v : Value} {h : Halt} (hr : resolve scope v = .error h) :
    h = .fault .longInteger ∨
      ∃ before place text rest h', leaves Place.top v = before ++ (place, text) :: rest
        ∧ (∀ l ∈ before, ∃ v, resolveText scope l.2 = .ok v)
        ∧ resolveText scope text = .error h' ∧ h = h'.located place := by
  obtain ⟨before, s, rest, hstops, hbefore, hs⟩ := resolve_eq_error_iff.mp hr
  cases s with
  | key k => exact .inl (Stop.pass_key_eq_error_iff.mp hs).2
  | text place text =>
      obtain ⟨h', ht, hlocated⟩ := Stop.pass_text_eq_error_iff.mp hs
      refine .inr ⟨before.filterMap Stop.leaf?, place, text, rest.filterMap Stop.leaf?, h', ?_, ?_,
        ht, hlocated⟩
      · rw [leaves_eq_filterMap, hstops, List.filterMap_append]
        rfl
      · intro l hl
        obtain ⟨_ | _, hmem, hleaf⟩ := List.mem_filterMap.mp hl <;> cases hleaf
        exact Stop.pass_text_eq_ok_iff.mp (hbefore _ hmem)

/-- Parameters do not resolve if one of their texts does not. -/
theorem exists_resolve_eq_error {v : Value} {l : String × String}
    (hl : l ∈ leaves Place.top v) {h : Halt} (ht : resolveText scope l.2 = .error h) :
    ∃ h', resolve scope v = .error h' := by
  cases hr : resolve scope v with
  | error h' => exact ⟨h', rfl⟩
  | ok y =>
      have hpass := exists_resolve_eq_ok_iff.mp ⟨y, hr⟩ _ (mem_leaves_iff.mp hl)
      obtain ⟨x, hx⟩ := Stop.pass_text_eq_ok_iff.mp hpass
      rw [ht] at hx
      cases hx

end

end CallPlan.Template
