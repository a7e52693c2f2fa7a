import CallPlan.Proofs.Fields
import CallPlan.Run.Event

/-!
# Contents of byte strings

What remains of a value when nothing is known of its byte strings but their lengths
(`Value.blanked`) is all that its summary depends on (`summary_blanked`), and there is no byte
string in the summary (`bytesFree_summary`). The same is true of what is told of a failure, which
has texts in it, and the names of properties where expectations are not met.
-/

namespace CallPlan

namespace Value

mutual

/-- The value with the bytes of all byte strings in it set to zero. Keys stay as they are. -/
def blanked : Value → Value
  | .bytes bs => .bytes (List.replicate bs.length 0)
  | .list xs => .list (itemsBlanked xs)
  | .tuple xs => .tuple (itemsBlanked xs)
  | .map es => .map (entriesBlanked es)
  | v => v

def itemsBlanked : List Value → List Value
  | [] => []
  | x :: xs => x.blanked :: itemsBlanked xs

def entriesBlanked : List (Value × Value) → List (Value × Value)
  | [] => []
  | (k, x) :: es => (k, x.blanked) :: entriesBlanked es

end

mutual

/-- There is no byte string in a value, and none in its keys. -/
def bytesFree : Value → Bool
  | .bytes _ => false
  | .list xs => itemsBytesFree xs
  | .tuple xs => itemsBytesFree xs
  | .map es => entriesBytesFree es
  | _ => true

/-- There is no byte string in items. -/
def itemsBytesFree : List Value → Bool
  | [] => true
  | x :: xs => x.bytesFree && itemsBytesFree xs

/-- There is no byte string in entries. -/
def entriesBytesFree : List (Value × Value) → Bool
  | [] => true
  | (k, x) :: es => k.bytesFree && x.bytesFree && entriesBytesFree es

end

/-! ## Summaries -/

mutual

/-- A summary tells the length of a byte string and no more. -/
theorem summary_blanked (v : Value) : v.blanked.summary = v.summary := by
  cases v with
  | bytes bs => simp only [blanked, summary, List.length_replicate]
  | list xs => simp only [blanked, summary, summaries_blanked xs]
  | tuple xs => simp only [blanked, summary, summaries_blanked xs]
  | map es => simp only [blanked, summary, entrySummaries_blanked es]
  | _ => rfl

theorem summaries_blanked (xs : List Value) : summaries (itemsBlanked xs) = summaries xs := by
  cases xs with
  | nil => rfl
  | cons x xs => simp only [itemsBlanked, summaries, summary_blanked x, summaries_blanked xs]

theorem entrySummaries_blanked (es : List (Value × Value)) :
    entrySummaries (entriesBlanked es) = entrySummaries es := by
  cases es with
  | nil => rfl
  | cons e es =>
      obtain ⟨k, x⟩ := e
      simp only [entriesBlanked, entrySummaries, summary_blanked x, entrySummaries_blanked es]

end

/-- Values that differ in their byte strings only, and not in the lengths of these, have one
summary. -/
theorem summary_eq_of_blanked_eq {v w : Value} (h : v.blanked = w.blanked) :
    v.summary = w.summary :=
  calc v.summary = v.blanked.summary := (summary_blanked v).symm
    _ = w.blanked.summary := by rw [h]
    _ = w.summary := summary_blanked w

theorem bytesFree_record {fields : List (String × Value)}
    (h : ∀ x ∈ fields, x.2.bytesFree = true) : (record fields).bytesFree = true := by
  rw [record, bytesFree]
  induction fields with
  | nil => rfl
  | cons x fields ih =>
      obtain ⟨hx, hfields⟩ := List.forall_mem_cons.mp h
      rw [List.map_cons, entriesBytesFree, hx, ih hfields]
      rfl

theorem itemsBytesFree_of_forall {xs : List Value} (h : ∀ x ∈ xs, x.bytesFree = true) :
    itemsBytesFree xs = true := by
  induction xs with
  | nil => rfl
  | cons x xs ih =>
      obtain ⟨hx, hxs⟩ := List.forall_mem_cons.mp h
      rw [itemsBytesFree, hx, ih hxs]
      rfl

mutual

/-- A summary has no byte string in it. -/
theorem bytesFree_summary (v : Value) : v.summary.bytesFree = true := by
  cases v with
  | list xs => exact itemsBytesFree_summaries xs
  | tuple xs => exact itemsBytesFree_summaries xs
  | map es =>
      rw [summary]
      exact bytesFree_record fun x hx =>
        bytesFree_entrySummaries es x (Fields.mem_of_mem_distinct hx)
  | _ => rfl

theorem itemsBytesFree_summaries (xs : List Value) : itemsBytesFree (summaries xs) = true := by
  cases xs with
  | nil => rfl
  | cons x xs =>
      rw [summaries, itemsBytesFree, bytesFree_summary x, itemsBytesFree_summaries xs]
      rfl

theorem bytesFree_entrySummaries (es : List (Value × Value)) :
    ∀ x ∈ entrySummaries es, x.2.bytesFree = true := by
  cases es with
  | nil => exact nofun
  | cons e es =>
      obtain ⟨k, v⟩ := e
      rw [entrySummaries, List.forall_mem_cons]
      exact ⟨bytesFree_summary v, bytesFree_entrySummaries es⟩

end

end Value

namespace Failure

/-! ## Failures -/

/-- The names of all properties that the failure is about are texts. A failure has these names,
joined, in its words, so no other failure can be made; but a mismatch has a name of any kind. -/
def Worded (f : Failure) : Prop :=
  ∀ ms, f.cause.mismatches? = some ms → ∀ m ∈ ms, m.name.kind = .text

theorem worded_of_mismatches? {f : Failure} (h : f.cause.mismatches? = none) : f.Worded := by
  intro ms hms
  rw [h] at hms
  cases hms

theorem bytesFree_mismatchValue {m : Mismatch} (h : m.name.kind = .text) :
    (mismatchValue m).bytesFree = true := by
  refine Value.bytesFree_record ?_
  have hname : m.name.bytesFree = true := by
    cases hn : m.name with
    | text s => rfl
    | _ =>
        rw [hn] at h
        cases h
  have hactual : (m.actual.elim .null .text : Value).bytesFree = true := by
    cases m.actual <;> rfl
  simp [hname, hactual, Value.bytesFree]

/-- What is told of a failure has no byte string in it. -/
theorem bytesFree_describe {f : Failure} (h : f.Worded) : f.describe.bytesFree = true := by
  refine Value.bytesFree_record ?_
  intro x hx
  rcases List.mem_append.mp hx with hx | hx
  · rcases List.mem_append.mp hx with hx | hx
    · simp only [List.mem_cons, List.not_mem_nil, or_false] at hx
      rcases hx with rfl | rfl | rfl <;> rfl
    · rw [Option.mem_toList, Option.map_eq_some_iff] at hx
      obtain ⟨place, -, rfl⟩ := hx
      rfl
  · rw [Option.mem_toList, Option.map_eq_some_iff] at hx
    obtain ⟨ms, hms, rfl⟩ := hx
    refine Value.itemsBytesFree_of_forall ?_
    intro v hv
    obtain ⟨m, hm, rfl⟩ := List.mem_map.mp hv
    exact bytesFree_mismatchValue (h ms hms m hm)

end Failure

end CallPlan
