import CallPlan.Proofs.Fields
import CallPlan.Proofs.Json.Reading
import CallPlan.Proofs.Number.Shortest
import CallPlan.Proofs.Sequencing
import CallPlan.Value.Canonical

/-!
# Values with canonical text

That a value has canonical text can be told from its leaves and keys (`exists_text`): an
undefined or infinite number has none, neither has an integer that is too long, a time of day or
an object, and a key stands in the way if it cannot be written. Nothing else does.
-/

namespace CallPlan

namespace Value

mutual

/-- Nothing in a value keeps it from having canonical text. -/
def expressible : Value → Bool
  | .int n => Numeral.isWritable n
  | .float x => x.isFinite
  | .decimal d =>
    match d.toInt? with
    | some n => Numeral.isWritable n
    | none => d.isFinite && d.toBinary64.isFinite
  | .time _ => false
  | .object => false
  | .list xs => itemsExpressible xs
  | .tuple xs => itemsExpressible xs
  | .map es => entriesExpressible es
  | _ => true

/-- Nothing in items keeps them from having canonical text. -/
def itemsExpressible : List Value → Bool
  | [] => true
  | x :: xs => x.expressible && itemsExpressible xs

/-- Nothing in entries keeps them from having canonical text. -/
def entriesExpressible : List (Value × Value) → Bool
  | [] => true
  | (k, x) :: es => k.isWritable && x.expressible && entriesExpressible es

end

theorem keysWritable_of_expressible {es : List (Value × Value)}
    (h : entriesExpressible es = true) : es.all (·.1.isWritable) = true := by
  induction es with
  | nil => rfl
  | cons e es ih =>
      simp only [entriesExpressible, Bool.and_eq_true] at h
      simp [h.1.1, ih h.2]

end Value

namespace Canonical

open Sequencing Value

/-- The outcome is data that can be written. -/
def Writes (r : Except Error Json) : Prop :=
  ∃ j, r = .ok j ∧ j.isWritable = true

theorem writes_number {x : Binary64} (h : x.isFinite = true) : Writes (number x) := by
  cases x with
  | finite negative b f =>
      by_cases hzero : Binary64.mantissa b f = 0
      · exact ⟨.int 0, if_pos hzero, rfl⟩
      · simp only [number, if_neg hzero]
        by_cases hwhole : 0 ≤ (Binary64.shortest b f).exponent
        · refine ⟨_, if_pos hwhole, ?_⟩
          have hshort := Binary64.isWritable_shortest (Nat.pos_of_ne_zero hzero) hwhole
          rw [Json.isWritable, ← hshort]
          exact Numeral.isWritable_of_natAbs_eq (by split <;> simp)
        · exact ⟨_, if_neg hwhole, rfl⟩
  | _ => cases h

theorem writes_decimal {d : Decimal} (h : (Value.decimal d).expressible = true) :
    Writes (decimal d) := by
  rw [expressible] at h
  unfold decimal
  cases hd : d.toInt? with
  | some n =>
      rw [hd] at h
      have hfinite : d.isFinite = true := by cases d <;> first | rfl | cases hd
      exact ⟨.int n, if_pos hfinite, h⟩
  | none =>
      rw [hd, Bool.and_eq_true] at h
      rw [if_pos h.1]
      exact writes_number h.2

theorem writes_collect {ms : List (String × Except Error Json)} (h : ∀ m ∈ ms, Writes m.2) :
    ∃ js, collect ms = .ok js ∧ ∀ m ∈ js, m.2.isWritable = true := by
  induction ms with
  | nil => exact ⟨[], rfl, fun m hm => nomatch hm⟩
  | cons m ms ih =>
      obtain ⟨name, r⟩ := m
      obtain ⟨⟨j, hj, hw⟩, htail⟩ := List.forall_mem_cons.mp h
      obtain ⟨js, hjs, hws⟩ := ih htail
      refine ⟨(name, j) :: js, ?_, List.forall_mem_cons.mpr ⟨hw, hws⟩⟩
      exact bind_eq_ok_iff.mpr ⟨j, hj, bind_eq_ok_iff.mpr ⟨js, hjs, rfl⟩⟩

/-- Members become an object if their values become data, in whatever order they come. -/
theorem writes_members {ms : List (String × Except Error Json)} (h : ∀ m ∈ ms, Writes m.2) :
    Writes (members ms) := by
  have hsorted : ∀ m ∈ Sorting.sort (fun a b => Sorting.textLe a.1 b.1) ms, Writes m.2 :=
    fun m hm => h m (Sorting.mem_sort.mp hm)
  obtain ⟨js, hjs, hw⟩ := writes_collect hsorted
  refine ⟨_, map_eq_ok_iff.mpr ⟨js, hjs, rfl⟩, ?_⟩
  rw [Json.isWritable, Json.membersWritable_iff]
  exact fun m hm => hw m (Fields.mem_of_mem_distinct hm)

mutual

theorem writes_normal {v : Value} (h : v.expressible = true) : Writes (normal v) := by
  cases v with
  | int n => exact ⟨.int n, rfl, h⟩
  | float x => exact writes_number h
  | decimal d => exact writes_decimal h
  | time t => cases h
  | object => cases h
  | list xs =>
      obtain ⟨js, hjs, hw⟩ := writes_normalItems h
      exact ⟨.list js, map_eq_ok_iff.mpr ⟨js, hjs, rfl⟩, Json.itemsWritable_iff.mpr hw⟩
  | tuple xs =>
      obtain ⟨js, hjs, hw⟩ := writes_normalItems h
      exact ⟨.list js, map_eq_ok_iff.mpr ⟨js, hjs, rfl⟩, Json.itemsWritable_iff.mpr hw⟩
  | map es =>
      rw [normal, if_pos (keysWritable_of_expressible h)]
      exact writes_members (writes_normalEntries h)
  | _ => exact ⟨_, rfl, rfl⟩

theorem writes_normalItems {xs : List Value} (h : itemsExpressible xs = true) :
    ∃ js, normalItems xs = .ok js ∧ ∀ j ∈ js, j.isWritable = true := by
  cases xs with
  | nil => exact ⟨[], rfl, fun j hj => nomatch hj⟩
  | cons x xs =>
      rw [itemsExpressible, Bool.and_eq_true] at h
      obtain ⟨j, hj, hw⟩ := writes_normal h.1
      obtain ⟨js, hjs, hws⟩ := writes_normalItems h.2
      refine ⟨j :: js, ?_, List.forall_mem_cons.mpr ⟨hw, hws⟩⟩
      exact bind_eq_ok_iff.mpr ⟨j, hj, bind_eq_ok_iff.mpr ⟨js, hjs, rfl⟩⟩

theorem writes_normalEntries {es : List (Value × Value)} (h : entriesExpressible es = true) :
    ∀ m ∈ normalEntries es, Writes m.2 := by
  cases es with
  | nil => exact fun m hm => nomatch hm
  | cons e es =>
      obtain ⟨k, x⟩ := e
      simp only [entriesExpressible, Bool.and_eq_true] at h
      exact List.forall_mem_cons.mpr ⟨writes_normal h.1.2, writes_normalEntries h.2⟩

end

theorem text_eq_ok_iff {v : Value} {s : String} :
    text v = .ok s ↔ ∃ j, normal v = .ok j ∧ j.isWritable = true ∧ j.write .dense = s := by
  rw [text, bind_eq_ok_iff]
  refine exists_congr fun j => and_congr_right fun _ => ?_
  split <;> simp_all

theorem exists_text_of_writes {v : Value} (h : Writes (normal v)) : ∃ s, text v = .ok s := by
  obtain ⟨j, hj, hw⟩ := h
  exact ⟨_, text_eq_ok_iff.mpr ⟨j, hj, hw, rfl⟩⟩

/-- A value has canonical text if nothing in it stands in the way. -/
theorem exists_text {v : Value} (h : v.expressible = true) : ∃ s, text v = .ok s :=
  exists_text_of_writes (writes_normal h)

end Canonical

end CallPlan
