import CallPlan.Failure

/-!
# Published results

A run publishes the result of each command under the command's id. Entries are only
ever added, in the order in which they come, and an id is taken once (`ids_publish`).
-/

namespace CallPlan

/-- The results that have been published so far. -/
structure Store where
  entries : List (String × Value)
  nodup : (Fields.keys entries).Nodup

namespace Store

def empty : Store := ⟨[], by simp [Fields.keys]⟩

def ids (s : Store) : List String :=
  Fields.keys s.entries

def get? (s : Store) (id : String) : Option Value :=
  Fields.get? id s.entries

def size (s : Store) : Nat :=
  s.entries.length

def push (s : Store) (id : String) (v : Value) (h : s.get? id = none) : Store where
  entries := s.entries ++ [(id, v)]
  nodup := by
    have hn : id ∉ Fields.keys s.entries := Fields.get?_eq_none_iff.mp h
    rw [Fields.keys_append, List.nodup_append]
    refine ⟨s.nodup, by simp [Fields.keys], fun a ha b hb => ?_⟩
    simp only [Fields.keys, List.map_cons, List.map_nil, List.mem_singleton] at hb
    rintro rfl
    exact hn (hb ▸ ha)

/-- Publishes a result under an id, which must be free. -/
def publish (s : Store) (id : String) (v : Value) : Except Failure.Cause Store :=
  match h : s.get? id with
  | none => .ok (s.push id v h)
  | some _ => .error (.duplicateId id)

def literal (s : Store) : String :=
  "ResultStore(" ++ (Value.list (s.ids.map .text)).literal ++ ")"

theorem publish_of_get?_eq_none {s : Store} {id : String} (h : s.get? id = none) (v : Value) :
    s.publish id v = .ok (s.push id v h) := by
  unfold publish
  split
  · rfl
  · next h' => rw [h] at h'; cases h'

theorem publish_eq_error_iff {s : Store} {id : String} {v : Value} {c : Failure.Cause} :
    s.publish id v = .error c ↔ (s.get? id).isSome = true ∧ c = .duplicateId id := by
  unfold publish
  split
  · next h => simp [h]
  · next h => simp [h, eq_comm]

theorem publish_of_get?_ne_none {s : Store} {id : String} (h : s.get? id ≠ none) (v : Value) :
    s.publish id v = .error (.duplicateId id) :=
  publish_eq_error_iff.mpr ⟨by rwa [Option.isSome_iff_ne_none], rfl⟩

theorem ids_publish {s t : Store} {id : String} {v : Value} (h : s.publish id v = .ok t) :
    t.ids = s.ids ++ [id] := by
  unfold publish at h
  split at h
  · cases h; simp [ids, push, Fields.keys]
  · cases h

theorem get?_publish {s t : Store} {id : String} {v : Value} (h : s.publish id v = .ok t)
    (other : String) : t.get? other = if id = other then some v else s.get? other := by
  unfold publish at h
  split at h
  · next hn =>
    cases h
    simp only [get?, push, Fields.get?_append, Fields.get?]
    split
    · next e => subst e; simp only [get?] at hn; simp [hn]
    · simp
  · cases h

end Store

end CallPlan
