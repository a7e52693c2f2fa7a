/-!
# Fields

A finite table as a list of keys with their contents, in the order in which the
keys came. Setting a key changes its contents in place; a new key goes to the
end (`get?_set`).
-/

namespace CallPlan.Fields

variable {κ : Type u} {α : Type v} [DecidableEq κ]

/-- The contents of a key. -/
def get? (key : κ) : List (κ × α) → Option α
  | [] => none
  | (k, a) :: rest => if k = key then some a else get? key rest

/-- Sets a key: in place where it occurs, at the end otherwise. -/
def set (key : κ) (a : α) : List (κ × α) → List (κ × α)
  | [] => [(key, a)]
  | (k, b) :: rest => if k = key then (k, a) :: rest else (k, b) :: set key a rest

/-- The table that setting the keys in turn makes: every key once, at its first
place, with its last contents. -/
def distinct (fields : List (κ × α)) : List (κ × α) :=
  fields.foldl (fun acc f => set f.1 f.2 acc) []

def keys (fields : List (κ × α)) : List κ :=
  fields.map Prod.fst

@[simp] theorem get?_nil (key : κ) : get? key ([] : List (κ × α)) = none := rfl

theorem get?_set (key other : κ) (a : α) (fields : List (κ × α)) :
    get? other (set key a fields) = if key = other then some a else get? other fields := by
  induction fields with
  | nil => rfl
  | cons f rest ih =>
    obtain ⟨k, b⟩ := f
    simp only [set]
    split
    · next h => subst h; simp only [get?]; split <;> rfl
    · next h =>
      simp only [get?, ih]
      split
      · next h' => subst h'; simp [Ne.symm h]
      · rfl

theorem get?_append (key : κ) (xs ys : List (κ × α)) :
    get? key (xs ++ ys) = (get? key xs).or (get? key ys) := by
  induction xs with
  | nil => simp
  | cons x xs ih =>
    obtain ⟨k, a⟩ := x
    simp only [List.cons_append, get?, ih]
    split <;> rfl

omit [DecidableEq κ] in
theorem keys_append (xs ys : List (κ × α)) : keys (xs ++ ys) = keys xs ++ keys ys := by
  simp [keys]

theorem get?_eq_none_iff {key : κ} {fields : List (κ × α)} :
    get? key fields = none ↔ key ∉ keys fields := by
  induction fields with
  | nil => simp [keys]
  | cons f rest ih =>
    obtain ⟨k, a⟩ := f
    simp only [get?, keys, List.map_cons, List.mem_cons, not_or]
    split
    · next h => subst h; simp
    · next h => simp [keys] at ih; simp [ih, Ne.symm h, eq_comm]

/-- Setting a key that does not occur appends it. -/
theorem set_of_get?_eq_none {key : κ} {fields : List (κ × α)} (h : get? key fields = none)
    (a : α) : set key a fields = fields ++ [(key, a)] := by
  induction fields with
  | nil => rfl
  | cons f rest ih =>
    obtain ⟨k, b⟩ := f
    simp only [get?] at h
    split at h
    · cases h
    · next hk => simp [set, hk, ih h]

end CallPlan.Fields
