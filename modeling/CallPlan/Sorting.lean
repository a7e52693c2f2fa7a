/-!
# Stable sorting

Insertion sort by a comparison `le`. Elements that compare as equal keep their
order; the result is a permutation of the input, and it is ordered whenever `le`
is total and transitive (`sort_perm`, `pairwise_sort`).

Where the elements have no total order, the result depends on which of them are
compared. `sortByRuns` fixes that: it begins with the run at the head of the list and
puts every further element into it by bisection (`sortByRuns_perm`).
-/

namespace CallPlan.Sorting

variable {α : Type u}

/-- Puts `x` in front of the first element that it does not exceed. -/
def insert (le : α → α → Bool) (x : α) : List α → List α
  | [] => [x]
  | y :: ys => if le x y then x :: y :: ys else y :: insert le x ys

def sort (le : α → α → Bool) : List α → List α
  | [] => []
  | x :: xs => insert le x (sort le xs)

theorem insert_perm (le : α → α → Bool) (x : α) (ys : List α) :
    (insert le x ys).Perm (x :: ys) := by
  induction ys with
  | nil => exact .refl _
  | cons y ys ih =>
    rw [insert]
    split
    · exact .refl _
    · exact (ih.cons y).trans (.swap x y ys)

theorem sort_perm (le : α → α → Bool) (xs : List α) : (sort le xs).Perm xs := by
  induction xs with
  | nil => exact .refl _
  | cons x xs ih => exact (insert_perm le x _).trans (ih.cons x)

@[simp] theorem mem_sort {le : α → α → Bool} {xs : List α} {x : α} :
    x ∈ sort le xs ↔ x ∈ xs :=
  (sort_perm le xs).mem_iff

theorem pairwise_insert {le : α → α → Bool}
    (total : ∀ a b, le a b = true ∨ le b a = true)
    (trans : ∀ a b c, le a b = true → le b c = true → le a c = true)
    {x : α} {ys : List α} (h : ys.Pairwise (le · · = true)) :
    (insert le x ys).Pairwise (le · · = true) := by
  induction ys with
  | nil => simp [insert]
  | cons y ys ih =>
    rw [List.pairwise_cons] at h
    rw [insert]
    split
    · next hxy =>
      refine List.pairwise_cons.mpr ⟨?_, List.pairwise_cons.mpr h⟩
      rintro z (_ | ⟨_, hz⟩)
      · exact hxy
      · exact trans _ _ _ hxy (h.1 z hz)
    · next hxy =>
      refine List.pairwise_cons.mpr ⟨fun z hz => ?_, ih h.2⟩
      rcases List.mem_cons.mp ((insert_perm le x ys).mem_iff.mp hz) with rfl | hz
      · exact (total y z).resolve_right hxy
      · exact h.1 z hz

theorem pairwise_sort {le : α → α → Bool}
    (total : ∀ a b, le a b = true ∨ le b a = true)
    (trans : ∀ a b c, le a b = true → le b c = true → le a c = true) (xs : List α) :
    (sort le xs).Pairwise (le · · = true) := by
  induction xs with
  | nil => exact .nil
  | cons x xs ih => exact pairwise_insert total trans ih

/-! ## Sorting by bisection -/

/-- The longest run of elements at the head of `x :: ys`, each of which may follow the one
before it, and what is left. -/
def splitRun (follows : α → α → Bool) (x : α) : List α → List α × List α
  | [] => ([x], [])
  | y :: ys =>
    if follows x y then
      let (run, rest) := splitRun follows y ys
      (x :: run, rest)
    else ([x], y :: ys)

/-- The run at the head of a list, and what is left. A run that goes down all the way is
turned around. -/
def firstRun (lt : α → α → Bool) : List α → List α × List α
  | x :: y :: ys =>
    if lt y x then
      let (run, rest) := splitRun (fun a b => lt b a) x (y :: ys)
      (run.reverse, rest)
    else splitRun (fun a b => !lt b a) x (y :: ys)
  | xs => (xs, [])

/-- The place for `x` in a run between the places `low` and `high`: of the halves, the one
in front of the middle if `x` is less than the element there. -/
def place (lt : α → α → Bool) (x : α) (run : List α) (low high : Nat) : Nat :=
  if _h : low < high then
    let middle := (low + high) / 2
    if (run[middle]?).any (lt x) then place lt x run low middle
    else place lt x run (middle + 1) high
  else low
termination_by high - low

def bisect (lt : α → α → Bool) (run : List α) (x : α) : List α :=
  let n := place lt x run 0 run.length
  run.take n ++ x :: run.drop n

/-- The list in the order of `lt`: its first run, and the rest put into it. -/
def sortByRuns (lt : α → α → Bool) (xs : List α) : List α :=
  let (run, rest) := firstRun lt xs
  rest.foldl (bisect lt) run

theorem splitRun_append (follows : α → α → Bool) (x : α) (ys : List α) :
    (splitRun follows x ys).1 ++ (splitRun follows x ys).2 = x :: ys := by
  induction ys generalizing x with
  | nil => rfl
  | cons y ys ih =>
    rw [splitRun]
    split
    · simp [ih]
    · rfl

theorem firstRun_perm (lt : α → α → Bool) (xs : List α) :
    ((firstRun lt xs).1 ++ (firstRun lt xs).2).Perm xs := by
  match xs with
  | [] | [_] => simp [firstRun]
  | x :: y :: ys =>
    rw [firstRun]
    split
    · rw [← splitRun_append (fun a b => lt b a) x (y :: ys)]
      exact (List.reverse_perm _).append_right _
    · rw [splitRun_append]

theorem bisect_perm (lt : α → α → Bool) (run : List α) (x : α) :
    (bisect lt run x).Perm (x :: run) := by
  exact List.perm_middle.trans (by simp)

theorem foldl_bisect_perm (lt : α → α → Bool) (run rest : List α) :
    (rest.foldl (bisect lt) run).Perm (run ++ rest) := by
  induction rest generalizing run with
  | nil => simp
  | cons x rest ih =>
    exact (ih _).trans (((bisect_perm lt run x).append_right rest).trans
      List.perm_middle.symm)

theorem sortByRuns_perm (lt : α → α → Bool) (xs : List α) :
    (sortByRuns lt xs).Perm xs :=
  (foldl_bisect_perm lt _ _).trans (firstRun_perm lt xs)

/-! ## Texts -/

def textLe (a b : String) : Bool :=
  decide (a ≤ b)

theorem textLe_total (a b : String) : textLe a b = true ∨ textLe b a = true := by
  simpa [textLe] using Std.le_total (a := a) (b := b)

theorem textLe_trans (a b c : String) (hab : textLe a b = true) (hbc : textLe b c = true) :
    textLe a c = true := by
  simp only [textLe, decide_eq_true_eq] at *
  exact Std.le_trans hab hbc

end CallPlan.Sorting
