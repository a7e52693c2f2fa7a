import CallPlan.Fields
import CallPlan.Sorting

/-!
# Tables made by setting keys in turn

Setting the keys of a list in turn makes a table that has every key once
(`nodup_keys_distinct`), in the order of the list (`keys_distinct_sublist`), with the contents
that came last (`get?_distinct`). Sorting the list by its keys first changes the order of the
table and not its contents (`get?_reverse_sort`), and a list that has every key once is its
own table (`distinct_of_nodup`). A table whose keys are in order is told by its contents
(`eq_of_get?_eq`).
-/

namespace CallPlan.Fields

variable {κ : Type u} {α : Type v} [DecidableEq κ]

theorem keys_set (key : κ) (a : α) (fields : List (κ × α)) :
    keys (set key a fields) = if key ∈ keys fields then keys fields else keys fields ++ [key] := by
  induction fields with
  | nil => simp [set, keys]
  | cons f rest ih =>
      obtain ⟨k, b⟩ := f
      rw [set]
      by_cases hk : k = key
      · simp [hk, keys]
      · have hk' : key ≠ k := Ne.symm hk
        simp only [keys] at ih
        simp only [hk, if_false, keys, List.map_cons, ih, List.mem_cons, hk', false_or]
        by_cases hmem : key ∈ List.map Prod.fst rest
        · simp only [hmem, if_true]
        · simp only [hmem, if_false, List.cons_append]

/-- Changing contents keeps what they are under. -/
theorem get?_map {β : Type w} (f : α → β) (key : κ) (fields : List (κ × α)) :
    get? key (fields.map fun (k, a) => (k, f a)) = (get? key fields).map f := by
  induction fields with
  | nil => rfl
  | cons entry rest ih =>
      simp only [List.map_cons, get?]
      split
      · rfl
      · exact ih

theorem mem_of_get?_eq_some {key : κ} {a : α} {fields : List (κ × α)}
    (h : get? key fields = some a) : (key, a) ∈ fields := by
  induction fields with
  | nil => cases h
  | cons f rest ih =>
      obtain ⟨k, b⟩ := f
      rw [get?] at h
      split at h
      · next hk =>
        cases h
        exact hk ▸ List.mem_cons_self ..
      · exact List.mem_cons_of_mem _ (ih h)

theorem get?_eq_some_of_mem {fields : List (κ × α)} (hn : (keys fields).Nodup) {key : κ} {a : α}
    (h : (key, a) ∈ fields) : get? key fields = some a := by
  induction fields with
  | nil => cases h
  | cons f rest ih =>
      obtain ⟨k, b⟩ := f
      have hkeys : k ∉ keys rest ∧ (keys rest).Nodup := List.nodup_cons.mp hn
      rw [get?]
      rcases List.mem_cons.mp h with heq | hmem
      · cases heq
        rw [if_pos rfl]
      · have hk : k ≠ key := fun hk => hkeys.1 (hk ▸ List.mem_map_of_mem hmem)
        rw [if_neg hk]
        exact ih hkeys.2 hmem

theorem mem_iff_get?_eq_some {fields : List (κ × α)} (hn : (keys fields).Nodup) (f : κ × α) :
    f ∈ fields ↔ get? f.1 fields = some f.2 :=
  ⟨get?_eq_some_of_mem hn, mem_of_get?_eq_some⟩

/-- Tables in one order with the same contents are the same. -/
theorem eq_of_get?_eq {lt : κ → κ → Prop} (asymm : ∀ a b, lt a b → ¬ lt b a)
    {xs ys : List (κ × α)} (hx : (keys xs).Pairwise lt) (hy : (keys ys).Pairwise lt)
    (h : ∀ key, get? key xs = get? key ys) : xs = ys := by
  have hne : ∀ a b, lt a b → a ≠ b := fun a b hlt heq => asymm a b hlt (heq ▸ hlt)
  have hnx : (keys xs).Nodup := hx.imp (hne _ _)
  have hny : (keys ys).Nodup := hy.imp (hne _ _)
  have hnodup : ∀ {fs : List (κ × α)}, (keys fs).Nodup → fs.Nodup := fun hn =>
    List.Pairwise.of_map Prod.fst (fun _ _ hkey heq => hkey (congrArg Prod.fst heq)) hn
  have hperm : xs.Perm ys := by
    rw [List.perm_ext_iff_of_nodup (hnodup hnx) (hnodup hny)]
    intro f
    rw [mem_iff_get?_eq_some hnx, mem_iff_get?_eq_some hny, h]
  rw [keys, List.pairwise_map] at hx hy
  exact hperm.eq_of_pairwise (fun a b _ _ hab hba => absurd hba (asymm _ _ hab)) hx hy

/-! ## Setting several keys -/

theorem nodup_keys_foldl_set (fields acc : List (κ × α)) (h : (keys acc).Nodup) :
    (keys (fields.foldl (fun acc f => set f.1 f.2 acc) acc)).Nodup := by
  induction fields generalizing acc with
  | nil => exact h
  | cons f rest ih =>
      refine ih _ ?_
      rw [keys_set]
      split
      · exact h
      · next hnew =>
        rw [List.nodup_append]
        refine ⟨h, by simp, ?_⟩
        rintro x hx y hy rfl
        exact hnew (List.mem_singleton.mp hy ▸ hx)

theorem nodup_keys_distinct (fields : List (κ × α)) : (keys (distinct fields)).Nodup :=
  nodup_keys_foldl_set fields [] .nil

theorem exists_keys_foldl_set (fields acc : List (κ × α)) :
    ∃ new, keys (fields.foldl (fun acc f => set f.1 f.2 acc) acc) = keys acc ++ new ∧
      new.Sublist (keys fields) := by
  induction fields generalizing acc with
  | nil => exact ⟨[], by simp, .slnil⟩
  | cons f rest ih =>
      obtain ⟨new, hkeys, hsub⟩ := ih (set f.1 f.2 acc)
      rw [keys_set] at hkeys
      split at hkeys
      · exact ⟨new, hkeys, hsub.cons _⟩
      · exact ⟨f.1 :: new, by simpa using hkeys, hsub.cons_cons _⟩

theorem keys_distinct_sublist (fields : List (κ × α)) :
    (keys (distinct fields)).Sublist (keys fields) := by
  obtain ⟨new, hkeys, hsub⟩ := exists_keys_foldl_set fields []
  rw [distinct, hkeys]
  exact hsub

theorem get?_foldl_set (key : κ) (fields acc : List (κ × α)) :
    get? key (fields.foldl (fun acc f => set f.1 f.2 acc) acc) =
      (get? key fields.reverse).or (get? key acc) := by
  induction fields generalizing acc with
  | nil => rfl
  | cons f rest ih =>
      rw [List.foldl_cons, ih, List.reverse_cons, get?_append, get?_set, Option.or_assoc]
      congr 1
      simp only [get?]
      split <;> rfl

/-- The table has the contents that came last. -/
theorem get?_distinct (key : κ) (fields : List (κ × α)) :
    get? key (distinct fields) = get? key fields.reverse := by
  rw [distinct, get?_foldl_set, get?_nil, Option.or_none]

theorem mem_of_mem_distinct {fields : List (κ × α)} {f : κ × α} (h : f ∈ distinct fields) :
    f ∈ fields := by
  have hget : get? f.1 (distinct fields) = some f.2 :=
    get?_eq_some_of_mem (nodup_keys_distinct fields) h
  rw [get?_distinct] at hget
  exact List.mem_reverse.mp (mem_of_get?_eq_some hget)

theorem foldl_set_of_nodup {fields acc : List (κ × α)} (h : (keys (acc ++ fields)).Nodup) :
    fields.foldl (fun acc f => set f.1 f.2 acc) acc = acc ++ fields := by
  induction fields generalizing acc with
  | nil => simp
  | cons f rest ih =>
      have hnew : get? f.1 acc = none := by
        rw [get?_eq_none_iff]
        intro hmem
        rw [keys_append, List.nodup_append] at h
        exact h.2.2 f.1 hmem f.1 (List.mem_cons_self ..) rfl
      rw [List.foldl_cons, set_of_get?_eq_none hnew]
      have hassoc : acc ++ [(f.1, f.2)] ++ rest = acc ++ f :: rest := by simp
      rw [ih (hassoc ▸ h), hassoc]

theorem distinct_of_nodup {fields : List (κ × α)} (h : (keys fields).Nodup) :
    distinct fields = fields := by
  rw [← List.nil_append fields] at h
  exact foldl_set_of_nodup h

/-! ## Sorting by keys -/

variable {le : κ → κ → Bool}

omit [DecidableEq κ] in
theorem insert_map {β : Type w} (g : α → β) (f : κ × α) (fields : List (κ × α)) :
    Sorting.insert (fun a b => le a.1 b.1) (f.1, g f.2) (fields.map fun f => (f.1, g f.2)) =
      (Sorting.insert (fun a b => le a.1 b.1) f fields).map fun f => (f.1, g f.2) := by
  induction fields with
  | nil => rfl
  | cons f' rest ih =>
      rw [List.map_cons, Sorting.insert, Sorting.insert, ih]
      split <;> rfl

omit [DecidableEq κ] in
/-- Sorting by the keys does not look at the contents. -/
theorem sort_map {β : Type w} (g : α → β) (fields : List (κ × α)) :
    Sorting.sort (fun a b => le a.1 b.1) (fields.map fun f => (f.1, g f.2)) =
      (Sorting.sort (fun a b => le a.1 b.1) fields).map fun f => (f.1, g f.2) := by
  induction fields with
  | nil => rfl
  | cons f rest ih => rw [List.map_cons, Sorting.sort, ih, insert_map, Sorting.sort]

theorem get?_reverse_insert (hrefl : ∀ k, le k k = true) (key : κ) (f : κ × α)
    (fields : List (κ × α)) :
    get? key (Sorting.insert (fun a b => le a.1 b.1) f fields).reverse =
      get? key (f :: fields).reverse := by
  induction fields with
  | nil => rfl
  | cons f' rest ih =>
      rw [Sorting.insert]
      split
      · rfl
      · next hle =>
        have hne : f.1 ≠ f'.1 := fun heq => hle (heq ▸ hrefl _)
        simp only [List.reverse_cons, get?_append, ih, Option.or_assoc]
        congr 1
        -- The keys differ, so at most one of the two is asked for.
        simp only [get?]
        by_cases hf : f.1 = key
        · have hf' : f'.1 ≠ key := fun h => hne (hf.trans h.symm)
          simp [hf, hf']
        · simp [hf]

/-- Sorting by the keys keeps the last contents of every key. -/
theorem get?_reverse_sort (hrefl : ∀ k, le k k = true) (key : κ) (fields : List (κ × α)) :
    get? key (Sorting.sort (fun a b => le a.1 b.1) fields).reverse = get? key fields.reverse := by
  induction fields with
  | nil => rfl
  | cons f rest ih =>
      rw [Sorting.sort, get?_reverse_insert hrefl]
      simp only [List.reverse_cons, get?_append, ih]

end CallPlan.Fields
