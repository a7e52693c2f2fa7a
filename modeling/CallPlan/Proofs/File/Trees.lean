import CallPlan.Proofs.Fields
import CallPlan.Proofs.File.Directories
import Mathlib.Data.List.Induction
import Mathlib.Data.List.Nodup

/-!
# File trees

A file system is a tree if each location is taken once and everything stands in a directory
(`IsTree`). In a tree, a search below a directory finds each thing that stands there once, if it
may list the directories on the way (`mem_descendants_iff`), and the path to it leads there unless
it is too long or the last directory on the way may not be entered (`stat_of_finds`).
-/

namespace CallPlan

open Sequencing

namespace FileSystem

/-- The part names something in a directory: it leads down and an operating system takes it. -/
structure IsName (part : String) : Prop where
  down : part ≠ ".."
  nullFree : '\x00' ∉ part.toList
  short : part.utf8ByteSize ≤ 255

/-- Each location is taken once, and everything has a name in a directory. -/
structure IsTree (fs : FileSystem) : Prop where
  nodup : (Fields.keys fs.entries).Nodup
  rooted : ∀ {l e}, (l, e) ∈ fs.entries →
    ∃ front name, l = front ++ [name] ∧ fs.HasDirectory front ∧ IsName name

variable {fs : FileSystem} {p : Path} {l : Location} {e : Entry}

/-! ## What stands where -/

theorem at?_eq_get? (hl : l ≠ []) : fs.at? l = Fields.get? l fs.entries := by
  cases l with
  | nil => exact absurd rfl hl
  | cons part l => rfl

theorem IsTree.mem_iff (h : IsTree fs) (hl : l ≠ []) : (l, e) ∈ fs.entries ↔ fs.at? l = some e := by
  rw [at?_eq_get? hl]
  exact Fields.mem_iff_get?_eq_some h.nodup (l, e)

/-- What has a name stands in a directory. -/
theorem IsTree.of_concat (h : IsTree fs) {name : String} (hat : fs.at? (l ++ [name]) = some e) :
    fs.HasDirectory l ∧ IsName name := by
  have hmem : (l ++ [name], e) ∈ fs.entries := (h.mem_iff (by simp)).mpr hat
  obtain ⟨front, name', heq, hdirectory, hname⟩ := h.rooted hmem
  obtain ⟨rfl, hlast⟩ := List.append_inj' heq rfl
  cases hlast
  exact ⟨hdirectory, hname⟩

/-- On the way to something, something stands everywhere. -/
theorem IsTree.isSome_of_append (h : IsTree fs) {way : Location}
    (hat : fs.at? (l ++ way) = some e) : (fs.at? l).isSome := by
  induction way using List.reverseRecOn generalizing e with
  | nil =>
      rw [List.append_nil] at hat
      simp [hat]
  | append_singleton way name ih =>
      rw [← List.append_assoc] at hat
      obtain ⟨⟨mode, hmode⟩, -⟩ := h.of_concat hat
      exact ih hmode

theorem IsTree.isName_of_mem (h : IsTree fs) {way : Location} (hat : fs.at? (l ++ way) = some e) :
    ∀ part ∈ way, IsName part := by
  intro part hpart
  obtain ⟨front, rest, rfl⟩ := List.append_of_mem hpart
  have hsplit : l ++ (front ++ part :: rest) = l ++ front ++ [part] ++ rest := by simp
  rw [hsplit] at hat
  obtain ⟨e', he'⟩ := Option.isSome_iff_exists.mp (h.isSome_of_append hat)
  exact (h.of_concat he').2

/-! ## What is below a directory -/

theorem below?_eq_some_iff {directory way : Location} :
    below? directory l = some way ↔ l = directory ++ way := by
  fun_induction below? directory l with
  | case1 l => simp [eq_comm]
  | case2 => simp
  | case3 as b bs ih => simp [ih]
  | case4 a as b bs hab => simp [Ne.symm hab]

/-- What a search below a directory makes of an entry. -/
def foundBelow (fs : FileSystem) (directory : Location) (entry : Location × Entry) :
    Option (Location × Entry) :=
  match below? directory entry.1 with
  | some [] | none => none
  | some way =>
    if way.all isNameable && fs.isListed directory way then some (way, entry.2) else none

theorem foundBelow_eq_some_iff {directory : Location} {entry d : Location × Entry} :
    fs.foundBelow directory entry = some d ↔
      d.1 ≠ [] ∧ d.1.all isNameable = true ∧ fs.isListed directory d.1 = true ∧
        entry = (directory ++ d.1, d.2) := by
  obtain ⟨l, e⟩ := entry
  obtain ⟨way, e'⟩ := d
  unfold foundBelow
  simp only [Prod.mk.injEq]
  split
  · next h =>
    have hl := below?_eq_some_iff.mp h
    simp only [reduceCtorEq, false_iff, not_and]
    rintro hway - - rfl
    rw [List.append_right_inj] at hl
    exact absurd hl hway
  · next h =>
    simp only [reduceCtorEq, false_iff, not_and]
    rintro - - - rfl
    rw [below?_eq_some_iff.mpr rfl] at h
    cases h
  · next way' hne h =>
    obtain rfl := below?_eq_some_iff.mp h
    have hway' : way' ≠ [] := by
      rintro rfl
      exact hne rfl
    rw [List.append_right_inj]
    split
    · next hall =>
      obtain ⟨hnames, hlisted⟩ := Bool.and_eq_true_iff.mp hall
      simp only [Option.some.injEq, Prod.mk.injEq]
      constructor
      · rintro ⟨rfl, rfl⟩
        exact ⟨hway', hnames, hlisted, rfl, rfl⟩
      · rintro ⟨-, -, -, rfl, rfl⟩
        exact ⟨rfl, rfl⟩
    · next hall =>
      simp only [reduceCtorEq, false_iff, not_and]
      rintro - hnames hlisted rfl
      exact absurd (Bool.and_eq_true_iff.mpr ⟨hnames, hlisted⟩) hall

theorem descendants_perm (fs : FileSystem) (directory : Location) :
    (fs.descendants directory).Perm (fs.entries.filterMap (fs.foundBelow directory)) :=
  Sorting.sort_perm _ _

/-- A search finds what stands below a directory, if all directories on the way may be listed. -/
theorem mem_descendants_iff (h : IsTree fs) {directory way : Location} :
    (way, e) ∈ fs.descendants directory ↔
      way ≠ [] ∧ fs.isListed directory way = true ∧ fs.at? (directory ++ way) = some e := by
  rw [(descendants_perm fs directory).mem_iff, List.mem_filterMap]
  simp only [foundBelow_eq_some_iff]
  constructor
  · rintro ⟨entry, hmem, hway, -, hlisted, rfl⟩
    exact ⟨hway, hlisted, (h.mem_iff (by simp [hway])).mp hmem⟩
  · rintro ⟨hway, hlisted, hat⟩
    refine ⟨_, (h.mem_iff (by simp [hway])).mpr hat, hway, ?_, hlisted, rfl⟩
    rw [List.all_eq_true]
    intro part hpart
    simpa [isNameable] using (h.isName_of_mem hat part hpart).nullFree

theorem nodup_descendants (h : IsTree fs) (directory : Location) :
    (fs.descendants directory).Nodup := by
  rw [(descendants_perm fs directory).nodup_iff]
  have hentries : fs.entries.Nodup := List.Nodup.of_map Prod.fst h.nodup
  refine List.Nodup.filterMap (fun a b d ha hb => ?_) hentries
  rw [Option.mem_def, foundBelow_eq_some_iff] at ha hb
  exact ha.2.2.2.trans hb.2.2.2.symm

/-! ## Paths to what is below -/

/-- The path leads to a directory, and a search below it finds the entry by the way. -/
structure Finds (fs : FileSystem) (p : Path) (way : Location) (e : Entry) : Prop where
  opens : Opens fs p
  ne_nil : way ≠ []
  listed : fs.isListed (fs.place p) way = true
  stands : fs.at? (fs.place p ++ way) = some e

theorem finds_of_mem_descendants (h : IsTree fs) (hp : Opens fs p) {d : Location × Entry}
    (hd : d ∈ fs.descendants (fs.place p)) : Finds fs p d.1 d.2 :=
  have hfound := (mem_descendants_iff h).mp hd
  ⟨hp, hfound.1, hfound.2.1, hfound.2.2⟩

theorem Finds.mem_descendants (h : IsTree fs) {way : Location} (hf : Finds fs p way e) :
    (way, e) ∈ fs.descendants (fs.place p) :=
  (mem_descendants_iff h).mpr ⟨hf.ne_nil, hf.listed, hf.stands⟩

/-- The directory that has the last part of the way may not be entered. -/
def isShut (fs : FileSystem) (l way : Location) : Bool :=
  fs.forbids (l ++ way.dropLast) .search

/-- All directories on a way that has been found have been entered, the last one excepted. -/
theorem IsTree.walk_below (h : IsTree fs) {way : Location} (hway : way ≠ [])
    (hlisted : fs.isListed l way = true) (hat : fs.at? (l ++ way) = some e) :
    fs.walk l way = if fs.isShut l way then .error .denied else .ok (l ++ way) := by
  induction way generalizing l with
  | nil => exact absurd rfl hway
  | cons part way ih =>
      have hsplit : l ++ part :: way = l ++ [part] ++ way := by simp
      rw [hsplit] at hat ⊢
      have hsome := h.isSome_of_append hat
      obtain ⟨e', he'⟩ := Option.isSome_iff_exists.mp hsome
      obtain ⟨⟨mode, hmode⟩, hname⟩ := h.of_concat he'
      have hshort : ¬ part.utf8ByteSize > 255 := Nat.not_lt.mpr hname.short
      have hstep (hsearch : fs.forbids l .search = false) :
          fs.walk l (part :: way) = fs.walk (l ++ [part]) way := by
        rw [walk_cons_of_enters ⟨⟨mode, hmode⟩, hsearch⟩, if_neg hname.down, if_neg hshort,
          if_pos hsome]
      cases way with
      | nil =>
          have hshut : fs.isShut l [part] = fs.forbids l .search := by
            rw [isShut, List.dropLast_singleton, List.append_nil]
          rw [hshut, List.append_nil]
          cases hsearch : fs.forbids l .search with
          | false => exact hstep hsearch
          | true => simp [walk, hmode, hsearch]
      | cons part' way =>
          obtain ⟨hdirectory, hrest⟩ := Bool.and_eq_true_iff.mp hlisted
          have hsearch : fs.forbids l .search = false := by
            simpa using (Bool.and_eq_true_iff.mp hdirectory).2
          have hshut : fs.isShut l (part :: part' :: way) =
              fs.isShut (l ++ [part]) (part' :: way) := by
            rw [isShut, isShut, List.dropLast_cons_cons, List.append_assoc, List.singleton_append]
          rw [hstep hsearch, hshut]
          exact ih (by simp) hrest hat

theorem Finds.nullFree (h : IsTree fs) {way : Location} (hf : Finds fs p way e) :
    (p.below way).NullFree := by
  have hparts := Path.nullFree_iff.mp (refusal?_eq_none_iff.mp hf.opens.refusal).1
  rw [Path.nullFree_iff]
  intro part hpart
  rcases List.mem_append.mp hpart with hpart | hpart
  · exact hparts part hpart
  · exact (h.isName_of_mem hf.stands part hpart).nullFree

/-- The path to what a search finds leads there, if it is not too long and the directory that has
it may be entered. -/
theorem stat_of_finds (h : IsTree fs) {way : Location} (hf : Finds fs p way e) :
    fs.stat (p.below way) =
      if 4096 ≤ (p.below way).text.utf8ByteSize then .error ⟨.nameTooLong, p.below way⟩
      else if fs.isShut (fs.place p) way then .error ⟨.denied, p.below way⟩
      else .ok e := by
  have hfree := hf.nullFree h
  split
  · next hlong =>
    have hrefused : refusal? (p.below way) = some .nameTooLong := by
      rw [refusal?, if_neg hfree, if_pos hlong]
    simp only [stat, locate, hrefused]
    rfl
  · next hshort =>
    have haccepted : refusal? (p.below way) = none :=
      refusal?_eq_none_iff.mpr ⟨hfree, Nat.lt_of_not_le hshort⟩
    have hstart : fs.start (p.below way) = fs.start p := rfl
    have hwalk : fs.walk (fs.start (p.below way)) (p.below way).parts =
        if fs.isShut (fs.place p) way then .error .denied else .ok (fs.place p ++ way) := by
      rw [hstart, Path.below, walk_append_of_eq_ok hf.opens.reached]
      exact h.walk_below hf.ne_nil hf.listed hf.stands
    cases hshut : fs.isShut (fs.place p) way with
    | true =>
        have hlocate : fs.locate (p.below way) = .error ⟨.denied, p.below way⟩ := by
          rw [locate, haccepted, hwalk, hshut]
          rfl
        exact bind_eq_error_iff.mpr (.inl hlocate)
    | false =>
        have hlocate : fs.locate (p.below way) = .ok (fs.place p ++ way) := by
          rw [locate, haccepted, hwalk, hshut]
          rfl
        refine bind_eq_ok_iff.mpr ⟨_, hlocate, ?_⟩
        rw [hf.stands]

end FileSystem

end CallPlan
