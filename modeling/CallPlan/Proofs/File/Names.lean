import CallPlan.Archive.Gather
import CallPlan.Proofs.Sequencing

/-!
# Paths without null characters

No system call takes a path with a null character, and of all causes this one alone does
not depend on the files (`cause_of_stat_eq_error`). A path at which something stands has
none, and neither has the path of a file below it: an archive is built of such paths only
(`namesOnly_gather`), so packing never fails for this cause.
-/

namespace CallPlan

open Sequencing

/-- The text of a path has no null character. -/
def Path.NullFree (p : Path) : Prop :=
  '\x00' ∉ p.text.toList

namespace Path

theorem mem_joined_iff {c : Char} (hc : c ≠ '/') {parts : List String} :
    c ∈ (joined parts).toList ↔ ∃ part ∈ parts, c ∈ part.toList := by
  unfold joined
  induction parts with
  | nil => simp
  | cons part parts ih =>
      cases parts with
      | nil => simp
      | cons part' parts =>
          rw [String.intercalate_cons_cons, String.toList_append, String.toList_append,
            List.mem_append, List.mem_append, ih]
          simp [hc]

theorem nullFree_iff {p : Path} : p.NullFree ↔ ∀ part ∈ p.parts, '\x00' ∉ part.toList := by
  have hroot : '\x00' ∉ p.root.text.toList := by cases p.root <;> decide
  have hjoined := @mem_joined_iff '\x00' (by decide) p.parts
  unfold NullFree text
  split
  · next h => simp [h.2]
  · rw [String.toList_append, List.mem_append, hjoined]
    simp [hroot]

end Path

namespace FileSystem

variable {fs : FileSystem}

theorem walk_ne_nullCharacter {l : Location} {parts : List String} :
    fs.walk l parts ≠ .error .nullCharacter := by
  induction parts generalizing l with
  | nil => simp [walk]
  | cons part parts ih =>
      unfold walk
      split
      · split
        · simp
        · split
          · exact ih
          · split
            · simp
            · split
              · exact ih
              · simp
      · simp
      · simp

/-- Only a path with a null character fails for that cause. -/
theorem cause_of_locate_eq_error {p : Path} (hp : p.NullFree) {e : FileError}
    (h : fs.locate p = .error e) : e.cause ≠ .nullCharacter := by
  unfold locate at h
  split at h
  · next cause hr =>
    cases h
    unfold refusal? at hr
    rw [if_neg hp] at hr
    split at hr <;> simp at hr
    simp [← hr]
  · obtain ⟨cause, hw, rfl⟩ := mapError_eq_error_iff.mp h
    rintro rfl
    exact walk_ne_nullCharacter hw

theorem cause_of_stat_eq_error {p : Path} (hp : p.NullFree) {e : FileError}
    (h : fs.stat p = .error e) : e.cause ≠ .nullCharacter := by
  rcases bind_eq_error_iff.mp h with h | ⟨l, -, h⟩
  · exact cause_of_locate_eq_error hp h
  · split at h <;> cases h
    simp

theorem cause_of_read_eq_error {p : Path} (hp : p.NullFree) {e : FileError}
    (h : fs.read p = .error e) : e.cause ≠ .nullCharacter := by
  rcases bind_eq_error_iff.mp h with h | ⟨l, -, h⟩
  · exact cause_of_locate_eq_error hp h
  · rcases bind_eq_error_iff.mp h with h | ⟨entry, -, h⟩
    · exact cause_of_stat_eq_error hp h
    · split at h
      · cases h
        simp
      · split at h <;> cases h
        simp

/-- A test fails where the path cannot be followed, and the cause is one that spoils tests. -/
theorem test_eq_error_iff {p : Path} {holds : Entry → Bool} {e : FileError} :
    fs.test p holds = .error e ↔ fs.locate p = .error e ∧ e.cause.spoilsTest = true := by
  unfold test
  constructor
  · intro h
    split at h
    · cases h
    · next e' hs =>
      split at h
      · next hspoils =>
        cases h
        rcases bind_eq_error_iff.mp hs with hl | ⟨l, -, hl⟩
        · exact ⟨hl, hspoils⟩
        · split at hl <;> cases hl
          cases hspoils
      · cases h
  · rintro ⟨hl, hspoils⟩
    have hs : fs.stat p = .error e := bind_eq_error_iff.mpr (.inl hl)
    simp only [hs, hspoils, if_true]

theorem cause_of_test_eq_error {p : Path} {holds : Entry → Bool} {e : FileError}
    (h : fs.test p holds = .error e) : e.cause ≠ .nullCharacter := by
  intro hnull
  have hspoils := (test_eq_error_iff.mp h).2
  rw [hnull] at hspoils
  cases hspoils

/-- A path at which something stands has no null character. -/
theorem nullFree_of_test {p : Path} {holds : Entry → Bool} (h : fs.test p holds = .ok true) :
    p.NullFree := by
  intro hn
  have hs : fs.stat p = .error ⟨.nullCharacter, p⟩ := by
    simp [stat, locate, refusal?, hn, bind, Except.bind]
  simp [test, hs, FileError.Cause.spoilsTest] at h

/-- What stands below a directory can be named. -/
theorem isNameable_of_mem_descendants {directory : Location} {d : Location × Entry}
    (h : d ∈ fs.descendants directory) : ∀ part ∈ d.1, '\x00' ∉ part.toList := by
  unfold descendants at h
  rw [Sorting.mem_sort, List.mem_filterMap] at h
  obtain ⟨⟨l, e⟩, -, hd⟩ := h
  simp only at hd
  split at hd
  · cases hd
  · cases hd
  · split at hd
    · next ha =>
      cases hd
      intro part hp
      simpa [isNameable] using List.all_eq_true.mp (Bool.and_eq_true_iff.mp ha).1 part hp
    · cases hd

end FileSystem

namespace Archive

open FileSystem

variable {fs : FileSystem}

/-- The sources have paths without null characters. -/
def NamesOnly (ss : List Source) : Prop :=
  ∀ s ∈ ss, s.path.NullFree

theorem namesOnly_append {ss ss' : List Source} (h : NamesOnly ss) (h' : NamesOnly ss') :
    NamesOnly (ss ++ ss') :=
  List.forall_mem_append.mpr ⟨h, h'⟩

/-- What is found below a path without null characters has none. -/
theorem namesOnly_found {p : Path} (hp : p.NullFree) {ss : List Source}
    (h : found fs p = .ok ss) : NamesOnly ss := by
  obtain ⟨l, -, h⟩ := bind_eq_ok_iff.mp h
  obtain ⟨-, -, h⟩ := bind_eq_ok_iff.mp h
  cases h
  intro s hs
  obtain ⟨d, hd, rfl⟩ := List.mem_map.mp hs
  rw [Path.nullFree_iff] at hp ⊢
  intro part hm
  rcases List.mem_append.mp hm with hm | hm
  · exact hp part hm
  · exact isNameable_of_mem_descendants hd part hm

theorem cause_of_openAll_eq_error {p : Path} {ds : List (Location × CallPlan.Entry)}
    {e : FileError} (h : openAll fs p ds = .error e) : e.cause ≠ .nullCharacter := by
  induction ds with
  | nil => cases h
  | cons d ds ih =>
      obtain ⟨way, entry⟩ := d
      cases entry with
      | file mode content => exact ih h
      | directory mode =>
          unfold openAll at h
          split at h
          · exact ih h
          · next e' htest =>
            split at h
            · exact ih h
            · cases h
              exact cause_of_test_eq_error htest

theorem cause_of_found_eq_error {p : Path} (hp : p.NullFree) {e : FileError}
    (h : found fs p = .error e) : e.cause ≠ .nullCharacter := by
  rcases bind_eq_error_iff.mp h with h | ⟨l, -, h⟩
  · exact cause_of_locate_eq_error hp h
  · rcases bind_eq_error_iff.mp h with h | ⟨-, -, h⟩
    · exact cause_of_openAll_eq_error h
    · cases h

theorem add_eq_ok_iff {sources ss : List Source} {s : Source} :
    add sources s = .ok ss ↔ s.name ∉ sources.map (·.name) ∧ ss = sources ++ [s] := by
  unfold add
  split <;> simp_all [eq_comm]

/-- Of more sources only files are taken over. -/
theorem accept_eq_ok {sources more ss : List Source} (h : accept fs sources more = .ok ss) :
    ∃ files, files.Sublist more ∧ ss = sources ++ files := by
  induction more generalizing sources with
  | nil =>
      cases h
      exact ⟨[], .slnil, (List.append_nil _).symm⟩
  | cons s more ih =>
      obtain ⟨b, -, h⟩ := bind_eq_ok_iff.mp h
      split at h
      · obtain ⟨added, hadd, h⟩ := bind_eq_ok_iff.mp h
        obtain ⟨-, rfl⟩ := add_eq_ok_iff.mp hadd
        obtain ⟨files, hfiles, rfl⟩ := ih h
        exact ⟨s :: files, hfiles.cons_cons s, List.append_assoc ..⟩
      · obtain ⟨files, hfiles, rfl⟩ := ih h
        exact ⟨files, hfiles.cons s, rfl⟩

theorem namesOnly_gather {sources ss : List Source} {ps : List Path} (hf : NamesOnly sources)
    (hps : ∀ p ∈ ps, p.NullFree) (h : gather fs sources ps = .ok ss) : NamesOnly ss := by
  induction ps generalizing sources with
  | nil => cases h; exact hf
  | cons p ps ih =>
      obtain ⟨hp, hps⟩ := List.forall_mem_cons.mp hps
      obtain ⟨b, -, h⟩ := bind_eq_ok_iff.mp h
      split at h
      · obtain ⟨more, hmore, h⟩ := bind_eq_ok_iff.mp h
        obtain ⟨accepted, haccept, h⟩ := bind_eq_ok_iff.mp h
        obtain ⟨files, hfiles, rfl⟩ := accept_eq_ok haccept
        have hfound := namesOnly_found hp (mapError_eq_ok_iff.mp hmore)
        exact ih (namesOnly_append hf fun s hs => hfound s (hfiles.subset hs)) hps h
      · obtain ⟨added, hadd, h⟩ := bind_eq_ok_iff.mp h
        obtain ⟨-, rfl⟩ := add_eq_ok_iff.mp hadd
        exact ih (namesOnly_append hf (by simpa [NamesOnly] using hp)) hps h

theorem cause_of_items_eq_error {ss : List Source} (hs : NamesOnly ss) {e : FileError}
    (h : items fs ss = .error e) : e.cause ≠ .nullCharacter := by
  induction ss with
  | nil => cases h
  | cons s ss ih =>
      have hp := hs s (List.mem_cons_self ..)
      rcases bind_eq_error_iff.mp h with h | ⟨i, -, h⟩
      · rcases bind_eq_error_iff.mp h with h | ⟨entry, -, h⟩
        · exact cause_of_stat_eq_error hp h
        · rcases bind_eq_error_iff.mp h with h | ⟨content, -, h⟩
          · exact cause_of_read_eq_error hp h
          · cases h
      · rcases bind_eq_error_iff.mp h with h | ⟨is, -, h⟩
        · exact ih (fun s hs' => hs s (List.mem_cons_of_mem _ hs')) h
        · cases h

end Archive

end CallPlan
