import CallPlan.Proofs.File.Directories
import CallPlan.Proofs.Json.Exporting
import CallPlan.Run.Log
import Mathlib.Data.List.Nodup
import Mathlib.Data.List.Perm.Subperm
import Mathlib.Tactic.ByContra

/-!
# Where the next line goes

The files of a day have different names, and so have the directories of different days
(`fileName_injective`, `dayName_inj`). So the search for a file that may take another line ends
within as many steps as there are entries in the file system, and what it finds has room
(`target_eq_ok`): it is the first file that is missing or below the limit, or the file that the
last line went into.
-/

namespace CallPlan

open Sequencing

/-! ## Names -/

theorem toList_padded (width n : Nat) :
    (padded width n).toList =
      List.replicate (width - (Nat.toDigits 10 n).length) '0' ++ Nat.toDigits 10 n :=
  String.toList_ofList

theorem isDigit_padded {width n : Nat} {c : Char} (h : c ∈ (padded width n).toList) :
    c.isDigit = true := by
  rw [toList_padded] at h
  exact Numeral.isDigit_append Numeral.isDigit_zeros Numeral.isDigit_toDigits c h

theorem natOfDigits_padded (width n : Nat) :
    Numeral.natOfDigits (padded width n).toList = n := by
  rw [toList_padded, Numeral.natOfDigits_zeros_append, Numeral.natOfDigits_toDigits]

theorem padded_injective (width : Nat) : Function.Injective (padded width) := by
  intro m n h
  rw [← natOfDigits_padded width m, h, natOfDigits_padded]

theorem length_padded {width n : Nat} (hw : 0 < width) (h : n < Nat.pow 10 width) :
    (padded width n).toList.length = width := by
  have hshort : (Nat.toDigits 10 n).length ≤ width :=
    (Nat.length_toDigits_le_iff (by decide) hw).mpr h
  rw [toList_padded, List.length_append, List.length_replicate]
  omega

namespace Log

theorem fileName_injective : Function.Injective fileName := by
  intro m n h
  have hchars := congrArg String.toList h
  simp only [fileName, String.toList_append, List.append_assoc, List.append_cancel_left_eq,
    List.append_cancel_right_eq] at hchars
  exact padded_injective 2 (String.toList_injective hchars)

/-- Different dates have directories with different names: the last two digits are those of the
day, and the two before them those of the month. -/
theorem dayName_inj {d d' : Date} (h : d.isValid = true) (h' : d'.isValid = true) :
    dayName d = dayName d' ↔ d = d' := by
  have hsmall : ∀ d : Date, d.isValid = true → d.month < 10 ^ 2 ∧ d.day < 10 ^ 2 := by
    intro d hd
    simp only [Date.isValid, Bool.and_eq_true, decide_eq_true_eq] at hd
    have hdays : Date.daysIn d.year d.month ≤ 31 := by
      unfold Date.daysIn
      split
      · split <;> omega
      · split <;> omega
    omega
  obtain ⟨hmonth, hday⟩ := hsmall d h
  obtain ⟨hmonth', hday'⟩ := hsmall d' h'
  refine ⟨fun heq => ?_, fun heq => by rw [heq]⟩
  have hchars := congrArg String.toList heq
  simp only [dayName, String.toList_append] at hchars
  have hlast : (padded 2 d.day).toList.length = (padded 2 d'.day).toList.length := by
    rw [length_padded (by decide) hday, length_padded (by decide) hday']
  obtain ⟨hfront, hdays⟩ := List.append_inj' hchars hlast
  have hmiddle : (padded 2 d.month).toList.length = (padded 2 d'.month).toList.length := by
    rw [length_padded (by decide) hmonth, length_padded (by decide) hmonth']
  obtain ⟨hyears, hmonths⟩ := List.append_inj' hfront hmiddle
  have hyear : d.year = d'.year := by
    have hrepr : Nat.repr d.year = Nat.repr d'.year := String.toList_injective hyears
    calc d.year = Nat.ofDigitChars 10 (Nat.toDigits 10 d.year) 0 :=
          Nat.ofDigitChars_ten_toDigits.symm
      _ = Nat.ofDigitChars 10 (Nat.toDigits 10 d'.year) 0 := by
          rw [← Nat.toList_repr, hrepr, Nat.toList_repr]
      _ = d'.year := Nat.ofDigitChars_ten_toDigits
  obtain ⟨year, month, day⟩ := d
  obtain ⟨year', month', day'⟩ := d'
  obtain rfl := hyear
  obtain rfl := padded_injective 2 (String.toList_injective hmonths)
  obtain rfl := padded_injective 2 (String.toList_injective hdays)
  rfl

theorem dayName_ne_up (d : Date) : dayName d ≠ ".." := by
  intro h
  have hchars := congrArg String.toList h
  simp only [dayName, String.toList_append] at hchars
  have hdot : '.' ∈ (toString d.year).toList ++ (padded 2 d.month).toList ++
      (padded 2 d.day).toList := by
    rw [hchars]
    decide
  have hdigit : ('.').isDigit = true := by
    rcases List.mem_append.mp hdot with hdot | hdot
    · rcases List.mem_append.mp hdot with hdot | hdot
      · have hyear : (toString d.year).toList = Nat.toDigits 10 d.year := Nat.toList_repr
        rw [hyear] at hdot
        exact Numeral.isDigit_toDigits _ hdot
      · exact isDigit_padded hdot
    · exact isDigit_padded hdot
  cases hdigit

theorem toList_fileName (n : Nat) :
    (fileName n).toList = 'r' :: 'u' :: 'n' :: '_' :: (padded 2 n).toList ++ ".jsonl".toList := by
  simp [fileName, String.toList_append]

theorem fileName_ne_up (n : Nat) : fileName n ≠ ".." := by
  intro h
  have hchars := congrArg String.toList h
  rw [toList_fileName] at hchars
  cases hchars

theorem null_not_mem_fileName (n : Nat) : '\x00' ∉ (fileName n).toList := by
  rw [toList_fileName]
  intro h
  rcases List.mem_append.mp h with h | h
  · have hdigit : '\x00' ∈ (padded 2 n).toList := by simpa using h
    cases isDigit_padded hdigit
  · revert h
    decide

/-! ## Files with room -/

variable {fs : FileSystem} {limit : Int} {directory : Path} {n : Nat}

/-- What stands where the file with a number is, in the directory of a day. -/
def entryAt? (fs : FileSystem) (directory : Path) (n : Nat) : Option Entry :=
  fs.at? (fs.place directory ++ [fileName n])

/-- The file with a number takes no more lines. -/
def IsFull (fs : FileSystem) (limit : Int) (directory : Path) (n : Nat) : Prop :=
  ∃ e, entryAt? fs directory n = some e ∧ limit ≤ e.size

theorem hasRoom_eq_ok (h : fs.Opens directory) {b : Bool}
    (hb : hasRoom fs limit (directory.child (fileName n)) = .ok b) :
    b = false ↔ IsFull fs limit directory n := by
  obtain ⟨there, hthere, hb⟩ := bind_eq_ok_iff.mp hb
  obtain ⟨rfl, hstat⟩ :=
    FileSystem.exists?_child h (fileName_ne_up n) (null_not_mem_fileName n) hthere
  unfold IsFull entryAt?
  cases hat : fs.at? (fs.place directory ++ [fileName n]) with
  | none =>
      rw [hat] at hb
      cases hb
      simp
  | some e =>
      rw [hat] at hb
      obtain ⟨e', he', hb⟩ := bind_eq_ok_iff.mp hb
      obtain rfl := Except.ok.inj ((hstat e hat).symm.trans he')
      rw [pure_eq_ok_iff] at hb
      simp [← hb]

/-- The search passes over full files only, and ends at one with room or after its last step. -/
theorem firstWithRoom_eq_ok (h : fs.Opens directory) {steps : Nat} {p : Path}
    (hp : firstWithRoom fs limit directory steps n = .ok p) :
    ∃ k, n ≤ k ∧ p = directory.child (fileName k) ∧
      (∀ i, n ≤ i → i < k → IsFull fs limit directory i) ∧
      (¬ IsFull fs limit directory k ∨ k = n + steps) := by
  induction steps generalizing n with
  | zero =>
      cases hp
      exact ⟨n, Nat.le_refl n, rfl, fun i hi hk => by omega, .inr rfl⟩
  | succ steps ih =>
      obtain ⟨b, hb, hp⟩ := bind_eq_ok_iff.mp hp
      have hfull := hasRoom_eq_ok h hb
      cases b with
      | true =>
          cases hp
          exact ⟨n, Nat.le_refl n, rfl, fun i hi hk => by omega,
            .inl fun hn => Bool.noConfusion (hfull.mpr hn)⟩
      | false =>
          obtain ⟨k, hk, rfl, hpassed, hend⟩ := ih hp
          refine ⟨k, by omega, rfl, fun i hi hik => ?_, ?_⟩
          · by_cases hin : i = n
            · subst hin
              exact hfull.mp rfl
            · exact hpassed i (by omega) hik
          · rcases hend with hroom | hlast
            · exact .inl hroom
            · exact .inr (by omega)

/-- There are no more files than entries. -/
theorem le_length_entries (directory : Path) {k : Nat}
    (h : ∀ i < k, (entryAt? fs directory i).isSome) :
    k ≤ fs.entries.length := by
  let places := (List.range k).map fun i => fs.place directory ++ [fileName i]
  have hnodup : places.Nodup := by
    refine List.Nodup.map (fun i j hij => ?_) List.nodup_range
    have hnames := (List.append_cancel_left hij : [fileName i] = [fileName j])
    exact fileName_injective (List.singleton_inj.mp hnames)
  have hsubset : places ⊆ Fields.keys fs.entries := by
    intro l hl
    obtain ⟨i, hi, rfl⟩ := List.mem_map.mp hl
    by_contra hnot
    have hsome := h i (List.mem_range.mp hi)
    unfold entryAt? at hsome
    cases hplace : fs.place directory ++ [fileName i] with
    | nil => simp at hplace
    | cons a as =>
        rw [hplace] at hnot hsome
        rw [FileSystem.at?, Fields.get?_eq_none_iff.mpr hnot] at hsome
        · cases hsome
        · simp
  have hlength := (hnodup.subperm hsubset).length_le
  simpa [places, Fields.keys] using hlength

/-- **The next line goes into a file with room**: the first one, or the one that the last line
went into. -/
theorem target_eq_ok (h : fs.Opens directory) {current : Option Path}
    (hcurrent : ∀ q, current = some q → ∃ d n, q = Path.child d (fileName n)) {p : Path}
    (hp : target fs limit directory current = .ok p) :
    ∃ k, p = directory.child (fileName k) ∧ ¬ IsFull fs limit directory k ∧
      ((∀ i < k, IsFull fs limit directory i) ∨ (entryAt? fs directory k).isSome) := by
  have hsearch : firstWithRoom fs limit directory (fs.entries.length + 1) 0 = .ok p →
      ∃ k, p = directory.child (fileName k) ∧ ¬ IsFull fs limit directory k ∧
        ((∀ i < k, IsFull fs limit directory i) ∨ (entryAt? fs directory k).isSome) := by
    intro hfound
    obtain ⟨k, -, rfl, hpassed, hend⟩ := firstWithRoom_eq_ok h hfound
    have hfull : ∀ i < k, IsFull fs limit directory i := fun i hi =>
      hpassed i (Nat.zero_le i) hi
    refine ⟨k, rfl, ?_, .inl hfull⟩
    rcases hend with hroom | hlast
    · exact hroom
    · have hfew : k ≤ fs.entries.length := by
        refine le_length_entries directory fun i hi => ?_
        obtain ⟨e, he, -⟩ := hfull i hi
        rw [he]
        rfl
      omega
  unfold target at hp
  cases current with
  | none => exact hsearch hp
  | some q =>
      obtain ⟨b, hb, hp⟩ := bind_eq_ok_iff.mp hp
      cases b with
      | false => exact hsearch hp
      | true =>
          cases hp
          obtain ⟨d, k, rfl⟩ := hcurrent p rfl
          unfold keepsCurrent at hb
          rw [Path.parent_child] at hb
          split at hb
          · next hd =>
            subst hd
            obtain ⟨there, hthere, hb⟩ := bind_eq_ok_iff.mp hb
            obtain ⟨hsome, hstat⟩ :=
              FileSystem.exists?_child h (fileName_ne_up k) (null_not_mem_fileName k) hthere
            cases there with
            | false => cases hb
            | true =>
                obtain ⟨e, he, hb⟩ := bind_eq_ok_iff.mp hb
                rw [pure_eq_ok_iff, decide_eq_true_eq] at hb
                refine ⟨k, rfl, ?_, .inr hsome.symm⟩
                rintro ⟨e', he', hsize⟩
                obtain rfl := Except.ok.inj ((hstat e' he').symm.trans he)
                omega
          · cases hb

end Log

end CallPlan
