import CallPlan.Proofs.File.Names

/-!
# Making directories

There are no links, so where a path leads can be told without looking at the files: each part
leads one level down, and `..` one level up (`FileSystem.place`). If an operating system gets to
the end of a path at all, it gets there (`eq_follow_of_walk`).

Making directories changes little: what stands somewhere stays (`Keeps`), and the directory of a
name below a path is made by making the path and then that one (`makeDirectories_child`). Nor does
an append take anything away: what stands somewhere gets no smaller (`Grows`).
-/

namespace CallPlan

open Sequencing

/-- The location that parts lead to from another one, if each of them leads to a directory. -/
def Location.follow : Location → List String → Location
  | here, [] => here
  | here, part :: rest => follow (if part = ".." then here.dropLast else here ++ [part]) rest

theorem Location.follow_append (here : Location) (parts rest : List String) :
    follow here (parts ++ rest) = follow (follow here parts) rest := by
  induction parts generalizing here with
  | nil => rfl
  | cons part parts ih => exact ih _

/-! ## Paths that system calls take -/

theorem Path.utf8ByteSize_joined_le (parts : List String) (name : String) :
    (joined parts).utf8ByteSize ≤ (joined (parts ++ [name])).utf8ByteSize := by
  unfold joined
  induction parts with
  | nil => simp
  | cons part parts ih =>
      cases parts with
      | nil =>
          rw [List.cons_append, List.nil_append, String.intercalate_cons_cons]
          simp only [String.intercalate_singleton, String.utf8ByteSize_append]
          omega
      | cons part' parts =>
          rw [List.cons_append, List.cons_append, String.intercalate_cons_cons,
            String.intercalate_cons_cons]
          rw [List.cons_append] at ih
          simp only [String.utf8ByteSize_append] at ih ⊢
          omega

theorem FileSystem.refusal?_eq_none_iff {p : Path} :
    refusal? p = none ↔ p.NullFree ∧ p.text.utf8ByteSize < 4096 := by
  unfold refusal? Path.NullFree
  split
  · next hnull => simp [hnull]
  · next hnull =>
    split
    · next hlong => simp [hnull, Nat.not_lt.mpr hlong]
    · next hlong => simp [hnull, Nat.not_le.mp hlong]

/-- If a system call takes a path below a directory, it takes that of the directory. -/
theorem FileSystem.refusal?_of_child {p : Path} {name : String}
    (h : refusal? (p.child name) = none) : refusal? p = none := by
  obtain ⟨hnull, hshort⟩ := refusal?_eq_none_iff.mp h
  rw [Path.nullFree_iff] at hnull
  refine refusal?_eq_none_iff.mpr ⟨?_, ?_⟩
  · rw [Path.nullFree_iff]
    exact fun part hpart => hnull part (List.mem_append_left _ hpart)
  · have hjoined := Path.utf8ByteSize_joined_le p.parts name
    have hchild : (p.child name).text = p.root.text ++ Path.joined (p.parts ++ [name]) := by
      simp [Path.text, Path.child]
    rw [hchild, String.utf8ByteSize_append] at hshort
    unfold Path.text
    split
    · decide
    · rw [String.utf8ByteSize_append]
      omega

namespace FileSystem

variable {fs fs' made : FileSystem} {p : Path} {l here : Location}

/-- Where a path leads, if it leads anywhere. -/
def place (fs : FileSystem) (p : Path) : Location :=
  Location.follow (fs.start p) p.parts

theorem place_child {name : String} (h : name ≠ "..") :
    fs.place (p.child name) = fs.place p ++ [name] := by
  have hstart : fs.start (p.child name) = fs.start p := rfl
  rw [place, place, hstart, Path.child, Location.follow_append]
  simp [Location.follow, h]

/-- A directory stands at the location. -/
def HasDirectory (fs : FileSystem) (l : Location) : Prop :=
  ∃ mode, fs.at? l = some (.directory mode)

/-- Paths go on from the location. -/
structure Enters (fs : FileSystem) (l : Location) : Prop where
  directory : fs.HasDirectory l
  search : fs.forbids l .search = false

/-! ## Following a path -/

theorem walk_cons_of_enters (h : fs.Enters here) (part : String) (rest : List String) :
    fs.walk here (part :: rest) =
      if part = ".." then fs.walk here.dropLast rest
      else if part.utf8ByteSize > 255 then .error .nameTooLong
      else if (fs.at? (here ++ [part])).isSome then fs.walk (here ++ [part]) rest
      else .error .notFound := by
  obtain ⟨⟨mode, hmode⟩, hsearch⟩ := h
  rw [walk, hmode]
  simp only [hsearch, Bool.false_eq_true, if_false]

theorem walk_cons_eq_ok_iff {part : String} {rest : List String} :
    fs.walk here (part :: rest) = .ok l ↔
      fs.Enters here ∧
        ((part = ".." ∧ fs.walk here.dropLast rest = .ok l) ∨
          (part ≠ ".." ∧ part.utf8ByteSize ≤ 255 ∧ (fs.at? (here ++ [part])).isSome ∧
            fs.walk (here ++ [part]) rest = .ok l)) := by
  by_cases henters : fs.Enters here
  · rw [walk_cons_of_enters henters]
    simp only [henters, true_and]
    by_cases hup : part = ".."
    · simp [hup]
    · by_cases hlong : part.utf8ByteSize > 255
      · have hnot : ¬ part.utf8ByteSize ≤ 255 := by omega
        simp [hup, hlong, hnot]
      · have hshort : part.utf8ByteSize ≤ 255 := by omega
        cases hnext : fs.at? (here ++ [part]) with
        | none => simp [hup, hlong]
        | some e => simp [hup, hlong, hshort]
  · simp only [henters, false_and, iff_false]
    cases hat : fs.at? here with
    | none => simp [walk, hat]
    | some e =>
        cases e with
        | file mode content => simp [walk, hat]
        | directory mode =>
            have hshut : fs.forbids here .search = true := by
              simpa using fun hsearch => henters ⟨⟨mode, hat⟩, hsearch⟩
            simp [walk, hat, hshut]

theorem eq_follow_of_walk {parts : List String} (h : fs.walk here parts = .ok l) :
    l = Location.follow here parts := by
  induction parts generalizing here with
  | nil =>
      cases h
      rfl
  | cons part parts ih =>
      obtain ⟨-, ⟨hup, h⟩ | ⟨hdown, -, -, h⟩⟩ := walk_cons_eq_ok_iff.mp h
      · rw [Location.follow, if_pos hup]
        exact ih h
      · rw [Location.follow, if_neg hdown]
        exact ih h

theorem walk_append_eq_ok_iff {parts rest : List String} :
    fs.walk here (parts ++ rest) = .ok l ↔
      ∃ m, fs.walk here parts = .ok m ∧ fs.walk m rest = .ok l := by
  induction parts generalizing here with
  | nil => simp [walk]
  | cons part parts ih =>
      simp only [List.cons_append, walk_cons_eq_ok_iff, ih]
      constructor
      · rintro ⟨hdir, ⟨hup, m, hm, hl⟩ | ⟨hdown, hshort, hsome, m, hm, hl⟩⟩
        · exact ⟨m, ⟨hdir, .inl ⟨hup, hm⟩⟩, hl⟩
        · exact ⟨m, ⟨hdir, .inr ⟨hdown, hshort, hsome, hm⟩⟩, hl⟩
      · rintro ⟨m, ⟨hdir, ⟨hup, hm⟩ | ⟨hdown, hshort, hsome, hm⟩⟩, hl⟩
        · exact ⟨hdir, .inl ⟨hup, m, hm, hl⟩⟩
        · exact ⟨hdir, .inr ⟨hdown, hshort, hsome, m, hm, hl⟩⟩

/-! ## What stays -/

/-- What stands somewhere stays there, and directories stay directories. -/
structure Keeps (fs fs' : FileSystem) : Prop where
  working : fs'.working = fs.working
  forbids : fs'.forbids = fs.forbids
  directory : ∀ {l}, fs.HasDirectory l → fs'.HasDirectory l
  occupied : ∀ {l}, (fs.at? l).isSome → (fs'.at? l).isSome

theorem Keeps.refl (fs : FileSystem) : Keeps fs fs :=
  ⟨rfl, rfl, id, id⟩

theorem Keeps.trans {fs'' : FileSystem} (h : Keeps fs fs') (h' : Keeps fs' fs'') :
    Keeps fs fs'' :=
  ⟨h'.working.trans h.working, h'.forbids.trans h.forbids,
    fun hl => h'.directory (h.directory hl), fun hl => h'.occupied (h.occupied hl)⟩

theorem Keeps.start (h : Keeps fs fs') (p : Path) : fs'.start p = fs.start p := by
  simp [FileSystem.start, h.working]

theorem Keeps.place (h : Keeps fs fs') (p : Path) : fs'.place p = fs.place p := by
  rw [FileSystem.place, FileSystem.place, h.start]

theorem Keeps.enters (h : Keeps fs fs') (hl : fs.Enters l) : fs'.Enters l :=
  ⟨h.directory hl.directory, h.forbids ▸ hl.search⟩

theorem Keeps.walk (h : Keeps fs fs') {parts : List String} (hw : fs.walk here parts = .ok l) :
    fs'.walk here parts = .ok l := by
  induction parts generalizing here with
  | nil => exact hw
  | cons part parts ih =>
      obtain ⟨henters, ⟨hup, hw⟩ | ⟨hdown, hshort, hsome, hw⟩⟩ := walk_cons_eq_ok_iff.mp hw
      · exact walk_cons_eq_ok_iff.mpr ⟨h.enters henters, .inl ⟨hup, ih hw⟩⟩
      · exact walk_cons_eq_ok_iff.mpr
          ⟨h.enters henters, .inr ⟨hdown, hshort, h.occupied hsome, ih hw⟩⟩

/-- Something new keeps what is there unless it takes the place of a directory. -/
theorem keeps_put {e : Entry} (hl : l ≠ []) (h : fs.HasDirectory l → ∃ mode, e = .directory mode) :
    Keeps fs (fs.put l e) where
  working := rfl
  forbids := rfl
  directory := by
    rintro m ⟨mode, hm⟩
    unfold HasDirectory
    rw [at?_put hl]
    split
    · next heq =>
      obtain ⟨mode, rfl⟩ := h ⟨mode, heq ▸ hm⟩
      exact ⟨mode, rfl⟩
    · exact ⟨mode, hm⟩
  occupied := by
    intro m hm
    rw [at?_put hl]
    split
    · rfl
    · exact hm

/-! ## Paths to directories -/

/-- The path leads to a directory. -/
structure Opens (fs : FileSystem) (p : Path) : Prop where
  refusal : refusal? p = none
  reached : fs.walk (fs.start p) p.parts = .ok (fs.place p)
  directory : fs.HasDirectory (fs.place p)

theorem Opens.of_keeps (h : Opens fs p) (hk : Keeps fs fs') : Opens fs' p where
  refusal := h.refusal
  reached := by
    rw [hk.start, hk.place]
    exact hk.walk h.reached
  directory := by
    rw [hk.place]
    exact hk.directory h.directory

theorem locate_eq_ok_iff :
    fs.locate p = .ok l ↔ refusal? p = none ∧ fs.walk (fs.start p) p.parts = .ok l := by
  unfold locate
  cases refusal? p <;> simp [mapError_eq_ok_iff]

theorem stat_eq_ok_iff {e : Entry} :
    fs.stat p = .ok e ↔
      refusal? p = none ∧ fs.walk (fs.start p) p.parts = .ok (fs.place p) ∧
        fs.at? (fs.place p) = some e := by
  unfold stat
  constructor
  · intro h
    obtain ⟨l, hl, h⟩ := bind_eq_ok_iff.mp h
    obtain ⟨hp, hw⟩ := locate_eq_ok_iff.mp hl
    have hplace : l = fs.place p := eq_follow_of_walk hw
    subst hplace
    refine ⟨hp, hw, ?_⟩
    split at h <;> cases h
    assumption
  · rintro ⟨hp, hw, he⟩
    refine bind_eq_ok_iff.mpr ⟨_, locate_eq_ok_iff.mpr ⟨hp, hw⟩, ?_⟩
    rw [he]

theorem isDirectory?_eq_true_iff : fs.isDirectory? p = .ok true ↔ Opens fs p := by
  unfold isDirectory? test
  constructor
  · intro h
    cases hs : fs.stat p with
    | error e =>
        simp only [hs] at h
        split at h <;> cases h
    | ok e =>
        simp only [hs] at h
        obtain ⟨hp, hw, he⟩ := stat_eq_ok_iff.mp hs
        cases e with
        | file mode content => cases h
        | directory mode => exact ⟨hp, hw, mode, he⟩
  · rintro ⟨hp, hw, mode, he⟩
    rw [stat_eq_ok_iff.mpr ⟨hp, hw, he⟩]

/-- Above a directory there are directories, and paths go on from them. -/
theorem Opens.of_child {name : String} (h : Opens fs (p.child name)) :
    Opens fs p ∧ fs.Enters (fs.place p) := by
  obtain ⟨m, hm, hname⟩ := walk_append_eq_ok_iff.mp h.reached
  have hplace : m = fs.place p := eq_follow_of_walk hm
  subst hplace
  have henters := (walk_cons_eq_ok_iff.mp hname).1
  exact ⟨⟨refusal?_of_child h.refusal, hm, henters.directory⟩, henters⟩

/-! ## New names -/

/-- The directory for a new name is there, and the name can stand in it. -/
theorem slot_eq_ok_iff {name : String} :
    fs.slot p = .ok (l, name) ↔
      refusal? p = none ∧ ∃ q, p = q.child name ∧ fs.walk (fs.start q) q.parts = .ok l ∧
        fs.Enters l ∧ name ≠ ".." ∧ name.utf8ByteSize ≤ 255 := by
  unfold slot
  constructor
  · intro h
    split at h
    · cases h
    · next hp =>
      refine ⟨hp, ?_⟩
      split at h
      · cases h
      · next last hlast =>
        obtain ⟨m, hm, h⟩ := bind_eq_ok_iff.mp h
        obtain ⟨front, hfront⟩ := List.getLast?_eq_some_iff.mp hlast
        rw [hfront, List.dropLast_concat, mapError_eq_ok_iff] at hm
        split at h
        · next mode hdir =>
          split at h
          · cases h
          next hsearch =>
          split at h
          · cases h
          next hdown =>
          split at h
          · cases h
          next hshort =>
          cases h
          refine ⟨⟨p.root, front⟩, ?_, hm, ⟨⟨mode, hdir⟩, by simpa using hsearch⟩, hdown, by omega⟩
          rw [Path.child, ← hfront]
        · cases h
        · cases h
  · rintro ⟨hp, q, rfl, hw, ⟨⟨mode, hdir⟩, hsearch⟩, hdown, hshort⟩
    have hlast : (q.child name).parts.getLast? = some name := by simp [Path.child]
    have hfront : (q.child name).parts.dropLast = q.parts := by simp [Path.child]
    have hstart : fs.start (q.child name) = fs.start q := rfl
    rw [hp]
    simp only [hlast, hfront, hstart, hw]
    refine bind_eq_ok_iff.mpr ⟨l, rfl, ?_⟩
    have hnot : ¬ name.utf8ByteSize > 255 := by omega
    simp only [hdir, hsearch, Bool.false_eq_true, if_false, if_neg hdown, if_neg hnot]

theorem place_of_slot {name : String} (h : fs.slot p = .ok (l, name)) :
    fs.place p = l ++ [name] := by
  obtain ⟨-, q, rfl, hw, -, hdown, -⟩ := slot_eq_ok_iff.mp h
  have hplace : l = fs.place q := eq_follow_of_walk hw
  rw [place_child hdown, ← hplace]

/-! ## Making directories -/

/-- What a new directory changes. -/
theorem makeDirectory_eq_ok (h : fs.makeDirectory p = .ok made) :
    fs.at? (fs.place p) = none ∧ made = fs.put (fs.place p) (.directory 0o755) ∧ Keeps fs made ∧
      Opens made p ∧ Opens fs p.parent := by
  obtain ⟨⟨l, name⟩, hslot, h⟩ := bind_eq_ok_iff.mp h
  have hplace := place_of_slot hslot
  have hne : l ++ [name] ≠ [] := by simp
  simp only at h
  split at h
  · cases h
  · next hnone =>
    rw [Bool.not_eq_true, Option.isSome_eq_false_iff, Option.isNone_iff_eq_none] at hnone
    split at h
    · cases h
    cases h
    have hkeeps : Keeps fs (fs.put (l ++ [name]) (.directory 0o755)) :=
      keeps_put hne fun _ => ⟨_, rfl⟩
    obtain ⟨hp, q, rfl, hw, henters, hdown, hshort⟩ := slot_eq_ok_iff.mp hslot
    have hq : l = fs.place q := eq_follow_of_walk hw
    have hat : (fs.put (l ++ [name]) (.directory 0o755)).at? (l ++ [name]) =
        some (.directory 0o755) := by
      rw [at?_put hne, if_pos rfl]
    refine ⟨hplace ▸ hnone, by rw [hplace], hkeeps, ⟨hp, ?_, ?_⟩, ?_⟩
    · rw [hkeeps.place, hplace]
      refine walk_append_eq_ok_iff.mpr ⟨l, hkeeps.walk hw, ?_⟩
      exact walk_cons_eq_ok_iff.mpr
        ⟨hkeeps.enters henters, .inr ⟨hdown, hshort, by rw [hat]; rfl, rfl⟩⟩
    · rw [hkeeps.place, hplace]
      exact ⟨_, hat⟩
    · rw [Path.parent_child]
      exact ⟨refusal?_of_child hp, hq ▸ hw, hq ▸ henters.directory⟩

/-- A path without a last name is that of a directory that is there. -/
theorem makeDirectory_of_opens (h : Opens fs p) :
    fs.makeDirectory p = .error ⟨.occupied, p⟩ := by
  unfold makeDirectory
  refine bind_eq_error_iff.mpr ?_
  cases hlast : p.parts.getLast? with
  | none => exact .inl (by simp [slot, h.refusal, hlast])
  | some name =>
      obtain ⟨front, hfront⟩ := List.getLast?_eq_some_iff.mp hlast
      obtain ⟨root, parts⟩ := p
      simp only at hfront
      subst hfront
      have hopens : Opens fs (Path.child ⟨root, front⟩ name) := h
      obtain ⟨⟨-, hw, -⟩, henters⟩ := hopens.of_child
      by_cases hup : name = ".."
      · subst hup
        obtain ⟨⟨mode, hmode⟩, hsearch⟩ := henters
        refine .inl ?_
        have hstart : fs.start ⟨root, front ++ [".."]⟩ = fs.start ⟨root, front⟩ := rfl
        simp only [slot, h.refusal, hlast, List.dropLast_concat, hstart, hw]
        refine bind_eq_error_iff.mpr (.inr ⟨_, rfl, ?_⟩)
        simp [hmode, hsearch]
      · obtain ⟨m, hm, hname⟩ := walk_append_eq_ok_iff.mp hopens.reached
        obtain rfl := Except.ok.inj (hw.symm.trans hm)
        obtain ⟨-, ⟨hup', -⟩ | ⟨-, hshort, hsome, -⟩⟩ := walk_cons_eq_ok_iff.mp hname
        · exact absurd hup' hup
        · refine .inr ⟨_, slot_eq_ok_iff.mpr ⟨h.refusal, _, rfl, hw, henters, hup, hshort⟩, ?_⟩
          simp only [hsome, if_true]

theorem ensureDirectory_eq_ok (h : fs.ensureDirectory p = .ok made) :
    fs.makeDirectory p = .ok made ∨ Opens fs p ∧ made = fs := by
  unfold ensureDirectory at h
  split at h
  · next hmade =>
    cases h
    exact .inl hmade
  · obtain ⟨b, hb, h⟩ := bind_eq_ok_iff.mp h
    split at h <;> cases h
    next hfound =>
    obtain ⟨-, -, rfl⟩ := hfound
    exact .inr ⟨isDirectory?_eq_true_iff.mp hb, rfl⟩

theorem ensureDirectory_of_opens (h : Opens fs p) : fs.ensureDirectory p = .ok fs := by
  unfold ensureDirectory
  rw [makeDirectory_of_opens h]
  exact bind_eq_ok_iff.mpr ⟨true, isDirectory?_eq_true_iff.mpr h, by simp⟩

/-- Making a directory leads to it, and keeps what is there. -/
theorem opens_of_ensureDirectory (h : fs.ensureDirectory p = .ok made) :
    Opens made p ∧ Keeps fs made := by
  rcases ensureDirectory_eq_ok h with h | ⟨hopens, rfl⟩
  · obtain ⟨-, -, hkeeps, hopens, -⟩ := makeDirectory_eq_ok h
    exact ⟨hopens, hkeeps⟩
  · exact ⟨hopens, .refl _⟩

/-- Directories are made one by one: those above are there already, or are made first. -/
theorem makeDirectories_eq_ok (h : fs.makeDirectories p = .ok made) :
    fs.ensureDirectory p = .ok made ∨
      p.parts ≠ [] ∧ ∃ above, fs.makeDirectories p.parent = .ok above ∧
        above.ensureDirectory p = .ok made := by
  unfold makeDirectories at h
  split at h
  · split at h
    · cases h
    · next hparts =>
      split at h
      · next above habove =>
        exact .inr ⟨hparts, above, habove, mapError_eq_ok_iff.mp h⟩
      · cases h
  · exact .inl (mapError_eq_ok_iff.mp h)

theorem makeDirectories_of_opens (h : Opens fs p) : fs.makeDirectories p = .ok fs := by
  unfold makeDirectories
  rw [makeDirectory_of_opens h]
  simp only [ensureDirectory_of_opens h]
  rfl

theorem keeps_of_makeDirectories {fs made : FileSystem} {p : Path}
    (h : fs.makeDirectories p = .ok made) : Keeps fs made := by
  rcases makeDirectories_eq_ok h with h | ⟨hparts, above, habove, h⟩
  · exact (opens_of_ensureDirectory h).2
  · have hshorter : p.parent.parts.length < p.parts.length := by
      have := List.length_pos_iff.mpr hparts
      simp only [Path.parent, List.length_dropLast]
      omega
    exact (keeps_of_makeDirectories habove).trans (opens_of_ensureDirectory h).2
termination_by p.parts.length

/-- Making a path leads to it. -/
theorem opens_of_makeDirectories (h : fs.makeDirectories p = .ok made) : Opens made p := by
  rcases makeDirectories_eq_ok h with h | ⟨-, above, -, h⟩
  · exact (opens_of_ensureDirectory h).1
  · exact (opens_of_ensureDirectory h).1

/-! ## Directories below a path -/

variable {name : String}

/-- A directory below a path is made by making the path, and then the directory. -/
theorem makeDirectories_child (h : fs.makeDirectories (p.child name) = .ok made) :
    ∃ above, fs.makeDirectories p = .ok above ∧
      above.ensureDirectory (p.child name) = .ok made := by
  rcases makeDirectories_eq_ok h with h | ⟨-, above, habove, h⟩
  · refine ⟨fs, makeDirectories_of_opens ?_, h⟩
    rcases ensureDirectory_eq_ok h with h | ⟨hopens, -⟩
    · obtain ⟨-, -, -, -, hparent⟩ := makeDirectory_eq_ok h
      rwa [Path.parent_child] at hparent
    · exact hopens.of_child.1
  · rw [Path.parent_child] at habove
    exact ⟨above, habove, h⟩

/-- Making a directory changes nothing at other places. -/
theorem at?_of_ensureDirectory (h : fs.ensureDirectory p = .ok made) (hl : l ≠ fs.place p) :
    made.at? l = fs.at? l := by
  rcases ensureDirectory_eq_ok h with h | ⟨-, rfl⟩
  · obtain ⟨hnone, rfl, -, -, -⟩ := makeDirectory_eq_ok h
    have hne : fs.place p ≠ [] := by
      intro hroot
      rw [hroot] at hnone
      cases hnone
    rw [at?_put hne, if_neg (Ne.symm hl)]
  · rfl

/-- Making directories makes no files. -/
theorem file_of_ensureDirectory {mode : Nat} {content : List UInt8}
    (h : fs.ensureDirectory p = .ok made) (hfile : made.at? l = some (.file mode content)) :
    fs.at? l = some (.file mode content) := by
  by_cases hl : l = fs.place p
  · obtain ⟨hopens, hkeeps⟩ := opens_of_ensureDirectory h
    obtain ⟨mode', hdirectory⟩ := hopens.directory
    rw [hkeeps.place, ← hl, hfile] at hdirectory
    cases hdirectory
  · rwa [at?_of_ensureDirectory h hl] at hfile

theorem file_of_makeDirectories {fs made : FileSystem} {p : Path} {mode : Nat}
    {content : List UInt8} (h : fs.makeDirectories p = .ok made)
    (hfile : made.at? l = some (.file mode content)) : fs.at? l = some (.file mode content) := by
  rcases makeDirectories_eq_ok h with h | ⟨hparts, above, habove, h⟩
  · exact file_of_ensureDirectory h hfile
  · have hshorter : p.parent.parts.length < p.parts.length := by
      have := List.length_pos_iff.mpr hparts
      simp only [Path.parent, List.length_dropLast]
      omega
    exact file_of_makeDirectories habove (file_of_ensureDirectory h hfile)
termination_by p.parts.length

/-! ## Files in a directory -/

theorem walk_append_of_eq_ok {parts : List String} (h : fs.walk here parts = .ok l)
    (rest : List String) : fs.walk here (parts ++ rest) = fs.walk l rest := by
  induction parts generalizing here with
  | nil =>
      cases h
      rfl
  | cons part parts ih =>
      obtain ⟨henters, ⟨hup, h⟩ | ⟨hdown, hshort, hsome, h⟩⟩ := walk_cons_eq_ok_iff.mp h
      · rw [List.cons_append, walk_cons_of_enters henters, if_pos hup]
        exact ih h
      · have hnot : ¬ part.utf8ByteSize > 255 := by omega
        rw [List.cons_append, walk_cons_of_enters henters, if_neg hdown, if_neg hnot, if_pos hsome]
        exact ih h

/-- System calls take the name below the path: neither is too long, and paths go on from it. -/
structure Takes (fs : FileSystem) (p : Path) (name : String) : Prop where
  refusal : refusal? (p.child name) = none
  search : fs.forbids (fs.place p) .search = false
  short : name.utf8ByteSize ≤ 255

/-- A name in a directory that is taken by system calls leads to what stands there. -/
theorem stat_child (h : Opens fs p) (hdown : name ≠ "..") (ht : Takes fs p name) :
    fs.stat (p.child name) = match fs.at? (fs.place p ++ [name]) with
      | some e => .ok e
      | none => .error ⟨.notFound, p.child name⟩ := by
  have hstart : fs.start (p.child name) = fs.start p := rfl
  have hnot : ¬ name.utf8ByteSize > 255 := Nat.not_lt.mpr ht.short
  have hwalk : fs.walk (fs.start (p.child name)) (p.child name).parts =
      if (fs.at? (fs.place p ++ [name])).isSome then .ok (fs.place p ++ [name])
      else .error .notFound := by
    rw [hstart, Path.child, walk_append_of_eq_ok h.reached,
      walk_cons_of_enters ⟨h.directory, ht.search⟩, if_neg hdown, if_neg hnot, walk]
  unfold stat locate
  rw [ht.refusal, hwalk]
  cases hat : fs.at? (fs.place p ++ [name]) with
  | none => rfl
  | some e =>
      refine bind_eq_ok_iff.mpr ⟨fs.place p ++ [name], rfl, ?_⟩
      rw [hat]

/-- A test that is answered has been asked about a name that is taken. -/
theorem takes_of_exists? {b : Bool} (h : Opens fs p) (hdown : name ≠ "..")
    (hnull : '\x00' ∉ name.toList) (hb : fs.exists? (p.child name) = .ok b) :
    Takes fs p name := by
  have hfree : (p.child name).NullFree := by
    have hp := Path.nullFree_iff.mp (refusal?_eq_none_iff.mp h.refusal).1
    rw [Path.nullFree_iff]
    intro part hpart
    rcases List.mem_append.mp hpart with hpart | hpart
    · exact hp part hpart
    · rw [List.mem_singleton.mp hpart]
      exact hnull
  have hanswered : ∀ e, fs.locate (p.child name) = .error e → e.cause.spoilsTest = false := by
    intro e he
    refine Bool.eq_false_iff.mpr fun hspoils => ?_
    have htest : fs.exists? (p.child name) = .error e := test_eq_error_iff.mpr ⟨he, hspoils⟩
    cases htest.symm.trans hb
  have hr : refusal? (p.child name) = none := by
    rw [refusal?_eq_none_iff]
    refine ⟨hfree, Nat.lt_of_not_le fun hlong => ?_⟩
    have hrefused : refusal? (p.child name) = some .nameTooLong := by
      rw [refusal?, if_neg hfree, if_pos hlong]
    cases hanswered ⟨.nameTooLong, p.child name⟩ (by rw [locate, hrefused])
  have hlocate : fs.locate (p.child name) =
      (fs.walk (fs.place p) [name]).mapError (⟨·, p.child name⟩) := by
    have hstart : fs.start (p.child name) = fs.start p := rfl
    rw [locate, hr, hstart, Path.child, walk_append_of_eq_ok h.reached]
  obtain ⟨mode, hmode⟩ := h.directory
  have hsearch : fs.forbids (fs.place p) .search = false := by
    refine Bool.eq_false_iff.mpr fun hforbidden => ?_
    have hwalk : fs.walk (fs.place p) [name] = .error .denied := by
      rw [walk, hmode]
      simp only [hforbidden, if_true]
    cases hanswered ⟨.denied, p.child name⟩ (by rw [hlocate, hwalk]; rfl)
  refine ⟨hr, hsearch, Nat.le_of_not_lt fun hlong => ?_⟩
  have hwalk : fs.walk (fs.place p) [name] = .error .nameTooLong := by
    rw [walk_cons_of_enters ⟨⟨mode, hmode⟩, hsearch⟩, if_neg hdown, if_pos hlong]
  cases hanswered ⟨.nameTooLong, p.child name⟩ (by rw [hlocate, hwalk]; rfl)

theorem exists?_of_takes (h : Opens fs p) (hdown : name ≠ "..") (ht : Takes fs p name) :
    fs.exists? (p.child name) = .ok (fs.at? (fs.place p ++ [name])).isSome := by
  rw [exists?, test, stat_child h hdown ht]
  cases fs.at? (fs.place p ++ [name]) <;> rfl

/-- A test on a name in a directory tells what stands there, if it tells anything. -/
theorem exists?_child {b : Bool} (h : Opens fs p) (hdown : name ≠ "..")
    (hnull : '\x00' ∉ name.toList) (hb : fs.exists? (p.child name) = .ok b) :
    b = (fs.at? (fs.place p ++ [name])).isSome ∧
      ∀ e, fs.at? (fs.place p ++ [name]) = some e → fs.stat (p.child name) = .ok e := by
  have ht := takes_of_exists? h hdown hnull hb
  have htest := exists?_of_takes h hdown ht
  refine ⟨Except.ok.inj (hb.symm.trans htest), ?_⟩
  intro e he
  rw [stat_child h hdown ht, he]

/-- What an append leaves: the file with the bytes behind what it had, or a new file. -/
theorem append_eq_ok {bytes : List UInt8} (h : fs.append p bytes = .ok fs') :
    fs.place p ≠ [] ∧
      ((∃ mode content, fs.at? (fs.place p) = some (.file mode content) ∧
          fs' = fs.put (fs.place p) (.file mode (content ++ bytes))) ∨
        (fs.at? (fs.place p) = none ∧ fs' = fs.put (fs.place p) (.file 0o644 bytes))) := by
  unfold append at h
  split at h
  · cases h
  · cases h
  · next l name hslot =>
    rw [place_of_slot hslot]
    refine ⟨by simp, ?_⟩
    split at h
    · next mode content hat =>
      split at h <;> cases h
      exact .inl ⟨mode, content, hat, rfl⟩
    · cases h
    · next hat =>
      split at h <;> cases h
      exact .inr ⟨hat, rfl⟩

/-- An append keeps what is there. -/
theorem keeps_of_append {bytes : List UInt8} (h : fs.append p bytes = .ok fs') : Keeps fs fs' := by
  obtain ⟨hne, ⟨mode, content, hat, rfl⟩ | ⟨hat, rfl⟩⟩ := append_eq_ok h
  · refine keeps_put hne ?_
    rintro ⟨mode', hdir⟩
    rw [hat] at hdir
    cases hdir
  · refine keeps_put hne ?_
    rintro ⟨mode', hdir⟩
    rw [hat] at hdir
    cases hdir

/-! ## What gets no smaller -/

/-- What stands somewhere stays there and gets no smaller. -/
structure Grows (fs fs' : FileSystem) : Prop where
  working : fs'.working = fs.working
  forbids : fs'.forbids = fs.forbids
  stands : ∀ {l e}, fs.at? l = some e → ∃ e', fs'.at? l = some e' ∧ e.size ≤ e'.size

theorem Grows.refl (fs : FileSystem) : Grows fs fs :=
  ⟨rfl, rfl, fun he => ⟨_, he, Nat.le_refl _⟩⟩

theorem Grows.trans {fs'' : FileSystem} (h : Grows fs fs') (h' : Grows fs' fs'') :
    Grows fs fs'' := by
  refine ⟨h'.working.trans h.working, h'.forbids.trans h.forbids, ?_⟩
  intro l e he
  obtain ⟨e', he', hsize⟩ := h.stands he
  obtain ⟨e'', he'', hsize'⟩ := h'.stands he'
  exact ⟨e'', he'', Nat.le_trans hsize hsize'⟩

theorem grows_of_ensureDirectory (h : fs.ensureDirectory p = .ok made) : Grows fs made := by
  have hkeeps := (opens_of_ensureDirectory h).2
  refine ⟨hkeeps.working, hkeeps.forbids, ?_⟩
  intro l e he
  by_cases hl : l = fs.place p
  · rcases ensureDirectory_eq_ok h with h | ⟨-, rfl⟩
    · obtain ⟨hnone, -⟩ := makeDirectory_eq_ok h
      rw [← hl, he] at hnone
      cases hnone
    · exact ⟨e, he, Nat.le_refl _⟩
  · exact ⟨e, (at?_of_ensureDirectory h hl).trans he, Nat.le_refl _⟩

theorem grows_of_makeDirectories {fs made : FileSystem} {p : Path}
    (h : fs.makeDirectories p = .ok made) : Grows fs made := by
  rcases makeDirectories_eq_ok h with h | ⟨hparts, above, habove, h⟩
  · exact grows_of_ensureDirectory h
  · have hshorter : p.parent.parts.length < p.parts.length := by
      have := List.length_pos_iff.mpr hparts
      simp only [Path.parent, List.length_dropLast]
      omega
    exact (grows_of_makeDirectories habove).trans (grows_of_ensureDirectory h)
termination_by p.parts.length

/-- The directories that are made before one cannot be made take nothing away either. -/
theorem grows_of_makeDirectories_eq_error {fs made : FileSystem} {p : Path} {e : FileError}
    (h : fs.makeDirectories p = .error (e, made)) : Grows fs made := by
  unfold makeDirectories at h
  split at h
  · split at h
    · cases h
      exact .refl _
    · next hparts =>
      have hshorter : p.parent.parts.length < p.parts.length := by
        have := List.length_pos_iff.mpr hparts
        simp only [Path.parent, List.length_dropLast]
        omega
      split at h
      · next above habove =>
        obtain ⟨_, -, heq⟩ := mapError_eq_error_iff.mp h
        cases heq
        exact grows_of_makeDirectories habove
      · next failure hfailure =>
        cases h
        exact grows_of_makeDirectories_eq_error hfailure
  · obtain ⟨_, -, heq⟩ := mapError_eq_error_iff.mp h
    cases heq
    exact .refl _
termination_by p.parts.length

theorem grows_of_append {bytes : List UInt8} (h : fs.append p bytes = .ok fs') : Grows fs fs' := by
  refine ⟨(keeps_of_append h).working, (keeps_of_append h).forbids, ?_⟩
  intro l e he
  obtain ⟨hne, ⟨mode, content, hat, rfl⟩ | ⟨hat, rfl⟩⟩ := append_eq_ok h
  · rw [at?_put hne]
    split
    · next heq =>
      obtain rfl := Option.some.inj (hat.symm.trans (heq ▸ he))
      exact ⟨_, rfl, by simp [Entry.size]⟩
    · exact ⟨e, he, Nat.le_refl _⟩
  · rw [at?_put hne]
    split
    · next heq =>
      rw [heq, he] at hat
      cases hat
    · exact ⟨e, he, Nat.le_refl _⟩

end FileSystem

end CallPlan
