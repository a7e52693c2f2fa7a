import CallPlan.Proofs.Run.Appending
import CallPlan.Proofs.Run.Targets

/-!
# The current file

A log that has just begun searches the files of the day from zero on. The search has no bound but
that of the files there are (`Scans`), and it ends, since a full file is an entry
(`scans_target_none`). A log that has written before tries the file of its last line first, of
whatever day. That finds the same file: all files before that one were full when it was found, and
they stay full as long as the files of the log only come into being and grow (`Ranked`). This is
what appends and others keep on every way to a state (`History`), so the current file is never more
than a shortcut (`appendAt_history`).
-/

namespace CallPlan.Log

open Sequencing

variable {project : Project} {log : Log} {fs fs' : FileSystem} {limit : Int} {directory : Path}
  {n k : Nat}

/-! ## The search -/

/-- What the search from a number on ends with: the first file that may take another line, or the
failure of a test. -/
inductive Scans (fs : FileSystem) (limit : Int) (directory : Path) :
    Nat → Except FileError Path → Prop
  | found {n : Nat} (room : hasRoom fs limit (directory.child (fileName n)) = .ok true) :
      Scans fs limit directory n (.ok (directory.child (fileName n)))
  | failed {n : Nat} {e : FileError}
      (failure : hasRoom fs limit (directory.child (fileName n)) = .error e) :
      Scans fs limit directory n (.error e)
  | passed {n : Nat} {r : Except FileError Path}
      (full : hasRoom fs limit (directory.child (fileName n)) = .ok false)
      (rest : Scans fs limit directory (n + 1) r) : Scans fs limit directory n r

/-- The search has one end. -/
theorem Scans.unique {r r' : Except FileError Path} (h : Scans fs limit directory n r)
    (h' : Scans fs limit directory n r') : r = r' := by
  induction h with
  | found room =>
      cases h' with
      | found => rfl
      | failed failure => cases room.symm.trans failure
      | passed full => cases room.symm.trans full
  | failed failure =>
      cases h' with
      | found room => cases failure.symm.trans room
      | failed failure' => exact congrArg _ (Except.error.inj (failure.symm.trans failure'))
      | passed full => cases failure.symm.trans full
  | passed full _ ih =>
      cases h' with
      | found room => cases full.symm.trans room
      | failed failure => cases full.symm.trans failure
      | passed _ rest => exact ih rest

/-- The search gets as far as the files are full. -/
theorem Scans.of_passed {r : Except FileError Path}
    (hpassed : ∀ i < k, hasRoom fs limit (directory.child (fileName i)) = .ok false)
    (h : Scans fs limit directory k r) : Scans fs limit directory 0 r := by
  induction k with
  | zero => exact h
  | succ k ih =>
      have hlast := hpassed k (Nat.lt_succ_self k)
      exact ih (fun i hi => hpassed i (Nat.lt_succ_of_lt hi)) (.passed hlast h)

/-- What the search finds has room, and what it has passed over has none. -/
theorem Scans.exists_of_ok {r : Except FileError Path} (h : Scans fs limit directory n r)
    {p : Path} (hp : r = .ok p) :
    ∃ k, n ≤ k ∧ p = directory.child (fileName k)
      ∧ hasRoom fs limit (directory.child (fileName k)) = .ok true
      ∧ ∀ i, n ≤ i → i < k → hasRoom fs limit (directory.child (fileName i)) = .ok false := by
  induction h with
  | @found n room =>
      cases hp
      exact ⟨n, Nat.le_refl n, rfl, room, fun i hi hk => by omega⟩
  | failed failure => cases hp
  | @passed n r full _ ih =>
      obtain ⟨k, hk, rfl, hroom, hpassed⟩ := ih hp
      refine ⟨k, by omega, rfl, hroom, ?_⟩
      intro i hi hik
      by_cases hin : i = n
      · rw [hin]
        exact full
      · exact hpassed i (by omega) hik

/-- The search ends within the steps that are given to it, since there are no more files than
entries. -/
theorem scans_firstWithRoom (h : fs.Opens directory) {steps : Nat}
    (hpassed : ∀ i < n, IsFull fs limit directory i) (hsteps : fs.entries.length < n + steps) :
    Scans fs limit directory n (firstWithRoom fs limit directory steps n) := by
  induction steps generalizing n with
  | zero =>
      have hfew : n ≤ fs.entries.length := by
        refine le_length_entries directory ?_
        intro i hi
        obtain ⟨e, he, -⟩ := hpassed i hi
        rw [he]
        rfl
      omega
  | succ steps ih =>
      rw [firstWithRoom]
      cases hroom : hasRoom fs limit (directory.child (fileName n)) with
      | error e => exact .failed hroom
      | ok b =>
          cases b with
          | true => exact .found hroom
          | false =>
              have hfull : IsFull fs limit directory n := (hasRoom_eq_ok h hroom).mp rfl
              refine .passed hroom (ih ?_ (by omega))
              intro i hi
              by_cases hin : i = n
              · rw [hin]
                exact hfull
              · exact hpassed i (by omega)

/-- A log that has just begun goes through the files from zero on, and comes to an end. -/
theorem scans_target_none (limit : Int) (h : fs.Opens directory) :
    Scans fs limit directory 0 (target fs limit directory none) :=
  scans_firstWithRoom h (fun i hi => absurd hi (Nat.not_lt_zero i)) (by omega)

/-! ## Files in front of others -/

/-- All files before the one with the number are full, and system calls take the names of these
and its own. -/
structure Ranked (fs : FileSystem) (limit : Int) (directory : Path) (k : Nat) : Prop where
  takes : ∀ i ≤ k, FileSystem.Takes fs directory (fileName i)
  full : ∀ i < k, IsFull fs limit directory i

theorem takes_of_hasRoom {b : Bool} (h : fs.Opens directory)
    (hb : hasRoom fs limit (directory.child (fileName n)) = .ok b) :
    FileSystem.Takes fs directory (fileName n) := by
  obtain ⟨there, hthere, -⟩ := bind_eq_ok_iff.mp hb
  exact FileSystem.takes_of_exists? h (fileName_ne_up n) (null_not_mem_fileName n) hthere

theorem exists_hasRoom (limit : Int) (h : fs.Opens directory)
    (ht : FileSystem.Takes fs directory (fileName n)) :
    ∃ b, hasRoom fs limit (directory.child (fileName n)) = .ok b := by
  have hthere := FileSystem.exists?_of_takes h (fileName_ne_up n) ht
  have hstat := FileSystem.stat_child h (fileName_ne_up n) ht
  rw [hasRoom, hthere]
  cases hat : fs.at? (fs.place directory ++ [fileName n]) with
  | none => exact ⟨true, rfl⟩
  | some e =>
      rw [hat] at hstat
      rw [hstat]
      exact ⟨_, rfl⟩

theorem hasRoom_of_isFull (h : fs.Opens directory) (ht : FileSystem.Takes fs directory (fileName n))
    (hfull : IsFull fs limit directory n) :
    hasRoom fs limit (directory.child (fileName n)) = .ok false := by
  obtain ⟨b, hb⟩ := exists_hasRoom limit h ht
  rw [hb, (hasRoom_eq_ok h hb).mpr hfull]

/-- What the search finds has only full files before it. -/
theorem Scans.exists_ranked (hopens : fs.Opens directory) {p : Path}
    (h : Scans fs limit directory 0 (.ok p)) :
    ∃ k, p = directory.child (fileName k) ∧ ¬ IsFull fs limit directory k
      ∧ Ranked fs limit directory k := by
  obtain ⟨k, -, rfl, hroom, hpassed⟩ := h.exists_of_ok rfl
  refine ⟨k, rfl, ?_, ?_, ?_⟩
  · intro hfull
    cases (hasRoom_eq_ok hopens hroom).mpr hfull
  · intro i hi
    by_cases hik : i = k
    · rw [hik]
      exact takes_of_hasRoom hopens hroom
    · exact takes_of_hasRoom hopens (hpassed i (Nat.zero_le i) (by omega))
  · intro i hi
    exact (hasRoom_eq_ok hopens (hpassed i (Nat.zero_le i) hi)).mp rfl

theorem target_of_keepsCurrent {p : Path} (h : keepsCurrent fs limit directory p = .ok true) :
    target fs limit directory (some p) = .ok p := by
  simp only [target, h]
  rfl

theorem target_of_not_keepsCurrent {p : Path}
    (h : keepsCurrent fs limit directory p = .ok false) :
    target fs limit directory (some p) = target fs limit directory none := by
  simp only [target, h]
  rfl

/-- A file of another directory is no help. -/
theorem keepsCurrent_of_parent_ne {p : Path} (h : p.parent ≠ directory) :
    keepsCurrent fs limit directory p = .ok false := by
  rw [keepsCurrent, if_neg h]
  rfl

/-- Of the file with a number, the shortcut asks what the search asks, unless it is missing. -/
theorem keepsCurrent_child (limit : Int) (h : fs.Opens directory)
    (ht : FileSystem.Takes fs directory (fileName k)) :
    keepsCurrent fs limit directory (directory.child (fileName k)) =
      if (entryAt? fs directory k).isSome then hasRoom fs limit (directory.child (fileName k))
      else .ok false := by
  have hthere := FileSystem.exists?_of_takes h (fileName_ne_up k) ht
  rw [keepsCurrent, Path.parent_child, if_pos rfl, hasRoom, hthere, entryAt?]
  cases fs.at? (fs.place directory ++ [fileName k]) <;> rfl

/-- **With only full files before it, the current file is a shortcut**: the search from zero on
finds it if it may take another line, and is made otherwise. -/
theorem target_of_ranked (h : fs.Opens directory) (hk : Ranked fs limit directory k) :
    target fs limit directory (some (directory.child (fileName k)))
      = target fs limit directory none := by
  have htakes := hk.takes k (Nat.le_refl k)
  have hkeeps := keepsCurrent_child limit h htakes
  obtain ⟨b, hb⟩ := exists_hasRoom limit h htakes
  rw [hb] at hkeeps
  by_cases hkept : (entryAt? fs directory k).isSome ∧ b = true
  · obtain ⟨hthere, rfl⟩ := hkept
    rw [if_pos hthere] at hkeeps
    have hpassed : ∀ i < k, hasRoom fs limit (directory.child (fileName i)) = .ok false :=
      fun i hi => hasRoom_of_isFull h (hk.takes i (Nat.le_of_lt hi)) (hk.full i hi)
    rw [target_of_keepsCurrent hkeeps]
    exact (Scans.of_passed hpassed (.found hb)).unique (scans_target_none limit h)
  · refine target_of_not_keepsCurrent ?_
    rw [hkeeps]
    split
    · next hthere => rw [Bool.eq_false_iff.mpr fun hroom => hkept ⟨hthere, hroom⟩]
    · rfl

/-! ## What an append leaves -/

variable {stamp now : DateTime} {event : Value}

/-- An append that has a line and knows the directory, all at once. -/
theorem appendAt_of_line {text : String} {root : Path} (hline : line stamp event = .ok text)
    (hroot : log.root project = .ok root) :
    appendAt project stamp now event (log, fs) =
      match fs.makeDirectories (root.child (dayName now.date)) with
      | .error (e, made) => .error (.file e) (log, made)
      | .ok made =>
        match log.sizeLimit project with
        | .error f => .error f (log, made)
        | .ok limit =>
          match target made limit (root.child (dayName now.date)) log.current with
          | .error e => .error (.file e) (log, made)
          | .ok p =>
            match made.append p (Text.Utf8.encode (text ++ "\n")) with
            | .error e => .error (.file e) ({ log with current := some p }, made)
            | .ok written => .ok p ({ log with current := some p }, written) := by
  simp only [appendAt, bind, EStateM.bind, hline, lookUp, hroot, makeDirectory]
  cases fs.makeDirectories (root.child (dayName now.date)) with
  | error failure => rfl
  | ok made =>
      simp only
      cases log.sizeLimit project with
      | error f => rfl
      | ok limit =>
          simp only [choose]
          cases target made limit (root.child (dayName now.date)) log.current with
          | error e => rfl
          | ok p =>
              simp only [write]
              cases made.append p (Text.Utf8.encode (text ++ "\n")) <;> rfl

/-- An append without a line, or of a log without a directory, does nothing. -/
theorem exists_appendAt_eq_error (fs : FileSystem)
    (h : ∀ text root, line stamp event = .ok text → log.root project ≠ .ok root) :
    ∃ f, ∀ current,
      appendAt project stamp now event ({ log with current }, fs)
        = .error f ({ log with current }, fs) := by
  cases hline : line stamp event with
  | error f =>
      refine ⟨f, fun current => ?_⟩
      simp only [appendAt, bind, EStateM.bind, hline, lookUp]
  | ok text =>
      cases hroot : log.root project with
      | error f =>
          refine ⟨f, fun current => ?_⟩
          have hroot' : ({ log with current } : Log).root project = .error f := hroot
          simp only [appendAt, bind, EStateM.bind, hline, lookUp, hroot']
      | ok root => exact absurd hroot (h text root hline)

/-- What an append leaves of the log and the files. -/
inductive Leaves (project : Project) (now : DateTime) (log : Log) (fs : FileSystem) :
    Log × FileSystem → Prop
  /-- No file has been chosen. -/
  | unchosen {left : FileSystem} (grows : fs.Grows left) : Leaves project now log fs (log, left)
  /-- A file has been chosen, which may have a line more. -/
  | chosen {root p : Path} {made left : FileSystem} {limit : Int}
      (root_eq : log.root project = .ok root)
      (makes : fs.makeDirectories (root.child (dayName now.date)) = .ok made)
      (limit_eq : log.sizeLimit project = .ok limit)
      (chooses : target made limit (root.child (dayName now.date)) log.current = .ok p)
      (grows : made.Grows left) :
      Leaves project now log fs ({ log with current := some p }, left)

theorem leaves_appendAt (project : Project) (stamp now : DateTime) (event : Value) (log : Log)
    (fs : FileSystem) :
    Leaves project now log fs (after (appendAt project stamp now event (log, fs))) := by
  by_cases hbegins : ∃ text root, line stamp event = .ok text ∧ log.root project = .ok root
  · obtain ⟨text, root, hline, hroot⟩ := hbegins
    rw [appendAt_of_line hline hroot]
    cases hmade : fs.makeDirectories (root.child (dayName now.date)) with
    | error failure => exact .unchosen (FileSystem.grows_of_makeDirectories_eq_error hmade)
    | ok made =>
        have hgrows := FileSystem.grows_of_makeDirectories hmade
        cases hlimit : log.sizeLimit project with
        | error f => exact .unchosen hgrows
        | ok limit =>
            simp only
            cases htarget : target made limit (root.child (dayName now.date)) log.current with
            | error e => exact .unchosen hgrows
            | ok p =>
                simp only
                cases hwritten : made.append p (Text.Utf8.encode (text ++ "\n")) with
                | error e => exact .chosen hroot hmade hlimit htarget (.refl made)
                | ok written =>
                    exact .chosen hroot hmade hlimit htarget
                      (FileSystem.grows_of_append hwritten)
  · obtain ⟨f, hf⟩ := exists_appendAt_eq_error fs
      fun text root hline hroot => hbegins ⟨text, root, hline, hroot⟩
    have hlog := hf log.current
    rw [hlog]
    exact .unchosen (.refl fs)

/-- Where two current files lead to one choice, two appends do the same to the files, and end in the
same way. -/
theorem appendAt_congr (stamp now : DateTime) (event : Value) {current : Option Path}
    (h : ∀ root made limit, log.root project = .ok root →
      fs.makeDirectories (root.child (dayName now.date)) = .ok made →
      log.sizeLimit project = .ok limit →
      target made limit (root.child (dayName now.date)) log.current
        = target made limit (root.child (dayName now.date)) current) :
    ending (appendAt project stamp now event (log, fs))
        = ending (appendAt project stamp now event ({ log with current }, fs))
      ∧ (after (appendAt project stamp now event (log, fs))).2
        = (after (appendAt project stamp now event ({ log with current }, fs))).2 := by
  by_cases hbegins : ∃ text root, line stamp event = .ok text ∧ log.root project = .ok root
  · obtain ⟨text, root, hline, hroot⟩ := hbegins
    have hroot' : ({ log with current } : Log).root project = .ok root := hroot
    have hlimits : ({ log with current } : Log).sizeLimit project = log.sizeLimit project := rfl
    rw [appendAt_of_line hline hroot, appendAt_of_line hline hroot', hlimits]
    cases hmade : fs.makeDirectories (root.child (dayName now.date)) with
    | error failure => exact ⟨rfl, rfl⟩
    | ok made =>
        cases hlimit : log.sizeLimit project with
        | error f => exact ⟨rfl, rfl⟩
        | ok limit =>
            simp only [h root made limit hroot hmade hlimit]
            cases target made limit (root.child (dayName now.date)) current with
            | error e => exact ⟨rfl, rfl⟩
            | ok p =>
                cases hwritten : made.append p (Text.Utf8.encode (text ++ "\n")) with
                | error e => simp [hwritten, ending]
                | ok written => simp [hwritten, ending]
  · obtain ⟨f, hf⟩ := exists_appendAt_eq_error fs
      fun text root hline hroot => hbegins ⟨text, root, hline, hroot⟩
    have hlog := hf log.current
    rw [hlog, hf current]
    exact ⟨rfl, rfl⟩

/-! ## What stays true of the current file -/

/-- The files of the log stay where they are, and get no smaller. Paths go on from the directories
of the days as before. -/
structure FilesGrow (root : Path) (fs fs' : FileSystem) : Prop where
  stands : ∀ day n e, entryAt? fs (root.child (dayName day)) n = some e →
    ∃ e', entryAt? fs' (root.child (dayName day)) n = some e' ∧ e.size ≤ e'.size
  search : ∀ day, fs.forbids (fs.place (root.child (dayName day))) .search = false →
    fs'.forbids (fs'.place (root.child (dayName day))) .search = false

theorem filesGrow_of_grows (h : fs.Grows fs') (root : Path) : FilesGrow root fs fs' := by
  have hplace : ∀ p, fs'.place p = fs.place p := by
    intro p
    rw [FileSystem.place, FileSystem.place, FileSystem.start, FileSystem.start, h.working]
  refine ⟨fun day n e he => ?_, fun day hsearch => ?_⟩
  · rw [entryAt?, hplace]
    exact h.stands he
  · rw [hplace, h.forbids]
    exact hsearch

theorem Ranked.filesGrow {root : Path} {day : Date}
    (hk : Ranked fs limit (root.child (dayName day)) k) (h : FilesGrow root fs fs') :
    Ranked fs' limit (root.child (dayName day)) k := by
  refine ⟨fun i hi => ?_, fun i hi => ?_⟩
  · have ht := hk.takes i hi
    exact ⟨ht.refusal, h.search day ht.search, ht.short⟩
  · obtain ⟨e, he, hsize⟩ := hk.full i hi
    obtain ⟨e', he', hgrown⟩ := h.stands day i e he
    exact ⟨e', he', by omega⟩

/-- The current file, if there is one, is a file of some day with only full files before it. -/
def Settled (project : Project) (s : Log × FileSystem) : Prop :=
  ∀ p, s.1.current = some p → ∃ root limit day k, s.1.root project = .ok root
    ∧ s.1.sizeLimit project = .ok limit ∧ p = (root.child (dayName day)).child (fileName k)
    ∧ Ranked s.2 limit (root.child (dayName day)) k

theorem Settled.filesGrow (hs : Settled project (log, fs))
    (h : ∀ root, log.root project = .ok root → FilesGrow root fs fs') :
    Settled project (log, fs') := by
  intro p hp
  obtain ⟨root, limit, day, k, hroot, hlimit, hpath, hk⟩ := hs p hp
  exact ⟨root, limit, day, k, hroot, hlimit, hpath, hk.filesGrow (h root hroot)⟩

/-- The current file leads to the choice that is made without it. -/
theorem Settled.target_eq {root : Path} {day : Date} (hs : Settled project (log, fs))
    (hopens : fs.Opens (root.child (dayName day))) (hroot : log.root project = .ok root)
    (hlimit : log.sizeLimit project = .ok limit) :
    target fs limit (root.child (dayName day)) log.current
      = target fs limit (root.child (dayName day)) none := by
  cases hcurrent : log.current with
  | none => rfl
  | some p =>
      obtain ⟨root', limit', day', k, hroot', hlimit', rfl, hk⟩ := hs p hcurrent
      obtain rfl := Except.ok.inj (hroot.symm.trans hroot')
      obtain rfl := Except.ok.inj (hlimit.symm.trans hlimit')
      by_cases hday : root.child (dayName day') = root.child (dayName day)
      · rw [hday] at hk ⊢
        exact target_of_ranked hopens hk
      · refine target_of_not_keepsCurrent (keepsCurrent_of_parent_ne ?_)
        rw [Path.parent_child]
        exact hday

/-- Making the directory of the day does not unsettle the current file. -/
theorem Settled.target_of_makeDirectories {root : Path} {day : Date} {made : FileSystem}
    (hs : Settled project (log, fs)) (hroot : log.root project = .ok root)
    (hmade : fs.makeDirectories (root.child (dayName day)) = .ok made)
    (hlimit : log.sizeLimit project = .ok limit) :
    target made limit (root.child (dayName day)) log.current
      = target made limit (root.child (dayName day)) none := by
  have hgrown : Settled project (log, made) := hs.filesGrow fun root _ =>
    filesGrow_of_grows (FileSystem.grows_of_makeDirectories hmade) root
  exact hgrown.target_eq (FileSystem.opens_of_makeDirectories hmade) hroot hlimit

theorem Settled.leaves {s' : Log × FileSystem} (hs : Settled project (log, fs))
    (h : Leaves project now log fs s') : Settled project s' := by
  cases h with
  | unchosen grows => exact hs.filesGrow fun root _ => filesGrow_of_grows grows root
  | @chosen root p made left limit root_eq makes limit_eq chooses grows =>
      have hopens := FileSystem.opens_of_makeDirectories makes
      rw [hs.target_of_makeDirectories root_eq makes limit_eq] at chooses
      have hscans := scans_target_none limit hopens
      rw [chooses] at hscans
      obtain ⟨k, hpath, -, hk⟩ := hscans.exists_ranked hopens
      intro q hq
      obtain rfl := Option.some.inj hq
      exact ⟨root, limit, now.date, k, root_eq, limit_eq, hpath,
        hk.filesGrow (filesGrow_of_grows grows root)⟩

/-! ## Histories -/

/-- The ways on which a log and the files come about. -/
inductive History (project : Project) : Log × FileSystem → Prop
  /-- The log has just begun, or has been configured anew, among whatever files. -/
  | begun {log : Log} {fs : FileSystem} (unused : log.current = none) : History project (log, fs)
  /-- An event has been appended on whatever day, if that was possible. -/
  | appended {s : Log × FileSystem} (before : History project s) (stamp now : DateTime)
      (event : Value) : History project (after (appendAt project stamp now event s))
  /-- Others have changed the files, but have only made files of the log or extended them. -/
  | changed {log : Log} {fs fs' : FileSystem} (before : History project (log, fs))
      (grow : ∀ root, log.root project = .ok root → FilesGrow root fs fs') :
      History project (log, fs')

theorem History.settled {s : Log × FileSystem} (h : History project s) : Settled project s := by
  induction h with
  | begun unused =>
      intro p hp
      rw [unused] at hp
      cases hp
  | @appended s _ stamp now event ih =>
      exact ih.leaves (leaves_appendAt project stamp now event s.1 s.2)
  | changed _ grow ih => exact ih.filesGrow grow

/-- **The current file never changes the choice.** Whatever has been appended before, on whatever
days, and whatever files there have been at first, an append ends as one of a log that has just
begun, and does the same to the files. Once the directory of the day is made, the search from zero
on ends, and what it ends with is chosen. So a line goes into the first file of the day that is
missing or below the limit. -/
theorem appendAt_history {s : Log × FileSystem} (h : History project s) (stamp now : DateTime)
    (event : Value) :
    let begun : Log × FileSystem := ({ s.1 with current := none }, s.2)
    ending (appendAt project stamp now event s) = ending (appendAt project stamp now event begun)
    ∧ (after (appendAt project stamp now event s)).2
      = (after (appendAt project stamp now event begun)).2
    ∧ (∀ root made limit, s.1.root project = .ok root →
      s.2.makeDirectories (root.child (dayName now.date)) = .ok made →
      s.1.sizeLimit project = .ok limit →
      ∀ r, Scans made limit (root.child (dayName now.date)) 0 r ↔
        target made limit (root.child (dayName now.date)) s.1.current = r)
    ∧ ∀ p s', appendAt project stamp now event s = .ok p s' → ∃ root made limit k,
      s.1.root project = .ok root
      ∧ s.2.makeDirectories (root.child (dayName now.date)) = .ok made
      ∧ s.1.sizeLimit project = .ok limit
      ∧ p = (root.child (dayName now.date)).child (fileName k)
      ∧ ¬ IsFull made limit (root.child (dayName now.date)) k
      ∧ ∀ i < k, IsFull made limit (root.child (dayName now.date)) i := by
  obtain ⟨log, fs⟩ := s
  intro begun
  have hs : Settled project (log, fs) := h.settled
  obtain ⟨hending, hfiles⟩ := appendAt_congr stamp now event
    fun root made limit hroot hmade hlimit => hs.target_of_makeDirectories hroot hmade hlimit
  refine ⟨hending, hfiles, ?_, ?_⟩
  · intro root made limit hroot hmade hlimit r
    rw [hs.target_of_makeDirectories hroot hmade hlimit]
    have hscans := scans_target_none limit (FileSystem.opens_of_makeDirectories hmade)
    constructor
    · intro hr
      exact hscans.unique hr
    · rintro rfl
      exact hscans
  · intro p s' hp
    obtain ⟨-, root, made, limit, -, -, hroot, hmade, hlimit, htarget, -⟩ :=
      appendAt_eq_ok_iff.mp hp
    have hopens := FileSystem.opens_of_makeDirectories hmade
    rw [hs.target_of_makeDirectories hroot hmade hlimit] at htarget
    have hscans := scans_target_none limit hopens
    rw [htarget] at hscans
    obtain ⟨k, hpath, hroom, hk⟩ := hscans.exists_ranked hopens
    exact ⟨root, made, limit, k, hroot, hmade, hlimit, hpath, hroom, hk.full⟩

/-! ## A day with a gap -/

/-- A moment in January. -/
def gapMoment (day : Nat) : DateTime := ⟨⟨2024, 1, day⟩, ⟨12, 0, 0, 0, some 0⟩⟩

/-- A log with a limit of a hundred bytes. -/
def gapLog : Log :=
  .configured ⟨.relative, ["logs"]⟩ (some 100)

/-- Of the second of January there are a full file and one that is not, with a gap between them. -/
def gapFiles : FileSystem :=
  { FileSystem.empty with
    entries := [(["logs"], .directory 0o755), (["logs", "20240102"], .directory 0o755),
      (["logs", "20240102", "run_00.jsonl"], .file 0o644 (List.replicate 100 120)),
      (["logs", "20240102", "run_02.jsonl"], .file 0o644 (List.replicate 10 120))] }

/-- The log after an event of the third of January and one of the second. -/
def gapState : Log × FileSystem :=
  let event : Value := .record [("event", .text "a")]
  after (appendAt .bare (gapMoment 2) (gapMoment 2) event
    (after (appendAt .bare (gapMoment 3) (gapMoment 3) event (gapLog, gapFiles))))

/-- The gap is filled first: that file is the current one, and the next line goes into it, as it
would without it. -/
theorem appendAt_history_gap :
    History .bare gapState
    ∧ gapState.1.current.map Path.text = some "logs/20240102/run_01.jsonl"
    ∧ ending (appendAt .bare (gapMoment 2) (gapMoment 2) (.record [("event", .text "b")]) gapState)
      = ending (appendAt .bare (gapMoment 2) (gapMoment 2) (.record [("event", .text "b")])
        ({ gapState.1 with current := none }, gapState.2)) := by
  have hbegun : History .bare (gapLog, gapFiles) := .begun rfl
  have hhistory : History .bare gapState :=
    (hbegun.appended (gapMoment 3) (gapMoment 3) _).appended (gapMoment 2) (gapMoment 2) _
  have hcurrent : gapState.1.current.map Path.text = some "logs/20240102/run_01.jsonl" := by
    decide +kernel
  exact ⟨hhistory, hcurrent, (appendAt_history hhistory (gapMoment 2) (gapMoment 2) _).1⟩

end CallPlan.Log
