import CallPlan.Proofs.Run.Appending
import CallPlan.Proofs.Run.Targets
import Mathlib.Data.List.Forall2

/-!
# The files of the log

A log directory without files is filled by appends. In the directory of each day the files are
numbered without gaps, all but the last have reached the limit, and one behind the other they have
the lines of that day, in the order of the appends (`appendAll_pages`). The days may come in any
order and come again.

What the files of a day hold is said by pages of lines (`Pages`). An append turns the pages: the
line goes to the last one, or to a new one when the last is full (`Turned`). What is kept from one
append to the next (`Keeping`) is that the files show the pages, and that the current file is a
file with a number, of whatever day; it need not be the last one of today.
-/

namespace CallPlan.Log

open Sequencing

abbrev Bytes := List UInt8

/-! ## Pages -/

/-- Lines on pages. No page is empty, all but the last have reached the limit, and each line came
to a page that was new or below the limit. -/
structure Pages (limit : Int) (pages : List (List Bytes)) : Prop where
  nonempty : ∀ page ∈ pages, page ≠ []
  full : ∀ page ∈ pages.dropLast, limit ≤ page.flatten.length
  room : ∀ page ∈ pages, ∀ front line back, page = front ++ line :: back → front ≠ [] →
    (front.flatten.length : Int) < limit

/-- A line comes to the last page if that has room, and to a new page if all are full. -/
inductive Turned (limit : Int) (line : Bytes) : List (List Bytes) → List (List Bytes) → Prop
  | last {front : List (List Bytes)} {page : List Bytes}
      (room : (page.flatten.length : Int) < limit) :
      Turned limit line (front ++ [page]) (front ++ [page ++ [line]])
  | new {pages : List (List Bytes)} (full : ∀ page ∈ pages, limit ≤ page.flatten.length) :
      Turned limit line pages (pages ++ [[line]])

section

variable {limit : Int} {line : Bytes} {pages pages' : List (List Bytes)}

theorem pages_nil (limit : Int) : Pages limit [] :=
  ⟨by simp, by simp, by simp⟩

theorem Turned.flatten (h : Turned limit line pages pages') :
    pages'.flatten = pages.flatten ++ [line] := by
  cases h <;> simp

theorem Pages.turned (hp : Pages limit pages) (h : Turned limit line pages pages') :
    Pages limit pages' := by
  cases h with
  | @last front page hroom =>
      have hold : ∀ q ∈ front, q ∈ front ++ [page] := fun q hq => List.mem_append_left _ hq
      have hpage : page ∈ front ++ [page] := by simp
      refine ⟨?_, ?_, ?_⟩
      · intro q hq
        rcases List.mem_append.mp hq with hq | hq
        · exact hp.nonempty q (hold q hq)
        · simp [List.mem_singleton.mp hq]
      · have hfull := hp.full
        rw [List.dropLast_concat] at hfull ⊢
        exact hfull
      · intro q hq before l back heq hbefore
        rcases List.mem_append.mp hq with hq | hq
        · exact hp.room q (hold q hq) before l back heq hbefore
        · rw [List.mem_singleton.mp hq] at heq
          -- The line is the last one of the page, or stood there before.
          rcases List.eq_nil_or_concat back with rfl | ⟨back, l', rfl⟩
          · obtain ⟨rfl, -⟩ := List.append_inj' heq rfl
            exact hroom
          · have hinner : page ++ [line] = (before ++ l :: back) ++ [l'] := by simpa using heq
            obtain ⟨rfl, -⟩ := List.append_inj' hinner rfl
            exact hp.room _ hpage before l back rfl hbefore
  | new hfull =>
      refine ⟨?_, ?_, ?_⟩
      · intro q hq
        rcases List.mem_append.mp hq with hq | hq
        · exact hp.nonempty q hq
        · simp [List.mem_singleton.mp hq]
      · rw [List.dropLast_concat]
        exact hfull
      · intro q hq before l back heq hbefore
        rcases List.mem_append.mp hq with hq | hq
        · exact hp.room q hq before l back heq hbefore
        · rw [List.mem_singleton.mp hq] at heq
          cases before with
          | nil => exact absurd rfl hbefore
          | cons b bs => simp at heq

/-- The page with a number is full. -/
def FullAt (limit : Int) (pages : List (List Bytes)) (n : Nat) : Prop :=
  ∃ page, pages[n]? = some page ∧ limit ≤ page.flatten.length

theorem getElem?_concat_eq (pages : List (List Bytes)) (page : List Bytes) (i : Nat) :
    (pages ++ [page])[i]? = if i = pages.length then some page else pages[i]? := by
  rw [List.getElem?_append]
  split
  · next hi => rw [if_neg (by omega)]
  · next hi =>
    by_cases heq : i = pages.length
    · simp [heq]
    · rw [if_neg heq, List.getElem?_eq_none (by omega : pages.length ≤ i),
        List.getElem?_eq_none (by simp; omega)]

/-- A page that is not full, where it is the first such or one of the pages there are, is the last
one or the one behind it: there the pages are turned. -/
theorem Pages.exists_turned (hp : Pages limit pages) (line : Bytes) {k : Nat}
    (hroom : ¬ FullAt limit pages k)
    (hfound : (∀ i < k, FullAt limit pages i) ∨ k < pages.length) :
    ∃ pages', Turned limit line pages pages' ∧
      ∀ i, pages'[i]? = if i = k then some (pages[k]?.getD [] ++ [line]) else pages[i]? := by
  -- Where the last page is full, the pages are turned behind it.
  have hnew : (∀ page ∈ pages, limit ≤ page.flatten.length) →
      ∃ pages', Turned limit line pages pages' ∧
        ∀ i, pages'[i]? = if i = k then some (pages[k]?.getD [] ++ [line]) else pages[i]? := by
    intro hfull
    have hge : pages.length ≤ k := by
      by_contra hlt
      have hk : k < pages.length := by omega
      exact hroom ⟨pages[k], List.getElem?_eq_getElem hk, hfull _ (List.getElem_mem hk)⟩
    have hle : k ≤ pages.length := by
      by_contra hgt
      rcases hfound with hpassed | hk
      · obtain ⟨page, hpage, -⟩ := hpassed pages.length (by omega)
        simp at hpage
      · omega
    obtain rfl : k = pages.length := by omega
    refine ⟨pages ++ [[line]], .new hfull, fun i => ?_⟩
    rw [getElem?_concat_eq, List.getElem?_eq_none (Nat.le_refl _)]
    rfl
  rcases List.eq_nil_or_concat pages with rfl | ⟨front, page, rfl⟩
  · exact hnew (by simp)
  · rw [List.concat_eq_append] at *
    have hfront : ∀ q ∈ front, limit ≤ q.flatten.length := by
      have hfull := hp.full
      rwa [List.dropLast_concat] at hfull
    by_cases hlast : limit ≤ page.flatten.length
    · refine hnew fun q hq => ?_
      rcases List.mem_append.mp hq with hq | hq
      · exact hfront q hq
      · rwa [List.mem_singleton.mp hq]
    · have hge : front.length ≤ k := by
        by_contra hlt
        have hk : k < front.length := by omega
        refine hroom ⟨front[k], ?_, hfront _ (List.getElem_mem hk)⟩
        rw [List.getElem?_append_left hk, List.getElem?_eq_getElem hk]
      have hle : k ≤ front.length := by
        by_contra hgt
        rcases hfound with hpassed | hk
        · obtain ⟨q, hq, hfull⟩ := hpassed front.length (by omega)
          rw [List.getElem?_concat_length, Option.some.injEq] at hq
          exact hlast (hq ▸ hfull)
        · rw [List.length_append, List.length_singleton] at hk
          omega
      obtain rfl : k = front.length := by omega
      refine ⟨front ++ [page ++ [line]], .last (by omega), fun i => ?_⟩
      rw [getElem?_concat_eq, getElem?_concat_eq, getElem?_concat_eq, if_pos rfl]
      split <;> rfl

end

/-! ## Files that show pages -/

/-- In the directory of each day, the files are those with the numbers of its pages, and they have
the lines of the pages in them. -/
def Shows (fs : FileSystem) (root : Path) (pages : Date → List (List Bytes)) : Prop :=
  ∀ d, d.isValid = true → ∀ n, entryAt? fs (root.child (dayName d)) n =
    (pages d)[n]?.map fun page => .file 0o644 page.flatten

/-- What stays from one append to the next. -/
structure Keeping (project : Project) (root : Path) (limit : Int)
    (pages : Date → List (List Bytes)) (s : Log × FileSystem) : Prop where
  root_eq : s.1.root project = .ok root
  limit_eq : s.1.sizeLimit project = .ok limit
  current : ∀ p, s.1.current = some p → ∃ directory n, p = Path.child directory (fileName n)
  turned : ∀ d, Pages limit (pages d)
  shown : Shows s.2 root pages
  made : ∃ made, s.2.makeDirectories root = .ok made ∧ Shows made root pages

section

variable {fs made written : FileSystem} {root : Path} {limit : Int}
  {pages : Date → List (List Bytes)} {day : Date}

/-- The directory of a day has no place in the directory of any day. -/
theorem shows_of_ensureDirectory (h : Shows fs root pages)
    (hmade : fs.ensureDirectory (root.child (dayName day)) = .ok made) :
    Shows made root pages := by
  intro d hd n
  have hkeeps := (FileSystem.opens_of_ensureDirectory hmade).2
  have hother : fs.place (root.child (dayName d)) ++ [fileName n] ≠
      fs.place (root.child (dayName day)) := by
    rw [FileSystem.place_child (dayName_ne_up d), FileSystem.place_child (dayName_ne_up day)]
    intro heq
    have hlength := congrArg List.length heq
    simp at hlength
  rw [entryAt?, hkeeps.place, FileSystem.at?_of_ensureDirectory hmade hother]
  exact h d hd n

theorem isFull_iff (h : Shows fs root pages) (hday : day.isValid = true) {n : Nat} :
    IsFull fs limit (root.child (dayName day)) n ↔ FullAt limit (pages day) n := by
  unfold IsFull FullAt
  rw [h day hday n]
  cases (pages day)[n]? <;> simp [Entry.size]

/-- Files with a number in directories of days stand at one place only if both are the same. -/
theorem place_eq_iff {d : Date} (hd : d.isValid = true) (hday : day.isValid = true) {n k : Nat} :
    fs.place ((root.child (dayName day)).child (fileName k)) =
      fs.place (root.child (dayName d)) ++ [fileName n] ↔ d = day ∧ n = k := by
  rw [FileSystem.place_child (fileName_ne_up k), FileSystem.place_child (dayName_ne_up d),
    FileSystem.place_child (dayName_ne_up day)]
  constructor
  · intro heq
    obtain ⟨hdays, hnames⟩ := List.append_inj' heq rfl
    have hday' := List.singleton_inj.mp (List.append_cancel_left hdays)
    exact ⟨((dayName_inj hday hd).mp hday').symm,
      (fileName_injective (List.singleton_inj.mp hnames)).symm⟩
  · rintro ⟨rfl, rfl⟩
    rfl

/-- A line that is appended to the file of a page is behind the lines of the page. -/
theorem shows_of_append (h : Shows fs root pages) (hday : day.isValid = true) {k : Nat}
    {line : Bytes} {pages' : List (List Bytes)}
    (hpages : ∀ i, pages'[i]? =
      if i = k then some ((pages day)[k]?.getD [] ++ [line]) else (pages day)[i]?)
    (hwritten : fs.append ((root.child (dayName day)).child (fileName k)) line = .ok written) :
    Shows written root (Function.update pages day pages') := by
  obtain ⟨hne, hcontent⟩ := FileSystem.append_eq_ok hwritten
  have hplace := (FileSystem.keeps_of_append hwritten).place
  have hold := h day hday k
  have hfile : written = fs.put (fs.place ((root.child (dayName day)).child (fileName k)))
      (.file 0o644 ((pages day)[k]?.getD [] ++ [line]).flatten) := by
    rw [entryAt?, ← FileSystem.place_child (fileName_ne_up k)] at hold
    rcases hcontent with ⟨mode, content, hat, rfl⟩ | ⟨hat, rfl⟩
    · rw [hat] at hold
      cases hpage : (pages day)[k]? with
      | none =>
          rw [hpage] at hold
          cases hold
      | some page =>
          rw [hpage] at hold
          cases hold
          simp
    · rw [hat] at hold
      cases hpage : (pages day)[k]? with
      | none => simp
      | some page =>
          rw [hpage] at hold
          cases hold
  intro d hd n
  rw [entryAt?, hplace, hfile, FileSystem.at?_put hne]
  by_cases hsame : d = day ∧ n = k
  · obtain ⟨rfl, rfl⟩ := hsame
    rw [if_pos ((place_eq_iff hd hday).mpr ⟨rfl, rfl⟩), Function.update_self, hpages, if_pos rfl]
    rfl
  · rw [if_neg fun heq => hsame ((place_eq_iff hd hday).mp heq)]
    by_cases hdate : d = day
    · subst hdate
      rw [Function.update_self, hpages, if_neg fun hn => hsame ⟨rfl, hn⟩]
      exact h d hd n
    · rw [Function.update_of_ne hdate]
      exact h d hd n

end

/-- Each file in the directory of a day has a number or was there before. -/
def AddsNumbered (root : Path) (fs fs' : FileSystem) : Prop :=
  ∀ d name mode content,
    fs'.at? (fs'.place (root.child (dayName d)) ++ [name]) = some (.file mode content) →
      (∃ n, name = fileName n) ∨
        fs.at? (fs.place (root.child (dayName d)) ++ [name]) = some (.file mode content)

theorem AddsNumbered.refl (root : Path) (fs : FileSystem) : AddsNumbered root fs fs :=
  fun _ _ _ _ hfile => .inr hfile

theorem AddsNumbered.trans {root : Path} {fs fs' fs'' : FileSystem} (h : AddsNumbered root fs fs')
    (h' : AddsNumbered root fs' fs'') : AddsNumbered root fs fs'' := by
  intro d name mode content hfile
  rcases h' d name mode content hfile with hnumber | hfile
  · exact .inl hnumber
  · exact h d name mode content hfile

/-- An append makes no file but the one with the number. -/
theorem addsNumbered_of_append {fs made written : FileSystem} {root : Path} {day : Date} {k : Nat}
    {line : Bytes} (hmade : fs.makeDirectories (root.child (dayName day)) = .ok made)
    (hwritten : made.append ((root.child (dayName day)).child (fileName k)) line = .ok written) :
    AddsNumbered root fs written := by
  intro d name mode content hfile
  rw [(FileSystem.keeps_of_append hwritten).place] at hfile
  by_cases hsame : made.place ((root.child (dayName day)).child (fileName k)) =
      made.place (root.child (dayName d)) ++ [name]
  · rw [FileSystem.place_child (fileName_ne_up k)] at hsame
    obtain ⟨-, hname⟩ := List.append_inj' hsame rfl
    exact .inl ⟨k, (List.singleton_inj.mp hname).symm⟩
  · obtain ⟨hne, hcontent⟩ := FileSystem.append_eq_ok hwritten
    have hold : made.at? (made.place (root.child (dayName d)) ++ [name]) =
        some (.file mode content) := by
      rcases hcontent with ⟨_, _, -, rfl⟩ | ⟨-, rfl⟩
      · rwa [FileSystem.at?_put hne, if_neg hsame] at hfile
      · rwa [FileSystem.at?_put hne, if_neg hsame] at hfile
    rw [(FileSystem.keeps_of_makeDirectories hmade).place] at hold
    exact .inr (FileSystem.file_of_makeDirectories hmade hold)

/-! ## One append -/

section

variable {project : Project} {root : Path} {limit : Int} {pages : Date → List (List Bytes)}
  {s s' : Log × FileSystem} {stamp now : DateTime} {event : Value} {p : Path}

/-- **An append turns the pages of its day**, leaves those of the other days as they are, and makes
no other files. -/
theorem Keeping.append (hk : Keeping project root limit pages s)
    (hday : now.date.isValid = true)
    (h : appendAt project stamp now event s = .ok p s') :
    ∃ text pages', line stamp event = .ok text
      ∧ Turned limit (Text.Utf8.encode (text ++ "\n")) (pages now.date) pages'
      ∧ Keeping project root limit (Function.update pages now.date pages') s'
      ∧ AddsNumbered root s.2 s'.2 := by
  obtain ⟨log, fs⟩ := s
  obtain ⟨text, root', made, limit', written, hline, hroot, hmade, hlimit, htarget, hwritten, rfl⟩
    := appendAt_eq_ok_iff.mp h
  obtain rfl := Except.ok.inj (hk.root_eq.symm.trans hroot)
  obtain rfl := Except.ok.inj (hk.limit_eq.symm.trans hlimit)
  -- The log directory is made first, so it is the one that shows the pages.
  obtain ⟨above, habove, hensured⟩ := FileSystem.makeDirectories_child hmade
  obtain ⟨above', habove', hshows⟩ := hk.made
  obtain rfl := Except.ok.inj (habove'.symm.trans habove)
  have hshows := shows_of_ensureDirectory hshows hensured
  obtain ⟨hopens, hkeeps⟩ := FileSystem.opens_of_ensureDirectory hensured
  obtain ⟨k, rfl, hroom, hfound⟩ := target_eq_ok hopens hk.current htarget
  rw [isFull_iff hshows hday] at hroom
  have hfound : (∀ i < k, FullAt limit (pages now.date) i) ∨ k < (pages now.date).length := by
    refine hfound.imp (fun hpassed i hi => (isFull_iff hshows hday).mp (hpassed i hi)) ?_
    rw [hshows now.date hday k, Option.isSome_map]
    simp
  obtain ⟨pages', hturned, hpages⟩ :=
    (hk.turned now.date).exists_turned (Text.Utf8.encode (text ++ "\n")) hroom hfound
  have hwrittenShows := shows_of_append hshows hday hpages hwritten
  have hopensRoot : written.Opens root :=
    ((FileSystem.opens_of_makeDirectories habove).of_keeps hkeeps).of_keeps
      (FileSystem.keeps_of_append hwritten)
  refine ⟨text, pages', hline, hturned, ?_, addsNumbered_of_append hmade hwritten⟩
  refine ⟨hroot, hlimit, ?_, ?_, hwrittenShows, ?_⟩
  · rintro q ⟨⟩
    exact ⟨_, k, rfl⟩
  · intro d
    by_cases hd : d = now.date
    · subst hd
      rw [Function.update_self]
      exact (hk.turned _).turned hturned
    · rw [Function.update_of_ne hd]
      exact hk.turned d
  · exact ⟨written, FileSystem.makeDirectories_of_opens hopensRoot, hwrittenShows⟩

end

/-! ## Many appends -/

/-- An event to append, with what the clock tells for its time stamp and for its day. -/
structure Request where
  stamp : DateTime
  now : DateTime
  fields : List (Value × Value)

/-- The clock tells a date, all keys in the event are texts, and no integer in it is too long. -/
structure Request.Valid (r : Request) : Prop where
  date : r.now.date.isValid = true
  keys : Value.entriesTextKeyed r.fields = true
  written : Value.entriesWritable r.fields = true

/-- Appends events one after the other and tells the file that each went into. -/
def appendAll (project : Project) : List Request → EStateM Fault (Log × FileSystem) (List Path)
  | [] => pure []
  | r :: rs => do
    let p ← appendAt project r.stamp r.now (.map r.fields)
    let ps ← appendAll project rs
    return p :: ps

/-- The line of an event: its JSON text, with a time stamp if it has none, and a line break, which
is the only one. -/
structure LineOf (r : Request) (line : Bytes) : Prop where
  written : ∃ j, Json.ofValue (.map (stamped r.stamp r.fields)) = .ok j ∧
    '\n' ∉ (j.write .line).toList ∧ (10 : UInt8) ∉ Text.Utf8.encode (j.write .line) ∧
    line = Text.Utf8.encode (j.write .line) ++ [10]

theorem lineOf_of_line {r : Request} (h : r.Valid) {text : String}
    (hline : Log.line r.stamp (.map r.fields) = .ok text) :
    LineOf r (Text.Utf8.encode (text ++ "\n")) := by
  obtain ⟨j, hj, hwritten⟩ := exists_line h.keys h.written r.stamp
  obtain rfl := Except.ok.inj (hwritten.symm.trans hline)
  have hbreak := Json.newline_not_mem_write Json.oneLine_line j
  exact ⟨j, hj, hbreak, Json.newline_not_mem_encode hbreak, Text.Utf8.encode_append _ _⟩

section

variable {project : Project} {root : Path} {limit : Int} {s : Log × FileSystem}

/-- Unless a file operation fails, an append succeeds. -/
theorem Keeping.exists_append {pages : Date → List (List Bytes)}
    (hk : Keeping project root limit pages s) {r : Request} (hr : r.Valid)
    (hfiles : ∀ e s',
      appendAt project r.stamp r.now (.map r.fields) s ≠ .error (.file e) s') :
    ∃ p s', appendAt project r.stamp r.now (.map r.fields) s = .ok p s' := by
  obtain ⟨log, fs⟩ := s
  cases h : appendAt project r.stamp r.now (.map r.fields) (log, fs) with
  | ok p s' => exact ⟨p, s', rfl⟩
  | error f s' =>
      obtain ⟨hfails, -⟩ := appendAt_eq_error h
      cases hfails with
      | line hline =>
          obtain ⟨j, -, hwritten⟩ := exists_line hr.keys hr.written r.stamp
          rw [hwritten] at hline
          cases hline
      | root hroot => cases hk.root_eq.symm.trans hroot
      | file e => exact absurd h (hfiles e s')
      | limit _ _ hlimit => cases hk.limit_eq.symm.trans hlimit

/-- What appends add to the pages of each day: the lines of that day, in their order. -/
theorem Keeping.appendAll {pages : Date → List (List Bytes)}
    (hk : Keeping project root limit pages s) {requests : List Request}
    (hrequests : ∀ r ∈ requests, r.Valid)
    (hfiles : ∀ e s', Log.appendAll project requests s ≠ .error (.file e) s') :
    ∃ ps s' pages', Log.appendAll project requests s = .ok ps s'
      ∧ Keeping project root limit pages' s' ∧ AddsNumbered root s.2 s'.2
      ∧ ∀ d, ∃ lines, (pages' d).flatten = (pages d).flatten ++ lines
        ∧ List.Forall₂ LineOf (requests.filter (·.now.date = d)) lines := by
  induction requests generalizing pages s with
  | nil => exact ⟨[], s, pages, rfl, hk, .refl root s.2, fun d => ⟨[], by simp, by simp⟩⟩
  | cons r rs ih =>
      obtain ⟨hr, hrs⟩ := List.forall_mem_cons.mp hrequests
      obtain ⟨p, s₁, happend⟩ := hk.exists_append hr fun e s' h =>
        hfiles e s' (run_bind_eq_error_iff.mpr (.inl h))
      obtain ⟨text, turned, hline, hturned, hk₁, hadds⟩ := hk.append hr.date happend
      have hrest : ∀ e s', Log.appendAll project rs s₁ ≠ .error (.file e) s' := fun e s' h =>
        hfiles e s' (run_bind_eq_error_iff.mpr
          (.inr ⟨p, s₁, happend, run_bind_eq_error_iff.mpr (.inl h)⟩))
      obtain ⟨ps, s₂, pages₂, hall, hk₂, hadds₂, hlines⟩ := ih hk₁ hrs hrest
      refine ⟨p :: ps, s₂, pages₂, ?_, hk₂, hadds.trans hadds₂, fun d => ?_⟩
      · exact run_bind_eq_ok_iff.mpr
          ⟨p, s₁, happend, run_bind_eq_ok_iff.mpr ⟨ps, s₂, hall, rfl⟩⟩
      · obtain ⟨lines, hflatten, hmatch⟩ := hlines d
        by_cases hd : r.now.date = d
        · subst hd
          rw [Function.update_self, hturned.flatten, List.append_assoc] at hflatten
          refine ⟨_ :: lines, hflatten, ?_⟩
          rw [List.filter_cons_of_pos (by simp)]
          exact .cons (lineOf_of_line hr hline) hmatch
        · rw [Function.update_of_ne (Ne.symm hd)] at hflatten
          refine ⟨lines, hflatten, ?_⟩
          rw [List.filter_cons_of_neg (by simpa using hd)]
          exact hmatch

/-- **The log loses, reorders and splits nothing.** Take a log with a directory and a limit, whose
directory is there or can be made and has no files of the log in it, and any events with text
keys and no integers that are too long, at any times. If no file operation fails, all are appended.
Then the files in the directory of each day are numbered without gaps and show pages: none is empty,
all but the last have reached the limit, and each line came to a file that was new or below it. One
page behind the other has the lines of the events of that day, in the order of the appends. There
are no other files than these and those that were there before. -/
theorem appendAll_pages {log : Log} {fs : FileSystem} (hroot : log.root project = .ok root)
    (hlimit : log.sizeLimit project = .ok limit)
    (hcurrent : ∀ p, log.current = some p → ∃ directory n, p = Path.child directory (fileName n))
    (hempty : ∃ made, fs.makeDirectories root = .ok made ∧
      ∀ d, d.isValid = true → ∀ n, entryAt? made (root.child (dayName d)) n = none)
    {requests : List Request} (hrequests : ∀ r ∈ requests, r.Valid)
    (hfiles : ∀ e s', appendAll project requests (log, fs) ≠ .error (.file e) s') :
    ∃ ps s', appendAll project requests (log, fs) = .ok ps s' ∧
      AddsNumbered root fs s'.2 ∧
      ∀ d, d.isValid = true → ∃ pages, Pages limit pages
        ∧ (∀ n, entryAt? s'.2 (root.child (dayName d)) n =
          pages[n]?.map fun page => .file 0o644 page.flatten)
        ∧ List.Forall₂ LineOf (requests.filter (·.now.date = d)) pages.flatten := by
  obtain ⟨made, hmade, hvacant⟩ := hempty
  have hbefore : ∀ d, d.isValid = true → ∀ n,
      entryAt? fs (root.child (dayName d)) n = none := by
    intro d hd n
    have hkeeps := FileSystem.keeps_of_makeDirectories hmade
    by_contra hsome
    have hstays := hkeeps.occupied (Option.isSome_iff_ne_none.mpr hsome)
    have hnone := hvacant d hd n
    rw [entryAt?, hkeeps.place] at hnone
    rw [hnone] at hstays
    cases hstays
  have hk : Keeping project root limit (fun _ => []) (log, fs) :=
    { root_eq := hroot
      limit_eq := hlimit
      current := hcurrent
      turned := fun _ => pages_nil limit
      shown := fun d hd n => by simp [hbefore d hd n]
      made := ⟨made, hmade, fun d hd n => by simp [hvacant d hd n]⟩ }
  obtain ⟨ps, s', pages, hall, hk', hadds, hlines⟩ := hk.appendAll hrequests hfiles
  refine ⟨ps, s', hall, hadds, fun d hd => ⟨pages d, hk'.turned d, hk'.shown d hd, ?_⟩⟩
  obtain ⟨lines, hflatten, hmatch⟩ := hlines d
  rw [hflatten]
  exact hmatch

end

/-- An event of a day in January. -/
def noted (day : Nat) (name : String) : Request :=
  let moment : DateTime := ⟨⟨2024, 1, day⟩, ⟨0, 0, 0, 0, some 0⟩⟩
  ⟨moment, moment, [(.text "event", .text name)]⟩

/-- Four events; the day goes back once. -/
def notes : List Request :=
  [noted 2 "a", noted 2 "b", noted 3 "c", noted 2 "d"]

/-- A log with a limit of a hundred bytes: two lines fill a file. -/
def noteLog : Log :=
  .configured ⟨.relative, ["logs"]⟩ (some 100)

def notesAppended : EStateM.Result Fault (Log × FileSystem) (List Path) :=
  appendAll .bare notes (noteLog, .empty)

/-- The paths that appends have gone into, if all have been made. -/
def pathTexts? : EStateM.Result Fault (Log × FileSystem) (List Path) → Option (List String)
  | .ok ps _ => some (ps.map Path.text)
  | .error .. => none

theorem exists_of_pathTexts? {r : EStateM.Result Fault (Log × FileSystem) (List Path)}
    {texts : List String} (h : pathTexts? r = some texts) :
    ∃ ps s', r = .ok ps s' ∧ ps.map Path.text = texts := by
  cases r with
  | ok ps s' => exact ⟨ps, s', rfl, Option.some.inj h⟩
  | error f s' => cases h

theorem exists_notesAppended :
    ∃ ps s', notesAppended = .ok ps s' ∧ ps.map Path.text =
      ["logs/20240102/run_00.jsonl", "logs/20240102/run_00.jsonl", "logs/20240103/run_00.jsonl",
        "logs/20240102/run_01.jsonl"] :=
  exists_of_pathTexts? (by decide +kernel)

/-- The files of the second of January, which is come back to, hold its three lines. -/
theorem appendAll_pages_notes :
    ∃ ps s' pages, notesAppended = .ok ps s' ∧ Pages 100 pages
      ∧ (∀ n, entryAt? s'.2 ⟨.relative, ["logs", "20240102"]⟩ n =
        pages[n]?.map fun page => .file 0o644 page.flatten)
      ∧ List.Forall₂ LineOf [noted 2 "a", noted 2 "b", noted 2 "d"] pages.flatten := by
  obtain ⟨ps₁, s₁, hnotes, -⟩ := exists_notesAppended
  have hempty : ∃ made, FileSystem.empty.makeDirectories ⟨.relative, ["logs"]⟩ = .ok made ∧
      ∀ d, d.isValid = true → ∀ n,
        entryAt? made ((⟨.relative, ["logs"]⟩ : Path).child (dayName d)) n = none := by
    refine ⟨{ FileSystem.empty with entries := [(["logs"], .directory 0o755)] }, ?_,
      fun d _ n => ?_⟩
    · unfold FileSystem.makeDirectories
      rfl
    · rw [entryAt?, FileSystem.place_child (dayName_ne_up d)]
      rfl
  have hvalid : ∀ r ∈ notes, r.Valid := by
    intro r hr
    simp only [notes, List.mem_cons, List.not_mem_nil, or_false] at hr
    rcases hr with rfl | rfl | rfl | rfl <;> exact ⟨rfl, rfl, rfl⟩
  have hfiles : ∀ e s', appendAll .bare notes (noteLog, .empty) ≠ .error (.file e) s' := by
    intro e s' herror
    rw [notesAppended, herror] at hnotes
    cases hnotes
  have hroot : noteLog.root .bare = .ok ⟨.relative, ["logs"]⟩ := rfl
  have hlimit : noteLog.sizeLimit .bare = .ok 100 := rfl
  obtain ⟨ps, s', hall, -, hpages⟩ := appendAll_pages hroot hlimit nofun hempty hvalid hfiles
  obtain ⟨pages, hp, hfiles, hlines⟩ := hpages ⟨2024, 1, 2⟩ rfl
  exact ⟨ps, s', pages, hall, hp, hfiles, hlines⟩

/-- An event with the least integer that is too long. -/
def longNote : Request :=
  { noted 2 "a" with fields := [(.text "n", .int (10 ^ Numeral.maxDigits : Nat))] }

theorem line_longNote : Log.line longNote.stamp (.map longNote.fields) = .error .longInteger := by
  have hrefused : Json.ofValue (.int (10 ^ Numeral.maxDigits : Nat)) = .error .longInteger := by
    rw [Json.ofValue, Numeral.not_isWritable_pow]
    rfl
  have hmember : Json.ofValue (.map (stamped longNote.stamp longNote.fields)) =
      .error .longInteger := by
    have hstamped : stamped longNote.stamp longNote.fields =
        [(.text "n", .int (10 ^ Numeral.maxDigits : Nat)),
          (.text "ts", .text longNote.stamp.isoMillis)] := rfl
    rw [hstamped, Json.ofValue, Json.ofEntries, Json.ofEntries, Json.ofEntries, hrefused]
    rfl
  refine bind_eq_error_iff.mpr (.inr ⟨longNote.fields, rfl, ?_⟩)
  rw [hmember]

/-- Text keys are not enough for a line, and a limit of zero is none: with it, two lines go into one
file, although the first has filled it. -/
theorem appendAll_beyond_limits :
    (longNote.now.date.isValid = true ∧ Value.entriesTextKeyed longNote.fields = true ∧
      appendAll .bare [longNote] (noteLog, .empty) = .error .longInteger (noteLog, .empty)) ∧
    ∃ ps s', appendAll .bare [noted 2 "a", noted 2 "b"]
        (.configured ⟨.relative, ["logs"]⟩ (some 0), .empty) = .ok ps s' ∧
      ps.map Path.text = ["logs/20240102/run_00.jsonl", "logs/20240102/run_00.jsonl"] := by
  refine ⟨⟨rfl, rfl, ?_⟩, exists_of_pathTexts? (by decide +kernel)⟩
  exact run_bind_eq_error_iff.mpr (.inl
    (run_bind_eq_error_iff.mpr (.inl (lookUp_eq_error_iff.mpr ⟨line_longNote, rfl⟩))))

end CallPlan.Log
