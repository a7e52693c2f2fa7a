import CallPlan.Archive.Gather
import CallPlan.Proofs.File.Trees
import Mathlib.Data.List.Duplicate
import Mathlib.Data.List.Perm.Basic

/-!
# What an archive holds

A path contributes files to an archive (`Contributes`): a file itself, a directory each file that a
search below it finds. Paths that lead somewhere in a tree are packed exactly when no two files
that they contribute have one name and the operating system lets everything that is found be
looked at and every file be read (`exists_build_iff`). Otherwise the first name that comes twice or
the first thing that is refused is told (`build_eq_error`). The archive holds the contributed files
and nothing else, in the order of their names, and so does not depend on the order of the paths
(`build_perm`).

The list of sources that `gather` builds up is the contributions of the paths one behind the other
(`extends_gather`). Everything else follows from that list.
-/

namespace CallPlan.Archive

open Sequencing FileSystem

variable {fs : FileSystem} {p : Path} {ps : List Path}

/-! ## Contributions -/

/-- A file as an archive has it, under a name. -/
def packed (name : String) (mode : Nat) (content : List UInt8) : Item :=
  ⟨name, earliest, .deflated, regular + mode, content⟩

/-- The path contributes an item by a way from it. A file contributes itself under its name, a
directory every file that a search below it finds, under its way from there. -/
inductive Contributes (fs : FileSystem) (p : Path) : (way : Location) → Item → Prop
  | itself {mode content} (hp : fs.stat p = .ok (.file mode content)) :
      Contributes fs p [] (packed p.name mode content)
  | below {way mode content} (hf : Finds fs p way (.file mode content)) :
      Contributes fs p way (packed (Path.joined way) mode content)

/-- The path contributes a file of the name. -/
def Names (fs : FileSystem) (p : Path) (name : String) : Prop :=
  ∃ way item, Contributes fs p way item ∧ item.name = name

/-- The paths contribute two files of one name: one path by two ways, or one path and one that
stands behind it, which may be the same path again. -/
inductive Repeated (fs : FileSystem) (ps : List Path) (name : String) : Prop
  | within {p way way' item item'} (hp : p ∈ ps) (hne : way ≠ way')
      (h : Contributes fs p way item) (h' : Contributes fs p way' item')
      (hname : item.name = name) (hname' : item'.name = name)
  | across {p p'} (hps : [p, p'].Sublist ps) (h : Names fs p name) (h' : Names fs p' name)

def Distinct (fs : FileSystem) (ps : List Path) : Prop :=
  ∀ name, ¬ Repeated fs ps name

/-- Something that a search below the path finds cannot be looked at, for the length of its path or
because the directory that has it may not be entered. -/
inductive Unseen (fs : FileSystem) (p : Path) : FileError → Prop
  | tooLong {way e} (hf : Finds fs p way e) (hlong : 4096 ≤ (p.below way).text.utf8ByteSize) :
      Unseen fs p ⟨.nameTooLong, p.below way⟩
  | shut {way e} (hf : Finds fs p way e) (hshut : fs.isShut (fs.place p) way = true) :
      Unseen fs p ⟨.denied, p.below way⟩

/-- What the operating system refuses of a path: to look at something below it, or to read a file
that it contributes. -/
inductive Refused (fs : FileSystem) (p : Path) : FileError → Prop
  | unseen {e} (h : Unseen fs p e) : Refused fs p e
  | unread {way item} (h : Contributes fs p way item)
      (hread : fs.forbids (fs.place (p.below way)) .read = true) :
      Refused fs p ⟨.denied, p.below way⟩

/-- The items are the files that the paths contribute, in the order of their names. -/
structure HoldsExactly (fs : FileSystem) (ps : List Path) (items : List Item) : Prop where
  increasing : items.Pairwise (·.name < ·.name)
  mem_iff : ∀ item, item ∈ items ↔ ∃ p ∈ ps, ∃ way, Contributes fs p way item

/-! ## Contributions as a list -/

/-- What something found below a path contributes. -/
def contributionBelow : Location × CallPlan.Entry → Option (Location × Item)
  | (way, .file mode content) => some (way, packed (Path.joined way) mode content)
  | (_, .directory _) => none

/-- The ways by which a path contributes and what it contributes by them. -/
def contributions (fs : FileSystem) (p : Path) : List (Location × Item) :=
  match fs.stat p with
  | .ok (.file mode content) => [([], packed p.name mode content)]
  | .ok (.directory _) => (fs.descendants (fs.place p)).filterMap contributionBelow
  | .error _ => []

def sourceOf (p : Path) (c : Location × Item) : Source :=
  ⟨c.2.name, p.below c.1⟩

def sourcesOf (fs : FileSystem) (p : Path) : List Source :=
  (contributions fs p).map (sourceOf p)

/-- A directory is what a path that opens leads to. -/
theorem stat_eq_directory_iff {mode : Nat} :
    fs.stat p = .ok (.directory mode) ↔
      Opens fs p ∧ fs.at? (fs.place p) = some (.directory mode) := by
  rw [stat_eq_ok_iff]
  constructor
  · rintro ⟨hp, hw, hat⟩
    exact ⟨⟨hp, hw, mode, hat⟩, hat⟩
  · rintro ⟨hp, hat⟩
    exact ⟨hp.refusal, hp.reached, hat⟩

theorem Contributes.stat_eq_file {item : Item} (h : Contributes fs p [] item) :
    ∃ mode content, fs.stat p = .ok (.file mode content) ∧ item = packed p.name mode content := by
  cases h with
  | itself hp => exact ⟨_, _, hp, rfl⟩
  | below hf => exact absurd rfl hf.ne_nil

/-- A path contributes one item by a way. -/
theorem Contributes.unique {way : Location} {item item' : Item} (h : Contributes fs p way item)
    (h' : Contributes fs p way item') : item = item' := by
  cases h with
  | itself hp =>
      obtain ⟨mode, content, hp', rfl⟩ := h'.stat_eq_file
      rw [hp] at hp'
      cases hp'
      rfl
  | below hf =>
      cases h' with
      | itself => exact absurd rfl hf.ne_nil
      | below hf' =>
          cases hf.stands.symm.trans hf'.stands
          rfl

theorem mem_contributions_iff (hfs : IsTree fs) {way : Location} {item : Item} :
    (way, item) ∈ contributions fs p ↔ Contributes fs p way item := by
  constructor
  · intro h
    unfold contributions at h
    split at h
    · next mode content hp =>
      cases List.mem_singleton.mp h
      exact .itself hp
    · next mode hp =>
      obtain ⟨⟨way', e⟩, hmem, he⟩ := List.mem_filterMap.mp h
      have hf := finds_of_mem_descendants hfs (stat_eq_directory_iff.mp hp).1 hmem
      cases e with
      | directory mode => cases he
      | file mode content =>
          cases he
          exact .below hf
    · cases h
  · intro h
    cases h with
    | itself hp => simp [contributions, hp]
    | below hf =>
        obtain ⟨mode, hmode⟩ := hf.opens.directory
        have hstat := stat_eq_directory_iff.mpr ⟨hf.opens, hmode⟩
        simp only [contributions, hstat]
        exact List.mem_filterMap.mpr ⟨_, hf.mem_descendants hfs, rfl⟩

theorem nodup_contributions (hfs : IsTree fs) (p : Path) : (contributions fs p).Nodup := by
  unfold contributions
  split
  · simp
  · refine (nodup_descendants hfs _).filterMap ?_
    rintro ⟨way, e⟩ ⟨way', e'⟩ c hc hc'
    cases e with
    | directory mode => cases hc
    | file mode content =>
        cases e' with
        | directory mode' => cases hc'
        | file mode' content' =>
            cases hc
            simp only [Option.mem_def, contributionBelow, Option.some.injEq, packed, Prod.mk.injEq,
              Item.mk.injEq, Nat.add_left_cancel_iff, true_and] at hc'
            obtain ⟨rfl, -, rfl, rfl⟩ := hc'
            rfl
  · exact List.nodup_nil

theorem mem_sourcesOf_iff (hfs : IsTree fs) {s : Source} :
    s ∈ sourcesOf fs p ↔ ∃ way item, Contributes fs p way item ∧ s = ⟨item.name, p.below way⟩ := by
  simp only [sourcesOf, List.mem_map, Prod.exists, mem_contributions_iff hfs, sourceOf, eq_comm]

/-! ## Names that come twice -/

theorem duplicate_append_iff {α : Type} {x : α} {l l' : List α} :
    List.Duplicate x (l ++ l') ↔
      List.Duplicate x l ∨ (x ∈ l ∧ x ∈ l') ∨ List.Duplicate x l' := by
  induction l with
  | nil => simp [List.not_duplicate_nil]
  | cons y l ih =>
      rw [List.cons_append, List.duplicate_cons_iff, List.duplicate_cons_iff, ih, List.mem_append,
        List.mem_cons]
      grind

theorem duplicate_map_iff {α β : Type} {f : α → β} {x : β} {l : List α} (hl : l.Nodup) :
    List.Duplicate x (l.map f) ↔ ∃ a ∈ l, ∃ b ∈ l, a ≠ b ∧ f a = x ∧ f b = x := by
  induction l with
  | nil => simp [List.not_duplicate_nil]
  | cons y l ih =>
      obtain ⟨hy, hl⟩ := List.nodup_cons.mp hl
      rw [List.map_cons, List.duplicate_cons_iff, ih hl, List.mem_map]
      grind

theorem mem_names_sourcesOf_iff (hfs : IsTree fs) {name : String} :
    name ∈ (sourcesOf fs p).map (·.name) ↔ Names fs p name := by
  simp only [List.mem_map, mem_sourcesOf_iff hfs, Names]
  constructor
  · rintro ⟨_, ⟨way, item, h, rfl⟩, rfl⟩
    exact ⟨way, item, h, rfl⟩
  · rintro ⟨way, item, h, rfl⟩
    exact ⟨_, ⟨way, item, h, rfl⟩, rfl⟩

theorem duplicate_names_sourcesOf_iff (hfs : IsTree fs) {name : String} :
    List.Duplicate name ((sourcesOf fs p).map (·.name)) ↔
      ∃ way way' item item', way ≠ way' ∧ Contributes fs p way item ∧
        Contributes fs p way' item' ∧ item.name = name ∧ item'.name = name := by
  rw [sourcesOf, List.map_map, duplicate_map_iff (nodup_contributions hfs p)]
  constructor
  · rintro ⟨⟨way, item⟩, h, ⟨way', item'⟩, h', hne, hname, hname'⟩
    rw [mem_contributions_iff hfs] at h h'
    refine ⟨way, way', item, item', ?_, h, h', hname, hname'⟩
    rintro rfl
    exact hne (congrArg _ (h.unique h'))
  · rintro ⟨way, way', item, item', hne, h, h', hname, hname'⟩
    refine ⟨(way, item), (mem_contributions_iff hfs).mpr h, (way', item'),
      (mem_contributions_iff hfs).mpr h', ?_, hname, hname'⟩
    intro heq
    exact hne (congrArg Prod.fst heq)

theorem mem_inOrder_iff (hfs : IsTree fs) {s : Source} :
    s ∈ inOrder (ps.flatMap (sourcesOf fs)) ↔
      ∃ p ∈ ps, ∃ way i, Contributes fs p way i ∧ s = ⟨i.name, p.below way⟩ := by
  rw [inOrder, Sorting.mem_sort, List.mem_flatMap]
  simp only [mem_sourcesOf_iff hfs]

/-- A name comes twice among the sources of paths when the paths contribute it twice. -/
theorem duplicate_names_iff (hfs : IsTree fs) {name : String} :
    List.Duplicate name ((ps.flatMap (sourcesOf fs)).map (·.name)) ↔ Repeated fs ps name := by
  induction ps with
  | nil =>
      refine ⟨fun h => absurd h (List.not_duplicate_nil _), ?_⟩
      rintro (⟨⟨⟩⟩ | ⟨⟨⟩⟩)
  | cons p ps ih =>
      have hrest : name ∈ (ps.flatMap (sourcesOf fs)).map (·.name) ↔
          ∃ p' ∈ ps, Names fs p' name := by
        simp only [List.map_flatMap, List.mem_flatMap, mem_names_sourcesOf_iff hfs]
      rw [List.flatMap_cons, List.map_append, duplicate_append_iff, ih, hrest,
        mem_names_sourcesOf_iff hfs, duplicate_names_sourcesOf_iff hfs]
      constructor
      · rintro (⟨way, way', item, item', hne, h, h', hname, hname'⟩ | ⟨h, p', hp', h'⟩ | h)
        · exact .within List.mem_cons_self hne h h' hname hname'
        · exact .across ((List.singleton_sublist.mpr hp').cons_cons p) h h'
        · cases h with
          | within hp hne h h' hname hname' =>
              exact .within (List.mem_cons_of_mem _ hp) hne h h' hname hname'
          | across hps h h' => exact .across (hps.cons p) h h'
      · intro h
        cases h with
        | within hp hne h h' hname hname' =>
            rcases List.mem_cons.mp hp with rfl | hp
            · exact .inl ⟨_, _, _, _, hne, h, h', hname, hname'⟩
            · exact .inr (.inr (.within hp hne h h' hname hname'))
        | across hps h h' =>
            cases hps with
            | cons _ hps => exact .inr (.inr (.across hps h h'))
            | cons_cons _ hps =>
                exact .inr (.inl ⟨h, _, List.singleton_sublist.mp hps, h'⟩)

/-- The names of all sources differ when the paths contribute no name twice. -/
theorem nodup_names_iff (hfs : IsTree fs) :
    ((ps.flatMap (sourcesOf fs)).map (·.name)).Nodup ↔ Distinct fs ps := by
  simp only [List.nodup_iff_forall_not_duplicate, duplicate_names_iff hfs, Distinct]

/-! ## Searching and accepting -/

/-- What has been found is looked at, or cannot be. -/
theorem stat_cases (hfs : IsTree fs) {way : Location} {e : CallPlan.Entry}
    (hf : Finds fs p way e) :
    fs.stat (p.below way) = .ok e ∨
      ∃ err, Unseen fs p err ∧ err.cause.spoilsTest = true ∧
        fs.stat (p.below way) = .error err := by
  have hstat := stat_of_finds hfs hf
  split at hstat
  · next hlong => exact .inr ⟨_, .tooLong hf hlong, rfl, hstat⟩
  · split at hstat
    · next hshut => exact .inr ⟨_, .shut hf hshut, rfl, hstat⟩
    · exact .inl hstat

theorem stat_of_seen (hfs : IsTree fs) (hseen : ∀ e, ¬ Unseen fs p e) {way : Location}
    {e : CallPlan.Entry} (hf : Finds fs p way e) : fs.stat (p.below way) = .ok e := by
  rcases stat_cases hfs hf with hstat | ⟨err, hunseen, -, -⟩
  · exact hstat
  · exact absurd hunseen (hseen err)

theorem not_unseen (hfs : IsTree fs)
    (h : ∀ {way e}, Finds fs p way e → fs.stat (p.below way) = .ok e) (err : FileError) :
    ¬ Unseen fs p err := by
  rintro (⟨hf, hlong⟩ | ⟨hf, hshut⟩)
  · have hstat := stat_of_finds hfs hf
    rw [if_pos hlong] at hstat
    cases hstat.symm.trans (h hf)
  · have hstat := (stat_of_finds hfs hf).symm.trans (h hf)
    rw [hshut] at hstat
    split at hstat
    · cases hstat
    · cases hstat

/-- The directories that a search has found are opened, unless the path to one is too long. -/
theorem openAll_cases (hfs : IsTree fs) {ds : List (Location × CallPlan.Entry)}
    (hds : ∀ d ∈ ds, Finds fs p d.1 d.2) :
    openAll fs p ds = .ok () ∨ ∃ e, Unseen fs p e ∧ openAll fs p ds = .error e := by
  induction ds with
  | nil => exact .inl rfl
  | cons d ds ih =>
      obtain ⟨way, e⟩ := d
      have hrest := ih fun d hd => hds d (List.mem_cons_of_mem _ hd)
      cases e with
      | file mode content => exact hrest
      | directory mode =>
          rcases stat_cases hfs (hds _ List.mem_cons_self) with
            hstat | ⟨err, hunseen, hspoils, hstat⟩
          · have hopened : fs.isDirectory? (p.below way) = .ok true := by
              simp [isDirectory?, test, hstat]
            rwa [openAll, hopened]
          · have hrefused : fs.isDirectory? (p.below way) = .error err := by
              simp [isDirectory?, test, hstat, hspoils]
            rw [openAll, hrefused]
            simp only
            split
            · exact hrest
            · exact .inr ⟨err, hunseen, rfl⟩

/-- The source that something found below a path is. -/
def sourceBelow (p : Path) (d : Location × CallPlan.Entry) : Source :=
  ⟨Path.joined d.1, p.below d.1⟩

/-- Below a directory everything is found, unless the path to a directory there is too long. -/
theorem found_cases (hfs : IsTree fs) (hopens : Opens fs p) :
    found fs p = .ok ((fs.descendants (fs.place p)).map (sourceBelow p)) ∨
      ∃ e, Unseen fs p e ∧ found fs p = .error e := by
  have hlocate : fs.locate p = .ok (fs.place p) :=
    locate_eq_ok_iff.mpr ⟨hopens.refusal, hopens.reached⟩
  have hfound : found fs p = openAll fs p (fs.descendants (fs.place p)) >>= fun _ =>
      .ok ((fs.descendants (fs.place p)).map (sourceBelow p)) := by
    rw [found, hlocate]
    rfl
  rcases openAll_cases hfs fun d hd => finds_of_mem_descendants hfs hopens hd with
    hopened | ⟨e, hunseen, hrefused⟩
  · exact .inl (by rw [hfound, hopened]; rfl)
  · exact .inr ⟨e, hunseen, by rw [hfound, hrefused]; rfl⟩

/-- How sources come to be `all`: they do, under different names and with everything `seen`; or
something is hidden; or a name comes twice. -/
inductive Extends (hidden : FileError → Prop) (seen : Prop) (all : List Source) :
    Except Halt (List Source) → Prop
  | done (hnames : (all.map (·.name)).Nodup) (hseen : seen) : Extends hidden seen all (.ok all)
  | stopped {e} (h : hidden e) : Extends hidden seen all (.error (.fault (.file e)))
  | taken {name} (h : List.Duplicate name (all.map (·.name))) :
      Extends hidden seen all (.error (.cause (.duplicateEntry name)))

section Extends

variable {hidden hidden' : FileError → Prop} {seen seen' : Prop} {sources all more : List Source}
  {r : Except Halt (List Source)}

theorem Extends.imp (h : Extends hidden seen all r) (hh : ∀ e, hidden e → hidden' e)
    (hs : seen → seen') : Extends hidden' seen' all r := by
  cases h with
  | done hnames hseen => exact .done hnames (hs hseen)
  | stopped h => exact .stopped (hh _ h)
  | taken h => exact .taken h

/-- More sources come behind those that are there. -/
theorem Extends.bind (h : Extends hidden seen all r) {f : List Source → Except Halt (List Source)}
    (hf : (all.map (·.name)).Nodup → Extends hidden seen' (all ++ more) (f all)) :
    Extends hidden (seen ∧ seen') (all ++ more) (r >>= f) := by
  cases h with
  | done hnames hseen => exact (hf hnames).imp (fun _ => id) fun hseen' => ⟨hseen, hseen'⟩
  | stopped h => exact .stopped h
  | taken h =>
      refine .taken ?_
      rw [List.map_append, duplicate_append_iff]
      exact .inl h

theorem extends_add (hnames : (sources.map (·.name)).Nodup) (s : Source) :
    Extends (fun _ => False) True (sources ++ [s]) (add sources s) := by
  by_cases htaken : s.name ∈ sources.map (·.name)
  · rw [add, if_pos htaken]
    refine .taken ?_
    rw [List.map_append, duplicate_append_iff]
    exact .inr (.inl ⟨htaken, List.mem_cons_self⟩)
  · rw [add, if_neg htaken]
    refine .done ?_ trivial
    rw [List.map_append, List.nodup_append]
    refine ⟨hnames, by simp, ?_⟩
    rintro name hname name' hname' rfl
    rw [List.mem_singleton.mp hname'] at hname
    exact htaken hname

theorem accept_cons {s : Source} {isFile : Bool} (h : fs.isFile? s.path = .ok isFile) :
    accept fs sources (s :: more) =
      if isFile then add sources s >>= fun sources => accept fs sources more
      else accept fs sources more := by
  rw [accept, h]
  rfl

/-- The files among what a search has found are accepted if everything found can be looked at and
no name comes twice. -/
theorem extends_accept (hfs : IsTree fs) (hnames : (sources.map (·.name)).Nodup)
    {ds : List (Location × CallPlan.Entry)} (hds : ∀ d ∈ ds, Finds fs p d.1 d.2) :
    Extends (Unseen fs p) (∀ d ∈ ds, fs.stat (p.below d.1) = .ok d.2)
      (sources ++ (ds.filterMap contributionBelow).map (sourceOf p))
      (accept fs sources (ds.map (sourceBelow p))) := by
  induction ds generalizing sources with
  | nil =>
      rw [List.filterMap_nil, List.map_nil, List.append_nil]
      exact .done hnames nofun
  | cons d ds ih =>
      obtain ⟨way, e⟩ := d
      have hrest := fun d hd => hds d (List.mem_cons_of_mem _ hd)
      rw [List.map_cons]
      rcases stat_cases hfs (hds _ List.mem_cons_self) with hstat | ⟨err, hunseen, hspoils, hstat⟩
      · cases e with
        | directory mode =>
            have htest : fs.isFile? (sourceBelow p (way, .directory mode)).path = .ok false := by
              simp [isFile?, test, hstat, sourceBelow]
            rw [accept_cons htest]
            exact (ih hnames hrest).imp (fun _ => id) fun h => List.forall_mem_cons.mpr ⟨hstat, h⟩
        | file mode content =>
            obtain ⟨s, hs⟩ : ∃ s, s = sourceBelow p (way, .file mode content) := ⟨_, rfl⟩
            have htest : fs.isFile? s.path = .ok true := by
              simp [isFile?, test, hstat, hs, sourceBelow]
            have hsources : sources ++ (((way, .file mode content) :: ds).filterMap
                contributionBelow).map (sourceOf p) =
                  sources ++ [s] ++ (ds.filterMap contributionBelow).map (sourceOf p) := by
              rw [List.append_assoc, hs]
              rfl
            have hadd : Extends (Unseen fs p) True (sources ++ [s]) (add sources s) :=
              (extends_add hnames s).imp (fun _ => False.elim) id
            rw [← hs, accept_cons htest, hsources]
            exact (hadd.bind fun hnodup => ih hnodup hrest).imp (fun _ => id) fun h =>
              List.forall_mem_cons.mpr ⟨hstat, h.2⟩
      · have hrefused : fs.isFile? (sourceBelow p (way, e)).path = .error err := by
          simp [isFile?, test, hstat, hspoils, sourceBelow]
        rw [accept, hrefused]
        exact .stopped hunseen

/-- The sources so far with what one more path contributes. -/
def extended (fs : FileSystem) (sources : List Source) (p : Path) : Except Halt (List Source) := do
  if ← (fs.isDirectory? p).mapError fun e => .fault (.file e) then
    let more ← (found fs p).mapError fun e => .fault (.file e)
    accept fs sources more
  else add sources ⟨p.name, p⟩

theorem gather_cons :
    gather fs sources (p :: ps) =
      extended fs sources p >>= fun sources => gather fs sources ps := by
  rw [gather, extended]
  cases fs.isDirectory? p with
  | error e => rfl
  | ok isDirectory =>
      cases isDirectory with
      | false => rfl
      | true => cases found fs p <;> rfl

theorem extends_file (hfs : IsTree fs) {mode : Nat} {content : List UInt8}
    (hp : fs.stat p = .ok (.file mode content)) (hnames : (sources.map (·.name)).Nodup) :
    Extends (Unseen fs p) (∀ e, ¬ Unseen fs p e) (sources ++ sourcesOf fs p)
      (extended fs sources p) := by
  have hno : fs.isDirectory? p = .ok false := by simp [isDirectory?, test, hp]
  have hsources : sourcesOf fs p = [⟨p.name, p⟩] := by
    simp [sourcesOf, contributions, hp, sourceOf, packed, Path.below]
  -- Nothing is found below a file.
  have hnone : ∀ e, ¬ Unseen fs p e := by
    refine not_unseen hfs fun hf => ?_
    obtain ⟨mode', hmode'⟩ := hf.opens.directory
    cases (stat_eq_directory_iff.mpr ⟨hf.opens, hmode'⟩).symm.trans hp
  rw [hsources, extended, hno]
  exact (extends_add hnames _).imp (fun _ => False.elim) fun _ => hnone

theorem extends_directory (hfs : IsTree fs) {mode : Nat} (hp : fs.stat p = .ok (.directory mode))
    (hnames : (sources.map (·.name)).Nodup) :
    Extends (Unseen fs p) (∀ e, ¬ Unseen fs p e) (sources ++ sourcesOf fs p)
      (extended fs sources p) := by
  have hopens := (stat_eq_directory_iff.mp hp).1
  have hsources : sourcesOf fs p =
      ((fs.descendants (fs.place p)).filterMap contributionBelow).map (sourceOf p) := by
    rw [sourcesOf, contributions, hp]
  rw [hsources, extended, isDirectory?_eq_true_iff.mpr hopens]
  rcases found_cases hfs hopens with hfound | ⟨e, hunseen, hfound⟩
  · rw [hfound]
    refine (extends_accept hfs hnames fun d hd => finds_of_mem_descendants hfs hopens hd).imp
      (fun _ => id) fun hlooked => ?_
    exact not_unseen hfs fun {way e} hf => hlooked (way, e) (hf.mem_descendants hfs)
  · rw [hfound]
    exact .stopped hunseen

/-- Paths that lead somewhere are gathered one after the other. This succeeds, or fails at something
that cannot be looked at or at a name that comes twice. -/
theorem extends_gather (hfs : IsTree fs) (hps : ∀ p ∈ ps, ∃ e, fs.stat p = .ok e)
    (hnames : (sources.map (·.name)).Nodup) :
    Extends (fun e => ∃ p ∈ ps, Unseen fs p e) (∀ p ∈ ps, ∀ e, ¬ Unseen fs p e)
      (sources ++ ps.flatMap (sourcesOf fs)) (gather fs sources ps) := by
  induction ps generalizing sources with
  | nil =>
      rw [List.flatMap_nil, List.append_nil]
      exact .done hnames nofun
  | cons p ps ih =>
      obtain ⟨⟨e, he⟩, hps⟩ := List.forall_mem_cons.mp hps
      have hfirst : Extends (fun e => ∃ p' ∈ p :: ps, Unseen fs p' e) (∀ e, ¬ Unseen fs p e)
          (sources ++ sourcesOf fs p) (extended fs sources p) := by
        have hwiden : ∀ e, Unseen fs p e → ∃ p' ∈ p :: ps, Unseen fs p' e :=
          fun e h => ⟨p, List.mem_cons_self, h⟩
        cases e with
        | file mode content => exact (extends_file hfs he hnames).imp hwiden id
        | directory mode => exact (extends_directory hfs he hnames).imp hwiden id
      rw [gather_cons, List.flatMap_cons, ← List.append_assoc]
      refine (hfirst.bind fun hnodup => (ih hps hnodup).imp ?_ id).imp (fun _ => id) fun h =>
        List.forall_mem_cons.mpr ⟨h.1, h.2⟩
      rintro e ⟨p', hp', h⟩
      exact ⟨p', List.mem_cons_of_mem _ hp', h⟩

end Extends

/-! ## Reading and ordering -/

theorem item_of_stat {name : String} {q : Path} {mode : Nat} {content : List UInt8}
    (h : fs.stat q = .ok (.file mode content)) :
    item fs ⟨name, q⟩ =
      if fs.forbids (fs.place q) .read then .error ⟨.denied, q⟩
      else .ok (packed name mode content) := by
  obtain ⟨hrefusal, hwalk, -⟩ := stat_eq_ok_iff.mp h
  have hlocate : fs.locate q = .ok (fs.place q) := locate_eq_ok_iff.mpr ⟨hrefusal, hwalk⟩
  have hread : fs.read q =
      if fs.forbids (fs.place q) .read then .error ⟨.denied, q⟩ else .ok content := by
    simp only [FileSystem.read, hlocate, h]
    rfl
  simp only [item, h, hread]
  cases fs.forbids (fs.place q) .read <;> rfl

/-- What a path contributes is what its source is read as, if it may be read. -/
theorem item_of_contributes (hfs : IsTree fs) (hseen : ∀ e, ¬ Unseen fs p e) {way : Location}
    {i : Item} (h : Contributes fs p way i) :
    item fs ⟨i.name, p.below way⟩ =
      if fs.forbids (fs.place (p.below way)) .read then .error ⟨.denied, p.below way⟩
      else .ok i := by
  cases h with
  | itself hp =>
      have hbelow : p.below [] = p := by rw [Path.below, List.append_nil]
      rw [hbelow]
      exact item_of_stat hp
  | below hf => exact item_of_stat (stat_of_seen hfs hseen hf)

/-- Sources are read one after the other, up to the first that cannot be. -/
theorem items_cases (fs : FileSystem) (ss : List Source) :
    (∃ is, items fs ss = .ok is) ∨
      ∃ s ∈ ss, ∃ e, item fs s = .error e ∧ items fs ss = .error e := by
  induction ss with
  | nil => exact .inl ⟨[], rfl⟩
  | cons s ss ih =>
      cases hs : item fs s with
      | error e =>
          exact .inr ⟨s, List.mem_cons_self, e, hs, bind_eq_error_iff.mpr (.inl hs)⟩
      | ok i =>
          rcases ih with ⟨is, his⟩ | ⟨s', hs', e, he, herror⟩
          · exact .inl ⟨i :: is, bind_eq_ok_iff.mpr ⟨i, hs, bind_eq_ok_iff.mpr ⟨is, his, rfl⟩⟩⟩
          · refine .inr ⟨s', List.mem_cons_of_mem _ hs', e, he, ?_⟩
            exact bind_eq_error_iff.mpr (.inr ⟨i, hs, bind_eq_error_iff.mpr (.inl herror)⟩)

theorem exists_item_of_mem {ss : List Source} {is : List Item} (h : items fs ss = .ok is)
    {s : Source} (hs : s ∈ ss) : ∃ i, item fs s = .ok i := by
  induction ss generalizing is with
  | nil => cases hs
  | cons s' ss ih =>
      obtain ⟨i, hi, h⟩ := bind_eq_ok_iff.mp h
      obtain ⟨is', his', -⟩ := bind_eq_ok_iff.mp h
      rcases List.mem_cons.mp hs with rfl | hs
      · exact ⟨i, hi⟩
      · exact ih his' hs

theorem mem_items_iff {ss : List Source} {is : List Item} (h : items fs ss = .ok is) {i : Item} :
    i ∈ is ↔ ∃ s ∈ ss, item fs s = .ok i := by
  induction ss generalizing is with
  | nil =>
      cases h
      simp
  | cons s ss ih =>
      obtain ⟨i', hi', h⟩ := bind_eq_ok_iff.mp h
      obtain ⟨is', his', h⟩ := bind_eq_ok_iff.mp h
      cases h
      have hhead : i = i' ↔ item fs s = .ok i := by rw [hi', Except.ok.injEq, eq_comm]
      rw [List.mem_cons, ih his', hhead]
      simp only [List.mem_cons, or_and_right, exists_or, exists_eq_left]

theorem names_items {ss : List Source} {is : List Item} (h : items fs ss = .ok is) :
    is.map (·.name) = ss.map (·.name) := by
  induction ss generalizing is with
  | nil =>
      cases h
      rfl
  | cons s ss ih =>
      obtain ⟨i, hi, h⟩ := bind_eq_ok_iff.mp h
      obtain ⟨is', his', h⟩ := bind_eq_ok_iff.mp h
      cases h
      obtain ⟨e, -, hi⟩ := bind_eq_ok_iff.mp hi
      obtain ⟨content, -, hi⟩ := bind_eq_ok_iff.mp hi
      cases hi
      rw [List.map_cons, List.map_cons, ih his']

/-- Sources of different names are put into the order of their names. -/
theorem pairwise_names_inOrder {ss : List Source} (h : (ss.map (·.name)).Nodup) :
    ((inOrder ss).map (·.name)).Pairwise (· < ·) := by
  have hsorted : (inOrder ss).Pairwise fun a b => Sorting.textLe a.name b.name = true :=
    Sorting.pairwise_sort (fun a b => Sorting.textLe_total a.name b.name)
      (fun a b c => Sorting.textLe_trans a.name b.name c.name) ss
  have hdiffer : ((inOrder ss).map (·.name)).Nodup :=
    ((Sorting.sort_perm _ ss).map _).nodup_iff.mpr h
  rw [List.pairwise_map]
  refine hsorted.imp₂ (fun a b hle hne => ?_) (List.pairwise_map.mp hdiffer)
  have hle : a.name ≤ b.name := by simpa [Sorting.textLe] using hle
  exact Std.lt_of_le_of_ne hle hne

/-- Two rows that hold the same are the same. -/
theorem HoldsExactly.unique {qs : List Path} {is is' : List Item} (h : HoldsExactly fs ps is)
    (h' : HoldsExactly fs qs is') (hpq : ∀ p, p ∈ ps ↔ p ∈ qs) : is = is' := by
  have hnodup : ∀ {l : List Item}, l.Pairwise (·.name < ·.name) → l.Nodup := by
    intro l hl
    refine hl.imp ?_
    rintro a _ hlt rfl
    exact String.lt_irrefl _ hlt
  refine List.Perm.eq_of_pairwise (fun a b _ _ hab hba => absurd hba (String.lt_asymm hab))
    h.increasing h'.increasing ?_
  rw [List.perm_ext_iff_of_nodup (hnodup h.increasing) (hnodup h'.increasing)]
  intro i
  simp only [h.mem_iff, h'.mem_iff, hpq]

theorem Distinct.of_perm (hfs : IsTree fs) {qs : List Path} (h : Distinct fs ps)
    (hperm : ps.Perm qs) : Distinct fs qs := by
  rw [← nodup_names_iff hfs] at h ⊢
  exact ((hperm.flatMap_right _).map _).nodup_iff.mp h

/-! ## Packing -/

/-- The sources that are read become the files that the paths contribute. -/
theorem holdsExactly_of_items (hfs : IsTree fs) (hd : Distinct fs ps)
    (hseen : ∀ p ∈ ps, ∀ e, ¬ Unseen fs p e) {is : List Item}
    (his : items fs (inOrder (ps.flatMap (sourcesOf fs))) = .ok is) : HoldsExactly fs ps is := by
  refine ⟨?_, fun i => ?_⟩
  · have hnames := pairwise_names_inOrder ((nodup_names_iff hfs).mpr hd)
    rw [← names_items his] at hnames
    exact List.pairwise_map.mp hnames
  · rw [mem_items_iff his]
    constructor
    · rintro ⟨s, hs, hi⟩
      obtain ⟨p, hp, way, i', h, rfl⟩ := mem_inOrder_iff hfs |>.mp hs
      have hitem := item_of_contributes hfs (hseen p hp) h
      rw [hi] at hitem
      split at hitem
      · cases hitem
      · cases hitem
        exact ⟨p, hp, way, h⟩
    · rintro ⟨p, hp, way, h⟩
      have hs := (mem_inOrder_iff hfs).mpr ⟨p, hp, way, i, h, rfl⟩
      obtain ⟨i', hi'⟩ := exists_item_of_mem his hs
      have hitem := item_of_contributes hfs (hseen p hp) h
      rw [hi'] at hitem
      split at hitem
      · cases hitem
      · cases hitem
        exact ⟨_, hs, hi'⟩

/-- What packing paths that lead somewhere ends with. -/
theorem contents_cases (hfs : IsTree fs) (hps : ∀ p ∈ ps, ∃ e, fs.stat p = .ok e) :
    (Distinct fs ps ∧ (∀ p ∈ ps, ∀ e, ¬ Refused fs p e) ∧
      ∃ is, contents fs ps = .ok is ∧ HoldsExactly fs ps is) ∨
    (∃ p ∈ ps, ∃ e, Refused fs p e ∧ contents fs ps = .error (.fault (.file e))) ∨
    ∃ name, Repeated fs ps name ∧ contents fs ps = .error (.cause (.duplicateEntry name)) := by
  have hnone : (([] : List Source).map (·.name)).Nodup := List.nodup_nil
  have hgathered := extends_gather hfs hps hnone
  rw [List.nil_append] at hgathered
  obtain ⟨r, hr⟩ : ∃ r, gather fs [] ps = r := ⟨_, rfl⟩
  rw [contents, hr]
  rw [hr] at hgathered
  cases hgathered with
  | stopped hhidden =>
      obtain ⟨p, hp, hunseen⟩ := hhidden
      exact .inr (.inl ⟨p, hp, _, .unseen hunseen, rfl⟩)
  | taken hname => exact .inr (.inr ⟨_, (duplicate_names_iff hfs).mp hname, rfl⟩)
  | done hnodup hseen =>
      have hd : Distinct fs ps := (nodup_names_iff hfs).mp hnodup
      rw [ok_bind]
      rcases items_cases fs (inOrder (ps.flatMap (sourcesOf fs))) with
        ⟨is, his⟩ | ⟨s, hs, e, hitem, herror⟩
      · refine .inl ⟨hd, ?_, is, by rw [his]; rfl, holdsExactly_of_items hfs hd hseen his⟩
        rintro p hp e (hunseen | ⟨h, hread⟩)
        · exact hseen p hp e hunseen
        · obtain ⟨i, hi⟩ := exists_item_of_mem his
            ((mem_inOrder_iff hfs).mpr ⟨p, hp, _, _, h, rfl⟩)
          rw [item_of_contributes hfs (hseen p hp) h, if_pos hread] at hi
          cases hi
      · obtain ⟨p, hp, way, i, h, rfl⟩ := (mem_inOrder_iff hfs).mp hs
        have hread := item_of_contributes hfs (hseen p hp) h
        rw [hitem] at hread
        by_cases hforbidden : fs.forbids (fs.place (p.below way)) .read = true
        · rw [if_pos hforbidden] at hread
          cases hread
          exact .inr (.inl ⟨p, hp, _, .unread h hforbidden, by rw [herror]; rfl⟩)
        · rw [if_neg hforbidden] at hread
          cases hread

/-- Packing succeeds exactly when no name comes twice and nothing is refused. -/
theorem exists_build_iff (hfs : IsTree fs) (hps : ∀ p ∈ ps, ∃ e, fs.stat p = .ok e) :
    (∃ bytes, build fs ps = .ok bytes) ↔
      Distinct fs ps ∧ ∀ p ∈ ps, ∀ e, ¬ Refused fs p e := by
  rw [build, exists_map_eq_ok_iff]
  rcases contents_cases hfs hps with
    ⟨hd, hgranted, is, his, -⟩ | ⟨p, hp, e, hrefused, herror⟩ | ⟨name, hname, herror⟩
  · exact ⟨fun _ => ⟨hd, hgranted⟩, fun _ => ⟨is, his⟩⟩
  · simp only [herror, reduceCtorEq, exists_false, false_iff]
    exact fun h => h.2 p hp e hrefused
  · simp only [herror, reduceCtorEq, exists_false, false_iff]
    exact fun h => h.1 name hname

theorem build_eq_error (hfs : IsTree fs) (hps : ∀ p ∈ ps, ∃ e, fs.stat p = .ok e) {halt : Halt}
    (h : build fs ps = .error halt) :
    (∃ name, halt = .cause (.duplicateEntry name) ∧ Repeated fs ps name) ∨
      ∃ p ∈ ps, ∃ e, Refused fs p e ∧ halt = .fault (.file e) := by
  have h := map_eq_error_iff.mp h
  rcases contents_cases hfs hps with
    ⟨-, -, is, his, -⟩ | ⟨p, hp, e, hrefused, herror⟩ | ⟨name, hname, herror⟩
  · rw [his] at h
    cases h
  · rw [herror] at h
    cases h
    exact .inr ⟨p, hp, e, hrefused, rfl⟩
  · rw [herror] at h
    cases h
    exact .inl ⟨name, rfl, hname⟩

theorem build_eq_ok (hfs : IsTree fs) (hps : ∀ p ∈ ps, ∃ e, fs.stat p = .ok e)
    {bytes : List UInt8} (h : build fs ps = .ok bytes) :
    ∃ items, bytes = write items ∧ HoldsExactly fs ps items := by
  obtain ⟨is, his, rfl⟩ := map_eq_ok_iff.mp h
  rcases contents_cases hfs hps with
    ⟨-, -, is', his', hholds⟩ | ⟨p, -, e, -, herror⟩ | ⟨name, -, herror⟩
  · rw [his] at his'
    cases his'
    exact ⟨is, rfl, hholds⟩
  · rw [his] at herror
    cases herror
  · rw [his] at herror
    cases herror

/-- The order of the paths does not matter. -/
theorem build_perm (hfs : IsTree fs) (hps : ∀ p ∈ ps, ∃ e, fs.stat p = .ok e)
    {bytes : List UInt8} (h : build fs ps = .ok bytes) {qs : List Path} (hperm : ps.Perm qs) :
    build fs qs = .ok bytes := by
  have hqs : ∀ q ∈ qs, ∃ e, fs.stat q = .ok e := fun q hq => hps q (hperm.mem_iff.mpr hq)
  obtain ⟨hd, hgranted⟩ := (exists_build_iff hfs hps).mp ⟨bytes, h⟩
  obtain ⟨bytes', h'⟩ := (exists_build_iff hfs hqs).mpr
    ⟨hd.of_perm hfs hperm, fun q hq => hgranted q (hperm.mem_iff.mpr hq)⟩
  obtain ⟨is, rfl, hholds⟩ := build_eq_ok hfs hps h
  obtain ⟨is', rfl, hholds'⟩ := build_eq_ok hfs hqs h'
  rw [hholds.unique hholds' fun _ => hperm.mem_iff, h']

/-- For paths that lead somewhere in a tree: packing succeeds exactly when no two contributed files
have one name and the operating system refuses nothing, neither to look at what is found below a
directory nor to read a contributed file, and otherwise tells a name that comes twice or what has
been refused. The archive is written from exactly the contributed files, in the strict order of
their names, and is the same for every order of the paths. -/
theorem build_spec (hfs : IsTree fs) (hps : ∀ p ∈ ps, ∃ e, fs.stat p = .ok e) :
    ((∃ bytes, build fs ps = .ok bytes) ↔
      Distinct fs ps ∧ ∀ p ∈ ps, ∀ e, ¬ Refused fs p e) ∧
    (∀ halt, build fs ps = .error halt →
      (∃ name, halt = .cause (.duplicateEntry name) ∧ Repeated fs ps name) ∨
      ∃ p ∈ ps, ∃ e, Refused fs p e ∧ halt = .fault (.file e)) ∧
    ∀ bytes, build fs ps = .ok bytes →
      (∃ items, bytes = write items ∧ HoldsExactly fs ps items) ∧
      ∀ qs, ps.Perm qs → build fs qs = .ok bytes :=
  ⟨exists_build_iff hfs hps, fun _ h => build_eq_error hfs hps h,
    fun _ h => ⟨build_eq_ok hfs hps h, fun _ hperm => build_perm hfs hps h hperm⟩⟩

/-! ## A file, and a directory with another one -/

def twoFiles : FileSystem :=
  { FileSystem.empty with
    entries := [(["d"], .directory 0o755), (["d", "contents.txt"], .file 0o644 [120]),
      (["b"], .file 0o755 [])] }

theorem isTree_twoFiles : IsTree twoFiles where
  nodup := by decide
  rooted := by
    have hname : IsName "d" ∧ IsName "contents.txt" ∧ IsName "b" :=
      ⟨⟨by decide, by decide, by decide⟩, ⟨by decide, by decide, by decide⟩,
        ⟨by decide, by decide, by decide⟩⟩
    intro l e hmem
    simp only [twoFiles, List.mem_cons, Prod.mk.injEq, List.not_mem_nil, or_false] at hmem
    obtain ⟨rfl, -⟩ | ⟨rfl, -⟩ | ⟨rfl, -⟩ := hmem
    · exact ⟨[], "d", rfl, ⟨_, rfl⟩, hname.1⟩
    · exact ⟨["d"], "contents.txt", rfl, ⟨_, rfl⟩, hname.2.1⟩
    · exact ⟨[], "b", rfl, ⟨_, rfl⟩, hname.2.2⟩

theorem build_spec_twoFiles :
    IsTree twoFiles ∧
      (∀ p ∈ [Path.ofText "d", Path.ofText "b"], ∃ e, twoFiles.stat p = .ok e) ∧
      ∃ bytes, build twoFiles [Path.ofText "d", Path.ofText "b"] = .ok bytes ∧
        build twoFiles [Path.ofText "b", Path.ofText "d"] = .ok bytes := by
  have hps : ∀ p ∈ [Path.ofText "d", Path.ofText "b"], ∃ e, twoFiles.stat p = .ok e := by
    intro p hp
    simp only [List.mem_cons, List.not_mem_nil, or_false] at hp
    obtain rfl | rfl := hp
    · exact ⟨.directory 0o755, by decide⟩
    · exact ⟨.file 0o755 [], by decide⟩
  have hbuild : ∃ bytes, build twoFiles [Path.ofText "d", Path.ofText "b"] = .ok bytes := by
    refine exists_map_eq_ok_iff.mpr ⟨[packed "b" 0o755 [], packed "contents.txt" 0o644 [120]], ?_⟩
    rfl
  obtain ⟨-, -, hspec⟩ := build_spec isTree_twoFiles hps
  obtain ⟨bytes, hbytes⟩ := hbuild
  exact ⟨isTree_twoFiles, hps, bytes, hbytes, (hspec bytes hbytes).2 _ (.swap _ _ _)⟩

/-- The way into a directory and out of it again, a number of times, and into it. -/
def inAndOut : Nat → List String
  | 0 => ["d"]
  | n + 1 => "d" :: ".." :: inAndOut n

theorem walk_inAndOut (n : Nat) : twoFiles.walk [] (inAndOut n) = .ok ["d"] := by
  induction n with
  | zero => rfl
  | succ n ih => exact ih

theorem mem_inAndOut {n : Nat} {part : String} (h : part ∈ inAndOut n) :
    part = "d" ∨ part = ".." := by
  induction n with
  | zero => exact .inl (List.mem_singleton.mp h)
  | succ n ih =>
      obtain rfl | rfl | h := by simpa only [inAndOut, List.mem_cons] using h
      · exact .inl rfl
      · exact .inr rfl
      · exact ih h

theorem utf8ByteSize_joined_inAndOut (n : Nat) (way : List String) :
    (Path.joined (inAndOut n ++ way)).utf8ByteSize =
      5 * n + (Path.joined ("d" :: way)).utf8ByteSize := by
  unfold Path.joined
  induction n with
  | zero => simp [inAndOut]
  | succ n ih =>
      obtain ⟨part, parts, hrest⟩ : ∃ part parts, inAndOut n ++ way = part :: parts := by
        cases n <;> exact ⟨_, _, rfl⟩
      rw [hrest] at ih
      rw [inAndOut, List.cons_append, List.cons_append, hrest, String.intercalate_cons_cons,
        String.intercalate_cons_cons]
      simp only [String.utf8ByteSize_append, ih]
      have hsizes : "d".utf8ByteSize = 1 ∧ "..".utf8ByteSize = 2 ∧ "/".utf8ByteSize = 1 := by decide
      omega

theorem text_inAndOut (n : Nat) (way : List String) :
    (Path.text ⟨.relative, inAndOut n ++ way⟩).utf8ByteSize =
      5 * n + (Path.joined ("d" :: way)).utf8ByteSize := by
  have hparts : inAndOut n ++ way ≠ [] := by cases n <;> simp [inAndOut]
  rw [Path.text, if_neg (by simp [hparts]), String.utf8ByteSize_append,
    utf8ByteSize_joined_inAndOut]
  simp [Path.Root.text]

theorem place_inAndOut (n : Nat) : twoFiles.place ⟨.relative, inAndOut n⟩ = ["d"] :=
  (eq_follow_of_walk (walk_inAndOut n)).symm

theorem opens_inAndOut {n : Nat} (hn : n ≤ 818) : Opens twoFiles ⟨.relative, inAndOut n⟩ where
  refusal := by
    refine refusal?_eq_none_iff.mpr ⟨?_, ?_⟩
    · rw [Path.nullFree_iff]
      intro part hpart
      obtain rfl | rfl := mem_inAndOut hpart <;> decide
    · have htext := text_inAndOut n []
      have hsize : (Path.joined ["d"]).utf8ByteSize = 1 := by decide
      rw [List.append_nil] at htext
      omega
  reached := by
    rw [place_inAndOut]
    exact walk_inAndOut n
  directory := by
    rw [place_inAndOut]
    exact ⟨0o755, rfl⟩

theorem eq_of_at?_below {n : Nat} {way : Location} {e : CallPlan.Entry} (hway : way ≠ [])
    (hat : twoFiles.at? (twoFiles.place ⟨.relative, inAndOut n⟩ ++ way) = some e) :
    way = ["contents.txt"] := by
  rw [place_inAndOut] at hat
  have hmem := (isTree_twoFiles.mem_iff (by simp)).mpr hat
  simp only [twoFiles, List.cons_append, List.nil_append, List.mem_cons, Prod.mk.injEq,
    List.cons.injEq, hway, and_false, false_and, true_and, List.not_mem_nil, or_false,
    false_or] at hmem
  obtain ⟨rfl, -⟩ | ⟨⟨⟨⟩, -⟩, -⟩ := hmem
  rfl

theorem distinct_inAndOut {n : Nat} (hn : n ≤ 818) :
    Distinct twoFiles [⟨.relative, inAndOut n⟩] := by
  have hways : ∀ {way item}, Contributes twoFiles ⟨.relative, inAndOut n⟩ way item →
      way = ["contents.txt"] := by
    intro way item h
    cases h with
    | itself hp =>
        obtain ⟨mode, hmode⟩ := (opens_inAndOut hn).directory
        rw [stat_eq_directory_iff.mpr ⟨opens_inAndOut hn, hmode⟩] at hp
        cases hp
    | below hf => exact eq_of_at?_below hf.ne_nil hf.stands
  rintro name (⟨hp, hne, h, h', -, -⟩ | ⟨hps, -, -⟩)
  · obtain rfl := List.mem_singleton.mp hp
    exact hne ((hways h).trans (hways h').symm)
  · have hlength := hps.length_le
    simp at hlength

/-- The same files, where one may not do something with what stands at a location. -/
def withoutRight (l : Location) (right : Right) : FileSystem :=
  { twoFiles with forbids := fun l' right' => l' = l && right' = right }

/-- Distinct names are not enough. A path to a directory may be short enough for an operating
system when the one to the file in the directory is not, and a file may be there and not be
readable. Of a directory that may not be listed nothing gets into the archive. -/
theorem build_fails_with_distinct_names :
    (IsTree twoFiles ∧ (∃ e, twoFiles.stat ⟨.relative, inAndOut 818⟩ = .ok e) ∧
      Distinct twoFiles [⟨.relative, inAndOut 818⟩] ∧
      build twoFiles [⟨.relative, inAndOut 818⟩] =
        .error (.fault (.file ⟨.nameTooLong, ⟨.relative, inAndOut 818 ++ ["contents.txt"]⟩⟩))) ∧
    ((withoutRight ["b"] .read).stat (Path.ofText "b") = .ok (.file 0o755 []) ∧
      build (withoutRight ["b"] .read) [Path.ofText "b"] =
        .error (.fault (.file ⟨.denied, Path.ofText "b"⟩))) ∧
    (withoutRight ["d"] .read).stat (Path.ofText "d/contents.txt") =
        .ok (.file 0o644 [120]) ∧
      contents (withoutRight ["d"] .read) [Path.ofText "d"] = .ok [] := by
  have hopens : Opens twoFiles ⟨.relative, inAndOut 818⟩ := opens_inAndOut (Nat.le_refl _)
  have hdistinct := distinct_inAndOut (Nat.le_refl 818)
  have hfinds : Finds twoFiles ⟨.relative, inAndOut 818⟩ ["contents.txt"] (.file 0o644 [120]) := by
    refine ⟨hopens, by simp, rfl, ?_⟩
    rw [place_inAndOut]
    rfl
  have hlong : Unseen twoFiles ⟨.relative, inAndOut 818⟩
      ⟨.nameTooLong, ⟨.relative, inAndOut 818 ++ ["contents.txt"]⟩⟩ := by
    refine .tooLong hfinds ?_
    have hsize : (Path.joined ["d", "contents.txt"]).utf8ByteSize = 14 := by decide
    rw [Path.below, text_inAndOut, hsize]
    omega
  obtain ⟨mode, hmode⟩ := hopens.directory
  have hstat := stat_eq_directory_iff.mpr ⟨hopens, hmode⟩
  have hps : ∀ p ∈ [(⟨.relative, inAndOut 818⟩ : Path)], ∃ e, twoFiles.stat p = .ok e := by
    intro p hp
    obtain rfl := List.mem_singleton.mp hp
    exact ⟨_, hstat⟩
  refine ⟨⟨isTree_twoFiles, ⟨_, hstat⟩, hdistinct, ?_⟩, ⟨by decide, rfl⟩, by decide, rfl⟩
  cases hbuild : build twoFiles [⟨.relative, inAndOut 818⟩] with
  | ok bytes =>
      have hgranted := ((exists_build_iff isTree_twoFiles hps).mp ⟨bytes, hbuild⟩).2
      exact absurd (.unseen hlong) (hgranted _ List.mem_cons_self _)
  | error halt =>
      obtain ⟨name, -, hname⟩ | ⟨p, hp, e, hrefused, rfl⟩ :=
        build_eq_error isTree_twoFiles hps hbuild
      · exact absurd hname (hdistinct name)
      · obtain rfl := List.mem_singleton.mp hp
        -- nothing is forbidden here, so it can only be the length of a path
        obtain ⟨⟨hf, -⟩ | ⟨hf, hshut⟩⟩ | ⟨h, hread⟩ := hrefused
        · rw [eq_of_at?_below hf.ne_nil hf.stands]
          rfl
        · cases hshut
        · cases hread

end CallPlan.Archive
