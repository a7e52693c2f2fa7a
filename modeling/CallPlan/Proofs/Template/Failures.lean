import CallPlan.Proofs.Template.Leafwise

/-!
# What resolving fails with

A text that does not resolve fails with a failure of resolution or of a resource, and each of the
two has its own codes (`IsOwn`). This covers every step: reading the text, following its
references through results of any form, writing the values that they lead to, and packing the
files that the outcome names. Parameters fail in the same ways and say where, by a place that
begins at the top (`resolve_fails_only`). All else that can keep them from resolving is listed: what
obstructs a text (`Obstructs`), and a key that cannot be written.
-/

namespace CallPlan

open Sequencing

/-! ## Failures of resources -/

namespace Payload

/-- If the step ends with a failure, that is one of resources. -/
def OfResource (h : Halt) : Prop :=
  ∀ c, h = .cause c → c.kind = .resource

theorem ofResource_fault (f : Fault) : OfResource (.fault f) := nofun

theorem ofResource_cause {c : Failure.Cause} (h : c.kind = .resource) : OfResource (.cause c) := by
  rintro _ ⟨⟩
  exact h

/-- What packing files ends early with: a fault, or a name that is taken. -/
inductive OfPacking : Halt → Prop
  | fault (f : Fault) : OfPacking (.fault f)
  | taken (name : String) : OfPacking (.cause (.duplicateEntry name))

theorem OfPacking.ofResource {h : Halt} (hh : OfPacking h) : OfResource h := by
  cases hh with
  | fault f => exact ofResource_fault f
  | taken name => exact ofResource_cause rfl

/-- A failed file operation, before it is reported, is a fault. -/
theorem failsOnly_file {P : Halt → Prop} (hP : ∀ f, P (.fault f)) {α : Type}
    (x : Except FileError α) : FailsOnly P (x.mapError fun e => .fault (.file e)) :=
  FailsOnly.mapError (Q := fun _ => True) (fun _ _ => trivial) fun _ _ => hP _

section

variable {project : Project} {fs : FileSystem} {base : Path}

theorem failsOnly_allExisting (raws : List String) :
    FailsOnly OfResource (allExisting fs base raws) := by
  induction raws with
  | nil => exact failsOnly_ok _
  | cons raw raws ih =>
      have hfirst : FailsOnly OfResource (existing fs base raw) := by
        refine (failsOnly_file ofResource_fault _).bind fun b => ?_
        split
        · exact failsOnly_ok _
        · exact failsOnly_error (ofResource_cause rfl)
      exact hfirst.bind fun p => ih.bind fun ps => failsOnly_ok _

theorem failsOnly_add (sources : List Archive.Source) (s : Archive.Source) :
    FailsOnly OfPacking (Archive.add sources s) := by
  unfold Archive.add
  split
  · exact failsOnly_error (.taken _)
  · exact failsOnly_ok _

theorem failsOnly_accept (sources more : List Archive.Source) :
    FailsOnly OfPacking (Archive.accept fs sources more) := by
  induction more generalizing sources with
  | nil => exact failsOnly_ok _
  | cons s more ih =>
      refine (failsOnly_file .fault _).bind fun b => ?_
      split
      · exact (failsOnly_add sources s).bind ih
      · exact ih sources

theorem failsOnly_gather (sources : List Archive.Source) (ps : List Path) :
    FailsOnly OfPacking (Archive.gather fs sources ps) := by
  induction ps generalizing sources with
  | nil => exact failsOnly_ok _
  | cons p ps ih =>
      refine (failsOnly_file .fault _).bind fun b => ?_
      split
      · exact (failsOnly_file .fault _).bind fun more =>
          (failsOnly_accept sources more).bind fun all => ih all
      · exact (failsOnly_add sources _).bind fun all => ih all

theorem failsOnly_build (ps : List Path) : FailsOnly OfPacking (Archive.build fs ps) := by
  refine FailsOnly.map ?_ _
  exact (failsOnly_gather [] ps).bind fun found => failsOnly_file .fault _

theorem failsOnly_bytesOf (ps : List Path) : FailsOnly OfPacking (bytesOf project fs ps) := by
  unfold bytesOf
  split
  · next p =>
    have harchive : FailsOnly OfPacking (isArchive project fs p) := by
      refine (failsOnly_file .fault _).bind fun b => ?_
      split
      · refine FailsOnly.bind ?_ fun suffixes => failsOnly_ok _
        exact FailsOnly.mapError (Q := fun _ => True) (fun _ _ => trivial) fun f _ => .fault f
      · exact failsOnly_ok _
    refine harchive.bind fun b => ?_
    split
    · exact failsOnly_file .fault _
    · exact failsOnly_build [p]
  · exact failsOnly_build _

/-- Reporting makes a failure of resources of a failed file operation. -/
theorem ofResource_reported {h : Halt} (hh : OfResource h) : OfResource (reported h) := by
  unfold reported
  split
  · split
    · exact ofResource_fault _
    · exact ofResource_cause rfl
  · exact hh

theorem failsOnly_load (raws : List String) :
    FailsOnly OfResource (load project fs base raws) := by
  refine FailsOnly.mapError ?_ fun _ => ofResource_reported
  exact (failsOnly_allExisting raws).bind fun ps =>
    (failsOnly_bytesOf ps).mono fun _ => OfPacking.ofResource

end

end Payload

namespace Template

/-! ## Own failures -/

/-- The codes of failures of resolution. -/
def resolutionKindCodes : List String :=
  "payload.empty_path" :: splicingCodes

/-- A failure of resolution or of a resource, with one of the codes of these. -/
def IsOwn (c : Failure.Cause) : Prop :=
  (c.kind = .resolution ∧ c.code ∈ resolutionKindCodes)
    ∨ (c.kind = .resource ∧ c.code ∈ Payload.loadCodes)

section

variable {scope : Scope}

theorem isOwn_of_splicing {c : Failure.Cause} (h : OfCodes splicingCodes c) : IsOwn c :=
  .inl ⟨h.kind, List.mem_cons_of_mem _ h.code⟩

theorem isOwn_of_deliver {text : String} {c : Failure.Cause}
    (h : deliver scope text = .error (.cause c)) : IsOwn c := by
  rcases bind_eq_error_iff.mp h with h | ⟨paths, -, h⟩
  · rw [Payload.paths?_eq_error (mapError_cause_eq_error_iff.mp h)]
    exact .inl ⟨rfl, List.mem_cons_self ..⟩
  · split at h
    · cases h
    · rcases bind_eq_error_iff.mp h with h | ⟨base, -, h⟩
      · obtain ⟨f, -, hf⟩ := mapError_eq_error_iff.mp h
        cases hf
      rcases bind_eq_error_iff.mp h with h | ⟨bytes, -, h⟩
      · refine .inr ⟨Payload.failsOnly_load _ _ h c rfl, ?_⟩
        rcases Payload.load_eq_error h with ⟨c', hc, hcode⟩ | ⟨f, -, hf⟩
        · cases hc
          exact hcode
        · cases hf
      · cases h

/-- What a text fails with is its own. -/
theorem isOwn_of_resolveText {text : String} {c : Failure.Cause}
    (h : resolveText scope text = .error (.cause c)) : IsOwn c := by
  rcases resolveText_eq_error_iff.mp h with hs | ⟨s, -, hd⟩
  · exact isOwn_of_splicing (nowhere_cause.mp (failsOnly_spliceText text _ hs))
  · exact isOwn_of_deliver hd

/-- A text resolves, fails with a failure of its own, or is obstructed. -/
theorem resolveText_cases (hp : Payload.Listed scope.project) (text : String) :
    (∃ v, resolveText scope text = .ok v)
      ∨ (∃ c, resolveText scope text = .error (.cause c) ∧ IsOwn c)
      ∨ ∃ f, resolveText scope text = .error (.fault f) ∧ Obstructs scope text f := by
  cases hr : resolveText scope text with
  | ok v => exact .inl ⟨v, rfl⟩
  | error h =>
      rcases resolveText_eq_error hp hr with ⟨c, rfl⟩ | ⟨f, rfl, hf⟩
      · exact .inr (.inl ⟨c, rfl, isOwn_of_resolveText hr⟩)
      · exact .inr (.inr ⟨f, rfl, hf⟩)

end

/-! ## Places of parameters -/

theorem entry_append (a b : String) (k : Value) :
    Place.entry (a ++ b) k = a ++ Place.entry b k := by
  unfold Place.entry
  split
  · simp [String.append_assoc]
  · simp [String.append_assoc]
  · exact field_append a b _

mutual

/-- The places of texts begin with that of the value. -/
theorem leaves_append (a b : String) (v : Value) : leaves (a ++ b) v = behind a (leaves b v) := by
  cases v with
  | list xs => exact itemLeaves_append a b 0 xs
  | tuple xs => exact itemLeaves_append a b 0 xs
  | map es => exact entryLeaves_append a b es
  | _ => rfl

theorem itemLeaves_append (a b : String) (n : Nat) (xs : List Value) :
    itemLeaves (a ++ b) n xs = behind a (itemLeaves b n xs) := by
  cases xs with
  | nil => rfl
  | cons x xs =>
      rw [itemLeaves, itemLeaves, behind_append, item_append, leaves_append a _ x,
        itemLeaves_append a b (n + 1) xs]

theorem entryLeaves_append (a b : String) (es : List (Value × Value)) :
    entryLeaves (a ++ b) es = behind a (entryLeaves b es) := by
  cases es with
  | nil => rfl
  | cons e es =>
      obtain ⟨k, x⟩ := e
      rw [entryLeaves, entryLeaves, behind_append, entry_append, leaves_append a _ x,
        entryLeaves_append a b es]

end

/-- The place of a text among parameters begins at the top. -/
theorem exists_append_of_mem_leaves {v : Value} {place text : String}
    (h : (place, text) ∈ leaves Place.top v) : ∃ way, place = Place.top ++ way := by
  have htop : leaves Place.top v = behind Place.top (leaves "" v) := by
    have := leaves_append Place.top "" v
    rwa [String.append_empty] at this
  rw [htop] at h
  obtain ⟨l, -, hl⟩ := List.mem_map.mp h
  exact ⟨l.1, (congrArg Prod.fst hl).symm⟩

/-! ## Resolving -/

/-- **What resolving fails with.** Where the configuration says as a list, or does not say, which
suffixes archives have, each text resolves, fails with a failure of resolution or of a resource that
tells no place, or is obstructed. So do parameters, but that their failure tells the place of one of
their texts, which begins at the top, and that a key which cannot be written ends them too. -/
theorem resolve_fails_only {scope : Scope} (hp : Payload.Listed scope.project) :
    (∀ text, (∃ v, resolveText scope text = .ok v)
      ∨ (∃ c, resolveText scope text = .error (.failure ⟨c, none⟩) ∧ IsOwn c)
      ∨ ∃ f, resolveText scope text = .error (.fault f) ∧ Obstructs scope text f)
    ∧ ∀ params, (∃ v, resolve scope params = .ok v)
      ∨ (∃ c way text, resolve scope params = .error (.failure ⟨c, some (Place.top ++ way)⟩)
        ∧ (Place.top ++ way, text) ∈ leaves Place.top params ∧ IsOwn c)
      ∨ ∃ f, resolve scope params = .error (.fault f)
        ∧ ((∃ l ∈ leaves Place.top params, Obstructs scope l.2 f)
          ∨ ∃ k, .key k ∈ stops Place.top params ∧ k.isWritable = false ∧ f = .longInteger) := by
  refine ⟨resolveText_cases hp, fun params => ?_⟩
  cases hr : resolve scope params with
  | ok v => exact .inl ⟨v, rfl⟩
  | error h =>
      obtain ⟨before, s, rest, hstops, -, hs⟩ := resolve_eq_error_iff.mp hr
      have hmem : s ∈ stops Place.top params := by simp [hstops]
      refine .inr ?_
      cases (Stop.ends_iff hp).mpr hs with
      | @failure place text cause ht =>
          have hleaf : (place, text) ∈ leaves Place.top params := mem_leaves_iff.mpr hmem
          obtain ⟨way, rfl⟩ := exists_append_of_mem_leaves hleaf
          exact .inl ⟨cause, way, text, rfl, hleaf, isOwn_of_resolveText ht⟩
      | @fault place text f ht hf =>
          exact .inr ⟨f, rfl, .inl ⟨(place, text), mem_leaves_iff.mpr hmem, hf⟩⟩
      | @key k hk => exact .inr ⟨_, rfl, .inr ⟨k, hmem, hk, rfl⟩⟩

/-- Results with a byte string that encodes no text and a number that is undefined. -/
def unspeakableScope : Scope :=
  { echoScope with
    results := fun id =>
      if id = "r" then some (.map [(.text "b", .bytes [0xff]), (.text "n", .float .nan)]) else none }

theorem resolve_fails_only_unspeakable :
    Payload.Listed unspeakableScope.project
      ∧ (∃ c, resolveText unspeakableScope "<{r.n}>" = .error (.failure ⟨c, none⟩) ∧ IsOwn c)
      ∧ ∃ c way text, resolve unspeakableScope (nestedParams "{r.b}") =
          .error (.failure ⟨c, some (Place.top ++ way)⟩)
        ∧ (Place.top ++ way, text) ∈ leaves Place.top (nestedParams "{r.b}") ∧ IsOwn c := by
  have htext : resolveText unspeakableScope "<{r.n}>" =
      .error (.cause (.unrenderable .float .notFinite)) := by
    cbv
  have hparams : resolve unspeakableScope (nestedParams "{r.b}") =
      .error (.failure ⟨.binaryValue ⟨0, 1, 0xff, .start⟩, some "$[7][1]"⟩) := by
    cbv
  have hlisted : Payload.Listed unspeakableScope.project := listed_bare
  obtain ⟨htexts, hall⟩ := resolve_fails_only hlisted
  refine ⟨hlisted, ?_, ?_⟩
  · rcases htexts "<{r.n}>" with ⟨v, hv⟩ | hfailed | ⟨f, hf, -⟩
    · rw [htext] at hv
      cases hv
    · exact hfailed
    · rw [htext] at hf
      cases hf
  · rcases hall (nestedParams "{r.b}") with ⟨v, hv⟩ | hfailed | ⟨f, hf, -⟩
    · rw [hparams] at hv
      cases hv
    · exact hfailed
    · rw [hparams] at hf
      cases hf

/-- An index with too many digits, of a reference to an element that is there: the text ends with an
error that is no failure at all. -/
theorem resolveText_longIndex :
    Payload.Listed oneElementScope.project
      ∧ resolveText oneElementScope (zerosText 4300) = .ok (.text "v")
      ∧ resolveText oneElementScope (zerosText 4301) = .error (.fault (.longNumeral 4301)) :=
  ⟨listed_bare, (resolveText_zerosText 4300).1 (by decide) (by decide),
    (resolveText_zerosText 4301).2 (by decide)⟩

end Template

end CallPlan
