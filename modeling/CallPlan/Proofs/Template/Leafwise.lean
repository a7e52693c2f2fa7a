import Mathlib
import CallPlan.Proofs.Template.Delivery
import CallPlan.Proofs.Template.Leaves
import CallPlan.Proofs.Template.Selection

/-!
# Parameters become what their texts become

Resolving parameters replaces each of their texts by what it resolves to and changes nothing else
but that tuples become lists (`Value.mapTexts`). It succeeds where all of the texts resolve and all
keys can be written, and otherwise ends as the first of these does at which resolving ends
(`resolve_leafwise`). A text that fails gives its failure its place.

But not every text that does not resolve fails. Where the configuration says as a list, or does not
say, which suffixes archives have, it fails or is obstructed (`resolveText_eq_error`), and then no
place is told: an index of more digits than can be read is enough (`resolveText_zerosText`).
-/

namespace CallPlan

open Sequencing

/-! ## Replacing the texts of a value -/

namespace Value

mutual

/-- The value with another value in place of each text, and lists in place of tuples. -/
def mapTexts (f : String → Value) : Value → Value
  | .text s => f s
  | .list xs => .list (mapItems f xs)
  | .tuple xs => .list (mapItems f xs)
  | .map es => .map (mapEntries f es)
  | v => v

def mapItems (f : String → Value) : List Value → List Value
  | [] => []
  | x :: xs => mapTexts f x :: mapItems f xs

def mapEntries (f : String → Value) : List (Value × Value) → List (Value × Value)
  | [] => []
  | (k, x) :: es => (k, mapTexts f x) :: mapEntries f es

end

variable {f : String → Value}

/-- Items stay where they are. -/
@[simp] theorem mapItems_eq_map (xs : List Value) : mapItems f xs = xs.map (mapTexts f) := by
  induction xs with
  | nil => rfl
  | cons x xs ih => rw [mapItems, ih, List.map_cons]

/-- Entries keep their keys and their order. -/
@[simp] theorem mapEntries_eq_map (es : List (Value × Value)) :
    mapEntries f es = es.map fun e => (e.1, mapTexts f e.2) := by
  induction es with
  | nil => rfl
  | cons e es ih => rw [mapEntries, ih, List.map_cons]

end Value

/-! ## Configurations that list suffixes -/

namespace Payload

/-- The configuration can be read, and where it has a setting for the suffixes of archives, that
is a list. -/
def Listed (project : Project) : Prop :=
  ∃ table, project = .settings table ∧
    ∀ x, Project.find? (Project.keys "payload.archive_extensions") (.table table) = some x →
      ∃ items, x = .list items

/-- The suffixes of such a configuration are known unless one that is listed cannot be written. -/
theorem archiveSuffixes_of_listed {project : Project} (h : Listed project) {f : Fault}
    (hf : archiveSuffixes project = .error f) : f = .longInteger := by
  have hplain {xs : List Value} (hxs : plainSuffixes xs = .error f) : f = .longInteger := by
    unfold plainSuffixes at hxs
    split at hxs <;> cases hxs
    rfl
  obtain ⟨table, rfl, hlist⟩ := h
  cases hfind : Project.find? (Project.keys "payload.archive_extensions") (.table table) with
  | none =>
      rw [archiveSuffixes, Project.setting_of_find?_eq_none hfind (by simp [Value.kind]), ok_bind]
        at hf
      exact hplain hf
  | some x =>
      obtain ⟨items, rfl⟩ := hlist x hfind
      simp only [archiveSuffixes, Project.setting, hfind, Value.ofToml, ok_bind] at hf
      exact hplain hf

end Payload

namespace Template

section

variable {scope : Scope}

/-! ## What is no failure of resolution -/

/-- The outcome of the text names files. -/
def NamesFiles (scope : Scope) (text : String) : Prop :=
  ∃ spliced raws, spliceText scope text = .ok spliced ∧ Payload.paths? spliced = .ok (some raws)

/-- What keeps a text from resolving without being a failure: an index with too many digits in one
of its references, or, where it names files, a working directory that is gone or a suffix among
those of archives that cannot be written. -/
inductive Obstructs (scope : Scope) (text : String) : Fault → Prop
  | longIndex {ts : List Token} {r : Reference} {digits : Nat} (read : tokenize text = .ok ts)
      (mem : .reference r ∈ ts) (long : LongIndex scope r digits) :
      Obstructs scope text (.longNumeral digits)
  | noBase {f : Fault} (names : NamesFiles scope text) (base : scope.base = .error f) :
      Obstructs scope text f
  | longSuffix (names : NamesFiles scope text)
      (suffixes : Payload.archiveSuffixes scope.project = .error .longInteger) :
      Obstructs scope text .longInteger

/-- A text that does not resolve has a failure, which tells no place yet, or is obstructed. -/
theorem resolveText_eq_error (hp : Payload.Listed scope.project) {text : String} {h : Halt}
    (he : resolveText scope text = .error h) :
    (∃ c, h = .cause c) ∨ ∃ f, h = .fault f ∧ Obstructs scope text f := by
  rcases resolveText_eq_error_iff.mp he with hs | ⟨s, hs, hd⟩
  · rcases failsOnly_spliceText text h hs with ⟨c, hc, -⟩ | ⟨digits, hf, ts, r, hts, hr, hlong⟩
    · exact .inl ⟨c, hc⟩
    · exact .inr ⟨_, hf, .longIndex hts hr hlong⟩
  · rcases deliver_eq_error hd with ⟨c, hc, -⟩ | ⟨f, raws, hf, hraws, hbase | hsuffixes⟩
    · exact .inl ⟨c, hc⟩
    · exact .inr ⟨f, hf, .noBase ⟨s, raws, hs, hraws⟩ hbase⟩
    · obtain rfl := Payload.archiveSuffixes_of_listed hp hsuffixes
      exact .inr ⟨_, hf, .longSuffix ⟨s, raws, hs, hraws⟩ hsuffixes⟩

/-! ## What parameters become -/

/-- What a text resolves to; a text that does not resolve stands for itself. -/
def resolved (scope : Scope) (text : String) : Value :=
  match resolveText scope text with
  | .ok v => v
  | .error _ => .text text

theorem resolved_of_ok {text : String} {v : Value} (h : resolveText scope text = .ok v) :
    resolved scope text = v := by
  rw [resolved, h]

mutual

/-- A value that resolves becomes what its texts become. -/
theorem eq_mapTexts_of_resolveAt {path : String} {v y : Value}
    (h : resolveAt scope path v = .ok y) : y = v.mapTexts (resolved scope) := by
  cases v with
  | text s => exact (resolved_of_ok (mapError_eq_ok_iff.mp h)).symm
  | list xs =>
      obtain ⟨ys, hys, rfl⟩ := map_eq_ok_iff.mp h
      rw [Value.mapTexts, eq_mapItems_of_resolveItems hys]
  | tuple xs =>
      obtain ⟨ys, hys, rfl⟩ := map_eq_ok_iff.mp h
      rw [Value.mapTexts, eq_mapItems_of_resolveItems hys]
  | map es =>
      obtain ⟨fs, hfs, rfl⟩ := map_eq_ok_iff.mp h
      rw [Value.mapTexts, eq_mapEntries_of_resolveEntries hfs]
  | _ => exact (Except.ok.inj h).symm

theorem eq_mapItems_of_resolveItems {path : String} {n : Nat} {xs ys : List Value}
    (h : resolveItems scope path n xs = .ok ys) : ys = Value.mapItems (resolved scope) xs := by
  cases xs with
  | nil => exact (Except.ok.inj h).symm
  | cons x xs =>
      obtain ⟨y, hy, h⟩ := bind_eq_ok_iff.mp h
      obtain ⟨ys', hys, h⟩ := bind_eq_ok_iff.mp h
      cases h
      rw [Value.mapItems, eq_mapTexts_of_resolveAt hy, eq_mapItems_of_resolveItems hys]

theorem eq_mapEntries_of_resolveEntries {path : String} {es fs : List (Value × Value)}
    (h : resolveEntries scope path es = .ok fs) :
    fs = Value.mapEntries (resolved scope) es := by
  cases es with
  | nil => exact (Except.ok.inj h).symm
  | cons e es =>
      obtain ⟨k, x⟩ := e
      rw [resolveEntries] at h
      split at h
      · obtain ⟨y, hy, h⟩ := bind_eq_ok_iff.mp h
        obtain ⟨fs', hfs, h⟩ := bind_eq_ok_iff.mp h
        cases h
        rw [Value.mapEntries, eq_mapTexts_of_resolveAt hy, eq_mapEntries_of_resolveEntries hfs]
      · cases h

end

theorem eq_of_resolve {params y : Value} (h : resolve scope params = .ok y) :
    y = params.mapTexts (resolved scope) :=
  eq_mapTexts_of_resolveAt h

namespace Stop

/-- Resolving goes on behind the stop: the text resolves, the key can be written. -/
def Passed (scope : Scope) : Stop → Prop
  | .text _ s => ∃ x, resolveText scope s = .ok x
  | .key k => k.isWritable = true

/-- Resolving ends at the stop. The failure of a text tells its place; what is no failure is left as
it is. -/
inductive Ends (scope : Scope) : Stop → Halt → Prop
  | failure {place s : String} {cause : Failure.Cause}
      (h : resolveText scope s = .error (.cause cause)) :
      Ends scope (.text place s) (.failure ⟨cause, some place⟩)
  | fault {place s : String} {f : Fault} (h : resolveText scope s = .error (.fault f))
      (obstructs : Obstructs scope s f) : Ends scope (.text place s) (.fault f)
  | key {k : Value} (h : k.isWritable = false) : Ends scope (.key k) (.fault .longInteger)

theorem passed_iff {s : Stop} : s.Passed scope ↔ s.pass scope = .ok () := by
  cases s with
  | text place t => exact pass_text_eq_ok_iff.symm
  | key k => cases hk : k.isWritable <;> simp [Passed, pass, hk]

theorem ends_iff (hp : Payload.Listed scope.project) {s : Stop} {h : Halt} :
    s.Ends scope h ↔ s.pass scope = .error h := by
  cases s with
  | key k =>
      rw [pass_key_eq_error_iff]
      exact ⟨fun | .key hk => ⟨hk, rfl⟩, fun ⟨hk, he⟩ => he ▸ .key hk⟩
  | text place t =>
      rw [pass_text_eq_error_iff]
      constructor
      · rintro (⟨ht⟩ | ⟨ht, -⟩)
        · exact ⟨_, ht, rfl⟩
        · exact ⟨_, ht, rfl⟩
      · rintro ⟨h', ht, rfl⟩
        rcases resolveText_eq_error hp ht with ⟨c, rfl⟩ | ⟨f, rfl, hf⟩
        · exact .failure ht
        · exact .fault ht hf

end Stop

/-- **Parameters resolve leaf by leaf.** They become themselves with each text replaced by what it
resolves to, if all texts resolve and all keys can be written. Otherwise they end as the first of
these does at which resolving ends: a text that fails gives its failure its place, but one that is
obstructed, or a key that cannot be written, ends resolving without telling any place. -/
theorem resolve_leafwise (hp : Payload.Listed scope.project) (params : Value) :
    (∀ y, resolve scope params = .ok y ↔
      (∀ s ∈ stops Place.top params, s.Passed scope) ∧ y = params.mapTexts (resolved scope))
    ∧ ∀ h, resolve scope params = .error h ↔
      ∃ before s rest, stops Place.top params = before ++ s :: rest
        ∧ (∀ s ∈ before, s.Passed scope) ∧ s.Ends scope h := by
  simp only [Stop.passed_iff, Stop.ends_iff hp]
  refine ⟨fun y => ⟨fun h => ?_, ?_⟩, fun h => resolve_eq_error_iff⟩
  · exact ⟨exists_resolve_eq_ok_iff.mp ⟨y, h⟩, eq_of_resolve h⟩
  · rintro ⟨hall, rfl⟩
    obtain ⟨y, hy⟩ := exists_resolve_eq_ok_iff.mpr hall
    rwa [← eq_of_resolve hy]

end

/-! ## A tree with a reference that leads nowhere -/

/-- Nothing has been published, and every variable has its own name as value. -/
def echoScope : Scope := ⟨fun _ => none, some, .empty, .ok ⟨.single, []⟩, .bare⟩

/-- A tuple below a text key, and what follows it below a number. -/
def nestedParams (last : String) : Value :=
  .map [(.text "a", .tuple [.int 1, .text "%X%"]), (.int 7, .list [.null, .text last])]

theorem listed_bare : Payload.Listed .bare :=
  ⟨[], rfl, fun x hx => by cases hx⟩

theorem stops_nestedParams (last : String) :
    stops Place.top (nestedParams last) =
      [.key (.text "a"), .text "$.a[1]" "%X%", .key (.int 7), .text "$[7][1]" last] := by
  cbv

theorem resolve_leafwise_nestedParams :
    Payload.Listed echoScope.project
      ∧ resolve echoScope (nestedParams "z") =
        .ok (.map [(.text "a", .list [.int 1, .text "X"]), (.int 7, .list [.null, .text "z"])])
      ∧ resolve echoScope (nestedParams "\x7bb.c\x7d") =
        .error (.failure ⟨.unpublished "b", some "$[7][1]"⟩) := by
  have hx : resolveText echoScope "%X%" = .ok (.text "X") := by cbv
  have hz : resolveText echoScope "z" = .ok (.text "z") := by cbv
  have hfails : resolveText echoScope "\x7bb.c\x7d" = .error (.cause (.unpublished "b")) := by cbv
  have hseven : Value.isWritable (.int 7) = true := by decide
  have hlisted : Payload.Listed echoScope.project := listed_bare
  obtain ⟨hresolves, -⟩ := resolve_leafwise hlisted (nestedParams "z")
  obtain ⟨-, hends⟩ := resolve_leafwise hlisted (nestedParams "\x7bb.c\x7d")
  refine ⟨listed_bare, (hresolves _).mpr ⟨?_, ?_⟩, (hends _).mpr
    ⟨[.key (.text "a"), .text "$.a[1]" "%X%", .key (.int 7)], _, [], stops_nestedParams _, ?_,
      .failure hfails⟩⟩
  · simp [stops_nestedParams, Stop.Passed, hx, hz, hseven]
  · simp [nestedParams, Value.mapTexts, resolved_of_ok hx, resolved_of_ok hz]
  · simp [Stop.Passed, hx, hseven]

/-! ## An index with too many digits -/

/-- A result whose field `f` has one element. -/
def oneElementScope : Scope :=
  { echoScope with
    results := fun id =>
      if id = "a" then some (.record [("f", .list [.record [("s", .text "v")]])]) else none }

def zeros (n : Nat) : String :=
  String.ofList (List.replicate n '0')

/-- The text that refers to this element, by an index of so many zeros. -/
def zerosText (n : Nat) : String :=
  Token.write [ofElement "a" "f" (.index (zeros n)) "s"]

example : zerosText 3 = "\x7ba.f[000].s\x7d" := by decide

theorem toList_zeros (n : Nat) : (zeros n).toList = List.replicate n '0' :=
  String.toList_ofList

theorem expand_zeros (scope : Scope) (n : Nat) : expand scope (zeros n) = .ok (zeros n) := by
  refine expand_of_not_mem scope ?_
  rw [toList_zeros]
  intro hpercent
  exact absurd (Numeral.isDigit_zeros _ hpercent) (by decide)

theorem index_zeros_of_lt {n : Nat} (h : Numeral.maxDigits < n) :
    index (zeros n) = .error (.longNumeral n) := by
  refine index_eq_error_iff.mpr ⟨n, ⟨?_, ?_, h⟩, rfl⟩
  · rw [toList_zeros]
    exact Numeral.isDigit_zeros
  · rw [toList_zeros, List.length_replicate]

theorem index_zeros_of_le {n : Nat} (hpos : n ≠ 0) (h : n ≤ Numeral.maxDigits) :
    index (zeros n) = .ok (some 0) := by
  have hne : List.replicate n '0' ≠ [] := by simpa using hpos
  have hdigits : (List.replicate n '0').all Char.isDigit = true :=
    List.all_eq_true.mpr Numeral.isDigit_zeros
  rw [index, toList_zeros, if_pos ⟨hne, hdigits⟩, List.length_replicate, if_pos h,
    Numeral.natOfDigits_zeros]

theorem leadsToItems_oneElementScope :
    LeadsToItems oneElementScope "a" "f" "s" "a" "f" "s" [.record [("s", .text "v")]] where
  id := by cbv
  field := by cbv
  sub := by cbv
  sequence := ⟨_, ⟨_, rfl, rfl⟩, rfl⟩

theorem spliceText_zerosText (n : Nat) :
    spliceText oneElementScope (zerosText n) =
      splice oneElementScope (ofElement "a" "f" (.index (zeros n)) "s") := by
  have ha : IsComponent "a" ∧ "a".toList.head? ≠ some '!' := by decide
  have hf : IsComponent "f" := by decide
  have hs : IsComponent "s" := by decide
  have hindex : (Selector.index (zeros n)).Readable := by
    intro c hc
    rw [toList_zeros] at hc
    rw [(List.mem_replicate.mp hc).2]
    decide
  have hreadable : (ofElement "a" "f" (.index (zeros n)) "s").Readable :=
    ⟨ha.1, ha.2, hf, fun | _, rfl => ⟨hindex, hs⟩⟩
  have hjoined : ∀ t ∈ Token.joined [ofElement "a" "f" (.index (zeros n)) "s"], t.Readable := by
    rw [joined_cons rfl]
    simpa [Token.joined] using hreadable
  rw [zerosText, spliceText_write hjoined, spliceAll, spliceAll]
  cases splice oneElementScope (ofElement "a" "f" (.index (zeros n)) "s") with
  | error halt => rfl
  | ok v => exact congrArg Except.ok (String.append_empty)

/-- Few zeros lead to the first element, and too many end resolving with an error that is no failure
of its own. -/
theorem resolveText_zerosText (n : Nat) :
    (n ≠ 0 → n ≤ Numeral.maxDigits →
      resolveText oneElementScope (zerosText n) = .ok (.text "v"))
    ∧ (Numeral.maxDigits < n →
      resolveText oneElementScope (zerosText n) = .error (.fault (.longNumeral n))) := by
  rw [resolveText, spliceText_zerosText]
  constructor
  · intro hpos hn
    rw [splice_byIndex leadsToItems_oneElementScope (expand_zeros _ n)
      (index_zeros_of_le hpos hn) rfl]
    rfl
  · intro hn
    rw [splice_ofElement leadsToItems_oneElementScope, select, expand_zeros]
    simp only [Except.mapError, ok_bind, elementAt, index_zeros_of_lt hn]
    rfl

/-- The first text of these parameters that does not resolve gives no place to the error. -/
theorem resolve_longIndex :
    Payload.Listed oneElementScope.project
      ∧ leaves Place.top (.record [("x", .text (zerosText 4301))]) = [("$.x", zerosText 4301)]
      ∧ resolve oneElementScope (.record [("x", .text (zerosText 4301))]) =
        .error (.fault (.longNumeral 4301)) := by
  have hlong := (resolveText_zerosText 4301).2 (by decide)
  have hstops : stops Place.top (.record [("x", .text (zerosText 4301))]) =
      [.key (.text "x"), .text "$.x" (zerosText 4301)] := rfl
  refine ⟨listed_bare, rfl,
    resolve_eq_error_iff.mpr ⟨[.key (.text "x")], _, [], hstops, ?_, ?_⟩⟩
  · simp [Stop.pass]
  · exact Stop.pass_text_eq_error_iff.mpr ⟨_, hlong, rfl⟩

end Template

end CallPlan
