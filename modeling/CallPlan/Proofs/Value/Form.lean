import CallPlan.Proofs.Number.Decimal
import CallPlan.Proofs.Value.Expressible

/-!
# Canonical text and equality

What a value says, apart from how it says it, is its form (`Value.form?`): JSON data in which
an object is told by the value of each name, so that the order of its members is no part of it.
Values that are built from texts, integers, whole decimals, byte strings, dates, rows and
mappings with text keys have a form. Where none of its integers is too long there is canonical
text, and two such values have one text exactly if they have one form (`text_eq_iff`).

One half is that normal data is in order: its objects have their members in strictly ascending
order of their names, so the form leaves nothing open (`eq_of_form_eq`). The other half is that
the dense text of such data can be read again (`Json.write_injective`).
-/

namespace CallPlan

open Sequencing

/-- JSON data whose objects have no order. -/
inductive Form
  | null
  | bool (b : Bool)
  | int (n : Int)
  | float (x : Binary64)
  | text (s : String)
  | list (items : List Form)
  | map (value? : String → Option Form)

/-- The form has no integer that is too long to be written. -/
inductive Form.Short : Form → Prop
  | null : Short .null
  | bool (b : Bool) : Short (.bool b)
  | int {n : Int} (h : Numeral.isWritable n = true) : Short (.int n)
  | float (x : Binary64) : Short (.float x)
  | text (s : String) : Short (.text s)
  | list {items : List Form} (h : ∀ f ∈ items, Short f) : Short (.list items)
  | map {value? : String → Option Form} (h : ∀ name f, value? name = some f → Short f) :
      Short (.map value?)

namespace Json

mutual

/-- The data without the order of the members of its objects. -/
def form : Json → Form
  | .null => .null
  | .bool b => .bool b
  | .int n => .int n
  | .float x => .float x
  | .text s => .text s
  | .list xs => .list (itemForms xs)
  | .object ms => .map (memberForm? ms)

def itemForms : List Json → List Form
  | [] => []
  | x :: xs => x.form :: itemForms xs

/-- What members have under a name. -/
def memberForm? : List (String × Json) → String → Option Form
  | [], _ => none
  | (key, x) :: ms, name => if key = name then some x.form else memberForm? ms name

end

theorem memberForm?_eq (ms : List (String × Json)) (name : String) :
    memberForm? ms name = (Fields.get? name ms).map form := by
  induction ms with
  | nil => rfl
  | cons m ms ih =>
      obtain ⟨key, x⟩ := m
      rw [memberForm?, Fields.get?, ih]
      split <;> rfl

/-! ## Data in order -/

/-- The members of every object are in strictly ascending order of their names, and there are
no binary numbers. -/
abbrev Ordered : Json → Prop :=
  Arranged (· < ·)

theorem Ordered.distinct {j : Json} (h : Ordered j) : Arranged (· ≠ ·) j :=
  h.mono fun _ _ hlt => String.ne_of_lt hlt

theorem itemForms_inj {xs ys : List Json}
    (ih : ∀ x ∈ xs, ∀ y, Ordered y → x.form = y.form → x = y) (hy : ∀ y ∈ ys, Ordered y)
    (h : itemForms xs = itemForms ys) : xs = ys := by
  induction xs generalizing ys with
  | nil =>
      cases ys with
      | nil => rfl
      | cons y ys => cases h
  | cons x xs ihs =>
      cases ys with
      | nil => cases h
      | cons y ys =>
          obtain ⟨hhead, htail⟩ := List.cons.inj h
          rw [List.forall_mem_cons] at ih hy
          rw [ih.1 y hy.1 hhead, ihs ih.2 hy.2 htail]

theorem get?_eq_of_memberForm?_eq {ms ms' : List (String × Json)}
    (ih : ∀ m ∈ ms, ∀ y, Ordered y → m.2.form = y.form → m.2 = y) (hy : ∀ m ∈ ms', Ordered m.2)
    (h : memberForm? ms = memberForm? ms') (name : String) :
    Fields.get? name ms = Fields.get? name ms' := by
  have hname := congrFun h name
  rw [memberForm?_eq, memberForm?_eq] at hname
  cases hx : Fields.get? name ms with
  | none =>
      rw [hx, Option.map_none, eq_comm, Option.map_eq_none_iff] at hname
      exact hname.symm
  | some x =>
      rw [hx, Option.map_some, eq_comm, Option.map_eq_some_iff] at hname
      obtain ⟨y, hget, hform⟩ := hname
      rw [hget]
      exact congrArg some (ih _ (Fields.mem_of_get?_eq_some hx) y
        (hy _ (Fields.mem_of_get?_eq_some hget)) hform.symm)

/-- Data in order is told by its form. -/
theorem eq_of_form_eq {j j' : Json} (h : Ordered j) (h' : Ordered j') (heq : j.form = j'.form) :
    j = j' := by
  induction h generalizing j' with
  | null | bool | int | text =>
      cases h' <;> cases heq
      rfl
  | list items ih =>
      cases h' with
      | list items' =>
          rw [form, form, Form.list.injEq] at heq
          rw [itemForms_inj (fun x hx y => ih x hx) items' heq]
      | _ => cases heq
  | object names values ih =>
      cases h' with
      | object names' values' =>
          rw [form, form, Form.map.injEq] at heq
          have hget := get?_eq_of_memberForm?_eq (fun m hm y => ih m hm) values' heq
          rw [Fields.eq_of_get?_eq (fun _ _ => String.lt_asymm) names names' hget]
      | _ => cases heq

theorem mem_itemForms {xs : List Json} {f : Form} :
    f ∈ itemForms xs ↔ ∃ x ∈ xs, x.form = f := by
  induction xs with
  | nil => simp [itemForms]
  | cons x xs ih => simp [itemForms, ih, eq_comm]

/-- What members have under a name is the form of one of them, and each has its form under its
name, if no name comes twice. -/
theorem memberForm?_eq_some_iff {ms : List (String × Json)}
    (names : (Fields.keys ms).Pairwise (· ≠ ·)) {name : String} {f : Form} :
    memberForm? ms name = some f ↔ ∃ x, (name, x) ∈ ms ∧ x.form = f := by
  rw [memberForm?_eq, Option.map_eq_some_iff]
  exact exists_congr fun x => and_congr_left fun _ =>
    ⟨Fields.mem_of_get?_eq_some, Fields.get?_eq_some_of_mem names⟩

/-- Whether data can be written is told by its form. -/
theorem isWritable_iff_short {j : Json} (h : Arranged (· ≠ ·) j) :
    j.isWritable = true ↔ j.form.Short := by
  induction h with
  | null => exact iff_of_true rfl (by rw [form]; exact .null)
  | bool b => exact iff_of_true rfl (by rw [form]; exact .bool b)
  | text s => exact iff_of_true rfl (by rw [form]; exact .text s)
  | int n =>
      rw [form, isWritable]
      constructor
      · exact .int
      · intro hshort
        cases hshort with
        | int h => exact h
  | list items ih =>
      rw [form, isWritable, itemsWritable_iff]
      constructor
      · intro hw
        refine .list fun f hf => ?_
        obtain ⟨x, hx, rfl⟩ := mem_itemForms.mp hf
        exact (ih x hx).mp (hw x hx)
      · intro hshort x hx
        cases hshort with
        | list h => exact (ih x hx).mpr (h _ (mem_itemForms.mpr ⟨x, hx, rfl⟩))
  | object names values ih =>
      rw [form, isWritable, membersWritable_iff]
      constructor
      · intro hw
        refine .map fun name f hf => ?_
        obtain ⟨x, hx, rfl⟩ := (memberForm?_eq_some_iff names).mp hf
        exact (ih _ hx).mp (hw _ hx)
      · intro hshort member hmember
        cases hshort with
        | map h =>
            exact (ih _ hmember).mpr
              (h _ _ ((memberForm?_eq_some_iff names).mpr ⟨member.2, hmember, rfl⟩))

end Json

/-! ## Forms of values -/

namespace Value

mutual

/-- What a value says, where it is built from what JSON data says exactly and its keys are
texts. A whole decimal says its integer, a byte string the text that it encodes or else its
base64 text, a date its written form, a tuple its items and a mapping the value of each key,
of keys that come more than once the last value. -/
def form? : Value → Option Form
  | .null => some .null
  | .bool b => some (.bool b)
  | .int n => some (.int n)
  | .decimal d => d.value?.bind fun q => if q.den = 1 then some (.int q.num) else none
  | .text s => some (.text s)
  | .bytes bs =>
    match Text.Utf8.decodeText bs with
    | .ok s => some (.text s)
    | .error _ => some (.text (Text.Base64.encodeText bs))
  | .date d => some (.text d.iso)
  | .dateTime d => some (.text d.iso)
  | .list xs => (itemForms? xs).map .list
  | .tuple xs => (itemForms? xs).map .list
  | .map es => (entryForms? es).map .map
  | _ => none

def itemForms? : List Value → Option (List Form)
  | [] => some []
  | x :: xs => do
    let f ← form? x
    let fs ← itemForms? xs
    return f :: fs

/-- What entries have under a name. -/
def entryForms? : List (Value × Value) → Option (String → Option Form)
  | [] => some fun _ => none
  | (.text key, x) :: es => do
    let f ← form? x
    let rest ← entryForms? es
    return fun name => (rest name).or (if key = name then some f else none)
  | _ :: _ => none

end

end Value

/-! ## Normal forms -/

namespace Canonical

open Value Json

/-- The value has a normal form, which is in order and says what the value says. -/
def Normalizes (v : Value) (f : Form) : Prop :=
  ∃ j, normal v = .ok j ∧ Ordered j ∧ j.form = f

/-- Keys that are texts are written as they are. -/
theorem keysWritable_of_entryForms? {es : List (Value × Value)} {g : String → Option Form}
    (h : entryForms? es = some g) : es.all (·.1.isWritable) = true := by
  induction es generalizing g with
  | nil => rfl
  | cons e es ih =>
      obtain ⟨k, x⟩ := e
      cases k with
      | text key =>
          obtain ⟨f, hf, h⟩ := Option.bind_eq_some_iff.mp h
          obtain ⟨rest, hrest, h⟩ := Option.bind_eq_some_iff.mp h
          rw [List.all_cons, ih hrest, isWritable_text]
          rfl
      | _ => cases h

theorem collect_map_ok (ms : List (String × Json)) :
    collect (ms.map fun m => (m.1, .ok m.2)) = .ok ms := by
  induction ms with
  | nil => rfl
  | cons m ms ih =>
      obtain ⟨name, j⟩ := m
      rw [List.map_cons, collect, ih]
      rfl

/-- Members whose values have a normal form become an object in order. -/
theorem members_map_ok {ms : List (String × Json)} (h : ∀ m ∈ ms, Ordered m.2) :
    ∃ j, members (ms.map fun m => (m.1, .ok m.2)) = .ok j ∧ Ordered j ∧
      j.form = .map fun name => (Fields.get? name ms.reverse).map Json.form := by
  let sorted := Sorting.sort (fun a b => Sorting.textLe a.1 b.1) ms
  have hget : ∀ name, Fields.get? name (Fields.distinct sorted) = Fields.get? name ms.reverse :=
    fun name => (Fields.get?_distinct name sorted).trans
      (Fields.get?_reverse_sort (fun k => by simp [Sorting.textLe]) name ms)
  have hle : (Fields.keys sorted).Pairwise (· ≤ ·) := by
    have hsorted := Sorting.pairwise_sort (fun a b => Sorting.textLe_total a.1 b.1)
      (fun a b c => Sorting.textLe_trans a.1 b.1 c.1) ms
    rw [Fields.keys, List.pairwise_map]
    exact hsorted.imp fun hab => by simpa [Sorting.textLe] using hab
  have hlt : (Fields.keys (Fields.distinct sorted)).Pairwise (· < ·) :=
    ((hle.sublist (Fields.keys_distinct_sublist sorted)).and
      (Fields.nodup_keys_distinct sorted)).imp fun h => Std.lt_of_le_of_ne h.1 h.2
  refine ⟨.object (Fields.distinct sorted), ?_, .object hlt ?_, ?_⟩
  · rw [members, Fields.sort_map, collect_map_ok]
    rfl
  · intro m hm
    have hfind := Fields.get?_eq_some_of_mem (Fields.nodup_keys_distinct sorted) hm
    rw [hget] at hfind
    exact h m (List.mem_reverse.mp (Fields.mem_of_get?_eq_some hfind))
  · rw [Json.form]
    congr 1
    funext name
    rw [memberForm?_eq, hget]

theorem form?_decimal_of_toInt? {d : Decimal} {n : Int} (h : d.toInt? = some n) :
    form? (.decimal d) = some (.int n) := by
  rw [form?, Decimal.toInt?_eq_some_iff.mp h, Option.bind_some, if_pos (Rat.den_intCast n),
    Rat.num_intCast]

theorem normalizes_decimal {d : Decimal} {f : Form} (h : form? (.decimal d) = some f) :
    Normalizes (.decimal d) f := by
  rw [form?, Option.bind_eq_some_iff] at h
  obtain ⟨q, hq, h⟩ := h
  split at h
  · next hint =>
    cases h
    rw [← Rat.coe_int_num_of_den_eq_one hint] at hq
    have hn : d.toInt? = some q.num := Decimal.toInt?_eq_some_iff.mpr hq
    have hfinite : d.isFinite = true := by cases d <;> first | rfl | cases hn
    refine ⟨.int q.num, ?_, .int _, by rw [Json.form]⟩
    rw [normal, decimal, if_pos hfinite, hn]
  · cases h

theorem normalizes_bytes {bs : List UInt8} {f : Form} (h : form? (.bytes bs) = some f) :
    Normalizes (.bytes bs) f := by
  refine ⟨_, rfl, .text _, ?_⟩
  rw [Json.form, binaryText]
  rw [form?] at h
  cases hd : Text.Utf8.decodeText bs <;> rw [hd] at h <;> exact Option.some.inj h

mutual

theorem normalizes_of_form? {v : Value} {f : Form} (h : form? v = some f) : Normalizes v f := by
  cases v with
  | null => cases h; exact ⟨_, rfl, .null, by rw [Json.form]⟩
  | bool b => cases h; exact ⟨_, rfl, .bool b, by rw [Json.form]⟩
  | int n => cases h; exact ⟨_, rfl, .int n, by rw [Json.form]⟩
  | decimal d => exact normalizes_decimal h
  | text s => cases h; exact ⟨_, rfl, .text s, by rw [Json.form]⟩
  | bytes bs => exact normalizes_bytes h
  | date d => cases h; exact ⟨_, rfl, .text _, by rw [Json.form]⟩
  | dateTime d => cases h; exact ⟨_, rfl, .text _, by rw [Json.form]⟩
  | list xs =>
      obtain ⟨fs, hfs, rfl⟩ := Option.map_eq_some_iff.mp h
      obtain ⟨js, hjs, hord, rfl⟩ := normalizes_items hfs
      exact ⟨.list js, map_eq_ok_iff.mpr ⟨js, hjs, rfl⟩, .list hord, by rw [Json.form]⟩
  | tuple xs =>
      obtain ⟨fs, hfs, rfl⟩ := Option.map_eq_some_iff.mp h
      obtain ⟨js, hjs, hord, rfl⟩ := normalizes_items hfs
      exact ⟨.list js, map_eq_ok_iff.mpr ⟨js, hjs, rfl⟩, .list hord, by rw [Json.form]⟩
  | map es =>
      obtain ⟨g, hg, rfl⟩ := Option.map_eq_some_iff.mp h
      obtain ⟨ms, hms, hord, hget⟩ := normalizes_entries hg
      obtain ⟨j, hj, hjord, hform⟩ := members_map_ok hord
      refine ⟨j, ?_, hjord, ?_⟩
      · rw [normal, if_pos (keysWritable_of_entryForms? hg), hms, hj]
      · rw [hform, funext hget]
  | _ => cases h

theorem normalizes_items {xs : List Value} {fs : List Form} (h : itemForms? xs = some fs) :
    ∃ js, normalItems xs = .ok js ∧ (∀ j ∈ js, Ordered j) ∧ itemForms js = fs := by
  cases xs with
  | nil => cases h; exact ⟨[], rfl, by simp, rfl⟩
  | cons x xs =>
      obtain ⟨f, hf, h⟩ := Option.bind_eq_some_iff.mp h
      obtain ⟨rest, hrest, h⟩ := Option.bind_eq_some_iff.mp h
      cases h
      obtain ⟨j, hj, hord, rfl⟩ := normalizes_of_form? hf
      obtain ⟨js, hjs, hords, rfl⟩ := normalizes_items hrest
      refine ⟨j :: js, ?_, List.forall_mem_cons.mpr ⟨hord, hords⟩, rfl⟩
      exact bind_eq_ok_iff.mpr ⟨j, hj, bind_eq_ok_iff.mpr ⟨js, hjs, rfl⟩⟩

theorem normalizes_entries {es : List (Value × Value)} {g : String → Option Form}
    (h : entryForms? es = some g) :
    ∃ ms : List (String × Json), normalEntries es = ms.map (fun m => (m.1, .ok m.2)) ∧
      (∀ m ∈ ms, Ordered m.2) ∧
      ∀ name, (Fields.get? name ms.reverse).map Json.form = g name := by
  cases es with
  | nil => cases h; exact ⟨[], rfl, by simp, fun _ => rfl⟩
  | cons e es =>
      obtain ⟨k, x⟩ := e
      cases k with
      | text key =>
          obtain ⟨f, hf, h⟩ := Option.bind_eq_some_iff.mp h
          obtain ⟨rest, hrest, h⟩ := Option.bind_eq_some_iff.mp h
          cases h
          obtain ⟨j, hj, hord, rfl⟩ := normalizes_of_form? hf
          obtain ⟨ms, hms, hords, hget⟩ := normalizes_entries hrest
          refine ⟨(key, j) :: ms, ?_, List.forall_mem_cons.mpr ⟨hord, hords⟩, fun name => ?_⟩
          · rw [normalEntries, plain_text, hj, hms, List.map_cons]
          · rw [List.reverse_cons, Fields.get?_append]
            change _ = (rest name).or _
            rw [← hget name]
            simp only [Fields.get?]
            cases Fields.get? name ms.reverse with
            | some y => rfl
            | none => split <;> rfl
      | _ => cases h

end

/-- A value with a form has canonical text exactly if its form is short. -/
theorem text_of_form? {v : Value} {f : Form} (h : v.form? = some f) :
    (f.Short → ∃ j, Ordered j ∧ j.form = f ∧ j.isWritable = true ∧
      text v = .ok (j.write .dense)) ∧
    (¬ f.Short → text v = .error .longInteger) := by
  obtain ⟨j, hj, hord, rfl⟩ := normalizes_of_form? h
  have hwritable := isWritable_iff_short hord.distinct
  constructor
  · intro hshort
    have hw := hwritable.mpr hshort
    exact ⟨j, hord, rfl, hw, text_eq_ok_iff.mpr ⟨j, hj, hw, rfl⟩⟩
  · intro hlong
    rw [text, hj]
    exact if_neg fun hw => hlong (hwritable.mp hw)

/-- **Canonical text and equality.** Two values with short forms have canonical text, and they have
one text exactly if they have one form. A value with another form has no canonical text, as it says
an integer that is too long. -/
theorem text_eq_iff {a b : Value} {f g : Form} (ha : a.form? = some f) (hb : b.form? = some g) :
    (f.Short → g.Short → ∃ s t, text a = .ok s ∧ text b = .ok t ∧ (s = t ↔ f = g)) ∧
    (¬ f.Short → text a = .error .longInteger) := by
  refine ⟨fun hf hg => ?_, (text_of_form? ha).2⟩
  obtain ⟨i, hi, rfl, hiw, htext⟩ := (text_of_form? ha).1 hf
  obtain ⟨j, hj, rfl, hjw, htext'⟩ := (text_of_form? hb).1 hg
  refine ⟨_, _, htext, htext', ?_, ?_⟩
  · intro heq
    rw [write_injective hi.distinct hj.distinct hiw hjw heq]
  · intro heq
    rw [eq_of_form_eq hi hj heq]

/-- A result as a service delivers it. -/
def delivered : Value :=
  .map [(.text "b", .tuple [.decimal (.finite false 20 (-1)), .bytes [0x6f, 0x6b]]),
    (.text "a", .date ⟨2024, 5, 1⟩)]

/-- The same result as a document writes it. -/
def written : Value :=
  .map [(.text "a", .text "2024-05-01"), (.text "b", .list [.int 2, .text "ok"])]

/-- What both say. -/
def said : Form :=
  .map fun name =>
    if name = "a" then some (.text "2024-05-01")
    else if name = "b" then some (.list [.int 2, .text "ok"])
    else none

theorem short_said : said.Short := by
  refine .map fun name f hf => ?_
  split at hf
  · cases hf
    exact .text _
  · split at hf
    · cases hf
      refine .list fun item hitem => ?_
      rcases List.mem_pair.mp hitem with rfl | rfl
      · exact .int (by decide)
      · exact .text _
    · cases hf

theorem text_delivered_written :
    delivered.form? = some said ∧ written.form? = some said ∧ said.Short ∧
      ∃ s t, text delivered = .ok s ∧ text written = .ok t ∧ (s = t ↔ said = said) := by
  have hwhole : (Decimal.finite false 20 (-1)).value? = some ((2 : Int) : ℚ) :=
    Decimal.toInt?_eq_some_iff.mp (by decide)
  have hbytes : Text.Utf8.decodeText [0x6f, 0x6b] = .ok "ok" := by decide +kernel
  have hdate : Date.iso ⟨2024, 5, 1⟩ = "2024-05-01" := by decide
  have hdelivered : delivered.form? = some said := by
    simp only [delivered, form?, entryForms?, itemForms?, hwhole, hbytes, hdate,
      Option.bind_eq_bind, Option.bind_some, Rat.den_intCast, Rat.num_intCast, if_true]
    change some (Form.map _) = some (Form.map _)
    congr 2
    funext name
    grind
  have hwritten : written.form? = some said := by
    change some (Form.map _) = some (Form.map _)
    congr 2
    funext name
    grind
  exact ⟨hdelivered, hwritten, short_said,
    (text_eq_iff hdelivered hwritten).1 short_said short_said⟩

/-- A decimal of one digit more than can be written has a form, but no canonical text. -/
theorem text_long_decimal :
    (Value.decimal (.finite false 1 4300)).form? =
        some (.int ((10 ^ Numeral.maxDigits : Nat) : Int)) ∧
      text (.decimal (.finite false 1 4300)) = .error .longInteger := by
  have hform : (Value.decimal (.finite false 1 Numeral.maxDigits)).form? =
      some (.int ((10 ^ Numeral.maxDigits : Nat) : Int)) :=
    form?_decimal_of_toInt? (Decimal.toInt?_pow _)
  refine ⟨hform, (text_of_form? hform).2 fun hshort => ?_⟩
  cases hshort with
  | int h => exact absurd (Numeral.not_isWritable_pow.symm.trans h) (by decide)

end Canonical

end CallPlan
