import CallPlan.Failure
import CallPlan.Template.Token

/-!
# Reading templates

A brace opens a directive, which ends at the next closing brace; with an exclamation
mark behind it the brace is literal. Outside of directives a name between two percent
signs is a variable. Everything else is literal text, and no token stands for an empty
text.

The reader goes from left to right and fails at the first directive that does not end
or cannot be understood. It sees the template only, never the values that references
stand for, so these cannot open directives of their own.
-/

namespace CallPlan

namespace Template

/-- What stands in front of the first `stop`, and what stands behind it. -/
def cut? (stop : Char) : List Char → Option (List Char × List Char)
  | [] => none
  | c :: rest =>
    if c = stop then some ([], rest)
    else (cut? stop rest).map fun (front, behind) => (c :: front, behind)

theorem eq_of_cut? {stop : Char} {cs front behind : List Char}
    (h : cut? stop cs = some (front, behind)) :
    cs = front ++ stop :: behind ∧ stop ∉ front := by
  induction cs generalizing front with
  | nil => simp [cut?] at h
  | cons c rest ih =>
    rw [cut?] at h
    split at h
    · next hc => cases h; simp [hc]
    · next hc =>
      obtain ⟨⟨f, b⟩, hf, he⟩ := Option.map_eq_some_iff.mp h
      cases he
      obtain ⟨rfl, hn⟩ := ih hf
      exact ⟨rfl, by simp [hn, Ne.symm hc]⟩

theorem cut?_append {stop : Char} {front : List Char} (h : stop ∉ front) (behind : List Char) :
    cut? stop (front ++ stop :: behind) = some (front, behind) := by
  induction front with
  | nil => simp [cut?]
  | cons c front ih =>
    simp only [List.mem_cons, not_or] at h
    simp [cut?, Ne.symm h.1, ih h.2]

theorem cut?_eq_none_iff {stop : Char} {cs : List Char} : cut? stop cs = none ↔ stop ∉ cs := by
  induction cs with
  | nil => simp [cut?]
  | cons c rest ih =>
    rw [cut?]
    split
    · next h => simp [h]
    · next h => simp [ih, Ne.symm h]

theorem length_lt_of_cut? {stop : Char} {cs front behind : List Char}
    (h : cut? stop cs = some (front, behind)) : behind.length < cs.length := by
  rw [(eq_of_cut? h).1]
  simp only [List.length_append, List.length_cons]
  omega

/-! ## Variables -/

/-- A character that may begin a variable's name. -/
def startsName (c : Char) : Bool :=
  c.isAlpha || c = '_'

/-- A character that may stand in a variable's name. -/
def continuesName (c : Char) : Bool :=
  c.isAlphanum || c = '_'

def isName : List Char → Bool
  | [] => false
  | c :: rest => startsName c && rest.all continuesName

/-- The name of a variable whose first percent sign has been read, and what follows
its second one. -/
def name? (cs : List Char) : Option (List Char × List Char) :=
  (cut? '%' cs).filter fun (name, _) => isName name

theorem length_lt_of_name? {cs name behind : List Char}
    (h : name? cs = some (name, behind)) : behind.length < cs.length :=
  length_lt_of_cut? (Option.filter_eq_some_iff.mp h).1

/-! ## Directives -/

/-- A part of a reference: it is not empty and has neither points nor brackets. -/
def isPart (cs : List Char) : Bool :=
  !cs.isEmpty && cs.all fun c => c ≠ '.' && c ≠ '[' && c ≠ ']'

def parts? (cs : List Char) : Option (List Char × List Char) :=
  (cut? '.' cs).filter fun (a, b) => isPart a && isPart b

/-- What stands between brackets. A dollar sign makes it a key and a value, with
another such sign between them; what stands in front of the first sign means nothing. -/
def selector? (inner : List Char) : Option Selector :=
  match cut? '$' inner with
  | none => some (.index (String.ofList inner))
  | some (_, behind) =>
    match cut? '$' behind with
    | some ([], _) | none => none
    | some (key, wanted) => some (.entry (String.ofList key) (String.ofList wanted))

def sub? : List Char → Option String
  | '.' :: sub => if isPart sub then some (String.ofList sub) else none
  | _ => none

def reference? (body : List Char) : Option Reference :=
  match cut? '[' body with
  | none => (parts? body).map fun (id, field) =>
    ⟨String.ofList id, String.ofList field, none⟩
  | some (front, behind) => do
    let (id, field) ← parts? front
    let (inner, tail) ← cut? ']' behind
    if '[' ∈ inner then none
    else
      let selector ← selector? inner
      let sub ← sub? tail
      return ⟨String.ofList id, String.ofList field, some (selector, sub)⟩

def bracedName? : List Char → Option String
  | '%' :: rest =>
    match name? rest with
    | some (name, []) => some (String.ofList name)
    | _ => none
  | _ => none

/-- The token that a directive is, given the text between its braces. -/
def directive (body : List Char) : Except Failure.Cause Token :=
  match bracedName? body with
  | some name => .ok (.env name true)
  | none =>
    match reference? body with
    | some r => .ok (.reference r)
    | none => .error (.malformed (String.ofList body))

/-! ## Templates -/

/-- Puts a literal character in front of tokens. -/
def push (c : Char) : List Token → List Token
  | .literal text :: ts => .literal (String.ofList (c :: text.toList)) :: ts
  | ts => .literal (String.ofList [c]) :: ts

def tokens : List Char → Except Failure.Cause (List Token)
  | [] => .ok []
  | '\x7b' :: '!' :: rest => (tokens rest).map (push '\x7b')
  | '\x7b' :: rest =>
    match _h : cut? '\x7d' rest with
    | none => .error (.unterminated (String.ofList ('\x7b' :: rest)))
    | some (body, behind) => do
      let t ← directive body
      let ts ← tokens behind
      return t :: ts
  | '%' :: rest =>
    match _h : name? rest with
    | none => (tokens rest).map (push '%')
    | some (name, behind) => do
      let ts ← tokens behind
      return .env (String.ofList name) false :: ts
  | c :: rest => (tokens rest).map (push c)
termination_by cs => cs.length
decreasing_by
  · simp only [List.length_cons]; omega
  · have := length_lt_of_cut? _h; simp only [List.length_cons]; omega
  · simp only [List.length_cons]; omega
  · have := length_lt_of_name? _h; simp only [List.length_cons]; omega
  · simp only [List.length_cons]; omega

def tokenize (text : String) : Except Failure.Cause (List Token) :=
  tokens text.toList

def hasMarkers (text : String) : Bool :=
  text.toList.any fun c => c = '\x7b' || c = '%'

example : (tokenize "a\x7b!b%C%").toOption =
    some [.literal "a\x7bb", .env "C" false] := by cbv
example : (tokenize "\x7br.f[0].g\x7d").toOption =
    some [.reference ⟨"r", "f", some (.index "0", "g")⟩] := by cbv
example : (tokenize "\x7br.f[x$k$v].g\x7d").toOption =
    some [.reference ⟨"r", "f", some (.entry "k" "v", "g")⟩] := by cbv
example : (tokenize "\x7bx").toOption = none := by cbv

end Template

end CallPlan
