import CallPlan.Number.Numeral

/-!
# Options on a command line

A command line consists of options and other words. An option may be shortened as long
as only one option begins like that; its value is the next word or stands behind an
equals sign. A word that begins with a hyphen is an option unless it is a negative
number or has a blank in it, and behind a lone double hyphen no word is one. Every
command line knows the option that asks for help.
-/

namespace CallPlan.Cli

/-- Why a command line leads to no command. -/
inductive Refusal
  | help
  | usage
  deriving DecidableEq, Repr

def Refusal.exitCode : Refusal → Nat
  | help => 0
  | usage => 2

/-- What a word of a command line is. -/
inductive Word
  /-- No option. -/
  | plain (s : String)
  /-- The double hyphen that ends the options. -/
  | separator
  /-- The option for help; `valid` tells that nothing wrong is attached to it. -/
  | help (valid : Bool)
  /-- An option with a value, which may be attached to it. -/
  | option (name : String) (attached : Option String)
  /-- An option that does not exist. -/
  | unknown
  /-- The beginning of several options. -/
  | ambiguous
  deriving DecidableEq, Repr

def helpNames : List String := ["-h", "--help"]

/-- What stands behind the short option for help in one word asks for help again, letter
by letter, or is wrong. -/
def isHelpTail (cs : List Char) : Bool :=
  cs.all (· = 'h')

/-- What is attached to an option for help is wrong, unless it could as well stand directly
behind the short one. -/
def isHelpValue (name attached : String) : Bool :=
  name = "-h" && !attached.isEmpty && isHelpTail attached.toList

def named (name : String) (attached : Option String) : Word :=
  if name ∈ helpNames then .help (attached.all (isHelpValue name)) else .option name attached

def isDigits (cs : List Char) : Bool :=
  cs.all fun c => (Text.digit? c).isSome

/-- A negative number, given what stands behind its hyphen. -/
def isNegativeNumber (cs : List Char) : Bool :=
  let cs := match cs.reverse with
    | '\n' :: rest => rest.reverse
    | _ => cs
  let whole := cs.takeWhile (· ≠ '.')
  match cs.dropWhile (· ≠ '.') with
  | [] => !whole.isEmpty && isDigits whole
  | _ :: part => isDigits whole && !part.isEmpty && isDigits part

/-- The part of a word in front of an equals sign, and what is attached by it. -/
def attachment (cs : List Char) : String × Option String :=
  (String.ofList (cs.takeWhile (· ≠ '=')),
    match cs.dropWhile (· ≠ '=') with
    | [] => none
    | _ :: rest => some (String.ofList rest))

/-- What a word is, where `names` are the options with values. -/
def classify (names : List String) (arg : String) : Word :=
  let all := helpNames ++ names
  if arg ∈ all then named arg none
  else
    match arg.toList with
    | '-' :: c :: rest =>
      let (front, attached) := attachment ('-' :: c :: rest)
      if attached.isSome ∧ front ∈ all then named front attached
      else
        let found :=
          if c = '-' then
            match all.filter fun name => front.toList.isPrefixOf name.toList with
            | [] => none
            | [name] => some (named name attached)
            | _ => some .ambiguous
          else if c = 'h' then some (.help (isHelpTail rest))
          else none
        match found with
        | some w => w
        | none =>
          if isNegativeNumber (c :: rest) ∨ ' ' ∈ c :: rest then .plain arg else .unknown
    | _ => .plain arg

def words (names : List String) : List String → List Word
  | [] => []
  | arg :: args =>
    if arg = "--" then .separator :: args.map .plain
    else classify names arg :: words names args

/-! ## One file and options -/

/-- What has been read of a command line with one file and options. -/
structure Reading where
  file : Option String
  /-- The options in their order; the last value of an option counts. -/
  values : List (String × String)
  extra : Bool
  deriving DecidableEq, Repr

def Reading.value? (r : Reading) (name : String) : Option String :=
  (r.values.reverse.find? fun v => v.1 = name).map Prod.snd

/-- Reads words in their order; `accepts` tells which values an option takes. -/
def read (accepts : String → String → Bool) : Reading → List Word → Except Refusal Reading
  | r, [] => .ok r
  | r, .plain s :: .separator :: rest =>
    if r.file.isNone then read accepts { r with file := some s } rest
    else read accepts { r with extra := true } rest
  | r, .plain s :: rest =>
    if r.file.isNone then read accepts { r with file := some s } rest
    else read accepts { r with extra := true } rest
  | r, .separator :: .plain s :: rest =>
    if r.file.isNone then read accepts { r with file := some s } rest
    else read accepts { r with extra := true } rest
  | r, .separator :: rest => read accepts { r with extra := true } rest
  | _, .help valid :: _ => .error (if valid then .help else .usage)
  | r, .option name (some v) :: rest =>
    if accepts name v then read accepts { r with values := r.values ++ [(name, v)] } rest
    else .error .usage
  | r, .option name none :: .plain v :: rest =>
    if accepts name v then read accepts { r with values := r.values ++ [(name, v)] } rest
    else .error .usage
  | _, .option _ none :: _ => .error .usage
  | r, .unknown :: rest => read accepts { r with extra := true } rest
  | _, .ambiguous :: _ => .error .usage

/-- Reads a command line with one file and options. -/
def readLine (names : List String) (accepts : String → String → Bool) (args : List String) :
    Except Refusal Reading :=
  let ws := words names args
  if .ambiguous ∈ ws then .error .usage else read accepts ⟨none, [], false⟩ ws

end CallPlan.Cli
