import CallPlan.Template.Scope

/-!
# What the system tells

The system tells a program its environment and its clock as bytes. The environment is a
row of variables, each ended by a zero byte. The clock is told in two parts: the second
in which the system started, in a line of its own, and how long it has been running
since, in seconds with two decimal places.
-/

namespace CallPlan.Cli

def textOf (bytes : List UInt8) : String :=
  (Text.Utf8.decodeText bytes).toOption.getD ""

def assignment? (cs : List Char) : Option (String × String) :=
  match cs.dropWhile (· ≠ '=') with
  | [] => none
  | _ :: v => some (String.ofList (cs.takeWhile (· ≠ '=')), String.ofList v)

def environmentOf (bytes : List UInt8) : Environment :=
  (Path.pieces '\x00' (textOf bytes).toList).filterMap assignment?

/-- The number that a row of digits at the head of a text writes; zero where there is
none. -/
def numberAt (cs : List Char) : Nat :=
  Numeral.natOfDigits (cs.takeWhile Char.isDigit)

/-- The second in which the system started: the number in the line that begins with a
certain word. -/
def startSecond (bytes : List UInt8) : Nat :=
  let word := "btime ".toList
  match (Path.pieces '\n' (textOf bytes).toList).find? word.isPrefixOf with
  | some line => numberAt (line.drop word.length)
  | none => 0

/-- How many milliseconds the system has been running. -/
def uptimeMillis (bytes : List UInt8) : Nat :=
  let cs := (textOf bytes).toList
  numberAt cs * 1000 + numberAt ((cs.dropWhile (· ≠ '.')).drop 1) * 10

def timeOf (start uptime : List UInt8) : DateTime :=
  .ofMillis (startSecond start * 1000 + uptimeMillis uptime)

example : environmentOf "A=1\x00B=x=y\x00".toUTF8.data.toList = [("A", "1"), ("B", "x=y")] := by
  decide +kernel
example : (timeOf "cpu 1\nbtime 1704164640\n".toUTF8.data.toList
    "5.67 1.00\n".toUTF8.data.toList).isoMillis = "2024-01-02T03:04:05.670+00:00" := by
  decide +kernel

end CallPlan.Cli
