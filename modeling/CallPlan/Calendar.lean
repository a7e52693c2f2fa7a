/-!
# Dates and times

Calendar dates, times of day and the two together, with a distance from
universal time where one is known. All of them have one written form, in which a
fraction of a second appears only when there is one, in six digits.
-/

namespace CallPlan

/-- A number in decimal, filled with zeros on the left up to `width` digits. -/
def padded (width n : Nat) : String :=
  let digits := Nat.toDigits 10 n
  String.ofList (List.replicate (width - digits.length) '0' ++ digits)

/-- A calendar date. -/
structure Date where
  year : Nat
  month : Nat
  day : Nat
  deriving DecidableEq, Repr

/-- A time of day. The offset is the distance from universal time in microseconds, east
positive; a local time has none. -/
structure ClockTime where
  hour : Nat
  minute : Nat
  second : Nat
  micro : Nat
  offset : Option Int
  deriving DecidableEq, Repr

/-- A time on a date. -/
structure DateTime where
  date : Date
  time : ClockTime
  deriving DecidableEq, Repr

namespace Date

def isLeap (year : Nat) : Bool :=
  year % 4 == 0 && (year % 100 != 0 || year % 400 == 0)

def daysIn (year month : Nat) : Nat :=
  if month = 2 then (if isLeap year then 29 else 28)
  else if month ∈ [4, 6, 9, 11] then 30 else 31

/-- The date exists: years 1 to 9999, months and days of the calendar. -/
def isValid (d : Date) : Bool :=
  1 ≤ d.year && d.year ≤ 9999 && 1 ≤ d.month && d.month ≤ 12 &&
    1 ≤ d.day && d.day ≤ daysIn d.year d.month

/-- The date with a number, counted from the first of January 1970. Years are counted
from March, so that a leap day is the last day of its year, and in cycles of 400. -/
def ofNumber (n : Nat) : Date :=
  let shifted := n + 719468
  let day := shifted % 146097
  let year := (day - day / 1460 + day / 36524 - day / 146096) / 365
  let ofYear := day - (365 * year + year / 4 - year / 100)
  let month := (5 * ofYear + 2) / 153
  let start := (153 * month + 2) / 5
  ⟨year + 400 * (shifted / 146097) + (if month < 10 then 0 else 1),
    if month < 10 then month + 3 else month - 9,
    ofYear - start + 1⟩

/-- The number of days from the beginning of March in the year 0 to the date. It counts
like `ofNumber`, from an earlier day. -/
def number (d : Date) : Nat :=
  let (year, month) := if d.month ≤ 2 then (d.year - 1, d.month + 9) else (d.year, d.month - 3)
  365 * year + year / 4 - year / 100 + year / 400 + (153 * month + 2) / 5 + d.day - 1

def iso (d : Date) : String :=
  s!"{padded 4 d.year}-{padded 2 d.month}-{padded 2 d.day}"

example : ofNumber 0 = ⟨1970, 1, 1⟩ := by decide
example : ofNumber 19782 = ⟨2024, 2, 29⟩ := by decide
example : ofNumber 19783 = ⟨2024, 3, 1⟩ := by decide
example : number (ofNumber 19782) = 719468 + 19782 := by decide
example : number (ofNumber 19783) = 719468 + 19783 := by decide

end Date

namespace ClockTime

def dayLength : Nat := 86400000000

/-- The time exists on a clock, and the offset is less than a day. -/
def isValid (t : ClockTime) : Bool :=
  t.hour < 24 && t.minute < 60 && t.second < 60 && t.micro < 1000000 &&
    (match t.offset with
      | none => true
      | some o => o.natAbs < dayLength)

def sinceMidnight (t : ClockTime) : Nat :=
  ((t.hour * 60 + t.minute) * 60 + t.second) * 1000000 + t.micro

/-- The microseconds since midnight in universal time, where the offset is known. They are
negative on the day before and reach a day's length on the day after. -/
def universal? (t : ClockTime) : Option Int :=
  t.offset.map fun o => t.sinceMidnight - o

/-- Two times are one moment of the day, and their fractions of a second are written alike.
A local time is so with itself only. -/
def sameMoment (s t : ClockTime) : Bool :=
  match s.universal?, t.universal? with
  | some m, some n => m == n && s.micro == t.micro
  | none, none => s == t
  | _, _ => false

/-- The written form of a fraction of a second, which is left out where it is zero. -/
def fractionText (micro : Nat) : String :=
  if micro = 0 then "" else "." ++ padded 6 micro

def offsetText : Option Int → String
  | none => ""
  | some o =>
    let n := o.natAbs / 1000000
    let fraction := fractionText (o.natAbs % 1000000)
    (if o < 0 then "-" else "+") ++ padded 2 (n / 3600) ++ ":" ++ padded 2 (n / 60 % 60) ++
      (if n % 60 = 0 ∧ fraction = "" then "" else ":" ++ padded 2 (n % 60) ++ fraction)

def isoWith (fraction : String) (t : ClockTime) : String :=
  s!"{padded 2 t.hour}:{padded 2 t.minute}:{padded 2 t.second}" ++ fraction ++ offsetText t.offset

def iso (t : ClockTime) : String :=
  t.isoWith (fractionText t.micro)

end ClockTime

namespace DateTime

/-- The universal time that is so many milliseconds after the beginning of 1970. -/
def ofMillis (n : Nat) : DateTime :=
  let seconds := n / 1000
  ⟨.ofNumber (seconds / 86400),
    ⟨seconds / 3600 % 24, seconds / 60 % 60, seconds % 60, n % 1000 * 1000, some 0⟩⟩

/-- The microseconds from the beginning of March in the year 0 in universal time, where the
offset is known. -/
def universal? (d : DateTime) : Option Int :=
  d.time.universal?.map (· + d.date.number * ClockTime.dayLength)

/-- Two times are one moment. A local time is so with itself only. -/
def sameMoment (c d : DateTime) : Bool :=
  match c.universal?, d.universal? with
  | some m, some n => m == n
  | none, none => c == d
  | _, _ => false

def iso (d : DateTime) : String :=
  d.date.iso ++ "T" ++ d.time.iso

/-- The written form with a space between date and time. -/
def spaced (d : DateTime) : String :=
  d.date.iso ++ " " ++ d.time.iso

/-- The written form cut to thousandths of a second. -/
def isoMillis (d : DateTime) : String :=
  d.date.iso ++ "T" ++ d.time.isoWith ("." ++ padded 3 (d.time.micro / 1000))

end DateTime

/-! ## Reading the written forms -/

namespace Calendar

/-- A number of exactly `width` digits at the head of a text, and what follows it. -/
def number? (width : Nat) (cs : List Char) : Option (Nat × List Char) :=
  let digits := cs.take width
  if digits.length = width && digits.all Char.isDigit then
    some (digits.foldl (fun n c => n * 10 + (c.toNat - 48)) 0, cs.drop width)
  else none

/-- A character at the head of a text, and what follows it. -/
def expect? (c : Char) : List Char → Option (List Char)
  | d :: rest => if c = d then some rest else none
  | [] => none

def date? (cs : List Char) : Option (Date × List Char) := do
  let (year, cs) ← number? 4 cs
  let (month, cs) ← number? 2 (← expect? '-' cs)
  let (day, cs) ← number? 2 (← expect? '-' cs)
  return (⟨year, month, day⟩, cs)

/-- The microseconds of a row of digits behind the point; digits after the sixth
are cut off. -/
def microOfDigits (digits : List Char) : Nat :=
  ((digits ++ List.replicate 6 '0').take 6).foldl (fun n c => n * 10 + (c.toNat - 48)) 0

/-- A fraction of a second at the head of a text; zero where there is none. -/
def fraction? (cs : List Char) : Option (Nat × List Char) :=
  match cs with
  | '.' :: rest =>
    let digits := rest.takeWhile Char.isDigit
    if digits.isEmpty then none else some (microOfDigits digits, rest.dropWhile Char.isDigit)
  | _ => some (0, cs)

/-- A time of day at the head of a text: hours, minutes, seconds and a fraction. -/
def clock? (cs : List Char) : Option (ClockTime × List Char) := do
  let (hour, cs) ← number? 2 cs
  let (minute, cs) ← number? 2 (← expect? ':' cs)
  let (second, cs) ← number? 2 (← expect? ':' cs)
  let (micro, cs) ← fraction? cs
  return (⟨hour, minute, second, micro, none⟩, cs)

/-- An offset at the head of a text: `Z` in either case, or a signed hour and minute of
a clock. A text that begins with neither has no offset. -/
def offset? (cs : List Char) : Option (Option Int × List Char) :=
  match cs with
  | 'Z' :: rest | 'z' :: rest => some (some 0, rest)
  | c :: rest =>
    if c = '+' ∨ c = '-' then do
      let (hour, rest) ← number? 2 rest
      let (minute, rest) ← number? 2 (← expect? ':' rest)
      let size : Int := (hour * 60 + minute) * 60000000
      if hour < 24 ∧ minute < 60 then
        return (some (if c = '-' then -size else size), rest)
      else none
    else some (none, cs)
  | [] => some (none, [])

end Calendar

end CallPlan
