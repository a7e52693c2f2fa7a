import CallPlan.Archive.Checksum
import CallPlan.Archive.Deflate
import CallPlan.Calendar
import CallPlan.Text.Utf8

/-!
# ZIP archives

An archive is a row of files, each with its name, its time, its mode and its content, which
is stored as it is or deflated.

The bytes are, in this order: a header and the content of each file, the directory,
which repeats the headers together with the mode and the place of each file, and the
end record, which tells the size of the directory. They depend on the files only.
-/

namespace CallPlan.Archive

/-- How a content is kept. -/
inductive Method
  | stored
  | deflated
  deriving DecidableEq, Repr

def Method.number : Method → Nat
  | stored => 0
  | deflated => 8

def Method.pack (m : Method) (content : List UInt8) : List UInt8 :=
  match m with
  | stored => content
  | deflated => deflate content

/-- A file of an archive. The mode holds the kind of the file with its permissions. -/
structure Item where
  name : String
  time : DateTime
  method : Method
  mode : Nat
  content : List UInt8
  deriving DecidableEq, Repr

def regular : Nat := 0o100000

def earliest : DateTime := ⟨⟨1980, 1, 1⟩, ⟨0, 0, 0, 0, none⟩⟩

/-! ## Times

A time is a number of 32 bits: seven for the years since 1980, four for the month, five for
the day, five for the hour, six for the minute, and five for the second, which is even. -/

def stampOf (d : DateTime) : Nat :=
  ((((((d.date.year - 1980) * 16 + d.date.month) * 32 + d.date.day) * 32 + d.time.hour) * 64 +
    d.time.minute) * 32) + d.time.second / 2

/-! ## Writing -/

/-- A number in `width` bytes, the lowest first. -/
def little : (width n : Nat) → List UInt8
  | 0, _ => []
  | width + 1, n => UInt8.ofNat n :: little width (n / 256)

/-- A file with the form in which its content is kept. -/
structure Packed where
  item : Item
  data : List UInt8

def Item.pack (item : Item) : Packed :=
  ⟨item, item.method.pack item.content⟩

/-- What the header of a file and its entry in the directory have in common: the version
that can read it, the flag for names that are not ASCII, the method, the time, the
checksum, the sizes, and the length of the name. -/
def description (p : Packed) : List UInt8 :=
  let ascii := p.item.name.toList.all (·.toNat < 0x80)
  little 2 20 ++ little 2 (if ascii then 0 else 0x800) ++ little 2 p.item.method.number ++
    little 4 (stampOf p.item.time) ++
    little 4 (checksum p.item.content).toNat ++
    little 4 p.data.length ++ little 4 p.item.content.length ++
    little 2 (Text.Utf8.encode p.item.name).length

def fileBytes (p : Packed) : List UInt8 :=
  little 4 0x04034b50 ++ description p ++ little 2 0 ++
    Text.Utf8.encode p.item.name ++ p.data

def entryBytes (place : Nat) (p : Packed) : List UInt8 :=
  little 4 0x02014b50 ++ little 2 (20 + 3 * 256) ++ description p ++
    little 2 0 ++ little 2 0 ++ little 2 0 ++ little 2 0 ++
    little 4 (p.item.mode * 65536) ++ little 4 place ++ Text.Utf8.encode p.item.name

/-- The directory of files of which the first one stands at a place. -/
def directory : (place : Nat) → List Packed → List UInt8
  | _, [] => []
  | place, p :: ps => entryBytes place p ++ directory (place + (fileBytes p).length) ps

def write (items : List Item) : List UInt8 :=
  let packed := items.map Item.pack
  let files := packed.flatMap fileBytes
  let entries := directory 0 packed
  files ++ entries ++ little 4 0x06054b50 ++ little 2 0 ++ little 2 0 ++
    little 2 items.length ++ little 2 items.length ++
    little 4 entries.length ++ little 4 files.length ++ little 2 0

end CallPlan.Archive
