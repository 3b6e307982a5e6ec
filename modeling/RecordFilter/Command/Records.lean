import RecordFilter.Directory
import RecordFilter.Json.Reader
import RecordFilter.Text.Space

/-!
# Records — the values that the program tests

A source holds one JSON text, whose items are the records if it is an array, or one JSON text per
line. Lines that are blank are passed over, but they count.

* `InputError` — why a source gives no records.
* `splitLines` — the lines of some bytes.
* `readDocument`, `readLines` — the records of a source's bytes.
* `readFileRecords` — the records of a file.
-/

namespace RecordFilter.Command

open Text

/-- Why a source gives no records. -/
inductive InputError where
  /-- A file cannot be opened. -/
  | unopened (path : String) (fault : FileFault)
  /-- A source cannot be read to its end. -/
  | unreadable (source : String) (fault : FileFault)
  /-- A source holds no JSON text. -/
  | invalidDocument (source : String)
  /-- A line, counted from 1, holds no JSON text. -/
  | invalidLine (source : String) (number : Nat)
  deriving DecidableEq, Repr

/-- The wording of an error. -/
def InputError.message : InputError → String
  | unopened path fault => s!"Failed to open input file {path}: {fault.message}"
  | unreadable source fault => s!"Failed to read {source}: {fault.message}"
  | invalidDocument source => s!"Input error: {source}: invalid JSON"
  | invalidLine source number => s!"Input error: {source}:{number}: invalid JSON"

/-- The line feed. -/
def lineFeed : UInt8 := 10

/-- A line without the carriage return at its end. -/
def dropReturn (line : List UInt8) : List UInt8 :=
  if line.getLast? = some 13 then line.dropLast else line

/-- The lines of some bytes; `line` holds what has been read of the first one, the last byte first.
What follows the last line feed is a line if there is anything. -/
def splitLinesFrom (line : List UInt8) : List UInt8 → List (List UInt8)
  | [] => if line.isEmpty then [] else [line.reverse]
  | b :: rest =>
    if b = lineFeed then dropReturn line.reverse :: splitLinesFrom [] rest
    else splitLinesFrom (b :: line) rest

/-- The lines of some bytes, without what ends them. -/
def splitLines (bytes : List UInt8) : List (List UInt8) := splitLinesFrom [] bytes

/-- The records of a value: its items if it is an array, otherwise itself. -/
def recordsOf : Json → List Json
  | .array items => items
  | v => [v]

/-- The records of one JSON text. -/
def readDocument (source : String) (bytes : List UInt8) : Except InputError (List Json) :=
  match Utf8.decode bytes with
  | .error _ => .error (.invalidDocument source)
  | .ok text =>
    match Json.parse? text with
    | some v => .ok (recordsOf v)
    | none => .error (.invalidDocument source)

/-- The records of lines, the first of which has the given number. -/
def readLinesFrom (source : String) (number : Nat) :
    List (List UInt8) → Except InputError (List Json)
  | [] => .ok []
  | line :: rest =>
    match Utf8.decode line with
    | .error _ => .error (.unreadable source .notText)
    | .ok text =>
      if allBlank text then readLinesFrom source (number + 1) rest
      else match Json.parse? text with
        | none => .error (.invalidLine source number)
        | some v => (readLinesFrom source (number + 1) rest).map (v :: ·)

/-- The records of one JSON text per line. -/
def readLines (source : String) (bytes : List UInt8) : Except InputError (List Json) :=
  readLinesFrom source 1 (splitLines bytes)

/-- The records of a source's bytes. -/
def readRecords (lines : Bool) (source : String) (bytes : List UInt8) :
    Except InputError (List Json) :=
  if lines then readLines source bytes else readDocument source bytes

/-- The records of a file. A folder can be opened but not read. -/
def readFileRecords (d : Directory) (lines : Bool) (path : String) :
    Except InputError (List Json) :=
  match d.read path with
  | .ok bytes => readRecords lines path bytes
  | .error .folder =>
    .error (if lines then .unreadable path .folder else .invalidDocument path)
  | .error fault => .error (.unopened path fault)

end RecordFilter.Command
