import RecordFilter.Text.Utf8

/-!
# Directory — the files that the program sees

Files and folders, each at the names that lead to it from the outermost folder, and the folder that
the program runs in. A text names a place by the names between its slashes, from the outermost
folder if it begins with a slash; `.` and nothing stay where they are, `..` goes up, and every name
but the last has to be a folder's.

* `Directory`, `FileFault` — the files, and why one cannot be used.
* `Directory.read`, `Directory.readText`, `Directory.holds` — looking at a place.
* `Directory.write` — a file put at a place.
* `extension?` — what follows the last point of a file's name.
-/

namespace RecordFilter

open Text

/-- What stands at a place. -/
inductive Entry where
  | file (content : List UInt8)
  | folder
  deriving DecidableEq, Repr

/-- The places where something stands. A folder that something lies in need not be listed. -/
structure Directory where
  /-- The names that lead to the folder that the program runs in. -/
  here : List String := []
  entries : List (List String × Entry)
  deriving DecidableEq, Repr

/-- Why a file cannot be used. -/
inductive FileFault where
  /-- Nothing stands there. -/
  | missing
  /-- On the way stands a file where a folder is needed. -/
  | notFolder
  /-- A folder stands there. -/
  | folder
  /-- The text that names the place, or a name in it, is too long. -/
  | tooLong
  /-- The text that names the place holds the character with the code point zero. -/
  | zeroCharacter
  /-- The bytes are no text. -/
  | notText
  deriving DecidableEq, Repr

/-- The wording of a fault. -/
def FileFault.message : FileFault → String
  | missing => "No such file or directory (os error 2)"
  | notFolder => "Not a directory (os error 20)"
  | folder => "Is a directory (os error 21)"
  | tooLong => "File name too long (os error 36)"
  | zeroCharacter => "file name contained an unexpected NUL byte"
  | notText => "stream did not contain valid UTF-8"

/-- The most bytes of a name. -/
def nameLimit : Nat := 255

/-- The most bytes of a text that names a place. -/
def pathLimit : Nat := 4095

/-- The text that leads to a place from the outermost folder. -/
def placeText (place : List String) : String := "/" ++ "/".intercalate place

namespace Directory

/-- What stands at a place. -/
def entry? (d : Directory) (place : List String) : Option Entry :=
  if place.isPrefixOf d.here then some .folder
  else (d.entries.lookup place).or
    (if d.entries.any fun e => place.isPrefixOf e.1 then some .folder else none)

/-- The place that names lead to from another one. Nothing need stand there. -/
def walk (d : Directory) (place : List String) : List String → Except FileFault (List String)
  | [] => .ok place
  | name :: rest =>
    match d.entry? place with
    | none => .error .missing
    | some (.file _) => .error .notFolder
    | some .folder =>
      if name = "" ∨ name = "." then d.walk place rest
      else if name = ".." then d.walk place.dropLast rest
      else if nameLimit < name.utf8ByteSize then .error .tooLong
      else d.walk (place ++ [name]) rest

/-- The names in a text that names a place. -/
def names (path : String) : Except FileFault (List String) :=
  if path.toList.contains '\x00' then .error .zeroCharacter
  else if path.isEmpty then .error .missing
  else if pathLimit < path.utf8ByteSize then .error .tooLong
  else .ok (path.splitOn "/")

/-- Where the names in a text begin. -/
def origin (d : Directory) (path : String) : List String :=
  if path.startsWith "/" then [] else d.here

/-- The place that a text names. -/
def locate (d : Directory) (path : String) : Except FileFault (List String) := do
  d.walk (d.origin path) (← names path)

/-- The content of a file. -/
def read (d : Directory) (path : String) : Except FileFault (List UInt8) := do
  match d.entry? (← d.locate path) with
  | some (.file content) => return content
  | some .folder => throw .folder
  | none => throw .missing

/-- The content of a file as text. -/
def readText (d : Directory) (path : String) : Except FileFault String := do
  match Utf8.decode (← d.read path) with
  | .ok text => return text
  | .error _ => throw .notText

/-- Whether anything stands at a place. -/
def holds (d : Directory) (path : String) : Bool :=
  match d.locate path with
  | .ok place => (d.entry? place).isSome
  | .error _ => false

/-- The names without the empty ones at the end. -/
def dropSlashes (names : List String) : List String :=
  (names.reverse.dropWhile String.isEmpty).reverse

/-- The place that a text names for a file to be put there. A slash at the end names a folder, even
where nothing stands. -/
def locateNew (d : Directory) (path : String) : Except FileFault (List String) := do
  let all ← names path
  let proper := dropSlashes all
  match proper.getLast? with
  | none | some "." | some ".." => d.walk (d.origin path) all
  | some _ =>
    if proper = all then d.walk (d.origin path) all
    else do
      let _ ← d.walk (d.origin path) (proper.dropLast ++ [""])
      throw .folder

/-- The entries with one set. -/
def setEntry (place : List String) (e : Entry) :
    List (List String × Entry) → List (List String × Entry)
  | [] => [(place, e)]
  | (p, f) :: rest => if p = place then (p, e) :: rest else (p, f) :: setEntry place e rest

/-- The directory with a file put at a place, in the stead of a file that stands there. -/
def write (d : Directory) (path : String) (content : List UInt8) : Except FileFault Directory := do
  let place ← d.locateNew path
  match d.entry? place with
  | some .folder => throw .folder
  | _ => return { d with entries := setEntry place (.file content) d.entries }

/-- The files that one directory holds and another one does not hold with the same content, with
their places. -/
def changes (before after : Directory) : List (List String × List UInt8) :=
  after.entries.filterMap fun (place, e) =>
    match e with
    | .file content => if before.entries.lookup place = some e then none else some (place, content)
    | .folder => none

end Directory

/-- The names of a path that say something about its last one. -/
def properNames (path : String) : List String :=
  (path.splitOn "/").filter fun name => name != "" && name != "."

/-- What follows the last point of a file's name, unless the point begins the name. -/
def extension? (path : String) : Option String :=
  match (properNames path).getLast? with
  | none | some ".." => none
  | some name =>
    let reversed := name.toList.reverse
    match reversed.dropWhile (· != '.') with
    | '.' :: _ :: _ => some (String.ofList (reversed.takeWhile (· != '.')).reverse)
    | _ => none

end RecordFilter
