import RecordFilter.Settings.File

/-!
# Loading settings — where settings come from

From the usual values up, each source over the ones before it: the first settings file that is
found, a file that is named, the environment. A file sets what differs in it from
the usual values; a variable sets its value whatever it is.

* `Settings.merge` — what a file sets.
* `Settings.readFile`, `Settings.save` — a settings file, read and written.
* `Surroundings`, `Settings.load` — what the program runs in, and the settings that it gives.
-/

namespace RecordFilter

open Number

/-- What the program runs in. -/
structure Surroundings where
  directory : Directory
  /-- The variables that are set, with their values. -/
  environment : List (String × String) := []
  /-- The folder for the user's settings files, if there is one. -/
  userFolder : Option String := none
  /-- What the program is given to read. -/
  input : List UInt8 := []

namespace Settings

/-- The settings with those of a file put over them, as far as they differ from the usual ones. -/
def merge (s file : Settings) : Settings :=
  let usual : Settings := {}
  { logLevel := file.logLevel.or s.logLevel
    maxDepth := if file.maxDepth = usual.maxDepth then s.maxDepth else file.maxDepth
    urlEncode := if file.urlEncode = usual.urlEncode then s.urlEncode else file.urlEncode
    pretty := if file.pretty = usual.pretty then s.pretty else file.pretty }

/-- The settings of a file. -/
def readFile (d : Directory) (path : String) : Except SettingsError Settings :=
  if extension? path ≠ some "toml" then .error (.unknownFormat path)
  else match d.readText path with
    | .error fault => .error (.unreadable path fault)
    | .ok text =>
      match ofToml? text with
      | some s => .ok s
      | none => .error .noSettings

/-- The settings with those of a file put over them. -/
def mergeFile (s : Settings) (d : Directory) (path : String) : Except SettingsError Settings :=
  (readFile d path).map s.merge

/-- The settings with those of a file put over them, if there is a file. -/
def mergeFile? (s : Settings) (d : Directory) : Option String → Except SettingsError Settings
  | some path => s.mergeFile d path
  | none => .ok s

/-- The settings of a file, over the usual ones. -/
def ofFile (d : Directory) (path : String) : Except SettingsError Settings :=
  mergeFile {} d path

/-- The directory with the settings written to a file. A file without extension has the one
format there is. -/
def save (s : Settings) (d : Directory) (path : String) : Except SettingsError Directory :=
  if (extension? path).getD "toml" ≠ "toml" then .error .unknownTargetFormat
  else (d.write path (Text.Utf8.encode s.toToml)).mapError .unwritable

/-- The places where a settings file is looked for: the folder that the program runs in and the
folder for the user's settings files. -/
def searched (w : Surroundings) : List String :=
  ["sift.toml", ".sift.toml"].map (fun name => placeText (w.directory.here ++ [name]))
    ++ (w.userFolder.map (· ++ "/sift/sift.toml")).toList

/-- The first settings file that is found. -/
def found? (w : Surroundings) : Option String :=
  (searched w).find? fun path => w.directory.holds path

/-- Whether the value of a variable means yes: anything but `0` and `false` does. -/
def isYes (value : String) : Bool :=
  value != "0" && value.toList.map Char.toLower != "false".toList

/-- The settings with those of the environment put over them. A depth that is no number stands for
the usual one. -/
def withEnvironment (s : Settings) (environment : List (String × String)) : Settings :=
  let usual : Settings := {}
  { s with
    urlEncode := ((environment.lookup "SIFT_URL_ENCODE").map isYes).getD s.urlEncode
    maxDepth := ((environment.lookup "SIFT_MAX_DEPTH").map fun value =>
      (word64? value.toList).getD usual.maxDepth).getD s.maxDepth
    logLevel := (environment.lookup "SIFT_LOG").or s.logLevel }

/-- The settings that the surroundings and a file named by the user give. -/
def load (w : Surroundings) (named : Option String) : Except SettingsError Settings := do
  let s ← mergeFile? {} w.directory (found? w)
  let s ← s.mergeFile? w.directory named
  return s.withEnvironment w.environment

/-- The settings with the depth that was asked for, if one was. -/
def withDepth (s : Settings) (depth : Option UInt64) : Settings :=
  { s with maxDepth := depth.getD s.maxDepth }

end Settings

end RecordFilter
