import RecordFilter.Directory

/-!
# Settings — what a user can set

How deeply groups may be nested, whether filters are written percent-encoded, whether JSON is set
out over several lines, and how much is logged.

* `Settings` — the settings; the values given here hold where nothing else is set.
* `LogLevel` — how much is logged.
* `SettingsError` — why settings cannot be read, written or used.
* `Settings.check` — whether settings can be used.
-/

namespace RecordFilter

/-- What a user can set. -/
structure Settings where
  logLevel : Option String := none
  maxDepth : UInt64 := 64
  urlEncode : Bool := false
  pretty : Bool := true
  deriving DecidableEq, Repr

/-- How much is logged. -/
inductive LogLevel where
  | off
  | error
  | warn
  | info
  | debug
  | trace
  deriving DecidableEq, Repr

namespace LogLevel

/-- The level as it is written. -/
def name : LogLevel → String
  | off => "OFF"
  | error => "ERROR"
  | warn => "WARN"
  | info => "INFO"
  | debug => "DEBUG"
  | trace => "TRACE"

/-- Every level. -/
def all : List LogLevel := [off, error, warn, info, debug, trace]

/-- The level of a name; the case of its letters does not matter. -/
def ofName? (name : String) : Option LogLevel :=
  all.find? fun level => level.name.toList == name.toList.map Char.toUpper

end LogLevel

/-- Why settings cannot be read, written or used. -/
inductive SettingsError where
  /-- A file to read has another extension than that of its format. -/
  | unknownFormat (path : String)
  /-- A file to write has another extension than that of its format. -/
  | unknownTargetFormat
  /-- A file cannot be read. -/
  | unreadable (path : String) (fault : FileFault)
  /-- A file cannot be written. -/
  | unwritable (fault : FileFault)
  /-- The text of a file spells no settings. -/
  | noSettings
  /-- No group would be allowed. -/
  | zeroDepth
  /-- Groups would be allowed to be nested too deeply. -/
  | excessiveDepth (depth : UInt64)
  /-- A name is that of no log level. -/
  | unknownLevel (name : String)
  deriving DecidableEq, Repr

/-- The depth to which a user may allow groups to be nested. -/
def Settings.depthLimit : UInt64 := 4096

/-- The wording of an error. -/
def SettingsError.message (e : SettingsError) : String :=
  "Configuration error: " ++
    match e with
    | unknownFormat path => s!"Unsupported config file format: {path}"
    | unknownTargetFormat => "Unsupported config file format"
    | unreadable path fault => s!"Failed to read config file {path}: {fault.message}"
    | unwritable fault => s!"Failed to write config file: {fault.message}"
    | noSettings => "Invalid TOML config"
    | zeroDepth => "Max depth must be greater than 0"
    | excessiveDepth depth =>
      s!"Max depth {depth.toNat} exceeds the limit of {Settings.depthLimit.toNat}"
    | unknownLevel name => s!"Invalid log level: {name}"

namespace Settings

/-- The log level that is set. -/
def level (s : Settings) : Except SettingsError (Option LogLevel) :=
  match s.logLevel with
  | none => .ok none
  | some name =>
    match LogLevel.ofName? name with
    | some level => .ok (some level)
    | none => .error (.unknownLevel name)

/-- Whether the settings can be used. -/
def check (s : Settings) : Except SettingsError Unit := do
  if s.maxDepth = 0 then throw .zeroDepth
  if depthLimit < s.maxDepth then throw (.excessiveDepth s.maxDepth)
  let _ ← s.level

end Settings

end RecordFilter
