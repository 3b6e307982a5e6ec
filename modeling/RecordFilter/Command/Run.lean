import RecordFilter.Command.Arguments
import RecordFilter.Command.Caret
import RecordFilter.Command.Records
import RecordFilter.Command.Release
import RecordFilter.Filter.Text
import RecordFilter.Json.Writer
import RecordFilter.Matching.Test
import RecordFilter.Settings.Load
import RecordFilter.Stored.Write

/-!
# Run — what the program does

* `RunError` — why a task fails.
* `Outcome` — what a task writes, the files after it, and its exit status or error.
* `Task.run` — the outcome of a task under given settings.
* `Arguments.run` — the outcome of a command line, its settings loaded and checked first.
* `Exit`, `runProgram` — the whole program.
-/

namespace RecordFilter.Command

open Text

/-- Why a task fails. -/
inductive RunError where
  /-- The settings cannot be loaded, used or written. -/
  | settings (error : SettingsError)
  /-- An expression is no filter. -/
  | expression (text : String) (error : ParseError)
  /-- A percent-encoded expression is no filter. -/
  | encodedExpression (error : ParseError)
  /-- A source gives no records. -/
  | input (error : InputError)
  /-- A filter cannot be tested. -/
  | malformed (filter : Filter) (fault : Malformed)
  /-- A settings file stands already where one is to be put. -/
  | settingsExist (path : String)
  deriving Repr

/-- The wording of an error. -/
def RunError.message : RunError → String
  | settings error => error.message
  | expression text error =>
    s!"Invalid filter expression: {error.pointedAt text}: {error.message}"
  | encodedExpression error => s!"Invalid filter expression: {error.message}: {error.message}"
  | input error => error.message
  | malformed filter fault => s!"Failed to evaluate filter '{filter.text}': {fault.message}"
  | settingsExist path =>
    s!"Config file already exists: {path}\n\nUse --force to overwrite:\n"
      ++ s!"  sift config init {path} --force"

/-- What a task writes, the files after it, and its exit status or error. -/
structure Outcome where
  output : String
  directory : Directory
  result : Except RunError Nat

/-- The exit status when no record passes and that was asked for. -/
def noMatchStatus : Nat := 1

/-- A line of output. -/
def outputLine (text : String) : String := text ++ "\n"

/-- A value as JSON text, on one line or several as is set. -/
def writeJson (s : Settings) (v : Json) : String := if s.pretty then v.pretty else v.compact

/-- The filter of an expression, with groups nested as deeply as is set. -/
def readExpression (s : Settings) (text : String) (encoded : Bool) : Except RunError Filter :=
  if encoded then (Filter.parseEncoded s.maxDepth.toNat text).mapError .encodedExpression
  else (Filter.parse s.maxDepth.toNat text).mapError (.expression text)

/-- The records of files, one file after the other. -/
def readFiles (d : Directory) (lines : Bool) : List String → Except InputError (List Json)
  | [] => .ok []
  | path :: rest =>
    match readFileRecords d lines path with
    | .error e => .error e
    | .ok records => (readFiles d lines rest).map (records ++ ·)

/-- What the input is called. -/
def inputName : String := "<stdin>"

/-- The records that a task is given. -/
def taskRecords (w : Surroundings) (files : List String) (lines : Bool) :
    Except InputError (List Json) :=
  if files.isEmpty then readRecords lines inputName w.input else readFiles w.directory lines files

/-- What is written for a record. -/
def reportRecord (s : Settings) (lines select : Bool) (record : Json) (passes : Bool) : String :=
  if select then
    if passes then outputLine (if lines then record.compact else writeJson s record) else ""
  else outputLine (if passes then "true" else "false")

/-- What is written for records, and how many pass; a fault ends the report. -/
def report (compiler : Wildcard.Compiler) (s : Settings) (lines select : Bool) (f : Filter) :
    List Json → String × Except Malformed Nat
  | [] => ("", .ok 0)
  | record :: rest =>
    match f.test compiler record with
    | .error fault => ("", .error fault)
    | .ok passes =>
      let (text, count) := report compiler s lines select f rest
      (reportRecord s lines select record passes ++ text, count.map (· + passes.toNat))

/-- Tests records. -/
def runRecords (compiler : Wildcard.Compiler) (s : Settings) (w : Surroundings) (text : String)
    (files : List String) (lines select exitStatus encoded : Bool) : String × Except RunError Nat :=
  match readExpression s text encoded with
  | .error e => ("", .error e)
  | .ok f =>
    match taskRecords w files lines with
    | .error e => ("", .error (.input e))
    | .ok records =>
      let (output, count) := report compiler s lines select f records
      match count with
      | .error fault => (output, .error (.malformed f fault))
      | .ok count => (output, .ok (if exitStatus && count == 0 then noMatchStatus else 0))

/-- Writes an expression anew, as text or as its stored form. -/
def runCheck (s : Settings) (text : String) (urlEncode ast encoded : Bool) :
    Except RunError String := do
  let f ← readExpression s text encoded
  return outputLine (if ast then writeJson s f.toJson else f.queryText (urlEncode || s.urlEncode))

/-- Lists the fields of an expression. -/
def runFields (s : Settings) (text : String) (encoded : Bool) : Except RunError String := do
  let f ← readExpression s text encoded
  return String.join (f.fields.map outputLine)

/-- Puts a settings file with the usual settings at a place. -/
def runInit (d : Directory) (path : String) (force : Bool) :
    Except RunError (String × Directory) := do
  if d.holds path && !force then throw (.settingsExist path)
  let usual : Settings := {}
  let d ← (usual.save d path).mapError .settings
  return (outputLine s!"Created config file: {path}", d)

/-- The outcome of a task that only writes. -/
def Outcome.ofOutput (w : Surroundings) (output : Except RunError String) : Outcome :=
  match output with
  | .ok text => ⟨text, w.directory, .ok 0⟩
  | .error e => ⟨"", w.directory, .error e⟩

/-- The outcome of a task. -/
def Task.run (compiler : Wildcard.Compiler) (s : Settings) (w : Surroundings) : Task → Outcome
  | check text urlEncode ast encoded => .ofOutput w (runCheck s text urlEncode ast encoded)
  | records text files lines select exitStatus encoded =>
    let (output, result) := runRecords compiler s w text files lines select exitStatus encoded
    ⟨output, w.directory, result⟩
  | fields text encoded => .ofOutput w (runFields s text encoded)
  | showSettings => .ofOutput w (.ok s.toToml)
  | initSettings path force =>
    match runInit w.directory path force with
    | .ok (text, d) => ⟨text, d, .ok 0⟩
    | .error e => ⟨"", w.directory, .error e⟩

/-- The settings for a command line. -/
def Arguments.settings (a : Arguments) (w : Surroundings) : Except SettingsError Settings := do
  let s := (← Settings.load w a.settingsFile).withDepth a.maxDepth
  s.check
  return s

/-- The outcome of a command line. -/
def Arguments.run (compiler : Wildcard.Compiler) (a : Arguments) (w : Surroundings) : Outcome :=
  match a.settings w with
  | .ok s => a.task.run compiler s w
  | .error e => .ofOutput w (.error (.settings e))

/-! ## The program -/

/-- The variables of the environment that matter. -/
def variableNames : List String := ["SIFT_URL_ENCODE", "SIFT_MAX_DEPTH", "SIFT_LOG"]

/-- Whether a task reads the input. -/
def Task.readsInput : Task → Bool
  | records _ files .. => files.isEmpty
  | _ => false

/-- The places that a task looks at. -/
def Task.paths : Task → List String
  | records _ files .. => files
  | initSettings path _ => [path]
  | _ => []

/-- The places that a command line makes the program look at. -/
def Arguments.paths (a : Arguments) (w : Surroundings) : List String :=
  Settings.searched w ++ a.settingsFile.toList ++ a.task.paths

/-- Why the program does not do what it is asked. -/
inductive Trouble where
  /-- The command line is refused, or answered without running anything. -/
  | usage (refusal : Refusal)
  /-- The task fails. -/
  | failed (error : RunError)
  deriving Repr

/-- The wording of a trouble. -/
def Trouble.message : Trouble → String
  | usage _ => "Usage: sift [OPTIONS] <COMMAND>"
  | failed error => "Error: " ++ error.message

/-- How the program ends: its exit status, what it has written, the files after it, and what went
wrong. -/
structure Exit where
  status : Nat
  output : String
  directory : Directory
  trouble : Option Trouble

/-- The exit status of an error. -/
def errorStatus : Nat := 2

/-- The exit status of a refusal; an answer to a question is no error. -/
def Refusal.status : Refusal → Nat
  | version _ | help => 0
  | _ => errorStatus

/-- Whether a word anywhere on the command line asks for the version. -/
def asksVersion (words : List String) : Bool := words.any fun w => w == "--version" || w == "-V"

/-- The version of the program or one of its commands, which bears its name and those of the
commands that lead to it. -/
def versionText (commands : List String) : String :=
  outputLine ("-".intercalate ("sift" :: commands) ++ " " ++ thisRelease.version)

/-- The whole program. -/
def runProgram (compiler : Wildcard.Compiler) (words : List String) (w : Surroundings) : Exit :=
  if asksVersion words then ⟨0, thisRelease.text, w.directory, none⟩
  else match Arguments.read words with
    | .error (.version commands) => ⟨0, versionText commands, w.directory, none⟩
    | .error refusal => ⟨refusal.status, "", w.directory, some (.usage refusal)⟩
    | .ok a =>
      let o := a.run compiler w
      match o.result with
      | .ok status => ⟨status, o.output, o.directory, none⟩
      | .error e => ⟨errorStatus, o.output, o.directory, some (.failed e)⟩

end RecordFilter.Command
