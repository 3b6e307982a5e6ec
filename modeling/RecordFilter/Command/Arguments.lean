import RecordFilter.Command.Options

/-!
# Arguments — the commands of the program

* `Task` — what the program is asked to do.
* `Arguments`, `Arguments.read` — a whole command line.
-/

namespace RecordFilter.Command

open Number

/-- What the program is asked to do. -/
inductive Task where
  /-- Write an expression anew. -/
  | check (expression : String) (urlEncode ast encoded : Bool)
  /-- Test the records of some files, or of the input if there are none. -/
  | records (expression : String) (files : List String) (lines select exitStatus encoded : Bool)
  /-- List the fields of an expression. -/
  | fields (expression : String) (encoded : Bool)
  /-- Write the settings. -/
  | showSettings
  /-- Put a settings file at a place. -/
  | initSettings (path : String) (force : Bool)
  deriving DecidableEq, Repr

/-- A command line: the settings file and the depth that it names, and what it asks for. -/
structure Arguments where
  settingsFile : Option String
  maxDepth : Option UInt64
  task : Task
  deriving DecidableEq, Repr

/-- The options that every level takes. -/
def commonOptions : List OptionSpec :=
  [⟨"verbose", some 'v', .count⟩, ⟨"config", some 'c', .path⟩, ⟨"max-depth", none, .number⟩,
    ⟨"help", some 'h', .help⟩, ⟨"version", some 'V', .version⟩]

/-- The place of an expression. -/
def expressionPlace : Place := { name := "expression", isRequired := true }

/-- The first level. -/
def topLevel : Level :=
  { options := commonOptions, commands := ["check", "match", "fields", "config", "help"] }

/-- The level of `check`. -/
def checkLevel : Level :=
  { path := ["check"]
    options := [⟨"url-encode", some 'u', .flag⟩, ⟨"ast", none, .flag⟩, ⟨"encoded", none, .flag⟩]
      ++ commonOptions
    places := [expressionPlace] }

/-- The level of `match`. -/
def matchLevel : Level :=
  { path := ["match"]
    options := [⟨"lines", some 'l', .flag⟩, ⟨"select", some 's', .flag⟩,
      ⟨"exit-status", some 'e', .flag⟩, ⟨"encoded", none, .flag⟩] ++ commonOptions
    places := [expressionPlace, { name := "files", isPath := true, isOpen := true }] }

/-- The level of `fields`. -/
def fieldsLevel : Level :=
  { path := ["fields"]
    options := ⟨"encoded", none, .flag⟩ :: commonOptions
    places := [expressionPlace] }

/-- The level of `config`. -/
def configLevel : Level :=
  { path := ["config"], options := commonOptions, commands := ["show", "init", "help"] }

/-- The level of `config show`. -/
def showLevel : Level := { path := ["config", "show"], options := commonOptions }

/-- The level of `config init`. -/
def initLevel : Level :=
  { path := ["config", "init"]
    options := ⟨"force", some 'f', .flag⟩ :: commonOptions
    places := [{ name := "path", isPath := true }] }

/-- What help can be asked for on a level: the level itself, or the command that some words lead to
from there. -/
def helpTopics (level : Level) : List (List String) :=
  [] :: level.commands.map ([·])
    ++ if level.commands.contains "config" then configLevel.commands.map (["config", ·]) else []

/-- Where a settings file is put unless a place is named. -/
def initPath : String := "sift.toml"

/-- A last level, which takes no further command. -/
def readLast (level : Level) (words : List String) : Except Refusal Reading := do
  let (r, _) ← level.read { places := level.places } words
  if r.places.any Place.isRequired then throw .missingArgument else return r

/-- A level that needs a further command, with the name of that and its words. -/
def readFirst (level : Level) (words : List String) :
    Except Refusal (Reading × String × List String) := do
  match ← level.read { places := level.places } words with
  | (_, some ("help", topic)) =>
    throw (if (helpTopics level).contains topic then .help else .unknownCommand)
  | (r, some (name, rest)) => return (r, name, rest)
  | (r, none) => throw (if r.found.isEmpty then .nothing else .missingCommand)

/-- The value of an expression's place. -/
def Reading.expression (r : Reading) : String := (r.found.lookup "expression").getD ""

/-- A command by its name, with what stands on its levels, the innermost first. -/
def Task.read (name : String) (words : List String) : Except Refusal (Task × List Reading) := do
  match name with
  | "check" =>
    let r ← readLast checkLevel words
    return (.check r.expression (r.has "url-encode") (r.has "ast") (r.has "encoded"), [r])
  | "match" =>
    let r ← readLast matchLevel words
    return (.records r.expression (r.values "files") (r.has "lines") (r.has "select")
      (r.has "exit-status") (r.has "encoded"), [r])
  | "fields" =>
    let r ← readLast fieldsLevel words
    return (.fields r.expression (r.has "encoded"), [r])
  | _ =>
    let (outer, name, words) ← readFirst configLevel words
    if name = "show" then
      let r ← readLast showLevel words
      return (.showSettings, [r, ← outer.settle])
    else
      let r ← readLast initLevel words
      return (.initSettings ((r.found.lookup "path").getD initPath) (r.has "force"),
        [r, ← outer.settle])

/-- A command line. An option that stands on several levels counts where it stands last. -/
def Arguments.read (words : List String) : Except Refusal Arguments := do
  let (outer, name, words) ← readFirst topLevel words
  let (task, inner) ← Task.read name words
  let outer ← outer.settle
  let value? (name : String) : Option String :=
    (inner ++ [outer]).findSome? fun r => r.found.lookup name
  return {
    settingsFile := value? "config"
    maxDepth := (value? "max-depth").bind fun value => word64? value.toList
    task }

end RecordFilter.Command
