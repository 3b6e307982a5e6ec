import RecordFilter.Number.Numeral

/-!
# Options — the words of a command line

A level of a command line takes options, values in fixed places, or the name of a further level.
An option begins with two dashes and its name, or with one dash and letters that stand for options;
a value follows it, or is attached with an equals sign or directly to its letter. After two dashes
alone every word is a value. A value is not checked before the next option or place is reached, so
a word that is not understood at all shows first.

* `Level` — what a level takes.
* `Refusal` — why a command line is refused, or answered without running anything.
* `Level.read` — what stands on one level, and where the next one begins.
-/

namespace RecordFilter.Command

open Number

/-- Why a command line is refused, or answered without running anything. -/
inductive Refusal where
  /-- A value that has to be given is not. -/
  | missingArgument
  /-- A word that is neither an option nor the value of a place. -/
  | unknownArgument
  /-- A word where the name of a command has to stand. -/
  | unknownCommand
  /-- An option or place without its value. -/
  | missingValue
  /-- A value for an option that takes none. -/
  | surplusValue
  /-- A value that is no number. -/
  | invalidNumber
  /-- An option that is given twice. -/
  | repeated
  /-- Nothing but options where a command has to stand. -/
  | missingCommand
  /-- Nothing at all where a command has to stand. -/
  | nothing
  /-- The version of the program is asked for, or that of the command that these names lead to. -/
  | version (commands : List String)
  /-- Help is asked for. -/
  | help
  deriving DecidableEq, Repr

/-- What an option does. -/
inductive OptionKind where
  /-- It is on or off. -/
  | flag
  /-- It may be given again and again. -/
  | count
  /-- It takes the path of a file. -/
  | path
  /-- It takes a natural number of 64 bits. -/
  | number
  /-- It asks for the version. -/
  | version
  /-- It asks for help. -/
  | help
  deriving DecidableEq, Repr

/-- An option: its name, the letter for it, and what it does. -/
structure OptionSpec where
  name : String
  letter : Option Char := none
  kind : OptionKind := .flag
  deriving DecidableEq, Repr

/-- A place for a value. -/
structure Place where
  name : String
  /-- Whether the value is the path of a file. -/
  isPath : Bool := false
  /-- Whether any number of values may stand there. -/
  isOpen : Bool := false
  /-- Whether a value has to stand there. -/
  isRequired : Bool := false
  deriving DecidableEq, Repr

/-- What one level of a command line takes. -/
structure Level where
  /-- The names of the commands that lead to it. -/
  path : List String := []
  options : List OptionSpec
  places : List Place := []
  commands : List String := []
  deriving DecidableEq, Repr

/-- A value that has been read and not been checked yet. -/
inductive Pending where
  | option (option : OptionSpec) (value : Option String)
  | place (place : Place) (values : List String)
  deriving DecidableEq, Repr

/-- What has been read of a level: the names with their values, the value that is to be checked
next, the places that are left, and whether two dashes alone have been read. -/
structure Reading where
  found : List (String × String) := []
  pending : Option Pending := none
  places : List Place
  escaped : Bool := false
  deriving DecidableEq, Repr

namespace Reading

/-- Whether a name has been read. -/
def has (r : Reading) (name : String) : Bool := (r.found.lookup name).isSome

/-- The values of a name. -/
def values (r : Reading) (name : String) : List String :=
  r.found.filterMap fun (n, value) => if n = name then some value else none

/-- A name with its value. -/
def add (r : Reading) (name value : String) : Reading := { r with found := r.found ++ [(name, value)] }

/-- The value of an option. -/
def accept (r : Reading) (option : OptionSpec) (value : String) : Except Refusal Reading :=
  if r.has option.name then .error .repeated
  else match option.kind with
    | .number =>
      if (word64? value.toList).isSome then .ok (r.add option.name value)
      else .error .invalidNumber
    | _ => if value.isEmpty then .error .missingValue else .ok (r.add option.name value)

/-- Checks the value that is waiting. -/
def settle (r : Reading) : Except Refusal Reading :=
  match r.pending with
  | none => .ok r
  | some (.option _ none) => .error .missingValue
  | some (.option option (some value)) => { r with pending := none }.accept option value
  | some (.place place values) =>
    if place.isPath && values.any String.isEmpty then .error .missingValue
    else .ok (values.foldl (fun r value => r.add place.name value) { r with pending := none })

/-- Whether the next word is the value of an option, unless it begins with a dash. -/
def awaitsValue (r : Reading) : Bool :=
  match r.pending with
  | some (.option _ none) => true
  | _ => false

/-- An option that takes no value, on the level that the names of commands lead to. -/
def switch (r : Reading) (commands : List String) (option : OptionSpec) :
    Except Refusal Reading := do
  let r ← r.settle
  match option.kind with
  | .version => throw (.version commands)
  | .help => throw .help
  | .count => return r.add option.name ""
  | _ => if r.has option.name then throw .repeated else return r.add option.name ""

/-- An option that takes a value, which follows. -/
def expect (r : Reading) (option : OptionSpec) : Except Refusal Reading := do
  return { ← r.settle with pending := some (.option option none) }

/-- An option with its value attached. -/
def attach (r : Reading) (option : OptionSpec) (value : String) : Except Refusal Reading := do
  (← r.settle).accept option value

end Reading

/-- Whether an option takes a value. -/
def OptionSpec.takesValue (o : OptionSpec) : Bool := o.kind = .path ∨ o.kind = .number

namespace Level

/-- A word that begins with two dashes, without them. -/
def long (level : Level) (r : Reading) (word : List Char) : Except Refusal Reading :=
  let name := String.ofList (word.takeWhile (· != '='))
  let value : Option String :=
    match word.dropWhile (· != '=') with
    | '=' :: value => some (String.ofList value)
    | _ => none
  match level.options.find? fun o => o.name == name, value with
  | none, _ => .error .unknownArgument
  | some o, none => if o.takesValue then r.expect o else r.switch level.path o
  | some o, some value => if o.takesValue then r.attach o value else .error .surplusValue

/-- A word that begins with one dash, without it. -/
def letters (level : Level) (r : Reading) : List Char → Except Refusal Reading
  | [] => .ok r
  | c :: rest =>
    match level.options.find? fun o => o.letter == some c with
    | none => .error .unknownArgument
    | some o =>
      if o.takesValue then
        match rest with
        | [] => r.expect o
        | '=' :: value => r.attach o (String.ofList value)
        | value => r.attach o (String.ofList value)
      else do level.letters (← r.switch level.path o) rest

/-- A word in a place. -/
def value (level : Level) (r : Reading) (word : String) : Except Refusal Reading :=
  match r.places with
  | [] =>
    if level.commands.isEmpty || (r.escaped && level.commands.contains word) then
      .error .unknownArgument
    else .error .unknownCommand
  | place :: others =>
    match r.pending with
    | some (.place p values) =>
      if p = place then .ok { r with pending := some (.place p (values ++ [word])) }
      else start place others
    | _ => start place others
where
  /-- The first word in a place. -/
  start (place : Place) (others : List Place) : Except Refusal Reading := do
    let r ← r.settle
    return { r with
      pending := some (.place place [word])
      places := if place.isOpen then place :: others else others }

/-- One word that is no command. -/
def word (level : Level) (r : Reading) (word : String) : Except Refusal Reading :=
  if r.escaped then level.value r word
  else match word.toList with
    | ['-', '-'] => .ok { r with escaped := true }
    | '-' :: '-' :: cs => level.long r cs
    | '-' :: c :: cs => level.letters r (c :: cs)
    | _ =>
      match r.pending with
      | some (.option option none) => .ok { r with pending := some (.option option (some word)) }
      | _ => level.value r word

/-- What stands on a level, with the name of the next one and the words that are left for it. -/
def read (level : Level) (r : Reading) :
    List String → Except Refusal (Reading × Option (String × List String))
  | [] => do return (← r.settle, none)
  | word :: rest =>
    if !r.escaped && !r.awaitsValue && level.commands.contains word then
      .ok (r, some (word, rest))
    else do level.read (← level.word r word) rest

end Level

end RecordFilter.Command
