import RecordFilter.Number.Binary64

/-!
# Toml — the values of a configuration file

A file is a table; its values are strings, numbers, booleans, moments, arrays and tables. How a
table came about decides what may still be added to it, so a table remembers its origin.

* `Toml` — the values.
* `Toml.Origin` — how a table came about.
* `Toml.alter?` — a change of a table somewhere inside.
* `Toml.assign?`, `Toml.openTable?`, `Toml.appendTable?` — the three ways in which a file adds to
  its table; each refuses what has been defined before.
-/

namespace RecordFilter

open Number

/-- How a table came about. -/
inductive Toml.Origin where
  /-- By its own header. -/
  | header
  /-- On the way to the table of a header. -/
  | passage
  /-- By a dotted key. -/
  | dotted
  /-- Between braces. -/
  | inlined
  deriving DecidableEq, Repr

/-- A value of a configuration file. -/
inductive Toml where
  | string (value : String)
  | integer (value : Int)
  | float (value : Binary64)
  | boolean (value : Bool)
  | moment (text : String)
  | array (items : List Toml)
  | table (origin : Toml.Origin) (entries : List (String × Toml))
  /-- The tables that were appended one by one under a header of their own. -/
  | tables (all : List (List (String × Toml)))
  deriving Repr

namespace Toml

/-- The entries of a table, in the order of their first mention. -/
abbrev Entries := List (String × Toml)

/-- The entries with a name set to a value; a new name comes last. -/
def setEntry (name : String) (v : Toml) : Entries → Entries
  | [] => [(name, v)]
  | (k, w) :: rest => if k = name then (k, v) :: rest else (k, w) :: setEntry name v rest

/-- Changes the table that a path leads to, creating the tables on the way. A table between braces
is complete; a dotted key leads through no table that has a header of its own. The last of several
tables stands for them. -/
def alter? (dotted : Bool) (change : Origin → Entries → Option Entries) (origin : Origin)
    (entries : Entries) : List String → Option Entries
  | [] => change origin entries
  | name :: path =>
    match entries.lookup name with
    | none =>
      let created : Origin := if dotted then .dotted else .passage
      (alter? dotted change created [] path).map fun inner =>
        entries ++ [(name, .table created inner)]
    | some (.table o inner) =>
      if o = .inlined || (dotted && o = .header) then none
      else (alter? dotted change o inner path).map fun inner =>
        setEntry name (.table o inner) entries
    | some (.tables all) =>
      (alter? dotted change .header (all.getLast?.getD []) path).map fun inner =>
        setEntry name (.tables (all.dropLast ++ [inner])) entries
    | some _ => none

/-- Gives a value to a key of the table at `place`. The key may be dotted; the table that holds its
last name then owes its existence to dotted keys alone. -/
def assign? (place : List String) (key : List String) (v : Toml) (entries : Entries) :
    Option Entries :=
  match key.getLast? with
  | none => none
  | some name =>
    let insert (origin : Origin) (inner : Entries) : Option Entries :=
      if (origin == .dotted) == key.dropLast.isEmpty then none
      else if (inner.lookup name).isSome then none
      else some (inner ++ [(name, v)])
    alter? false (fun o inner => alter? true insert o inner key.dropLast) .header entries place

/-- Opens the table of a header. It may have been passed before, but not opened. -/
def openTable? (path : List String) (entries : Entries) : Option Entries :=
  match path.getLast? with
  | none => none
  | some name =>
    let add (_ : Origin) (inner : Entries) : Option Entries :=
      match inner.lookup name with
      | none => some (inner ++ [(name, .table .header [])])
      | some (.table .passage entries) => some (setEntry name (.table .header entries) inner)
      | some _ => none
    alter? false add .header entries path.dropLast

/-- Opens one more of the tables that share a header. -/
def appendTable? (path : List String) (entries : Entries) : Option Entries :=
  match path.getLast? with
  | none => none
  | some name =>
    let add (_ : Origin) (inner : Entries) : Option Entries :=
      match inner.lookup name with
      | none => some (inner ++ [(name, .tables [[]])])
      | some (.tables all) => some (setEntry name (.tables (all ++ [[]])) inner)
      | some _ => none
    alter? false add .header entries path.dropLast

end Toml

end RecordFilter
