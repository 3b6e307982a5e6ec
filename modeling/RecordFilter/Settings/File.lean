import RecordFilter.Number.Layout
import RecordFilter.Settings.Basic
import RecordFilter.Toml.Quoted
import RecordFilter.Toml.Reader

/-!
# Settings files — settings as text

The depth stands in the table `parser`, the two choices of output in the table `output`, and the
log level, if one is set, before both. What a file leaves out keeps its usual value, and what it
says beside is passed over.

* `Settings.toToml` — the text of settings.
* `Settings.ofToml?` — the settings that a text spells.
-/

namespace RecordFilter.Settings

open Number

/-! ## Writing -/

/-- A boolean as a word. -/
def boolChars (b : Bool) : List Char := (if b then "true" else "false").toList

/-- A line with a key and its value. -/
def line (key : String) (value : List Char) : List Char := key.toList ++ " = ".toList ++ value ++ ['\n']

/-- The characters of the text. -/
def tomlChars (s : Settings) : List Char :=
  (match s.logLevel with
    | some level => line "log_level" (Toml.quotedChars level) ++ ['\n']
    | none => [])
  ++ "[parser]\n".toList ++ line "max_depth" (naturalChars s.maxDepth.toNat)
  ++ "\n[output]\n".toList ++ line "url_encode" (boolChars s.urlEncode)
  ++ line "pretty" (boolChars s.pretty)

/-- The text of settings. -/
def toToml (s : Settings) : String := String.ofList s.tomlChars

/-! ## Reading -/

/-- A text. -/
def textOf? : Toml → Option String
  | .string s => some s
  | _ => none

/-- A natural number of 64 bits. -/
def depthOf? : Toml → Option UInt64
  | .integer i => if 0 ≤ i ∧ i < UInt64.size then some (UInt64.ofNat i.toNat) else none
  | _ => none

/-- A boolean. -/
def boolOf? : Toml → Option Bool
  | .boolean b => some b
  | _ => none

/-- Reads a value if there is one, and takes the usual one otherwise. -/
def readOr {α : Type} (read? : Toml → Option α) (usual : α) : Option Toml → Option α
  | some v => read? v
  | none => some usual

/-- The values of a table's keys. The items of an array stand for the values in the order of the
keys; a moment counts as a table without any of them. -/
def part? (keys : List String) : Option Toml → Option (List (Option Toml))
  | none => some (keys.map fun _ => none)
  | some (.table _ entries) => some (keys.map fun key => entries.lookup key)
  | some (.moment _) => some (keys.map fun _ => none)
  | some (.array items) => some ((List.range keys.length).map (items[·]?))
  | some (.tables all) =>
    some ((List.range keys.length).map fun i => all[i]?.map (Toml.table .header))
  | some _ => none

/-- The settings that a table spells. -/
def ofEntries? (entries : Toml.Entries) : Option Settings := do
  let usual : Settings := {}
  let logLevel ← readOr (fun v => (textOf? v).map some) none (entries.lookup "log_level")
  match ← part? ["max_depth"] (entries.lookup "parser"),
      ← part? ["url_encode", "pretty"] (entries.lookup "output") with
  | [depth], [encode, pretty] =>
    return {
      logLevel
      maxDepth := ← readOr depthOf? usual.maxDepth depth
      urlEncode := ← readOr boolOf? usual.urlEncode encode
      pretty := ← readOr boolOf? usual.pretty pretty }
  | _, _ => none

/-- The settings that a text spells. -/
def ofToml? (text : String) : Option Settings := (Toml.parse? text).bind ofEntries?

end RecordFilter.Settings
