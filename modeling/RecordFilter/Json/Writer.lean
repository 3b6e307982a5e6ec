import RecordFilter.Json.Basic
import RecordFilter.Number.Layout
import RecordFilter.Text.Hexadecimal

/-!
# Json writer — a value as JSON text

* `Json.layout` — how numbers that are no integers are set out.
* `Json.writeString` — a string with the escapes that the format demands, and no others.
* `Json.compact` — a value on one line without blanks.
* `Json.pretty` — a value over several lines, two blanks deeper for each level.
-/

namespace RecordFilter

open Number Text

/-- Numbers are positional from `0.00001` up to below `10 ^ 16`; an exponent carries its sign. -/
def Json.layout : Layout where
  tie := .even
  plainFrom := -5
  plainBelow := 16
  plus := true

/-- A number as JSON text. -/
def JsonNumber.write : JsonNumber → String
  | .int i => String.ofList (integerChars i.toInt)
  | .large n _ => String.ofList (naturalChars n.toNat)
  | .real x => String.ofList (Json.layout.write x)

namespace Json

/-- What stands for `c` inside a JSON string. -/
def escapeChar (c : Char) : List Char :=
  match c with
  | '"' => ['\\', '"']
  | '\\' => ['\\', '\\']
  | '\x08' => ['\\', 'b']
  | '\x0c' => ['\\', 'f']
  | '\n' => ['\\', 'n']
  | '\r' => ['\\', 'r']
  | '\t' => ['\\', 't']
  | c =>
    if c.toNat < 0x10 then '\\' :: 'u' :: '0' :: '0' :: '0' :: hexDigits c.toNat
    else if c.toNat < 0x20 then '\\' :: 'u' :: '0' :: '0' :: hexDigits c.toNat
    else [c]

/-- A string as JSON text. -/
def writeString (s : String) : String :=
  String.ofList ('"' :: s.toList.flatMap escapeChar ++ ['"'])

mutual

/-- A value on one line without blanks. -/
def compact : Json → String
  | .null => "null"
  | .bool true => "true"
  | .bool false => "false"
  | .number n => n.write
  | .string s => writeString s
  | .array items => "[" ++ ",".intercalate (compactItems items) ++ "]"
  | .object members => "\x7b" ++ ",".intercalate (compactMembers members) ++ "\x7d"

/-- The items of an array, each on one line. -/
def compactItems : List Json → List String
  | [] => []
  | v :: rest => compact v :: compactItems rest

/-- The members of an object, each on one line. -/
def compactMembers : List (String × Json) → List String
  | [] => []
  | (key, v) :: rest => (writeString key ++ ":" ++ compact v) :: compactMembers rest

end

/-- The blanks before a line of the given depth. -/
def indent (depth : Nat) : String := String.ofList (List.replicate (2 * depth) ' ')

/-- The parts of an array or object between its brackets, one per line. -/
def block (depth : Nat) (opening closing : String) (parts : List String) : String :=
  if parts.isEmpty then opening ++ closing
  else opening ++ "\n" ++ ",\n".intercalate (parts.map (indent (depth + 1) ++ ·)) ++ "\n"
    ++ indent depth ++ closing

mutual

/-- A value that begins at the given depth, over several lines. -/
def prettyAt (depth : Nat) : Json → String
  | .null => "null"
  | .bool true => "true"
  | .bool false => "false"
  | .number n => n.write
  | .string s => writeString s
  | .array items => block depth "[" "]" (prettyItems (depth + 1) items)
  | .object members => block depth "\x7b" "\x7d" (prettyMembers (depth + 1) members)

/-- The items of an array at the given depth. -/
def prettyItems (depth : Nat) : List Json → List String
  | [] => []
  | v :: rest => prettyAt depth v :: prettyItems depth rest

/-- The members of an object at the given depth. -/
def prettyMembers (depth : Nat) : List (String × Json) → List String
  | [] => []
  | (key, v) :: rest =>
    (writeString key ++ ": " ++ prettyAt depth v) :: prettyMembers depth rest

end

/-- A value over several lines, two blanks deeper for each level. -/
def pretty (v : Json) : String := prettyAt 0 v

end Json

end RecordFilter
