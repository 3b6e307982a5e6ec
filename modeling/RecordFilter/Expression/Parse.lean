import RecordFilter.Expression.Grammar
import RecordFilter.Text.Percent

/-!
# Parse — filter text as a filter

* `Filter.parse` — the filter that a text spells.
* `Filter.parseEncoded` — the filter that a percent-encoded text spells.
* `FieldPath.ofText` — the path that a text spells, with the error of filter text.
-/

namespace RecordFilter

open Text

/-- How deeply groups may be nested unless something else is asked for. -/
def Filter.defaultLimit : Nat := 64

/-- The filter that a text spells, with groups nested at most `limit` deep. -/
def Filter.parse (limit : Nat) (text : String) : Except ParseError Filter :=
  if allBlank text then .error .emptyInput
  else do Filter.ofTokens limit text.length (← tokenize text)

/-- The filter that a percent-encoded text spells. Positions count the decoded characters. -/
def Filter.parseEncoded (limit : Nat) (text : String) : Except ParseError Filter :=
  match Percent.decode text with
  | .ok decoded => Filter.parse limit decoded
  | .error fault => .error (.invalidEncoding fault)

/-- The path that a text spells. -/
def FieldPath.ofText (text : String) : Except ParseError FieldPath :=
  match FieldPath.parse text.toList with
  | .ok path => .ok path
  | .error (position, fault) => .error (.invalidPointer fault position)

end RecordFilter
