import RecordFilter.Filter.Construction
import RecordFilter.Text.Utf8

/-!
# ParseError — why a text is no filter

Every error but two says where it is: the number of characters before the first character or token
that no filter can continue with.

* `BoundFault` — why two literals bound no range.
* `ParseError` — the errors.
* `ParseError.position`, `ParseError.message` — where an error is, and its wording.
-/

namespace RecordFilter

open Text

/-- Why a literal cannot bound a range. -/
inductive BoundFault where
  /-- The lower bound has no order. -/
  | unorderable (typeName : String)
  /-- The two bounds make no range. -/
  | mismatch (error : ConstructionError)
  deriving DecidableEq, Repr

/-- The wording of a fault. -/
def BoundFault.message : BoundFault → String
  | unorderable typeName => s!"range bounds must be strings or numbers, found {typeName}"
  | mismatch error => error.message

/-- Why a text is no filter. -/
inductive ParseError where
  /-- There is nothing but blanks. -/
  | emptyInput
  /-- A character that begins no token, or cannot follow one. -/
  | unexpectedCharacter (found : Char) (position : Nat)
  /-- A string literal without its closing quote. -/
  | unterminatedString (position : Nat)
  /-- A numeral beyond every finite number. -/
  | invalidNumber (number : String) (position : Nat)
  /-- A word without a meaning. -/
  | unknownKeyword (word : String) (position : Nat)
  /-- A text that is no path. -/
  | invalidPointer (fault : FieldPath.Fault) (position : Nat)
  /-- A token that no filter can continue with. -/
  | unexpectedToken (found : String) (expected : List String) (position : Nat)
  /-- The end of the text where something has to follow. -/
  | unexpectedEnd (expected : List String) (position : Nat)
  /-- A closing parenthesis without its opening one. -/
  | unmatchedGroupClose (position : Nat)
  /-- An opening parenthesis without its closing one. -/
  | unclosedGroup (position : Nat)
  /-- An opening parenthesis inside as many groups as are allowed. -/
  | nestingTooDeep (limit : Nat) (position : Nat)
  /-- Two literals that bound no range. -/
  | invalidRange (fault : BoundFault) (position : Nat)
  /-- A percent-encoded text whose bytes are no text. -/
  | invalidEncoding (fault : Utf8.Fault)
  deriving DecidableEq, Repr

namespace ParseError

/-- The number of characters before the place of the error; 0 for an error without a place. -/
def position : ParseError → Nat
  | emptyInput | invalidEncoding _ => 0
  | unexpectedCharacter _ position | unterminatedString position | invalidNumber _ position
  | unknownKeyword _ position | invalidPointer _ position | unexpectedToken _ _ position
  | unexpectedEnd _ position | unmatchedGroupClose position | unclosedGroup position
  | nestingTooDeep _ position | invalidRange _ position => position

/-- The wording of what would have been accepted. -/
def expectation (expected : List String) : String :=
  if expected.isEmpty then "" else ". Expected one of: " ++ ", ".intercalate expected

/-- The wording of an error. -/
def message : ParseError → String
  | emptyInput => "Empty input"
  | unexpectedCharacter found position => s!"Unexpected character '{found}' at position {position}"
  | unterminatedString position => s!"Unterminated string literal starting at position {position}"
  | invalidNumber number position => s!"Invalid number '{number}' at position {position}"
  | unknownKeyword word position => s!"Unknown keyword '{word}' at position {position}"
  | invalidPointer fault position =>
    s!"Invalid field reference at position {position}: {fault.message}"
  | unexpectedToken found expected position =>
    s!"Unexpected token '{found}' at position {position}" ++ expectation expected
  | unexpectedEnd expected position =>
    s!"Unexpected end of input at position {position}" ++ expectation expected
  | unmatchedGroupClose position => s!"Unmatched ')' at position {position}"
  | unclosedGroup position => s!"Group opened at position {position} is never closed"
  | nestingTooDeep limit position => s!"Groups nested deeper than {limit} at position {position}"
  | invalidRange fault position => s!"Invalid range at position {position}: {fault.message}"
  | invalidEncoding fault => s!"Invalid percent-encoding: {fault.message}"

end ParseError

end RecordFilter
