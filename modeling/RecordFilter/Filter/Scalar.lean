import RecordFilter.Number.Layout
import RecordFilter.Text.Delimited

/-!
# Scalar — the values that a filter compares

Strings, booleans and numbers, as literals of a filter and as what a record holds at a field.

* `Scalar` — the values; integers of 64 bits are exact, other numbers are floating-point.
* `Scalar.chars` — a scalar as a literal of filter text.
-/

namespace RecordFilter

open Number Text

/-- A string, a boolean or a number. -/
inductive Scalar where
  | string (value : String)
  | bool (value : Bool)
  | int (value : Int64)
  | float (value : Binary64)
  deriving DecidableEq, Repr

namespace Scalar

/-- The name of the value's type. -/
def typeName : Scalar → String
  | string _ => "string"
  | bool _ => "boolean"
  | int _ | float _ => "number"

/-- An integer or a floating-point number. -/
def isNumber : Scalar → Bool
  | int _ | float _ => true
  | _ => false

/-- Strings and numbers have an order, booleans have none. -/
def isOrderable : Scalar → Bool
  | bool _ => false
  | _ => true

/-- Two strings or two numbers. -/
def isAlike (a b : Scalar) : Bool :=
  a.isOrderable && b.isOrderable && a.isNumber == b.isNumber

/-- Numbers in filter text are positional from `0.0001` up to below `10 ^ 16`; an exponent has no
plus sign. -/
def layout : Layout where
  tie := .up
  plainFrom := -4
  plainBelow := 16
  plus := false

end Scalar

/-- A floating-point number in filter text; what is not finite has a name. -/
def Number.Binary64.chars : Binary64 → List Char
  | .nan => "NaN".toList
  | .infinite negative => if negative then "-inf".toList else "inf".toList
  | .finite x => Scalar.layout.write x

namespace Scalar

/-- A content between double quotes. -/
def quotedChars (s : String) : List Char := '"' :: s.toList ++ ['"']

/-- A scalar as a literal of filter text. -/
def chars : Scalar → List Char
  | string s => quotedChars s
  | bool b => if b then "true".toList else "false".toList
  | int i => integerChars i.toInt
  | float x => x.chars

end Scalar

end RecordFilter
