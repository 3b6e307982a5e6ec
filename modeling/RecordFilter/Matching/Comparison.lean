import RecordFilter.Filter.Scalar

/-!
# Comparison — equality and order of scalars

Scalars compare within a type only. Strings are ordered by code points, numbers by their exact
value, so that an integer is never rounded to be compared with a floating-point number; booleans
can be equal but have no order.

* `Scalar.compare?` — the order of two strings or two numbers.
* `Scalar.equals` — whether two scalars are of one type and equal.
-/

namespace RecordFilter.Scalar

open Number

/-- The order of two strings or of two numbers; none for other pairs. -/
def compare? : Scalar → Scalar → Option Ordering
  | string a, string b => some (compare a b)
  | int a, int b => some (compare a.toInt b.toInt)
  | int a, float b => Binary64.compareInt64? a b
  | float a, int b => (Binary64.compareInt64? b a).map Ordering.swap
  | float a, float b => Binary64.compare? a b
  | _, _ => none

/-- Whether two scalars are of one type and equal. -/
def equals : Scalar → Scalar → Bool
  | bool a, bool b => a == b
  | a, b => compare? a b == some .eq

/-- Whether the first scalar is less than the second. -/
def isLess (a b : Scalar) : Bool := compare? a b == some .lt

/-- Whether the first scalar is greater than the second. -/
def isGreater (a b : Scalar) : Bool := compare? a b == some .gt

/-- Whether the first scalar is less than the second or equal to it, by their order. -/
def isAtMost (a b : Scalar) : Bool := (compare? a b).any Ordering.isLE

/-- Whether the first scalar is greater than the second or equal to it, by their order. -/
def isAtLeast (a b : Scalar) : Bool := (compare? a b).any Ordering.isGE

end RecordFilter.Scalar
