/-!
# Binary64 — the 64-bit binary floating-point numbers

A finite number is kept as its sign, its mantissa and the power of two that scales the mantissa;
one canonical choice of the two makes equality of numbers equality of parts (`0.0` and `-0.0` stay
apart). Every finite number is a whole multiple of `2 ^ -1074`, so exact comparison is comparison
of integers.

* `Dyadic64` — the finite numbers.
* `Dyadic64.units` — a finite number as a multiple of `2 ^ -1074`.
* `Dyadic64.whole`, `Dyadic64.fraction` — a finite number cut at its point.
* `Binary64` — the finite numbers, the two infinities and the one value that is no number.
* `Binary64.compare?` — the exact order; none beside the value that is no number.
* `Binary64.compareInt64?` — the order between an integer of 64 bits and a number, nothing rounded.
-/

namespace RecordFilter.Number

/-- The least mantissa of 53 binary digits, `2 ^ 52`. -/
def leastFull : Nat := 0x10000000000000

/-- The mantissa and exponent of a finite number, in the one form that is used: the exponent is
the least that a mantissa of at most 53 binary digits allows. -/
def Canonical (mantissa : Nat) (exponent : Int) : Prop :=
  mantissa < 2 * leastFull ∧ -1074 ≤ exponent ∧ exponent ≤ 971 ∧
    (exponent = -1074 ∨ leastFull ≤ mantissa)

instance (mantissa : Nat) (exponent : Int) : Decidable (Canonical mantissa exponent) :=
  inferInstanceAs (Decidable (_ ∧ _))

/-- A finite number: `mantissa * 2 ^ exponent`, with a sign that zero has too. -/
structure Dyadic64 where
  negative : Bool
  mantissa : Nat
  exponent : Int
  canonical : Canonical mantissa exponent
  deriving DecidableEq, Repr

namespace Dyadic64

/-- Zero of the given sign. -/
def zero (negative : Bool) : Dyadic64 := ⟨negative, 0, -1074, by decide⟩

/-- The number with the other sign. -/
def negate (x : Dyadic64) : Dyadic64 := { x with negative := !x.negative }

/-- The magnitude in units of `2 ^ -1074`. -/
def magnitude (x : Dyadic64) : Nat := x.mantissa * Nat.pow 2 (x.exponent + 1074).toNat

/-- The exact value in units of `2 ^ -1074`. -/
def units (x : Dyadic64) : Int := if x.negative then -(x.magnitude : Int) else x.magnitude

/-- Either zero. -/
def isZero (x : Dyadic64) : Bool := x.mantissa == 0

/-- How many units of `2 ^ -1074` make one. -/
def unitsOfOne : Nat := Nat.pow 2 1074

/-- The integer part, cut off toward zero. -/
def whole (x : Dyadic64) : Int := x.units.tdiv unitsOfOne

/-- What the integer part leaves, in units of `2 ^ -1074`; it has the sign of the number. -/
def fraction (x : Dyadic64) : Int := x.units.tmod unitsOfOne

/-- `2 ^ 63`, the least integer beyond the signed 64 bits. -/
def wordLimit : Dyadic64 := ⟨false, leastFull, 11, by decide⟩

@[simp] theorem units_zero (negative : Bool) : (zero negative).units = 0 := by
  cases negative <;> simp [zero, units, magnitude]

@[simp] theorem units_negate (x : Dyadic64) : x.negate.units = -x.units := by
  cases h : x.negative <;> simp [negate, units, magnitude, h]

end Dyadic64

/-- A 64-bit binary floating-point number. -/
inductive Binary64 where
  /-- The value that is no number. -/
  | nan
  /-- An infinity. -/
  | infinite (negative : Bool)
  /-- A finite number. -/
  | finite (x : Dyadic64)
  deriving DecidableEq, Repr

namespace Binary64

/-- Neither infinite nor the value that is no number. -/
def isFinite : Binary64 → Bool
  | finite _ => true
  | _ => false

/-- The finite number, if it is one. -/
def finite? : Binary64 → Option Dyadic64
  | finite x => some x
  | _ => none

/-- The infinity of a sign is beyond every number on its side. -/
def beside (negative : Bool) : Ordering := if negative then .lt else .gt

/-- The exact order of two numbers; none if either is no number. -/
def compare? : Binary64 → Binary64 → Option Ordering
  | nan, _ | _, nan => none
  | infinite a, infinite b => some (if a == b then .eq else beside a)
  | infinite a, finite _ => some (beside a)
  | finite _, infinite b => some (beside b).swap
  | finite x, finite y => some (compare x.units y.units)

/-- The order of an integer of 64 bits and a number; none if the latter is no number. A number beyond
those integers decides by its side. Any other is cut to its integer part, which is such an integer, and
where the two are equal the fraction decides. -/
def compareInt64? (i : Int64) : Binary64 → Option Ordering
  | nan => none
  | infinite b => some (beside b).swap
  | finite x =>
    if Dyadic64.wordLimit.units ≤ x.units then some .lt
    else if x.units < -Dyadic64.wordLimit.units then some .gt
    else some ((compare i.toInt (Int64.ofInt x.whole).toInt).then (compare 0 x.fraction))

end Binary64

end RecordFilter.Number
