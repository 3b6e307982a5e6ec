import RecordFilter.Number.Binary64

/-!
# Rounding — an exact value, rounded once to the nearest number

Every operation here computes its result exactly, as a quotient of naturals, and rounds it once:
to the nearest number, of two equally near ones to that with the even mantissa, beyond the largest
one to an infinity.

* `roundQuotient` — a quotient to the nearest integer, a half to the even one.
* `roundRatio` — a quotient to the nearest number.
* `ofNat`, `ofDecimal` — an integer, and digits with a power of ten.
* `Dyadic64.mul`, `Dyadic64.div` — product and quotient.
-/

namespace RecordFilter.Number

/-- The integer nearest to `num / den`; a half goes to the even neighbour. -/
def roundQuotient (num den : Nat) : Nat :=
  let q := num / den
  let twice := 2 * (num % den)
  if twice < den || (twice == den && q % 2 == 0) then q else q + 1

/-- The number with these parts; beyond the largest mantissa and exponent, an infinity. -/
def Binary64.ofParts (negative : Bool) (mantissa : Nat) (exponent : Int) : Binary64 :=
  if h : Canonical mantissa exponent then .finite ⟨negative, mantissa, exponent, h⟩
  else .infinite negative

/-- The exponent that scales `num / den` to 53 binary digits, or the least one. -/
def scaleExponent (num den : Nat) : Int :=
  let low : Int := (num.log2 : Int) - den.log2 - 53
  let quotient := num * Nat.pow 2 (-low).toNat / (den * Nat.pow 2 low.toNat)
  max (if quotient < 2 * leastFull then low else low + 1) (-1074)

/-- The number nearest to `num / den`, with the given sign; `den` is positive. -/
def roundRatio (negative : Bool) (num den : Nat) : Binary64 :=
  if num == 0 then .finite (.zero negative) else
  let exponent := scaleExponent num den
  let mantissa :=
    roundQuotient (num * Nat.pow 2 (-exponent).toNat) (den * Nat.pow 2 exponent.toNat)
  if mantissa == 2 * leastFull then .ofParts negative leastFull (exponent + 1)
  else .ofParts negative mantissa exponent

/-- The number nearest to a natural. -/
def ofNat (n : Nat) : Binary64 := roundRatio false n 1

/-- The number nearest to `digits * 10 ^ exponent`, with the given sign. A value of at least
`10 ^ 400` is beyond every finite number and one below `10 ^ -400` nearer to zero than to any
other, so powers of ten outside that range are never computed. -/
def ofDecimal (negative : Bool) (digits : Nat) (exponent : Int) : Binary64 :=
  if digits == 0 then .finite (.zero negative)
  else if 400 ≤ exponent then .infinite negative
  else if exponent + digits.log2 + 1 < -400 then .finite (.zero negative)
  else roundRatio negative (digits * Nat.pow 10 exponent.toNat) (Nat.pow 10 (-exponent).toNat)

/-- A power of two as a quotient. -/
def twoPower (exponent : Int) : Nat × Nat := (Nat.pow 2 exponent.toNat, Nat.pow 2 (-exponent).toNat)

namespace Dyadic64

/-- The number nearest to the product. -/
def mul (x y : Dyadic64) : Binary64 :=
  let p := twoPower (x.exponent + y.exponent)
  roundRatio (x.negative != y.negative) (x.mantissa * y.mantissa * p.1) p.2

/-- The number nearest to the quotient; `y` is not zero. -/
def div (x y : Dyadic64) : Binary64 :=
  let p := twoPower (x.exponent - y.exponent)
  roundRatio (x.negative != y.negative) (x.mantissa * p.1) (y.mantissa * p.2)

end Dyadic64

example : ofNat 9007199254740993 = ofNat 9007199254740992 := by decide +kernel

example : ofDecimal false 24703282292062328 (-340) = .ofParts false 1 (-1074) := by decide +kernel

end RecordFilter.Number
