import RecordFilter.Number.Numeral

/-!
# Shortest — the fewest decimal digits that read back

A finite number is written with the fewest digits whose decimal value rounds to it again; of two
such decimals the nearer one is taken, and of two equally near ones the one that a rule names. On
the grid of decimals with `n` digits only the two neighbours of the number can be nearest, so the
search looks at these, for one digit, two digits, and so on.

* `Decimal` — digits and a power of ten.
* `Tie` — which of two equally near decimals is taken.
* `Dyadic64.shortest` — the decimal that is written.
-/

namespace RecordFilter.Number

/-- The number `digits * 10 ^ exponent`. -/
structure Decimal where
  digits : Nat
  exponent : Int
  deriving DecidableEq, Repr

/-- Which of two equally near decimals is taken. -/
inductive Tie where
  /-- The one with the even last digit. -/
  | even
  /-- The one farther from zero. -/
  | up
  deriving DecidableEq, Repr

/-- The same value with the trailing zeros of the digits moved into the exponent; at most `n`
zeros are moved. -/
def Decimal.strip : Nat → Decimal → Decimal
  | n + 1, d => if d.digits % 10 == 0 && d.digits != 0 then strip n ⟨d.digits / 10, d.exponent + 1⟩ else d
  | 0, d => d

namespace Dyadic64

/-- Whether the decimal rounds to the magnitude of `x`. -/
def readsBack (x : Dyadic64) (d : Decimal) : Bool :=
  ofDecimal x.negative d.digits d.exponent == .finite x

/-- The magnitude as a quotient. -/
def ratio (x : Dyadic64) : Nat × Nat :=
  let p := twoPower x.exponent
  (x.mantissa * p.1, p.2)

/-- The least power of ten above the magnitude: an estimate from the binary length, at most a few
too low, is raised until it is reached. -/
def decade (x : Dyadic64) : Int :=
  let (num, den) := x.ratio
  let start : Int := ((num.log2 : Int) - den.log2) * 30103 / 100000 - 1
  let above (k : Int) : Bool := num * Nat.pow 10 (-k).toNat < den * Nat.pow 10 k.toNat
  match [start, start + 1, start + 2].find? above with
  | some k => k
  | none => start + 3

/-- The nearest decimal that reads back among those with `n` digits. -/
def onGrid? (x : Dyadic64) (tie : Tie) (n : Nat) : Option Decimal :=
  let exponent := x.decade - n
  let num := x.ratio.1 * Nat.pow 10 (-exponent).toNat
  let den := x.ratio.2 * Nat.pow 10 exponent.toNat
  let low : Decimal := ⟨num / den, exponent⟩
  let high : Decimal := ⟨num / den + 1, exponent⟩
  match x.readsBack low, x.readsBack high with
  | false, false => none
  | true, false => some low
  | false, true => some high
  | true, true =>
    match compare (2 * (num % den)) den with
    | .lt => some low
    | .gt => some high
    | .eq => if tie = .even ∧ low.digits % 2 = 0 then some low else some high

/-- The exact value as a decimal. -/
def exact (x : Dyadic64) : Decimal :=
  if 0 ≤ x.exponent then ⟨x.mantissa * Nat.pow 2 x.exponent.toNat, 0⟩
  else ⟨x.mantissa * Nat.pow 5 (-x.exponent).toNat, x.exponent⟩

/-- The decimal that is written for the magnitude: on the coarsest of the grids of 1 to 17 digits
that has one that reads back; without one, the exact value. -/
def shortest (x : Dyadic64) (tie : Tie) : Decimal :=
  if x.isZero then ⟨0, 0⟩
  else (((List.range' 1 17).findSome? (x.onGrid? tie)).getD x.exact).strip 17

end Dyadic64

end RecordFilter.Number
