import RecordFilter.Number.Shortest

/-!
# Layout — how the digits of a number are set out

A number is written positionally where its leading digit lies in a certain range, with at least
one digit after the point, and otherwise with one digit before the point and an exponent.

* `Layout` — the decisions of one format.
* `Layout.write` — a finite number in that format.
-/

namespace RecordFilter.Number

/-- The decisions of a number format. -/
structure Layout where
  /-- Which of two equally near decimals is taken. -/
  tie : Tie
  /-- The least power of ten of a leading digit that is written positionally. -/
  plainFrom : Int
  /-- The first power of ten of a leading digit beyond the positional range. -/
  plainBelow : Int
  /-- Whether a positive exponent carries a plus sign. -/
  plus : Bool
  deriving DecidableEq, Repr

/-- The decimal digits of a natural. -/
def naturalChars (n : Nat) : List Char := Nat.toDigits 10 n

/-- The decimal digits of an integer, after a minus sign if it is negative. -/
def integerChars (i : Int) : List Char :=
  if i < 0 then '-' :: naturalChars i.natAbs else naturalChars i.natAbs

namespace Layout

/-- The digits with the point after the first `point` of them; zeros fill in on either side. -/
def positional (digits : List Char) (point : Int) : List Char :=
  if point ≤ 0 then '0' :: '.' :: (List.replicate (-point).toNat '0' ++ digits)
  else
    let n := point.toNat
    if digits.length ≤ n then digits ++ List.replicate (n - digits.length) '0' ++ ['.', '0']
    else digits.take n ++ '.' :: digits.drop n

/-- One digit before the point, the others behind it if there are any, and the exponent. -/
def scientific (l : Layout) (digits : List Char) (exponent : Int) : List Char :=
  let tail := digits.drop 1
  digits.take 1 ++ (if tail.isEmpty then [] else '.' :: tail)
    ++ 'e' :: (if l.plus && 0 ≤ exponent then ['+'] else []) ++ integerChars exponent

/-- The magnitude that the decimal stands for. -/
def writeDecimal (l : Layout) (d : Decimal) : List Char :=
  let digits := naturalChars d.digits
  let point : Int := digits.length + d.exponent
  if d.digits == 0 then ['0', '.', '0']
  else if l.plainFrom < point && point ≤ l.plainBelow then positional digits point
  else l.scientific digits (point - 1)

/-- A finite number in the layout. -/
def write (l : Layout) (x : Dyadic64) : List Char :=
  (if x.negative then ['-'] else []) ++ l.writeDecimal (x.shortest l.tie)

end Layout

end RecordFilter.Number
