import RecordFilter.Number.Rounding

/-!
# Numeral — decimal numbers as they are written

A numeral is an optional minus sign, digits, an optional fraction and an optional exponent. What
begins a text is split off as far as the form allows: a point without digits after it, or an
exponent without digits, is left in the rest.

* `Numeral` — the parts of a numeral as written.
* `Numeral.chars` — the numeral as it was written.
* `Numeral.split?` — the longest numeral at the start of a text, and the rest.
* `Numeral.integerValue`, `Numeral.toBinary64` — the values.
* `int64?`, `word64?` — integers that 64 bits hold.
-/

namespace RecordFilter.Number

/-- The value of a digit. -/
def digitValue (c : Char) : Nat := c.toNat - '0'.toNat

/-- The value of digits read after a number. -/
def digitsValueFrom (n : Nat) (ds : List Char) : Nat :=
  ds.foldl (fun n c => 10 * n + digitValue c) n

/-- The value of a row of digits. -/
def digitsValue (ds : List Char) : Nat := digitsValueFrom 0 ds

/-- The exponent of a numeral: its mark, the sign if one is written, and its digits. -/
structure Exponent where
  mark : Char
  sign : Option Char
  digits : List Char
  deriving DecidableEq, Repr

/-- A numeral: sign, whole digits, the digits of the fraction, and the exponent. -/
structure Numeral where
  negative : Bool
  whole : List Char
  fraction : Option (List Char)
  exponent : Option Exponent
  deriving DecidableEq, Repr

/-- The exponent as written. -/
def Exponent.chars (e : Exponent) : List Char := e.mark :: e.sign.toList ++ e.digits

/-- The power of ten that the exponent names. -/
def Exponent.value (e : Exponent) : Int :=
  if e.sign = some '-' then -(digitsValue e.digits : Int) else digitsValue e.digits

/-- Splits a fraction off: a point and the digits after it. -/
def splitFraction : List Char → Option (List Char) × List Char
  | '.' :: rest =>
    match rest.takeWhile Char.isDigit with
    | [] => (none, '.' :: rest)
    | ds => (some ds, rest.dropWhile Char.isDigit)
  | rest => (none, rest)

/-- Splits the sign of an exponent off. -/
def splitSign : List Char → Option Char × List Char
  | '+' :: rest => (some '+', rest)
  | '-' :: rest => (some '-', rest)
  | rest => (none, rest)

/-- Splits an exponent off: its mark, a sign, and the digits. -/
def splitExponent : List Char → Option Exponent × List Char
  | c :: rest =>
    if c == 'e' || c == 'E' then
      let (sign, after) := splitSign rest
      match after.takeWhile Char.isDigit with
      | [] => (none, c :: rest)
      | ds => (some ⟨c, sign, ds⟩, after.dropWhile Char.isDigit)
    else (none, c :: rest)
  | [] => (none, [])

namespace Numeral

/-- The numeral as written. -/
def chars (n : Numeral) : List Char :=
  (if n.negative then ['-'] else []) ++ n.whole
    ++ (match n.fraction with | some ds => '.' :: ds | none => [])
    ++ (match n.exponent with | some e => e.chars | none => [])

/-- Splits the digits, the fraction and the exponent off, after the sign. -/
def splitUnsigned? (negative : Bool) (s : List Char) : Option (Numeral × List Char) :=
  match s.takeWhile Char.isDigit with
  | [] => none
  | whole =>
    let (fraction, afterFraction) := splitFraction (s.dropWhile Char.isDigit)
    let (exponent, rest) := splitExponent afterFraction
    some (⟨negative, whole, fraction, exponent⟩, rest)

/-- The longest numeral that begins the text, and what follows it. -/
def split? : List Char → Option (Numeral × List Char)
  | '-' :: rest => splitUnsigned? true rest
  | s => splitUnsigned? false s

/-- Neither a fraction nor an exponent is written. -/
def isWhole (n : Numeral) : Bool := n.fraction.isNone && n.exponent.isNone

/-- The integer that a numeral without fraction and exponent denotes. -/
def integerValue (n : Numeral) : Int :=
  if n.negative then -(digitsValue n.whole : Int) else digitsValue n.whole

/-- All digits before the exponent, as one number. -/
def coefficient (n : Numeral) : Nat := digitsValue (n.whole ++ n.fraction.getD [])

/-- The power of ten that scales the coefficient. -/
def scale (n : Numeral) : Int :=
  ((n.exponent.map Exponent.value).getD 0) - (n.fraction.getD []).length

/-- The number nearest to the value of the numeral. -/
def toBinary64 (n : Numeral) : Binary64 := ofDecimal n.negative n.coefficient n.scale

end Numeral

/-- The integers of 64 bits with a sign. -/
def int64? (i : Int) : Option Int64 :=
  if -0x8000000000000000 ≤ i ∧ i < 0x8000000000000000 then some (Int64.ofInt i) else none

/-- The natural number that digits with an optional plus sign spell, if 64 bits hold it. -/
def word64? (s : List Char) : Option UInt64 :=
  let ds := match s with
    | '+' :: rest => rest
    | ds => ds
  if !ds.isEmpty && ds.all Char.isDigit && digitsValue ds < UInt64.size then
    some (UInt64.ofNat (digitsValue ds))
  else none

end RecordFilter.Number
