import RecordFilter.Number.Numeral

/-!
# Json — the values that records are made of

Integers that fit 64 bits with a sign, larger ones that fit 64 bits without, and all other numbers
are kept apart. The members of an object that was read stand in the order of their names, each
name once.

* `JsonNumber`, `Json` — numbers and values.
* `Json.insertMember` — a member put in its place, in the stead of one of the same name.
* `JsonNumber.ofNumeral?` — the number that a numeral of a JSON text denotes.
-/

namespace RecordFilter

open Number

/-- A number of a JSON value. -/
inductive JsonNumber where
  /-- An integer of 64 bits with a sign. -/
  | int (value : Int64)
  /-- An integer of 64 bits without a sign that needs the highest bit. -/
  | large (value : UInt64) (above : 0x8000000000000000 ≤ value.toNat)
  /-- Any other number. -/
  | real (value : Dyadic64)
  deriving DecidableEq, Repr

/-- A JSON value. -/
inductive Json where
  | null
  | bool (value : Bool)
  | number (value : JsonNumber)
  | string (value : String)
  | array (items : List Json)
  | object (members : List (String × Json))
  deriving Repr, Inhabited

namespace Json

/-- The members with `key` set to `value`: in the place of an earlier value of that name, or where
the order of names puts it. -/
def insertMember (key : String) (value : Json) : List (String × Json) → List (String × Json)
  | [] => [(key, value)]
  | (k, v) :: rest =>
    if key < k then (key, value) :: (k, v) :: rest
    else if key = k then (key, value) :: rest
    else (k, v) :: insertMember key value rest

end Json

namespace JsonNumber

/-- Reads digits after a number for as long as it stays below `2 ^ 64`; the digits that would
exceed it are left. -/
def leadingDigits (n : Nat) : List Char → Nat × List Char
  | [] => (n, [])
  | d :: ds =>
    let next := 10 * n + digitValue d
    if next < UInt64.size then leadingDigits next ds else (n, d :: ds)

/-- A power of ten as a number, up to `10 ^ 308`. -/
def tenPower? (k : Nat) : Option Dyadic64 := (ofNat (Nat.pow 10 k)).finite?

/-- The number divided by `10 ^ k`, in steps of at most `10 ^ 308`. -/
def scaleDown? (x : Dyadic64) (k : Nat) : Option Dyadic64 :=
  if x.isZero then some x
  else match (tenPower? (min k 308)).bind fun p => (x.div p).finite? with
    | some y => if k ≤ 308 then some y else scaleDown? y (k - 308)
    | none => none
termination_by k

/-- The number times `10 ^ k`; none if that is beyond every finite number. -/
def scaleUp? (x : Dyadic64) (k : Nat) : Option Dyadic64 :=
  if k ≤ 308 then (tenPower? k).bind fun p => (x.mul p).finite?
  else if x.isZero then some x else none

/-- The digits of a numeral that fit 64 bits, rounded, and then multiplied or divided by the
rounded power of ten: each step is correct to the last bit, the whole need not be. -/
def realOf? (n : Numeral) : Option Dyadic64 := do
  let (whole, dropped) := leadingDigits 0 n.whole
  let fraction := n.fraction.getD []
  let (digits, unread) := leadingDigits whole fraction
  let exponent : Int :=
    dropped.length - (fraction.length - unread.length) + ((n.exponent.map Exponent.value).getD 0)
  let x ← (ofNat digits).finite?
  let y ← if 0 ≤ exponent then scaleUp? x exponent.toNat else scaleDown? x (-exponent).toNat
  return if n.negative then y.negate else y

/-- An integer as a number, if 64 bits hold it; negative zero is no integer. -/
def integer? (n : Numeral) : Option JsonNumber :=
  if n.negative && n.integerValue == 0 then none
  else match int64? n.integerValue with
    | some i => some (.int i)
    | none =>
      let value := UInt64.ofNat n.integerValue.toNat
      if h : 0x8000000000000000 ≤ value.toNat then
        if (value.toNat : Int) = n.integerValue then some (.large value h) else none
      else none

/-- The number that a numeral denotes; none for a superfluous leading zero and for a number beyond
every finite one. -/
def ofNumeral? (n : Numeral) : Option JsonNumber :=
  match n.whole with
  | '0' :: _ :: _ => none
  | _ =>
    match if n.isWhole then integer? n else none with
    | some i => some i
    | none => (realOf? n).map .real

end JsonNumber

end RecordFilter
