import RecordFilter.Filter.Clause
import RecordFilter.Json.Basic
import RecordFilter.Number.Rounding

/-!
# Resolve — what a record holds at a path

A path is followed step by step: a name leads to the member of an object, a position to the item of
an array or, in an object, to the member that has the position's digits as its name. A path that
leads nowhere has no value, nor has one that ends at `null`.

* `Json.follow?` — where a row of segments leads.
* `Json.resolve?` — the value at a path.
* `Json.scalar?`, `Operand.value?` — the scalar to compare.
-/

namespace RecordFilter

open Number

namespace Json

/-- The value of the member called `name`. -/
def member? (name : String) : Json → Option Json
  | object members => members.lookup name
  | _ => none

/-- The item at a position, counted from 0. -/
def item? (position : Nat) : Json → Option Json
  | array items => items[position]?
  | _ => none

/-- Where one segment leads. -/
def step? (v : Json) : Segment → Option Json
  | .key name => v.member? name
  | .index position => (v.item? position.toNat).or (v.member? (Segment.index position).name)

/-- Where a row of segments leads. -/
def follow? (v : Json) : List Segment → Option Json
  | [] => some v
  | s :: rest => (v.step? s).bind fun w => w.follow? rest

/-- Whether the value is `null`. -/
def isNull : Json → Bool
  | null => true
  | _ => false

/-- The value at a path. -/
def resolve? (record : Json) (path : FieldPath) : Option Json :=
  (record.follow? path.segments).filter fun v => !v.isNull

end Json

/-- A number as a scalar. An integer beyond the signed 64 bits is rounded. -/
def JsonNumber.scalar : JsonNumber → Scalar
  | int i => .int i
  | large n _ => .float (ofNat n.toNat)
  | real x => .float (.finite x)

/-- A string, boolean or number as a scalar. -/
def Json.scalar? : Json → Option Scalar
  | string s => some (.string s)
  | bool b => some (.bool b)
  | number n => some n.scalar
  | null | array _ | object _ => none

/-- What an operand stands for in a record. -/
def Operand.value? (record : Json) : Operand → Option Scalar
  | field path => (record.resolve? path).bind Json.scalar?
  | literal value => some value

namespace Json

@[simp] theorem follow?_append (v : Json) (s t : List Segment) :
    v.follow? (s ++ t) = (v.follow? s).bind fun w => w.follow? t := by
  induction s generalizing v with
  | nil => rfl
  | cons first rest ih => cases h : v.step? first <;> simp [follow?, h, ih]

end Json

end RecordFilter
