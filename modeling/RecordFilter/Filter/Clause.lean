import RecordFilter.Filter.Construction
import RecordFilter.Filter.Wildcard

/-!
# Clause — one condition on a record

A clause says something of a subject: that it compares in some way with a value, is one of several
values, lies between two bounds or has a certain form. The operator fixes the shape of the object,
and a clause always has an object of that shape.

* `Operand`, `Range`, `ArrayObject`, `Object`, `Clause` — the parts and the whole.
* `Range.make`, `Clause.make` — construction with every check.
* `Clause.paths` — the paths that a clause reads.
-/

namespace RecordFilter

/-- A value that a clause compares: what a field holds, or a literal. -/
inductive Operand where
  | field (path : FieldPath)
  | literal (value : Scalar)
  deriving DecidableEq, Repr

/-- Two bounds, both included: two strings or two numbers. -/
structure Range where
  lower : Scalar
  upper : Scalar
  alike : lower.isAlike upper = true
  deriving DecidableEq, Repr

/-- The values that something may be one of. -/
inductive ArrayObject where
  | literals (values : List Scalar)
  | field (path : FieldPath)
  deriving DecidableEq, Repr

/-- What stands to the right of an operator. -/
inductive Object where
  | operand (operand : Operand)
  | array (array : ArrayObject)
  | range (range : Range)
  | like (wildcard : Wildcard)
  deriving DecidableEq, Repr

namespace Object

/-- The shape of an object. -/
def shape : Object → Shape
  | operand _ => .compare
  | array _ => .array
  | range _ => .range
  | like _ => .search

/-- What an object is called in an error. -/
def describe : Object → String
  | operand (.field _) => "a field reference"
  | operand (.literal _) => "a literal"
  | array (.literals _) => "a literal list"
  | array (.field _) => "an array field reference"
  | range _ => "a range"
  | like _ => "a pattern"

/-- Whether every literal of an object can be written. -/
def check : Object → Except ConstructionError Unit
  | operand (.literal value) => value.check
  | array (.literals values) => values.forM Scalar.check
  | range r => do r.lower.check; r.upper.check
  | like w => checkString w.pattern
  | operand (.field _) | array (.field _) => .ok ()

/-- A field given where an array is expected is the field of an array. -/
def forShape (shape : Shape) : Object → Object
  | operand (.field path) => if shape = .array then array (.field path) else operand (.field path)
  | object => object

end Object

/-- Whether the literals of an operand can be written. -/
def Operand.check : Operand → Except ConstructionError Unit
  | .literal value => value.check
  | .field _ => .ok ()

/-- The range between two bounds, which are both strings or both numbers. A range whose lower
bound is the greater one holds nothing. -/
def Range.make (lower upper : Scalar) : Except ConstructionError Range := do
  lower.check
  upper.check
  if alike : lower.isAlike upper then return ⟨lower, upper, alike⟩
  else throw (.rangeBounds lower.typeName upper.typeName)

/-- A condition: subject, operator and an object of the operator's shape. -/
structure Clause where
  subject : Operand
  operator : Operator
  object : Object
  fits : object.shape = operator.shape
  deriving DecidableEq, Repr

namespace Clause

/-- The clause of a subject, an operator and an object, if the object fits the operator and every
literal can be written. -/
def make (subject : Operand) (operator : Operator) (object : Object) :
    Except ConstructionError Clause :=
  let object := object.forShape operator.shape
  if fits : object.shape = operator.shape then do
    subject.check
    object.check
    return ⟨subject, operator, object, fits⟩
  else throw (.objectMismatch operator object.describe)

/-- The paths of an operand. -/
def operandPaths : Operand → List FieldPath
  | .field path => [path]
  | .literal _ => []

/-- The paths of an object. -/
def objectPaths : Object → List FieldPath
  | .operand o => operandPaths o
  | .array (.field path) => [path]
  | .array (.literals _) | .range _ | .like _ => []

/-- The paths that a clause reads, the subject's first. -/
def paths (c : Clause) : List FieldPath := operandPaths c.subject ++ objectPaths c.object

end Clause

end RecordFilter
