import RecordFilter.Filter.Clause

/-!
# Build — clauses step by step

Each step names its subject and its operator, and takes an object of the shape that the operator
wants; what is left to check is whether the literals can be written. A pair of a subject and an
operator that is only known later takes any object.

* `Operand.eq` … `Operand.notLike` — a subject with each of the operators.
* `Pending`, `Pending.object` — a subject and an operator that wait for their object.
-/

namespace RecordFilter.Operand

/-- The subject equals the operand. -/
def eq (subject object : Operand) : Except ConstructionError Clause :=
  Clause.make subject .eq (.operand object)

/-- The subject does not equal the operand. -/
def neq (subject object : Operand) : Except ConstructionError Clause :=
  Clause.make subject .neq (.operand object)

/-- The subject is greater than the operand. -/
def gt (subject object : Operand) : Except ConstructionError Clause :=
  Clause.make subject .gt (.operand object)

/-- The subject is greater than the operand or equal to it. -/
def gte (subject object : Operand) : Except ConstructionError Clause :=
  Clause.make subject .gte (.operand object)

/-- The subject is less than the operand. -/
def lt (subject object : Operand) : Except ConstructionError Clause :=
  Clause.make subject .lt (.operand object)

/-- The subject is less than the operand or equal to it. -/
def lte (subject object : Operand) : Except ConstructionError Clause :=
  Clause.make subject .lte (.operand object)

/-- The subject is one of the values. -/
def isIn (subject : Operand) (values : List Scalar) : Except ConstructionError Clause :=
  Clause.make subject .isIn (.array (.literals values))

/-- The subject is none of the values. -/
def notIn (subject : Operand) (values : List Scalar) : Except ConstructionError Clause :=
  Clause.make subject .notIn (.array (.literals values))

/-- The subject is an item of the array that the field holds. -/
def inField (subject : Operand) (path : FieldPath) : Except ConstructionError Clause :=
  Clause.make subject .isIn (.array (.field path))

/-- The subject lies between the bounds. -/
def between (subject : Operand) (lower upper : Scalar) : Except ConstructionError Clause := do
  Clause.make subject .between (.range (← Range.make lower upper))

/-- The subject does not lie between the bounds. -/
def notBetween (subject : Operand) (lower upper : Scalar) : Except ConstructionError Clause := do
  Clause.make subject .notBetween (.range (← Range.make lower upper))

/-- The subject is a string that the pattern covers. -/
def like (subject : Operand) (pattern : String) : Except ConstructionError Clause :=
  Clause.make subject .like (.like ⟨pattern⟩)

/-- The subject is no string that the pattern covers. -/
def notLike (subject : Operand) (pattern : String) : Except ConstructionError Clause :=
  Clause.make subject .notLike (.like ⟨pattern⟩)

end RecordFilter.Operand

namespace RecordFilter

/-- A subject and an operator that wait for their object. -/
structure Pending where
  subject : Operand
  operator : Operator

/-- The clause with the given object. -/
def Pending.object (p : Pending) (object : Object) : Except ConstructionError Clause :=
  Clause.make p.subject p.operator object

end RecordFilter
