import RecordFilter.Filter.Basic
import RecordFilter.Matching.Comparison
import RecordFilter.Matching.Resolve

/-!
# Condition — whether a clause holds of a record

A clause whose subject or object leads nowhere claims nothing true; the negated operators say that
the positive clause does not hold, and so they hold there. A test looks at the operator and the
object together and refuses a pair that does not fit. A pattern is compiled when a string has to be
matched, so a pattern that the compiler refuses is a fault only there.

* `Clause.test` — the outcome of a clause for a record, or its fault.
* `Operator.relates` — what a comparing operator says of two scalars.
* `Object.admits` — what an operator and an object say of the subject's value.
* `Clause.holds` — whether a clause holds of a record.
* `Clause.fault?` — the fault of a clause whose pattern is refused.
* `Clause.test_eq` — a test shows that fault or gives that outcome, as the object of a clause fits.
-/

namespace RecordFilter

/-- Whether a scalar is one of the values; in an array of a record, what is no scalar is passed
over. -/
def ArrayObject.contains (record : Json) (subject : Scalar) : ArrayObject → Bool
  | literals values => values.any subject.equals
  | field path =>
    match record.resolve? path with
    | some (.array items) => (items.filterMap Json.scalar?).any subject.equals
    | _ => false

/-- Whether a scalar lies between the bounds. -/
def Range.contains (r : Range) (subject : Scalar) : Bool :=
  subject.isAtLeast r.lower && subject.isAtMost r.upper

/-- Whether a scalar is a string that the pattern covers. -/
def Wildcard.covers (w : Wildcard) : Scalar → Bool
  | .string text => w.isMatch text
  | _ => false

/-- Whether a value is there and is a string that the pattern covers. Only for a string is the
pattern compiled. -/
def Wildcard.test (compiler : Compiler) (w : Wildcard) : Option Scalar → Except Malformed Bool
  | some (.string text) =>
    match compiler.refusal? w.atoms with
    | some message => .error (.refusedPattern w.pattern message)
    | none => .ok (w.isMatch text)
  | _ => .ok false

/-- Whether both values are there and the test holds of them. -/
def Scalar.compared (test : Scalar → Scalar → Bool) (subject object : Option Scalar) : Bool :=
  match subject, object with
  | some a, some b => test a b
  | _, _ => false

/-- The outcome for a record of a clause whose operator is taken as the given positive one. -/
def Clause.testAs (compiler : Wildcard.Compiler) (c : Clause) (operator : Operator) (record : Json) :
    Except Malformed Bool :=
  let subject := c.subject.value? record
  match operator, c.object with
  | .eq, .operand o => .ok (Scalar.compared Scalar.equals subject (o.value? record))
  | .gt, .operand o => .ok (Scalar.compared Scalar.isGreater subject (o.value? record))
  | .gte, .operand o => .ok (Scalar.compared Scalar.isAtLeast subject (o.value? record))
  | .lt, .operand o => .ok (Scalar.compared Scalar.isLess subject (o.value? record))
  | .lte, .operand o => .ok (Scalar.compared Scalar.isAtMost subject (o.value? record))
  | .isIn, .array a => .ok (subject.any (a.contains record))
  | .between, .range r => .ok (subject.any r.contains)
  | .like, .like w => w.test compiler subject
  | operator, object => .error (.objectMismatch operator object.describe)

/-- The outcome of a clause for a record. -/
def Clause.test (compiler : Wildcard.Compiler) (c : Clause) (record : Json) : Except Malformed Bool :=
  (c.testAs compiler c.operator.positive record).map fun outcome =>
    if c.operator.isNegated then !outcome else outcome

/-! ## What a clause says -/

/-- What a comparing operator says of two scalars; the other operators say nothing of them. -/
def Operator.relates : Operator → Scalar → Scalar → Bool
  | eq => Scalar.equals
  | gt => Scalar.isGreater
  | gte => Scalar.isAtLeast
  | lt => Scalar.isLess
  | lte => Scalar.isAtMost
  | _ => fun _ _ => false

/-- What a positive operator and an object say of the subject's value. -/
def Object.admits (record : Json) (operator : Operator) (subject : Scalar) : Object → Bool
  | operand o => (o.value? record).any (operator.relates subject)
  | array a => a.contains record subject
  | range r => r.contains subject
  | like w => w.covers subject

/-- Whether the clause holds of the record with its operator taken as positive. -/
def Clause.holdsPositively (c : Clause) (record : Json) : Bool :=
  (c.subject.value? record).any fun subject => c.object.admits record c.operator.positive subject

/-- Whether the clause holds of the record. -/
def Clause.holds (c : Clause) (record : Json) : Bool :=
  if c.operator.isNegated then !c.holdsPositively record else c.holdsPositively record

theorem Scalar.compared_eq (test : Scalar → Scalar → Bool) (subject object : Option Scalar) :
    compared test subject object = subject.any fun a => object.any (test a) := by
  cases subject <;> cases object <;> rfl

/-- The fault that shows where a value is matched against a pattern: the pattern is refused, and the
value is a string. -/
def Wildcard.fault? (compiler : Compiler) (w : Wildcard) : Option Scalar → Option Malformed
  | some (.string _) => (compiler.refusal? w.atoms).map (.refusedPattern w.pattern)
  | _ => none

/-- The fault that a clause shows for a record. -/
def Clause.fault? (compiler : Wildcard.Compiler) (c : Clause) (record : Json) : Option Malformed :=
  match c.object with
  | .like w => w.fault? compiler (c.subject.value? record)
  | _ => none

theorem Wildcard.test_eq (compiler : Compiler) (w : Wildcard) (subject : Option Scalar) :
    w.test compiler subject = (w.fault? compiler subject).elim (.ok (subject.any w.covers)) .error := by
  cases subject with
  | none => rfl
  | some a =>
    cases a with
    | string text =>
      rw [test, fault?]
      cases compiler.refusal? w.atoms <;> rfl
    | _ => rfl

theorem Clause.testAs_positive (compiler : Wildcard.Compiler) (c : Clause) (record : Json) :
    c.testAs compiler c.operator.positive record =
      (c.fault? compiler record).elim (.ok (c.holdsPositively record)) .error := by
  obtain ⟨subject, operator, object, fits⟩ := c
  cases object <;> cases operator <;>
    simp only [Object.shape, Operator.shape, reduceCtorEq] at fits <;>
    simp only [testAs, Operator.positive, Scalar.compared_eq, Wildcard.test_eq] <;> rfl

/-- A test shows the fault of a clause, or gives its outcome. -/
theorem Clause.test_eq (compiler : Wildcard.Compiler) (c : Clause) (record : Json) :
    c.test compiler record = (c.fault? compiler record).elim (.ok (c.holds record)) .error := by
  rw [test, testAs_positive, holds]
  cases c.fault? compiler record <;> rfl

theorem Clause.test_eq_ok {compiler : Wildcard.Compiler} {c : Clause} {record : Json}
    (h : c.fault? compiler record = none) : c.test compiler record = .ok (c.holds record) := by
  rw [test_eq, h]
  rfl

theorem Clause.test_eq_error {compiler : Wildcard.Compiler} {c : Clause} {record : Json} {fault : Malformed}
    (h : c.fault? compiler record = some fault) : c.test compiler record = .error fault := by
  rw [test_eq, h]
  rfl

end RecordFilter
