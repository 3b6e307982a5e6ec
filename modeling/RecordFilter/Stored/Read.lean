import RecordFilter.Expression.Parse
import RecordFilter.Matching.Resolve

/-!
# Reading stored filters — a JSON value as a filter

An object's members are read in the order of their names, other members are passed over, and a
missing member shows only after those that are there. In the stead of an object with fixed members
an array may hold their values, all of them and in their fixed order; what is left over shows last.
A choice between several forms is an object with exactly one member. Every literal, path, range and
clause is checked as in construction, the row of statements is not.

* `StoredFault` — why a value is no stored filter.
* `Scalar.ofJson`, `FieldPath.ofJson`, … — the parts.
* `Filter.ofJson` — the whole.
-/

namespace RecordFilter

open Number

/-- Why a JSON value is no stored filter or part of one. -/
inductive StoredFault where
  /-- The value has another form. -/
  | form
  /-- A text is no path. -/
  | path (error : ParseError)
  /-- The parts make no range or clause. -/
  | construction (error : ConstructionError)
  deriving DecidableEq, Repr

/-- The wording of a fault; none for a value of another form. -/
def StoredFault.message? : StoredFault → Option String
  | form => none
  | path error => some error.message
  | construction error => some error.message

/-- A literal: a string, a boolean or a number. -/
def Scalar.ofJson (v : Json) : Except StoredFault Scalar :=
  match v.scalar? with
  | some value => .ok value
  | none => .error .form

/-- A path as its text. -/
def FieldPath.ofJson : Json → Except StoredFault FieldPath
  | .string text => (FieldPath.ofText text).mapError .path
  | _ => .error .form

/-- The name of a form without content: a string, or an object with one member that is `null`. -/
def Json.bareTag? : Json → Option String
  | .string tag => some tag
  | .object [(tag, .null)] => some tag
  | _ => none

/-- An operator as its word. -/
def Operator.ofJson (v : Json) : Except StoredFault Operator :=
  match v.bareTag?.bind Keyword.find? with
  | some (.operator o) => .ok o
  | _ => .error .form

/-- A joiner as its word. -/
def Joiner.ofJson (v : Json) : Except StoredFault Joiner :=
  match v.bareTag?.bind Keyword.find? with
  | some (.joiner j) => .ok j
  | _ => .error .form

/-- An operand. -/
def Operand.ofJson : Json → Except StoredFault Operand
  | .object [("target", v)] => (FieldPath.ofJson v).map .field
  | .object [("literal", v)] => (Scalar.ofJson v).map .literal
  | _ => .error .form

/-- A part that has to be there. -/
def required {α : Type} : Option α → Except StoredFault α
  | some value => .ok value
  | none => .error .form

/-- Reads a part if it is there. -/
def readPart {α : Type} (read : Json → Except StoredFault α) :
    Option Json → Except StoredFault (Option α)
  | some v => (read v).map some
  | none => .ok none

/-- A range from its bounds. -/
def Range.ofParts (lower upper : Option Scalar) : Except StoredFault Range := do
  (Range.make (← required lower) (← required upper)).mapError .construction

/-- A range. -/
def Range.ofJson (v : Json) : Except StoredFault Range := do
  match v with
  | .object members =>
    let lower ← readPart Scalar.ofJson (members.lookup "lower")
    let upper ← readPart Scalar.ofJson (members.lookup "upper")
    Range.ofParts lower upper
  | .array items =>
    let lower ← readPart Scalar.ofJson items[0]?
    let upper ← readPart Scalar.ofJson items[1]?
    if items.length ≤ 2 then Range.ofParts lower upper else .error .form
  | _ => .error .form

/-- The values to choose from. -/
def ArrayObject.ofJson : Json → Except StoredFault ArrayObject
  | .object [("literals", .array items)] => (items.mapM Scalar.ofJson).map .literals
  | .object [("target", v)] => (FieldPath.ofJson v).map .field
  | _ => .error .form

/-- An object of a clause. -/
def Object.ofJson : Json → Except StoredFault Object
  | .object [("operand", v)] => (Operand.ofJson v).map .operand
  | .object [("array", v)] => (ArrayObject.ofJson v).map .array
  | .object [("range", v)] => (Range.ofJson v).map .range
  | .object [("like", .string pattern)] => .ok (.like ⟨pattern⟩)
  | _ => .error .form

/-- A clause from its parts. -/
def Clause.ofParts (subject : Option Operand) (operator : Option Operator)
    (object : Option Object) : Except StoredFault Clause := do
  (Clause.make (← required subject) (← required operator) (← required object)).mapError
    .construction

/-- A clause. -/
def Clause.ofJson (v : Json) : Except StoredFault Clause := do
  match v with
  | .object members =>
    let object ← readPart Object.ofJson (members.lookup "object")
    let operator ← readPart Operator.ofJson (members.lookup "operator")
    let subject ← readPart Operand.ofJson (members.lookup "subject")
    Clause.ofParts subject operator object
  | .array items =>
    let subject ← readPart Operand.ofJson items[0]?
    let operator ← readPart Operator.ofJson items[1]?
    let object ← readPart Object.ofJson items[2]?
    if items.length ≤ 3 then Clause.ofParts subject operator object else .error .form
  | _ => .error .form

/-- A joiner, or `null` for none. -/
def joinerOfJson : Json → Except StoredFault (Option Joiner)
  | .null => .ok none
  | v => (Joiner.ofJson v).map some

mutual

/-- A condition or group. -/
def Node.ofJson : Json → Except StoredFault Node
  | .object [(tag, v)] =>
    if tag = "clause" then (Clause.ofJson v).map .clause
    else if tag = "group" then (Filter.ofJson v).map .group
    else .error .form
  | _ => .error .form

/-- A statement. -/
def Statement.ofJson : Json → Except StoredFault Statement
  | .object members => do
    let joiner ← readPart joinerOfJson (members.lookup "conjunctive")
    let node ← Statement.nodeOfMembers members
    return ⟨joiner.join, node⟩
  | .array (joiner :: node :: rest) => do
    let joiner ← joinerOfJson joiner
    let node ← Node.ofJson node
    if rest.isEmpty then return ⟨joiner, node⟩ else .error .form
  | _ => .error .form

/-- The node among the members of a statement. -/
def Statement.nodeOfMembers : List (String × Json) → Except StoredFault Node
  | [] => .error .form
  | (name, v) :: rest => if name = "node" then Node.ofJson v else Statement.nodeOfMembers rest

/-- A filter. -/
def Filter.ofJson : Json → Except StoredFault Filter
  | .object members => (Filter.statementsOfMembers members).map .mk
  | .array (v :: rest) => do
    let statements ← Filter.statementsOfJson v
    if rest.isEmpty then return ⟨statements⟩ else .error .form
  | _ => .error .form

/-- The statements among the members of a filter. -/
def Filter.statementsOfMembers : List (String × Json) → Except StoredFault (List Statement)
  | [] => .error .form
  | (name, v) :: rest =>
    if name = "statements" then Filter.statementsOfJson v else Filter.statementsOfMembers rest

/-- A row of statements as a value. -/
def Filter.statementsOfJson : Json → Except StoredFault (List Statement)
  | .array items => Filter.statementsOfItems items
  | _ => .error .form

/-- A row of statements as the items of an array. -/
def Filter.statementsOfItems : List Json → Except StoredFault (List Statement)
  | [] => .ok []
  | v :: rest => do
    let first ← Statement.ofJson v
    return first :: (← Filter.statementsOfItems rest)

end

end RecordFilter
