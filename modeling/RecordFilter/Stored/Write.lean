import RecordFilter.Filter.Basic
import RecordFilter.Json.Basic

/-!
# Stored filters — a filter as a JSON value

A filter is stored as an object with its statements; a choice between several forms is an object
with one member, whose name tells the form. Members stand in a fixed order.

* `Scalar.toJson`, `FieldPath.toJson`, … — the parts.
* `Filter.toJson` — the whole.
-/

namespace RecordFilter

/-- An object with one member, whose name tells the form of its value. -/
def Json.tagged (tag : String) (v : Json) : Json := .object [(tag, v)]

/-- A stored literal. A number that is not finite has no JSON form and is stored as `null`. -/
def Scalar.toJson : Scalar → Json
  | string s => .string s
  | bool b => .bool b
  | int i => .number (.int i)
  | float (.finite x) => .number (.real x)
  | float _ => .null

/-- A stored path is its text. -/
def FieldPath.toJson (p : FieldPath) : Json := .string p.text

/-- A stored operator is its word. -/
def Operator.toJson (o : Operator) : Json := .string o.keyword

/-- A stored joiner is its word. -/
def Joiner.toJson (j : Joiner) : Json := .string j.keyword

/-- A stored operand. -/
def Operand.toJson : Operand → Json
  | field path => .tagged "target" path.toJson
  | literal value => .tagged "literal" value.toJson

/-- A stored range. -/
def Range.toJson (r : Range) : Json := .object [("lower", r.lower.toJson), ("upper", r.upper.toJson)]

/-- The stored values to choose from. -/
def ArrayObject.toJson : ArrayObject → Json
  | literals values => .tagged "literals" (.array (values.map Scalar.toJson))
  | field path => .tagged "target" path.toJson

/-- A stored object of a clause. -/
def Object.toJson : Object → Json
  | operand o => .tagged "operand" o.toJson
  | array a => .tagged "array" a.toJson
  | range r => .tagged "range" r.toJson
  | like w => .tagged "like" (.string w.pattern)

/-- A stored clause. -/
def Clause.toJson (c : Clause) : Json :=
  .object [("subject", c.subject.toJson), ("operator", c.operator.toJson),
    ("object", c.object.toJson)]

/-- What stands for a joiner or its absence. -/
def joinerToJson : Option Joiner → Json
  | some j => j.toJson
  | none => .null

mutual

/-- A stored condition or group. -/
def Node.toJson : Node → Json
  | .clause c => .tagged "clause" c.toJson
  | .group f => .tagged "group" f.toJson

/-- A stored statement. -/
def Statement.toJson : Statement → Json
  | ⟨joiner, node⟩ => .object [("conjunctive", joinerToJson joiner), ("node", node.toJson)]

/-- A stored filter. -/
def Filter.toJson : Filter → Json
  | ⟨statements⟩ => .object [("statements", .array (Filter.itemsToJson statements))]

/-- A stored row of statements. -/
def Filter.itemsToJson : List Statement → List Json
  | [] => []
  | s :: rest => s.toJson :: Filter.itemsToJson rest

end

end RecordFilter
