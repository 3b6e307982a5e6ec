/-!
# Operator — the words of filter text

Twelve operators in four groups of object shape, two joiners and two booleans. An operator is
either positive or the negation of a positive one. Case matters.

* `Operator`, `Shape`, `Joiner` — the words' meanings.
* `Operator.positive`, `Operator.isNegated` — the pairing of operators with their negations.
* `Keyword`, `Keyword.find?` — every word with a meaning.
-/

namespace RecordFilter

/-- What stands to the right of an operator. -/
inductive Shape where
  /-- A literal or a field. -/
  | compare
  /-- A list of literals, or a field that holds an array. -/
  | array
  /-- Two bounds. -/
  | range
  /-- A wildcard pattern. -/
  | search
  deriving DecidableEq, Repr

/-- What a shape is called where another one was found. -/
def Shape.expected : Shape → String
  | compare => "a literal or field reference"
  | array => "a literal list or field reference"
  | range => "a range"
  | search => "a pattern"

/-- The word in the middle of a clause. -/
inductive Operator where
  | eq
  | neq
  | gt
  | gte
  | lt
  | lte
  | isIn
  | notIn
  | between
  | notBetween
  | like
  | notLike
  deriving DecidableEq, Repr

namespace Operator

/-- The operator as it is written. -/
def keyword : Operator → String
  | eq => "eq"
  | neq => "neq"
  | gt => "gt"
  | gte => "gte"
  | lt => "lt"
  | lte => "lte"
  | isIn => "in"
  | notIn => "nin"
  | between => "between"
  | notBetween => "nbetween"
  | like => "like"
  | notLike => "nlike"

/-- The shape of the object that the operator takes. -/
def shape : Operator → Shape
  | eq | neq | gt | gte | lt | lte => .compare
  | isIn | notIn => .array
  | between | notBetween => .range
  | like | notLike => .search

/-- Whether the operator is the negation of another one. -/
def isNegated : Operator → Bool
  | neq | notIn | notBetween | notLike => true
  | _ => false

/-- The operator that this one negates; a positive operator itself. -/
def positive : Operator → Operator
  | neq => eq
  | notIn => isIn
  | notBetween => between
  | notLike => like
  | operator => operator

/-- Every operator. -/
def all : List Operator :=
  [eq, neq, gt, gte, lt, lte, isIn, notIn, between, notBetween, like, notLike]

@[simp] theorem shape_positive (o : Operator) : o.positive.shape = o.shape := by
  cases o <;> rfl

@[simp] theorem isNegated_positive (o : Operator) : o.positive.isNegated = false := by
  cases o <;> rfl

end Operator

/-- How a statement is joined to what precedes it. -/
inductive Joiner where
  | and
  | or
  deriving DecidableEq, Repr

/-- The joiner as it is written. -/
def Joiner.keyword : Joiner → String
  | and => "and"
  | or => "or"

/-- A word with a meaning. -/
inductive Keyword where
  | operator (operator : Operator)
  | joiner (joiner : Joiner)
  | boolean (value : Bool)
  deriving DecidableEq, Repr

namespace Keyword

/-- The word as it is written. -/
def text : Keyword → String
  | operator o => o.keyword
  | joiner j => j.keyword
  | boolean b => if b then "true" else "false"

/-- Every word with a meaning. -/
def all : List Keyword :=
  Operator.all.map operator ++ [joiner .and, joiner .or, boolean true, boolean false]

/-- The meaning of a word. -/
def find? (word : String) : Option Keyword := all.find? fun k => k.text == word

end Keyword

end RecordFilter
