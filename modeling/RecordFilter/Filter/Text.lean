import RecordFilter.Filter.Basic
import RecordFilter.Text.Percent

/-!
# Filter text — a filter as it is written

One blank on either side of an operator and of a joiner, none after a comma, and parentheses
around a group. What is written reads back as the same filter.

* `Clause.chars`, `Filter.chars` — the text.
* `Filter.text`, `Filter.queryText` — the text as a string, plain and percent-encoded.
-/

namespace RecordFilter

open Text

/-- An operand in filter text. -/
def Operand.chars : Operand → List Char
  | field path => path.chars
  | literal value => value.chars

/-- A range in filter text. -/
def Range.chars (r : Range) : List Char := r.lower.chars ++ ',' :: r.upper.chars

/-- The values to choose from in filter text. -/
def ArrayObject.chars : ArrayObject → List Char
  | literals values => '[' :: ((values.map Scalar.chars).intersperse [',']).flatten ++ [']']
  | field path => path.chars

/-- A pattern in filter text. -/
def Wildcard.chars (w : Wildcard) : List Char := Scalar.quotedChars w.pattern

/-- An object in filter text. -/
def Object.chars : Object → List Char
  | operand o => o.chars
  | array a => a.chars
  | range r => r.chars
  | like w => w.chars

/-- A clause in filter text. -/
def Clause.chars (c : Clause) : List Char :=
  c.subject.chars ++ ' ' :: c.operator.keyword.toList ++ ' ' :: c.object.chars

/-- What stands between a statement and the one before it. -/
def joinerChars : Option Joiner → List Char
  | some j => ' ' :: j.keyword.toList ++ [' ']
  | none => []

mutual

/-- A node in filter text. -/
def Node.chars : Node → List Char
  | .clause c => c.chars
  | .group f => '(' :: f.chars ++ [')']

/-- A statement in filter text. -/
def Statement.chars : Statement → List Char
  | ⟨joiner, node⟩ => joinerChars joiner ++ node.chars

/-- A filter in filter text. -/
def Filter.chars : Filter → List Char
  | ⟨statements⟩ => Filter.charsOf statements

/-- A row of statements in filter text. -/
def Filter.charsOf : List Statement → List Char
  | [] => []
  | s :: rest => s.chars ++ Filter.charsOf rest

end

/-- The text of a filter. -/
def Filter.text (f : Filter) : String := String.ofList f.chars

/-- The text of a filter, percent-encoded for a query string if that is asked for. -/
def Filter.queryText (f : Filter) (encode : Bool) : String :=
  if encode then Percent.encode f.text else f.text

end RecordFilter
