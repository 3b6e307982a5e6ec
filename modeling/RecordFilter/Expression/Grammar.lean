import RecordFilter.Expression.Token
import RecordFilter.Filter.Basic

/-!
# Grammar — from tokens to a filter

A filter is a term, then any number of terms with a joiner before each; a term is a clause or a
filter in parentheses; a clause is an operand, an operator and an object of the operator's shape.

The tokens are read one by one. What is open around the place that is being read waits on a stack,
one frame for each open parenthesis, so the stack's height is the depth of nesting, and whether a
token is accepted depends on what stands before it and on nothing else.

* `Phase` — what the next token has to be.
* `Reading` — the open groups, the statements so far, and the phase.
* `Reading.step` — the effect of one token.
* `Reading.finish` — the filter, if the text may end.
* `Filter.ofTokens` — the filter that a list of tokens spells.
-/

namespace RecordFilter

/-- An open group: where its parenthesis stands, the statements before it, the last one first, and
how it is joined to them. -/
structure OpenGroup where
  position : Nat
  before : List Statement
  joiner : Option Joiner

/-- What the next token has to be. -/
inductive Phase where
  /-- The first token of a term. -/
  | term
  /-- The operator after a subject. -/
  | operator (subject : Operand)
  /-- The object of an operator that compares. -/
  | operand (subject : Operand) (operator : Operator) (fits : operator.shape = .compare)
  /-- The list or field of an operator that looks for an item. -/
  | array (subject : Operand) (operator : Operator) (fits : operator.shape = .array)
  /-- The first literal of a list, or its end. -/
  | firstItem (subject : Operand) (operator : Operator) (fits : operator.shape = .array)
  /-- A further literal of a list after these, the last one first. -/
  | item (subject : Operand) (operator : Operator) (fits : operator.shape = .array)
    (items : List Scalar)
  /-- A comma after these literals, the last one first, or the end of the list. -/
  | afterItem (subject : Operand) (operator : Operator) (fits : operator.shape = .array)
    (items : List Scalar)
  /-- The lower bound of a range. -/
  | lower (subject : Operand) (operator : Operator) (fits : operator.shape = .range)
  /-- The comma between the bounds. -/
  | betweenBounds (subject : Operand) (operator : Operator) (fits : operator.shape = .range)
    (bound : Scalar)
  /-- The upper bound of a range. -/
  | upper (subject : Operand) (operator : Operator) (fits : operator.shape = .range)
    (bound : Scalar)
  /-- The pattern of an operator that searches. -/
  | pattern (subject : Operand) (operator : Operator) (fits : operator.shape = .search)
  /-- A joiner, or the end of the filter that is being read. -/
  | next

/-- What is open, what has been read at this level, and what comes next. -/
structure Reading where
  groups : List OpenGroup
  /-- The statements of this level, the last one first. -/
  statements : List Statement
  /-- How the term that is being read is joined to them. -/
  joiner : Option Joiner
  phase : Phase

/-- The literal that a token is. -/
def Token.literal? (t : Token) : Option Scalar :=
  match t.kind with
  | .string content => some (.string content)
  | .number value => some value
  | .boolean value => some (.bool value)
  | _ => none

/-- The operand that a token is. -/
def Token.operand? (t : Token) : Option Operand :=
  match t.kind with
  | .field path => some (.field path)
  | _ => t.literal?.map .literal

/-- What an error says would have been accepted; `inGroup` tells whether a group is open. -/
def Phase.expected (inGroup : Bool) : Phase → List String
  | .term | .operand .. => ["field reference", "literal"]
  | .operator _ => ["operator"]
  | .array .. => ["[", "field reference"]
  | .firstItem .. | .item .. | .lower .. | .upper .. => ["string", "number", "boolean"]
  | .afterItem .. => [",", "]"]
  | .betweenBounds .. => [","]
  | .pattern .. => ["pattern string"]
  | .next => if inGroup then ["and", "or", ")"] else ["and", "or", "end of input"]

/-- What follows an operator. -/
def Phase.object (subject : Operand) (operator : Operator) : Phase :=
  match h : operator.shape with
  | .compare => .operand subject operator h
  | .array => .array subject operator h
  | .range => .lower subject operator h
  | .search => .pattern subject operator h

namespace Reading

/-- Before the first token. -/
def start : Reading := ⟨[], [], none, .term⟩

/-- The reading that awaits another kind of token. -/
def await (r : Reading) (phase : Phase) : Reading := { r with phase }

/-- A term has been read. -/
def complete (r : Reading) (node : Node) : Reading :=
  { r with statements := ⟨r.joiner, node⟩ :: r.statements, phase := .next }

/-- A clause has been read. -/
def clause (r : Reading) (subject : Operand) (operator : Operator) (object : Object)
    (fits : object.shape = operator.shape) : Reading :=
  r.complete (.clause ⟨subject, operator, object, fits⟩)

/-- The error at a token that is not accepted. -/
def unexpected (r : Reading) (t : Token) : ParseError :=
  .unexpectedToken t.text (r.phase.expected !r.groups.isEmpty) t.position

/-- A group is opened. -/
def openGroup (limit : Nat) (r : Reading) (t : Token) : Except ParseError Reading :=
  if r.groups.length < limit then
    .ok ⟨⟨t.position, r.statements, r.joiner⟩ :: r.groups, [], none, .term⟩
  else .error (.nestingTooDeep limit t.position)

/-- The innermost group is closed. -/
def closeGroup (r : Reading) (t : Token) : Except ParseError Reading :=
  match r.groups with
  | [] => .error (.unmatchedGroupClose t.position)
  | g :: outer =>
    .ok ⟨outer, ⟨g.joiner, .group ⟨r.statements.reverse⟩⟩ :: g.before, none, .next⟩

/-- The effect of one token. -/
def step (limit : Nat) (r : Reading) (t : Token) : Except ParseError Reading :=
  match r.phase, t.kind with
  | .term, .groupOpen => r.openGroup limit t
  | .term, _ =>
    match t.operand? with
    | some subject => .ok (r.await (.operator subject))
    | none => .error (r.unexpected t)
  | .operator subject, .operator operator => .ok (r.await (.object subject operator))
  | .operand subject operator fits, _ =>
    match t.operand? with
    | some object => .ok (r.clause subject operator (.operand object) fits.symm)
    | none => .error (r.unexpected t)
  | .array subject operator fits, .field path =>
    .ok (r.clause subject operator (.array (.field path)) fits.symm)
  | .array subject operator fits, .arrayOpen => .ok (r.await (.firstItem subject operator fits))
  | .firstItem subject operator fits, .arrayClose =>
    .ok (r.clause subject operator (.array (.literals [])) fits.symm)
  | .firstItem subject operator fits, _ =>
    match t.literal? with
    | some value => .ok (r.await (.afterItem subject operator fits [value]))
    | none => .error (r.unexpected t)
  | .item subject operator fits items, _ =>
    match t.literal? with
    | some value => .ok (r.await (.afterItem subject operator fits (value :: items)))
    | none => .error (r.unexpected t)
  | .afterItem subject operator fits items, .comma =>
    .ok (r.await (.item subject operator fits items))
  | .afterItem subject operator fits items, .arrayClose =>
    .ok (r.clause subject operator (.array (.literals items.reverse)) fits.symm)
  | .lower subject operator fits, _ =>
    match t.literal? with
    | some bound =>
      if bound.isOrderable then .ok (r.await (.betweenBounds subject operator fits bound))
      else .error (.invalidRange (.unorderable bound.typeName) t.position)
    | none => .error (r.unexpected t)
  | .betweenBounds subject operator fits bound, .comma =>
    .ok (r.await (.upper subject operator fits bound))
  | .upper subject operator fits bound, _ =>
    match t.literal? with
    | some value =>
      match Range.make bound value with
      | .ok range => .ok (r.clause subject operator (.range range) fits.symm)
      | .error e => .error (.invalidRange (.mismatch e) t.position)
    | none => .error (r.unexpected t)
  | .pattern subject operator fits, .string pattern =>
    .ok (r.clause subject operator (.like ⟨pattern⟩) fits.symm)
  | .next, .joiner joiner => .ok { r with joiner := some joiner, phase := .term }
  | .next, .groupClose => r.closeGroup t
  | _, _ => .error (r.unexpected t)

/-- The filter, if the text may end here; `length` is the number of its characters. -/
def finish (length : Nat) (r : Reading) : Except ParseError Filter :=
  match r.phase, r.groups with
  | .next, [] => .ok ⟨r.statements.reverse⟩
  | .next, g :: _ => .error (.unclosedGroup g.position)
  | phase, groups => .error (.unexpectedEnd (phase.expected !groups.isEmpty) length)

end Reading

/-- The filter that a list of tokens spells, with groups nested at most `limit` deep; `length` is
the number of characters of the text. -/
def Filter.ofTokens (limit length : Nat) (tokens : List Token) : Except ParseError Filter := do
  (← tokens.foldlM (Reading.step limit) .start).finish length

end RecordFilter
