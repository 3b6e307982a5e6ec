import RecordFilter.Filter.Clause

/-!
# Filter — conditions joined from left to right

A filter is a row of statements. Each holds a clause, or in parentheses a filter of its own, and
says how it is joined to what precedes it. A row is well formed if it is not empty, its first
statement carries no joiner and every later one carries one; a filter that was stored elsewhere may
be malformed.

* `Node`, `Statement`, `Filter` — the parts and the whole.
* `Filter.ofNode`, `Filter.push` and their forms for clauses and groups — construction.
* `Malformed`, `Filter.malformed?` — the first fault of a row of statements.
* `Filter.paths`, `Filter.fields` — what a filter reads.
* `Filter.depth` — how deeply groups are nested.
-/

namespace RecordFilter

mutual

/-- The content of a statement. -/
inductive Node where
  /-- A condition. -/
  | clause (clause : Clause)
  /-- A filter in parentheses. -/
  | group (filter : Filter)

/-- A condition or group, and how it is joined to what precedes it. -/
structure Statement where
  joiner : Option Joiner
  node : Node

/-- A row of statements. -/
structure Filter where
  statements : List Statement

end

deriving instance Repr for Node, Statement, Filter
deriving instance BEq for Node, Statement, Filter

namespace Filter

/-- The filter with one statement. -/
def ofNode (node : Node) : Filter := ⟨[⟨none, node⟩]⟩

/-- The filter with a further statement at its end. -/
def push (f : Filter) (joiner : Joiner) (node : Node) : Filter :=
  ⟨f.statements ++ [⟨some joiner, node⟩]⟩

/-- The filter of one clause. -/
def ofClause (c : Clause) : Filter := ofNode (.clause c)

/-- The filter of one group. -/
def ofGroup (f : Filter) : Filter := ofNode (.group f)

/-- Both the filter and the clause. -/
def and (f : Filter) (c : Clause) : Filter := f.push .and (.clause c)

/-- The filter or the clause. -/
def or (f : Filter) (c : Clause) : Filter := f.push .or (.clause c)

/-- Both the filter and the group. -/
def andGroup (f g : Filter) : Filter := f.push .and (.group g)

/-- The filter or the group. -/
def orGroup (f g : Filter) : Filter := f.push .or (.group g)

/-- The number of statements, those inside groups not counted. -/
def size (f : Filter) : Nat := f.statements.length

/-- Whether there is no statement. -/
def isEmpty (f : Filter) : Bool := f.statements.isEmpty

end Filter

/-! ## Well-formed rows -/

/-- Why a row of statements, or a clause among them, has no outcome. -/
inductive Malformed where
  /-- There is no statement. -/
  | empty
  /-- The first statement carries a joiner. -/
  | leadingJoiner
  /-- The statement at this place, counted from 0, carries none. -/
  | missingJoiner (index : Nat)
  /-- The object of a clause has another shape than the operator takes. -/
  | objectMismatch (operator : Operator) (found : String)
  /-- The pattern of a clause is refused in these words. -/
  | refusedPattern (pattern message : String)
  deriving DecidableEq, Repr

/-- The wording of a fault. -/
def Malformed.message : Malformed → String
  | empty => "filter has no statements"
  | leadingJoiner => "first statement must not carry a conjunctive"
  | missingJoiner index => s!"statement {index} is missing its conjunctive"
  | objectMismatch operator found => (ConstructionError.objectMismatch operator found).message
  | refusedPattern pattern message => s!"pattern '{pattern}' failed to compile: {message}"

/-- The first fault of the filter's own row of statements. -/
def Filter.malformed? (f : Filter) : Option Malformed :=
  match f.statements with
  | [] => some .empty
  | first :: rest =>
    if first.joiner.isSome then some .leadingJoiner
    else (rest.findIdx? fun s => s.joiner.isNone).map fun i => .missingJoiner (i + 1)

/-! ## Walking a filter -/

mutual

/-- The paths of a node, in reading order. -/
def Node.paths : Node → List FieldPath
  | .clause c => c.paths
  | .group f => f.paths

/-- The paths of a statement, in reading order. -/
def Statement.paths : Statement → List FieldPath
  | ⟨_, node⟩ => node.paths

/-- The paths of a filter, in reading order. -/
def Filter.paths : Filter → List FieldPath
  | ⟨statements⟩ => Filter.pathsOf statements

/-- The paths of a row of statements, in reading order. -/
def Filter.pathsOf : List Statement → List FieldPath
  | [] => []
  | s :: rest => s.paths ++ Filter.pathsOf rest

end

mutual

/-- How deeply groups are nested in a node. -/
def Node.depth : Node → Nat
  | .clause _ => 0
  | .group f => f.depth + 1

/-- How deeply groups are nested in a statement. -/
def Statement.depth : Statement → Nat
  | ⟨_, node⟩ => node.depth

/-- How deeply groups are nested in a filter. -/
def Filter.depth : Filter → Nat
  | ⟨statements⟩ => Filter.depthOf statements

/-- How deeply groups are nested in a row of statements. -/
def Filter.depthOf : List Statement → Nat
  | [] => 0
  | s :: rest => max s.depth (Filter.depthOf rest)

end

/-- The fields that a filter reads: for each path the part before its first position, each once,
in the order of their first occurrence. -/
def Filter.fields (f : Filter) : List String := (f.paths.map FieldPath.field).eraseDups

end RecordFilter
