import RecordFilter.Expression.Parse
import RecordFilter.Matching.Condition

/-!
# Test — whether a record passes a filter

Statements are tested strictly from left to right: `a or b and c` is `(a or b) and c`. A statement
that cannot change the outcome so far is not tested, so the faults inside it do not show. The
faults of a row of statements show before any of its statements is tested.

* `Joiner.settles` — whether the outcome so far makes a statement irrelevant.
* `Node.test`, `Filter.test` — the outcome for a record, or the first fault that shows.
* `Filter.select` — the records that pass.
* `matchText` — the outcome for the filter that a text spells.
-/

namespace RecordFilter

/-- Whether a statement joined in this way to an outcome cannot change it. -/
def Joiner.settles : Joiner → Bool → Bool
  | and, outcome => !outcome
  | or, outcome => outcome

mutual

/-- Whether a record passes a condition or group. -/
def Node.test (compiler : Wildcard.Compiler) (record : Json) : Node → Except Malformed Bool
  | .clause c => c.test compiler record
  | .group f => f.test compiler record

/-- Whether a record passes a filter. -/
def Filter.test (compiler : Wildcard.Compiler) (record : Json) : Filter → Except Malformed Bool
  | ⟨statements⟩ =>
    match Filter.malformed? ⟨statements⟩ with
    | some fault => .error fault
    | none => Filter.testFrom compiler record false statements

/-- The outcome after further statements; a statement without joiner starts afresh. -/
def Filter.testFrom (compiler : Wildcard.Compiler) (record : Json) (outcome : Bool) :
    List Statement → Except Malformed Bool
  | [] => .ok outcome
  | ⟨joiner, node⟩ :: rest =>
    if joiner.any (Joiner.settles · outcome) then Filter.testFrom compiler record outcome rest
    else match node.test compiler record with
      | .ok next => Filter.testFrom compiler record next rest
      | .error fault => .error fault

end

/-- The records that pass, in their order; the first fault that shows ends the search. -/
def Filter.select (compiler : Wildcard.Compiler) (f : Filter) (records : List Json) :
    Except Malformed (List Json) :=
  records.filterM fun record => f.test compiler record

/-- Why a filter text gives no outcome. -/
inductive MatchError where
  /-- The text is no filter. -/
  | parse (error : ParseError)
  /-- A row of its statements has a fault, or a clause. -/
  | malformed (fault : Malformed)
  deriving DecidableEq, Repr

/-- The wording of an error. -/
def MatchError.message : MatchError → String
  | parse error => error.message
  | malformed fault => fault.message

/-- Whether a record passes the filter that a text spells. -/
def matchText (compiler : Wildcard.Compiler) (text : String) (record : Json) : Except MatchError Bool :=
  match Filter.parse Filter.defaultLimit text with
  | .error error => .error (.parse error)
  | .ok f =>
    match f.test compiler record with
    | .error fault => .error (.malformed fault)
    | .ok outcome => .ok outcome

end RecordFilter
