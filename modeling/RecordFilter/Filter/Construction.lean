import RecordFilter.Filter.FieldPath
import RecordFilter.Filter.Operator
import RecordFilter.Filter.Scalar
import RecordFilter.Text.Quoted

/-!
# Construction — what can be put into a filter

Everything in a filter has a text that reads back, so a construction is refused where that would
fail: a string that its closing quote would cut short, a number that is not finite, a name with a
character that ends a path, an object that does not fit its operator.

* `ConstructionError` — the reasons, with their wording.
* `Scalar.check`, `checkString` — whether a literal can be written.
* `FieldPath.ofSegments` — a path from its segments.
-/

namespace RecordFilter

open Number Text

/-- Why something cannot be put into a filter. -/
inductive ConstructionError where
  /-- The object has another shape than the operator takes. -/
  | objectMismatch (operator : Operator) (found : String)
  /-- The bounds of a range are neither both strings nor both numbers. -/
  | rangeBounds (lower upper : String)
  /-- A path without segments. -/
  | emptyPath
  /-- A name with a character that ends a path. -/
  | unrepresentableKey (key : String)
  /-- A string that its closing quote would cut short. -/
  | unrepresentableString (value : String)
  /-- A number that is not finite. -/
  | nonFiniteNumber (value : Binary64)
  deriving DecidableEq, Repr

/-- The wording of an error. -/
def ConstructionError.message : ConstructionError → String
  | objectMismatch operator found =>
    s!"operator '{operator.keyword}' expects {operator.shape.expected}, found {found}"
  | rangeBounds lower upper =>
    s!"range bounds must both be strings or both be numbers, found {lower} and {upper}"
  | emptyPath => "field reference must have at least one segment"
  | unrepresentableKey key => s!"key {quote key} contains whitespace or a parenthesis"
  | unrepresentableString value => s!"string {quote value} contains '\"' followed by a delimiter"
  | nonFiniteNumber value => s!"number {String.ofList value.chars} is not finite"

/-- Whether a string can be written between quotes. -/
def checkString (s : String) : Except ConstructionError Unit :=
  if fitsQuotes s.toList then .ok () else .error (.unrepresentableString s)

/-- Whether a scalar can be written as a literal. -/
def Scalar.check : Scalar → Except ConstructionError Unit
  | string s => checkString s
  | float x => if x.isFinite then .ok () else .error (.nonFiniteNumber x)
  | _ => .ok ()

namespace Segment

/-- The segment as a path holds it. -/
def normalize : Segment → Segment
  | key name => ofName name
  | index position => index position

theorem isCanonical_normalize {s : Segment} (h : s.isBroken = false) : s.normalize.IsCanonical := by
  cases s with
  | key name => exact isCanonical_ofName (by simpa [isBroken] using h)
  | index position => trivial

end Segment

/-- The path with the given segments, each taken as its name reads. -/
def FieldPath.ofSegments (segments : List Segment) : Except ConstructionError FieldPath :=
  if hempty : segments = [] then .error .emptyPath
  else match hfind : segments.find? Segment.isBroken with
    | some s => .error (.unrepresentableKey s.name)
    | none => .ok {
        segments := segments.map Segment.normalize
        nonempty := by simpa using hempty
        canonical := by
          intro s hs
          obtain ⟨t, ht, rfl⟩ := List.mem_map.1 hs
          exact Segment.isCanonical_normalize (by simpa using List.find?_eq_none.1 hfind t ht) }

end RecordFilter
