import RecordFilter.Expression.ParseError

/-!
# Caret — pointing at the place of an error

* `ParseError.pointedAt` — the wording of an error, and below it the text with a mark under the
  character that the error is about.
-/

namespace RecordFilter

/-- Whether the error is about a place in the text. -/
def ParseError.hasPlace : ParseError → Bool
  | emptyInput | invalidEncoding _ => false
  | _ => true

/-- The wording of an error, and below it the text with a mark under the character that the error
is about. -/
def ParseError.pointedAt (e : ParseError) (text : String) : String :=
  if e.hasPlace then
    e.message ++ "\n  " ++ text ++ "\n  " ++ String.ofList (List.replicate e.position ' ') ++ "^"
  else e.message

end RecordFilter
