import Mathlib
import RecordFilter.Proofs.Matching.ShortCircuit

/-!
# Truth — what a filter says follows from what its clauses say

Once every row is well formed nothing is left of a test but two-valued logic: each clause is true or false of
a record, and a filter joins these truths from left to right, group by group. Only a pattern that is refused keeps a
test from its outcome.

* `Filter.truth`: whether a filter is true, given which clauses are.
* `Filter.truthFrom_append`: a row in two parts.
* `Filter.truth_of_test`: the outcome of a test is the truth of the filter.
* `Filter.Gives`: an outcome for a record, or the fault of a pattern that is refused.
* `Filter.gives_truth`: a test of a well-formed filter gives its truth.
-/

namespace RecordFilter

mutual

/-- Whether a node is true, given which clauses are. -/
def Node.truth (holds : Clause → Bool) : Node → Bool
  | .clause c => holds c
  | .group f => f.truth holds

/-- Whether a filter is true, given which clauses are. -/
def Filter.truth (holds : Clause → Bool) : Filter → Bool
  | ⟨row⟩ => Filter.truthFrom holds false row

/-- What a row of statements makes of an outcome before it. -/
def Filter.truthFrom (holds : Clause → Bool) (outcome : Bool) : List Statement → Bool
  | [] => outcome
  | ⟨joiner, node⟩ :: rest =>
    Filter.truthFrom holds (joinOutcome outcome (joiner, node.truth holds)) rest

end

namespace Filter

variable {holds : Clause → Bool} {compiler : Wildcard.Compiler} {record : Json}

theorem truthFrom_of_test {row : List Statement} {outcome b : Bool}
    (h : ∀ s ∈ row, ∀ next, s.node.test compiler record = .ok next → s.node.truth (·.holds record) = next)
    (htest : testFrom compiler record outcome row = .ok b) : truthFrom (·.holds record) outcome row = b := by
  induction row generalizing outcome with
  | nil =>
    cases htest
    rfl
  | cons s row ih =>
    obtain ⟨joiner, node⟩ := s
    rw [List.forall_mem_cons] at h
    obtain ⟨hnode, hrow⟩ := h
    rw [testFrom] at htest
    rw [truthFrom, joinOutcome_eq]
    split at htest
    · next hsettles =>
      rw [if_pos hsettles]
      exact ih hrow htest
    · next hsettles =>
      rw [if_neg hsettles]
      split at htest
      · next next hnext =>
        rw [hnode next hnext]
        exact ih hrow htest
      · cases htest

/-- **The outcome of a test is the truth of the filter**, from the clauses that hold of the record. Groups with faults
in them may have been passed over. -/
theorem truth_of_test {f : Filter} {b : Bool} (h : f.test compiler record = .ok b) :
    f.truth (·.holds record) = b := by
  induction f using Filter.induction generalizing b with
  | h row ih =>
    have hmalformed := malformed?_of_test h
    rw [test, hmalformed] at h
    refine truthFrom_of_test ?_ h
    rintro ⟨joiner, node⟩ hs next hnext
    cases node with
    | clause c =>
      have hfault := Clause.exists_test_iff.mp ⟨next, hnext⟩
      rw [Node.test, Clause.test_eq_ok hfault] at hnext
      exact Except.ok.inj hnext
    | group g => exact ih _ hs g rfl hnext

/-- The filter has this outcome for the record, or the fault of one of its patterns, which is refused. -/
def Gives (compiler : Wildcard.Compiler) (f : Filter) (record : Json) (outcome : Bool) : Prop :=
  f.test compiler record = .ok outcome ∨
    ∃ fault, f.Refusal compiler fault ∧ f.test compiler record = .error fault

/-- **A test of a well-formed filter gives its truth.** -/
theorem gives_truth {f : Filter} (hf : f.WellFormed) (compiler : Wildcard.Compiler) (record : Json) :
    f.Gives compiler record (f.truth (·.holds record)) := by
  cases h : f.test compiler record with
  | ok b => exact .inl (h.trans (congrArg Except.ok (truth_of_test h).symm))
  | error fault => exact .inr ⟨fault, refusal_of_test hf h, h⟩

/-- Where the patterns compile, the outcome is there. -/
theorem Gives.test_eq {f : Filter} {outcome : Bool} (h : f.Gives compiler record outcome)
    (hcompiles : f.Compiles compiler) : f.test compiler record = .ok outcome := by
  rcases h with htest | ⟨fault, hrefusal, -⟩
  · exact htest
  · exact absurd hrefusal hcompiles.not_refusal

end Filter

end RecordFilter
