import Mathlib
import RecordFilter.Proofs.Filter.Origin
import RecordFilter.Proofs.Matching.Compilation

/-!
# Short circuit — statements that are passed over do not change the outcome

A full evaluation looks at every row of statements at every level and at every statement, and joins
the outcomes strictly from left to right. A test passes over statements that cannot change the
outcome so far; what it finds is what the full evaluation finds, wherever that finds anything.

* `Filter.eager`: the full evaluation.
* `Filter.test_of_eager`: a test has the outcome of the full evaluation.
* `Filter.exists_malformed_or_refusal`: a test fails only for a row that is not well formed, or for a pattern that is
  refused.
* `Filter.test_eq_eager`: how the two relate, for every filter and for those that cannot fail.
-/

namespace RecordFilter

/-! ## Full evaluation -/

/-- The outcome of a joined statement, from the outcome so far and that of its node. -/
def Joiner.join : Joiner → Bool → Bool → Bool
  | and, outcome, next => outcome && next
  | or, outcome, next => outcome || next

/-- The outcome so far and that of a further statement; one without joiner starts afresh. -/
def joinOutcome (outcome : Bool) : Option Joiner × Bool → Bool
  | (some j, next) => j.join outcome next
  | (none, next) => next

mutual

/-- The outcome of a node for a record, with nothing passed over. -/
def Node.eager (compiler : Wildcard.Compiler) (record : Json) : Node → Except Malformed Bool
  | .clause c => c.test compiler record
  | .group f => f.eager compiler record

/-- The outcome of a filter for a record, with nothing passed over. -/
def Filter.eager (compiler : Wildcard.Compiler) (record : Json) : Filter → Except Malformed Bool
  | ⟨row⟩ =>
    match Filter.malformed? ⟨row⟩ with
    | some fault => .error fault
    | none => (Filter.outcomes compiler record row).map fun bs => bs.foldl joinOutcome false

/-- The joiner and the outcome of every statement of a row. -/
def Filter.outcomes (compiler : Wildcard.Compiler) (record : Json) :
    List Statement → Except Malformed (List (Option Joiner × Bool))
  | [] => .ok []
  | ⟨joiner, node⟩ :: rest => do
    let next ← node.eager compiler record
    let others ← Filter.outcomes compiler record rest
    return (joiner, next) :: others

end

variable {compiler : Wildcard.Compiler} {record : Json}

theorem Joiner.join_of_settles {j : Joiner} {outcome next : Bool} (h : j.settles outcome = true) :
    j.join outcome next = outcome := by
  cases j <;> cases outcome <;> simp_all [settles, join]

theorem Joiner.join_of_not_settles {j : Joiner} {outcome next : Bool}
    (h : j.settles outcome = false) : j.join outcome next = next := by
  cases j <;> cases outcome <;> simp_all [settles, join]

/-- A statement that a test passes over leaves the outcome as it is, any other sets it. -/
theorem joinOutcome_eq (joiner : Option Joiner) (outcome next : Bool) :
    joinOutcome outcome (joiner, next) =
      if joiner.any (Joiner.settles · outcome) then outcome else next := by
  cases joiner with
  | none => rfl
  | some j =>
    by_cases h : j.settles outcome = true
    · simp [joinOutcome, h, Joiner.join_of_settles h]
    · rw [Bool.not_eq_true] at h
      simp [joinOutcome, h, Joiner.join_of_not_settles h]

/-! ## Where the full evaluation has an outcome -/

theorem Filter.exists_outcomes_iff {row : List Statement} :
    (∃ bs, outcomes compiler record row = .ok bs) ↔ ∀ s ∈ row, ∃ b, s.node.eager compiler record = .ok b := by
  induction row with
  | nil => simp [outcomes]
  | cons s row ih =>
    obtain ⟨joiner, node⟩ := s
    rw [List.forall_mem_cons, ← ih, outcomes]
    constructor
    · rintro ⟨bs, h⟩
      obtain ⟨next, hnext, h⟩ := ok_of_bind h
      obtain ⟨others, hothers, -⟩ := ok_of_bind h
      exact ⟨⟨next, hnext⟩, others, hothers⟩
    · rintro ⟨⟨next, hnext⟩, others, hothers⟩
      exact ⟨(joiner, next) :: others, by rw [hnext, hothers]; rfl⟩

theorem Clause.exists_test_iff {c : Clause} :
    (∃ b, c.test compiler record = .ok b) ↔ c.fault? compiler record = none := by
  rw [test_eq]
  cases c.fault? compiler record <;> simp

/-- The full evaluation has an outcome exactly if every row at every level is well formed and no clause has a
fault. -/
theorem Filter.exists_eager_iff {f : Filter} : (∃ b, f.eager compiler record = .ok b) ↔
    f.WellFormed ∧ ∀ c ∈ f.clauses, c.fault? compiler record = none := by
  induction f using Filter.induction with
  | h row ih =>
    have hnodes : (∀ s ∈ row, ∃ b, s.node.eager compiler record = .ok b) ↔
        ∀ s ∈ row, (∀ g, s.node = .group g → g.WellFormed) ∧
          ∀ c ∈ s.node.clauses, c.fault? compiler record = none := by
      refine forall₂_congr fun s hs => ?_
      obtain ⟨joiner, node⟩ := s
      cases node with
      | clause c =>
        simp only [Node.eager, Node.clauses, reduceCtorEq, List.forall_mem_singleton, false_implies, implies_true,
          true_and, Clause.exists_test_iff]
      | group g => simpa [Node.eager, Node.clauses] using ih _ hs g rfl
    have hclauses : (∀ c ∈ clauses ⟨row⟩, c.fault? compiler record = none) ↔
        ∀ s ∈ row, ∀ c ∈ s.node.clauses, c.fault? compiler record = none := by
      simp only [clauses, mem_clausesOf]
      constructor
      · intro h s hs c hc
        exact h c ⟨s, hs, hc⟩
      · rintro h c ⟨s, hs, hc⟩
        exact h s hs c hc
    rw [wellFormed_mk, hclauses, and_assoc, ← forall₂_and, ← hnodes, ← exists_outcomes_iff, eager]
    cases hfault : malformed? ⟨row⟩ with
    | some fault => simp
    | none =>
      cases outcomes compiler record row with
      | error e => simp [Except.map]
      | ok bs => simp [Except.map]

/-! ## A test beside the full evaluation -/

theorem Filter.testFrom_of_outcomes {row : List Statement} {bs : List (Option Joiner × Bool)}
    (hnodes : ∀ s ∈ row, ∀ b, s.node.eager compiler record = .ok b → s.node.test compiler record = .ok b)
    (h : outcomes compiler record row = .ok bs) (outcome : Bool) :
    testFrom compiler record outcome row = .ok (bs.foldl joinOutcome outcome) := by
  induction row generalizing bs outcome with
  | nil => cases h; rfl
  | cons s row ih =>
    obtain ⟨joiner, node⟩ := s
    rw [outcomes] at h
    obtain ⟨next, hnext, h⟩ := ok_of_bind h
    obtain ⟨others, hothers, h⟩ := ok_of_bind h
    cases h
    rw [List.forall_mem_cons] at hnodes
    rw [testFrom, List.foldl_cons, joinOutcome_eq]
    split
    · exact ih hnodes.2 hothers outcome
    · rw [hnodes.1 next hnext]
      exact ih hnodes.2 hothers next

/-- **A test has the outcome of the full evaluation.** -/
theorem Filter.test_of_eager {f : Filter} {b : Bool} (h : f.eager compiler record = .ok b) :
    f.test compiler record = .ok b := by
  induction f using Filter.induction generalizing b with
  | h row ih =>
    rw [eager] at h
    split at h
    · cases h
    · next hnone =>
      obtain ⟨bs, hbs, rfl⟩ := ok_of_map h
      rw [test, hnone]
      refine testFrom_of_outcomes ?_ hbs false
      rintro ⟨joiner, node⟩ hs b hb
      cases node with
      | clause c => exact hb
      | group g => exact ih _ hs g rfl hb

theorem Filter.exists_error_of_testFrom {row : List Statement} {outcome : Bool} {e : Malformed}
    (h : testFrom compiler record outcome row = .error e) : ∃ s ∈ row, s.node.test compiler record = .error e := by
  induction row generalizing outcome with
  | nil => cases h
  | cons s row ih =>
    obtain ⟨joiner, node⟩ := s
    rw [testFrom] at h
    split at h
    · obtain ⟨t, ht, he⟩ := ih h
      exact ⟨t, List.mem_cons_of_mem _ ht, he⟩
    · split at h
      · obtain ⟨t, ht, he⟩ := ih h
        exact ⟨t, List.mem_cons_of_mem _ ht, he⟩
      · next fault hfault =>
        cases h
        exact ⟨_, List.mem_cons_self, hfault⟩

/-- A test fails only for a row, at some level, that is not well formed, or for a clause that has a fault. -/
theorem Filter.exists_malformed_or_fault {f : Filter} {e : Malformed} (h : f.test compiler record = .error e) :
    (∃ g ∈ f.levels, g.malformed? = some e) ∨ ∃ c ∈ f.clauses, c.fault? compiler record = some e := by
  induction f using Filter.induction with
  | h row ih =>
    rw [test] at h
    split at h
    · next fault hfault =>
      cases h
      exact .inl ⟨_, mem_levels_self _, hfault⟩
    · obtain ⟨⟨joiner, node⟩, hs, he⟩ := exists_error_of_testFrom h
      cases node with
      | clause c =>
        refine .inr ⟨c, mem_clausesOf.mpr ⟨_, hs, by simp [Node.clauses]⟩, ?_⟩
        rw [Node.test, c.test_eq] at he
        cases hfault : c.fault? compiler record with
        | none => rw [hfault] at he; cases he
        | some fault => rw [hfault] at he; cases he; rfl
      | group g =>
        rcases ih _ hs g rfl he with ⟨g', hg', hfault⟩ | ⟨c, hc, hfault⟩
        · refine .inl ⟨g', ?_, hfault⟩
          rw [levels, List.mem_cons, mem_levelsOf]
          exact .inr ⟨_, hs, by simpa [Node.levels] using hg'⟩
        · exact .inr ⟨c, mem_clausesOf.mpr ⟨_, hs, by simpa [Node.clauses] using hc⟩, hfault⟩

/-- **A test fails only for a row that is not well formed or a pattern that is refused.** -/
theorem Filter.exists_malformed_or_refusal {f : Filter} {e : Malformed} (h : f.test compiler record = .error e) :
    (∃ g ∈ f.levels, g.malformed? = some e) ∨ f.Refusal compiler e := by
  rcases exists_malformed_or_fault h with h | ⟨c, hc, hfault⟩
  · exact .inl h
  · exact .inr (refusal_of_fault? hc hfault)

theorem Filter.malformed?_ne_objectMismatch (f : Filter) (operator : Operator) (found : String) :
    f.malformed? ≠ some (.objectMismatch operator found) := by
  unfold malformed?
  split
  · simp
  · split <;> simp

/-- A test of a well-formed filter fails only for a pattern that is refused. -/
theorem Filter.refusal_of_test {f : Filter} {e : Malformed} (hf : f.WellFormed)
    (h : f.test compiler record = .error e) : f.Refusal compiler e := by
  rcases exists_malformed_or_refusal h with ⟨g, hg, hfault⟩ | h
  · cases (hf g hg).symm.trans hfault
  · exact h

theorem Filter.test_of_compiles {f : Filter} (hf : f.WellFormed) (h : f.Compiles compiler) (record : Json) :
    ∃ b, f.test compiler record = .ok b := by
  cases htest : f.test compiler record with
  | ok b => exact ⟨b, rfl⟩
  | error e => exact absurd (refusal_of_test hf htest) h.not_refusal

theorem Filter.malformed?_of_test {f : Filter} {b : Bool} (h : f.test compiler record = .ok b) :
    f.malformed? = none := by
  obtain ⟨row⟩ := f
  rw [test] at h
  split at h
  · cases h
  · assumption

/-- The faults of a filter's own row. -/
theorem Filter.malformed?_ne_none {f : Filter}
    (h : f.statements = [] ∨ (∃ s ∈ f.statements.head?, s.joiner ≠ none) ∨
      ∃ s ∈ f.statements.tail, s.joiner = none) : f.malformed? ≠ none := by
  obtain ⟨row⟩ := f
  intro hnone
  obtain ⟨node, rest, rfl, hj⟩ := malformed?_eq_none_iff.mp hnone
  rcases h with h | ⟨s, hs, hjoiner⟩ | ⟨s, hs, hjoiner⟩
  · cases h
  · obtain rfl : ⟨none, node⟩ = s := by simpa using hs
    exact hjoiner rfl
  · obtain ⟨j, h⟩ := hj s hs
    rw [hjoiner] at h
    cases h

/-- **A test agrees with the full evaluation, and only rows that are not well formed and patterns that are refused
make it fail.** The full evaluation has an outcome exactly if every row at every level is well formed and no clause has
a fault, and then the test has the same; the test fails only where the full evaluation fails, for a row or for a pattern
that is refused; it fails if the filter's own row is empty, begins with a joiner or lacks a later one; and no fault is
an object that does not fit its operator. Where no pattern is refused, the full evaluation has an outcome exactly if
every row is well formed, the test fails only for a row that is not, and a filter that was put together or read from a
text always has an outcome. -/
theorem Filter.test_eq_eager (compiler : Wildcard.Compiler) (f : Filter) (record : Json) :
    ((∃ b, f.eager compiler record = .ok b) ↔
      f.WellFormed ∧ ∀ c ∈ f.clauses, c.fault? compiler record = none) ∧
    (∀ b, f.eager compiler record = .ok b → f.test compiler record = .ok b) ∧
    (∀ e, f.test compiler record = .error e → (∃ e', f.eager compiler record = .error e') ∧
      ((∃ g ∈ f.levels, g.malformed? = some e) ∨ f.Refusal compiler e)) ∧
    ((f.statements = [] ∨ (∃ s ∈ f.statements.head?, s.joiner ≠ none) ∨
      ∃ s ∈ f.statements.tail, s.joiner = none) → ∀ b, f.test compiler record ≠ .ok b) ∧
    (∀ operator found, f.test compiler record ≠ .error (.objectMismatch operator found)) ∧
    (f.Compiles compiler → ((∃ b, f.eager compiler record = .ok b) ↔ f.WellFormed) ∧
      (∀ e, f.test compiler record = .error e → ∃ g ∈ f.levels, g.malformed? = some e) ∧
      (f.Built → ∃ b, f.test compiler record = .ok b)) := by
  refine ⟨exists_eager_iff, fun b => test_of_eager, fun e he => ⟨?_, exists_malformed_or_refusal he⟩, fun h b hb => ?_,
    fun operator found h => ?_,
    fun hcompiles => ⟨?_, fun e he => ?_, fun h => test_of_compiles h.wellFormed hcompiles record⟩⟩
  · cases heager : f.eager compiler record with
    | error e' => exact ⟨e', rfl⟩
    | ok b => cases (test_of_eager heager).symm.trans he
  · exact malformed?_ne_none h (malformed?_of_test hb)
  · rcases exists_malformed_or_refusal h with ⟨g, -, hfault⟩ | hrefusal
    · exact malformed?_ne_objectMismatch g operator found hfault
    · cases hrefusal
  · rw [exists_eager_iff, and_iff_left_iff_imp]
    exact fun _ c hc => hcompiles.fault? hc
  · exact (exists_malformed_or_refusal he).resolve_right hcompiles.not_refusal

/-- Where a clause that holds comes first, an empty group is passed over, and the full evaluation
fails there; where the group comes first, both fail. A row that begins with a joiner fails. A filter that is put
together has the outcome of the full evaluation, with a pattern that is not refused; where its pattern is refused, it
fails for the string that it is matched against. -/
theorem Filter.test_eq_eager_group :
    ∃ c d : Clause, (Filter.ofClause c).text = "1 eq 1" ∧ (Filter.ofClause d).text = "\"b\" like \"_*\"" ∧
      Filter.test .standard .null ⟨[⟨none, .clause c⟩, ⟨some .or, .group ⟨[]⟩⟩]⟩ = .ok true ∧
      Filter.eager .standard .null ⟨[⟨none, .clause c⟩, ⟨some .or, .group ⟨[]⟩⟩]⟩ = .error .empty ∧
      (∃ e, Filter.eager .standard .null ⟨[⟨none, .group ⟨[]⟩⟩, ⟨some .or, .clause c⟩]⟩ = .error e) ∧
      (∀ b, Filter.test .standard .null ⟨[⟨some .and, .clause c⟩]⟩ ≠ .ok b) ∧
      ((Filter.ofClause c).orGroup (.ofClause d)).test .standard .null = .ok true ∧
      (∃ b, ((Filter.ofClause c).andGroup (.ofClause d)).test .standard .null = .ok b) ∧
      ((Filter.ofClause c).andGroup (.ofClause d)).test ⟨fun _ => some "no"⟩ .null =
        .error (.refusedPattern "_*" "no") := by
  let c : Clause := ⟨.literal (.int 1), .eq, .operand (.literal (.int 1)), rfl⟩
  let d : Clause := ⟨.literal (.string "b"), .like, .like ⟨"_*"⟩, rfl⟩
  have hbuilt : ((Filter.ofClause c).andGroup (.ofClause d)).Built := .andGroup (.ofClause c) (.ofClause d)
  refine ⟨c, d, by decide +kernel, by decide +kernel, by decide, by decide, ?_, ?_, ?_, ?_, by decide +kernel⟩
  · exact ((test_eq_eager .standard _ .null).2.2.1 .empty (by decide)).1
  · exact (test_eq_eager .standard _ .null).2.2.2.1 (.inr (.inl ⟨_, rfl, by decide⟩))
  · exact (test_eq_eager .standard _ .null).2.1 true (by decide +kernel)
  · exact ((test_eq_eager .standard _ .null).2.2.2.2.2 (by decide +kernel)).2.2 hbuilt

end RecordFilter
