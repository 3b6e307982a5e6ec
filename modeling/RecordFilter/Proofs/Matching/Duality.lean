import Mathlib
import RecordFilter.Proofs.Filter.Checked
import RecordFilter.Proofs.Matching.Rows
import RecordFilter.Proofs.Stored.RoundTrip

/-!
# Duality — the filter that says the opposite

Eight of the operators come in pairs, each the negation of the other, and so do the joiners: with both
swapped everywhere a filter says the opposite, by De Morgan's laws. A statement that settles nothing of an
outcome settles nothing of the opposite one when it is joined in the opposite way, so the same statements are
passed over, and the faults that show are the same.

* `Operator.dual`, `Joiner.dual`, `Clause.dual`, `Filter.dual`: the opposite of each.
* `Clause.holds_dual`: a clause or its dual holds, never both, whatever its operands stand for.
* `Filter.testFrom_dual`: a row and its dual run side by side, from opposite outcomes.
* `Filter.test_dual_opposite`: a filter and its dual, with the clauses that construction makes of the dual ones.
-/

namespace RecordFilter

/-! ## Opposites -/

namespace Operator

/-- The operator that says the opposite. The four that compare by order have none and stay as they are. -/
def dual : Operator → Operator
  | eq => neq
  | neq => eq
  | isIn => notIn
  | notIn => isIn
  | between => notBetween
  | notBetween => between
  | like => notLike
  | notLike => like
  | operator => operator

@[simp] theorem shape_dual (o : Operator) : o.dual.shape = o.shape := by
  cases o <;> rfl

@[simp] theorem positive_dual (o : Operator) : o.dual.positive = o.positive := by
  cases o <;> rfl

theorem isNegated_dual {o : Operator} (h : o ∉ [gt, gte, lt, lte]) : o.dual.isNegated = !o.isNegated := by
  cases o <;> revert h <;> decide

end Operator

/-- The joiner that joins opposites to the opposite. -/
def Joiner.dual : Joiner → Joiner
  | and => or
  | or => and

/-- The clause that holds where this one does not. -/
def Clause.dual (c : Clause) : Clause where
  subject := c.subject
  operator := c.operator.dual
  object := c.object
  fits := by rw [Operator.shape_dual, c.fits]

mutual

/-- The opposite of a node. -/
def Node.dual : Node → Node
  | .clause c => .clause c.dual
  | .group f => .group f.dual

/-- A statement with the opposite joiner and the opposite of its node. -/
def Statement.dual : Statement → Statement
  | ⟨joiner, node⟩ => ⟨joiner.map Joiner.dual, node.dual⟩

/-- The filter with every operator and every joiner, at any depth, replaced by the opposite one. -/
def Filter.dual : Filter → Filter
  | ⟨row⟩ => ⟨Filter.dualOf row⟩

/-- The opposites of a row of statements. -/
def Filter.dualOf : List Statement → List Statement
  | [] => []
  | s :: rest => s.dual :: Filter.dualOf rest

end

theorem Filter.dualOf_eq (row : List Statement) : dualOf row = row.map Statement.dual := by
  induction row with
  | nil => rfl
  | cons s row ih => rw [dualOf, ih, List.map_cons]

theorem Filter.dual_mk (row : List Statement) : dual ⟨row⟩ = ⟨row.map Statement.dual⟩ := by
  rw [dual, dualOf_eq]

/-! ## Clauses -/

/-- The clauses of the dual are the duals of the clauses. -/
theorem Filter.clauses_dual (f : Filter) : f.dual.clauses = f.clauses.map Clause.dual := by
  induction f using Filter.induction with
  | h row ih =>
    rw [dual_mk, clauses, clauses]
    induction row with
    | nil => rfl
    | cons s row ihrow =>
      obtain ⟨joiner, node⟩ := s
      rw [List.map_cons, clausesOf, clausesOf, List.map_append,
        ihrow fun s hs => ih s (List.mem_cons_of_mem _ hs)]
      congr 1
      cases node with
      | clause c => rfl
      | group g => exact ih _ List.mem_cons_self g rfl

/-- Literals can be written under any operator. -/
theorem Clause.Writable.dual {c : Clause} (h : c.Writable) : c.dual.Writable := h

section Outcomes

variable {compiler : Wildcard.Compiler} {record : Json}

/-- **A clause or its dual holds, and never both**: also where an operand stands for nothing, for no scalar or
for one of another type. -/
theorem Clause.holds_dual {c : Clause} (h : c.operator ∉ [.gt, .gte, .lt, .lte]) :
    c.dual.holds record = !c.holds record := by
  have hnegated : c.dual.operator.isNegated = !c.operator.isNegated := Operator.isNegated_dual h
  have hpositive : c.dual.holdsPositively record = c.holdsPositively record := by
    unfold holdsPositively dual
    rw [Operator.positive_dual]
  rw [holds, holds, hnegated, hpositive]
  cases c.operator.isNegated <;> simp

/-- A clause and its dual have the same pattern and the same subject, and so the same fault. -/
theorem Clause.fault?_dual (c : Clause) : c.dual.fault? compiler record = c.fault? compiler record := rfl

/-- **The dual of a clause has the opposite outcome, or the same fault.** -/
theorem Clause.test_dual {c : Clause} (h : c.operator ∉ [.gt, .gte, .lt, .lte]) :
    c.dual.test compiler record = (c.test compiler record).map (!·) := by
  rw [test_eq, test_eq, fault?_dual, holds_dual h]
  cases c.fault? compiler record <;> rfl

/-! ## Rows of statements -/

theorem Filter.malformed?_dual (f : Filter) : f.dual.malformed? = f.malformed? := by
  obtain ⟨row⟩ := f
  have hjoiner : ∀ s : Statement, s.dual.joiner = s.joiner.map Joiner.dual := by
    rintro ⟨joiner, node⟩
    rfl
  rw [dual_mk]
  cases row with
  | nil => rfl
  | cons first rest => simp [malformed?, hjoiner, List.findIdx?_map, Function.comp_def]

theorem Joiner.settles_dual (j : Joiner) (outcome : Bool) :
    j.dual.settles (!outcome) = j.settles outcome := by
  cases j <;> cases outcome <;> rfl

/-- **A row and its dual run side by side**: from opposite outcomes they pass over the same statements, and end
in opposite outcomes or in the same fault. -/
theorem Filter.testFrom_dual {row : List Statement}
    (h : ∀ s ∈ row, s.node.dual.test compiler record = (s.node.test compiler record).map (!·)) (outcome : Bool) :
    testFrom compiler record (!outcome) (row.map Statement.dual) = (testFrom compiler record outcome row).map (!·) := by
  induction row generalizing outcome with
  | nil => rfl
  | cons s row ih =>
    obtain ⟨joiner, node⟩ := s
    rw [List.forall_mem_cons] at h
    obtain ⟨hnode, hrow⟩ := h
    have hsettles : (joiner.map Joiner.dual).any (Joiner.settles · (!outcome)) =
        joiner.any (Joiner.settles · outcome) := by
      cases joiner with
      | none => rfl
      | some j => exact j.settles_dual outcome
    rw [List.map_cons, Statement.dual, testFrom, testFrom, hsettles, hnode]
    split
    · exact ih hrow outcome
    · cases node.test compiler record with
      | error fault => rfl
      | ok next => exact ih hrow next

/-- **The dual of a filter has the opposite outcome, or the same fault.** -/
theorem Filter.test_dual {f : Filter} (h : ∀ c ∈ f.clauses, c.operator ∉ [.gt, .gte, .lt, .lte]) :
    f.dual.test compiler record = (f.test compiler record).map (!·) := by
  induction f using Filter.induction with
  | h row ih =>
    have hnodes : ∀ s ∈ row, s.node.dual.test compiler record = (s.node.test compiler record).map (!·) := by
      rintro ⟨joiner, node⟩ hs
      have hclauses : ∀ c ∈ node.clauses, c.operator ∉ [.gt, .gte, .lt, .lte] := by
        intro c hc
        exact h c (mem_clausesOf.mpr ⟨_, hs, hc⟩)
      cases node with
      | clause c =>
        have hc := hclauses c (by simp [Node.clauses])
        rw [Node.dual, Node.test, Node.test, Clause.test_dual hc]
      | group g => exact ih _ hs g rfl hclauses
    have hmalformed := malformed?_dual ⟨row⟩
    rw [dual_mk] at hmalformed ⊢
    rw [test, test, hmalformed]
    cases hfault : malformed? ⟨row⟩ with
    | some fault => rfl
    | none =>
      obtain ⟨node, rest, rfl, -⟩ := malformed?_eq_none_iff.mp hfault
      rw [← testFrom_dual hnodes false]
      exact testFrom_first node.dual (rest.map Statement.dual) _ _

end Outcomes

/-- **A filter without order operators and its dual say the opposite of each other.** Construction makes the
dual of every clause of a filter that was obtained, and these are the clauses of the dual. For every record
the dual has the opposite outcome where the filter has one, and the same fault where it has none, whatever
faults its rows have and whichever of its patterns are refused. -/
theorem Filter.test_dual_opposite (compiler : Wildcard.Compiler) (f : Filter)
    (h : ∀ c ∈ f.clauses, c.operator ∉ [.gt, .gte, .lt, .lte]) :
    (f.Obtained → ∀ c ∈ f.clauses, Clause.make c.subject c.operator.dual c.object = .ok c.dual) ∧
    f.dual.clauses = f.clauses.map Clause.dual ∧
    ∀ record, (∀ b, f.test compiler record = .ok b → f.dual.test compiler record = .ok !b) ∧
      ∀ e, f.test compiler record = .error e → f.dual.test compiler record = .error e := by
  refine ⟨fun hf c hc => ?_, f.clauses_dual, fun record => ⟨fun b hb => ?_, fun e he => ?_⟩⟩
  · exact (hf.writable c hc).dual.make
  · rw [test_dual h, hb]
    rfl
  · rw [test_dual h, he]
    rfl

/-- A clause in front of an empty group. Where the clause settles the outcome, the group is passed over in the
dual too, here by a path that leads nowhere; where it does not, the fault of the group shows in both. -/
theorem Filter.test_dual_opposite_group :
    ∃ (f : Filter) (v w : Json), f.Obtained ∧ (∀ c ∈ f.clauses, c.operator ∉ [.gt, .gte, .lt, .lte]) ∧
      f.text = "/a in [\"x\"] and ()" ∧ f.dual.text = "/a nin [\"x\"] or ()" ∧
      (∀ c ∈ f.clauses, Clause.make c.subject c.operator.dual c.object = .ok c.dual) ∧
      f.test .standard v = .error .empty ∧ f.dual.test .standard v = .error .empty ∧
      f.test .standard w = .ok false ∧ f.dual.test .standard w = .ok true := by
  let a : FieldPath := .ofKey "a" (by decide +kernel)
  let c : Clause := ⟨.field a, .isIn, .array (.literals [.string "x"]), rfl⟩
  let f : Filter := ⟨[⟨none, .clause c⟩, ⟨some .and, .group ⟨[]⟩⟩]⟩
  let v : Json := .object [("a", .string "x")]
  have hoperators : ∀ c ∈ f.clauses, c.operator ∉ [.gt, .gte, .lt, .lte] := by decide
  have hwritable : f.Writable := by
    intro d hd
    obtain rfl : d = c := by simpa [f, clauses, clausesOf, Statement.clauses, Node.clauses] using hd
    exact ⟨rfl, rfl⟩
  have hf : f.Obtained := .stored (ofJson_toJson hwritable).1
  have hv : f.test .standard v = .error .empty := by decide +kernel
  have hw : f.test .standard .null = .ok false := by decide +kernel
  obtain ⟨hmake, -, hopposite⟩ := test_dual_opposite .standard f hoperators
  exact ⟨f, v, .null, hf, hoperators, by decide +kernel, by decide +kernel, hmake hf, hv,
    (hopposite v).2 _ hv, hw, (hopposite .null).1 _ hw⟩

end RecordFilter
