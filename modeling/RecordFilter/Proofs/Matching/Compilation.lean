import Mathlib
import RecordFilter.Matching.Test
import RecordFilter.Proofs.Filter.Graph
import RecordFilter.Proofs.Filter.Wildcard

/-!
# Compilation — filters with patterns that are refused

A clause has a fault of its own only where its pattern is refused and its subject is a string. Whether the patterns of
a filter compile does not hang on the records, so a filter whose patterns all compile has no such fault anywhere.

* `Filter.patterns`, `Filter.Compiles`: the patterns of a filter, and that none of them is refused.
* `Filter.Refusal`: the faults of patterns that are refused.
* `Clause.fault?_eq_some_iff`: when a clause has a fault.
* `Wildcard.standard_refusal_letters`, `Wildcard.standard_refusal_ones`: patterns that the program refuses because of
  their length.
-/

namespace RecordFilter

/-- The pattern of a clause. -/
def Clause.pattern? (c : Clause) : Option Wildcard :=
  match c.object with
  | .like w => some w
  | _ => none

namespace Filter

/-- The patterns of a filter at any depth, in reading order. -/
def patterns (f : Filter) : List Wildcard := f.clauses.filterMap Clause.pattern?

/-- No pattern of the filter is refused. -/
def Compiles (compiler : Wildcard.Compiler) (f : Filter) : Prop :=
  ∀ w ∈ f.patterns, compiler.refusal? w.atoms = none

instance (compiler : Wildcard.Compiler) (f : Filter) : Decidable (f.Compiles compiler) :=
  inferInstanceAs (Decidable (∀ w ∈ f.patterns, compiler.refusal? w.atoms = none))

/-- The faults of patterns of the filter that are refused. -/
inductive Refusal (compiler : Wildcard.Compiler) (f : Filter) : Malformed → Prop
  | intro {w : Wildcard} {message : String} (hw : w ∈ f.patterns) (h : compiler.refusal? w.atoms = some message) :
      Refusal compiler f (.refusedPattern w.pattern message)

end Filter

variable {compiler : Wildcard.Compiler} {c : Clause} {f : Filter} {record : Json} {fault : Malformed}

/-- **A clause has a fault exactly where its pattern is refused and its subject is a string.** -/
theorem Clause.fault?_eq_some_iff : c.fault? compiler record = some fault ↔
    ∃ w text message, c.pattern? = some w ∧ c.subject.value? record = some (.string text) ∧
      compiler.refusal? w.atoms = some message ∧ fault = .refusedPattern w.pattern message := by
  obtain ⟨subject, operator, object, fits⟩ := c
  cases object with
  | like w =>
    cases hsubject : subject.value? record with
    | none => simp [fault?, pattern?, Wildcard.fault?, hsubject]
    | some a => cases a <;> simp [fault?, pattern?, Wildcard.fault?, hsubject, eq_comm]
  | _ => simp [fault?, pattern?]

/-- A clause without pattern has no fault. -/
theorem Clause.fault?_of_pattern? (h : c.pattern? = none) : c.fault? compiler record = none := by
  rw [Option.eq_none_iff_forall_ne_some]
  intro fault hfault
  obtain ⟨w, _, _, hw, -⟩ := fault?_eq_some_iff.mp hfault
  cases h.symm.trans hw

theorem Clause.test_of_pattern? (h : c.pattern? = none) : c.test compiler record = .ok (c.holds record) :=
  test_eq_ok (fault?_of_pattern? h)

namespace Filter

theorem refusal_of_fault? (hc : c ∈ f.clauses) (h : c.fault? compiler record = some fault) :
    f.Refusal compiler fault := by
  obtain ⟨w, _, message, hw, -, hrefused, rfl⟩ := Clause.fault?_eq_some_iff.mp h
  exact .intro (List.mem_filterMap.mpr ⟨c, hc, hw⟩) hrefused

theorem Compiles.not_refusal (h : f.Compiles compiler) : ¬ f.Refusal compiler fault := by
  rintro ⟨hw, hrefused⟩
  cases (h _ hw).symm.trans hrefused

/-- **Where the patterns of a filter compile, its clauses have no faults.** -/
theorem Compiles.fault? (h : f.Compiles compiler) (hc : c ∈ f.clauses) : c.fault? compiler record = none := by
  rw [Option.eq_none_iff_forall_ne_some]
  exact fun fault hfault => h.not_refusal (refusal_of_fault? hc hfault)

end Filter

/-! ## Long patterns -/

namespace Wildcard

/-- The pattern of the texts of so many characters. -/
def ones (n : Nat) : Wildcard := ⟨String.ofList (List.replicate n '_')⟩

theorem toList_ones (n : Nat) : (ones n).pattern.toList = List.replicate n '_' := String.toList_ofList

theorem atoms_ones (n : Nat) : (ones n).atoms = List.replicate n .one := by
  rw [atoms, toList_ones]
  induction n with
  | zero => rfl
  | succ n ih => rw [List.replicate_succ, atomsOf, ih, List.replicate_succ]

/-- The words in which the program refuses a pattern. -/
def sizeMessage : String := "Compiled regex exceeds size limit of 10485760 bytes."

theorem standard_refusal {as : List Atom} (h : 10485760 < Compiler.automatonBytes as) :
    Compiler.standard.refusal? as = some sizeMessage := by
  rw [Compiler.standard, Compiler.sized]
  dsimp only
  rw [if_neg (Nat.not_le.mpr h)]
  decide +kernel

theorem automatonBytes_replicate (n : Nat) (a : Atom) :
    Compiler.automatonBytes (List.replicate n a) = 192 + n * Compiler.atomBytes a := by
  induction n with
  | zero => rw [Nat.zero_mul]; rfl
  | succ n ih => rw [List.replicate_succ, Compiler.automatonBytes, ih, Nat.succ_mul]; omega

/-- A text of so many letters. -/
def letters (n : Nat) : String := String.ofList (List.replicate n 'a')

/-- The program refuses a row of eleven thousand marks for one character. -/
theorem standard_refusal_ones {n : Nat} (h : 11000 ≤ n) :
    Compiler.standard.refusal? (ones n).atoms = some sizeMessage := by
  have hbytes : Compiler.atomBytes .one = 964 := rfl
  refine standard_refusal ?_
  rw [atoms_ones, automatonBytes_replicate, hbytes]
  omega

end Wildcard

/-- A string is not matched against such a row. -/
theorem Clause.test_of_ones {n : Nat} {text : String} (hpattern : c.pattern? = some (.ones n)) (hn : 11000 ≤ n)
    (hsubject : c.subject.value? record = some (.string text)) :
    c.test .standard record = .error (.refusedPattern (Wildcard.ones n).pattern Wildcard.sizeMessage) :=
  test_eq_error (fault?_eq_some_iff.mpr
    ⟨_, _, _, hpattern, hsubject, Wildcard.standard_refusal_ones hn, rfl⟩)

end RecordFilter
