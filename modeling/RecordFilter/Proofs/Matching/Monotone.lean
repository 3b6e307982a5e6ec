import Mathlib
import RecordFilter.Proofs.Matching.Fields
import RecordFilter.Proofs.Matching.Truth

/-!
# Monotone — what is missing in a record makes no positive filter true

A filter that negates nothing asks for values. Both joiners are monotone, so such a filter stays true as long
as its clauses do; and a clause that is true has found a value at each of its paths, so it stays true in every
record that keeps these values. Filters of negated operators only are the other way round.

* `Filter.truth_le`: a filter is monotone in its clauses.
* `Clause.exists_resolve?_of_holdsPositively`: a positive clause that holds has found all its values.
* `Json.KeptIn`: a record has what another one has at some paths.
* `Filter.test_mono`: records that keep what a filter has found keep its outcome.
-/

namespace RecordFilter

/-! ## Truth -/

section Truth

variable {p q : Clause → Bool}

theorem joinOutcome_le {outcome outcome' next next' : Bool} (joiner : Option Joiner) (h : outcome ≤ outcome')
    (h' : next ≤ next') : joinOutcome outcome (joiner, next) ≤ joinOutcome outcome' (joiner, next') := by
  cases joiner with
  | none => exact h'
  | some j =>
    cases j with
    | and => exact inf_le_inf h h'
    | or => exact sup_le_sup h h'

theorem Filter.truthFrom_le {row : List Statement} (hrow : ∀ s ∈ row, s.node.truth p ≤ s.node.truth q)
    {outcome outcome' : Bool} (h : outcome ≤ outcome') :
    truthFrom p outcome row ≤ truthFrom q outcome' row := by
  induction row generalizing outcome outcome' with
  | nil => exact h
  | cons s row ih =>
    obtain ⟨joiner, node⟩ := s
    rw [List.forall_mem_cons] at hrow
    exact ih hrow.2 (joinOutcome_le joiner h hrow.1)

/-- **A filter is monotone in its clauses**, whatever joins them. -/
theorem Filter.truth_le {f : Filter} (h : ∀ c ∈ f.clauses, p c ≤ q c) : f.truth p ≤ f.truth q := by
  induction f using Filter.induction with
  | h row ih =>
    refine truthFrom_le ?_ le_rfl
    rintro ⟨joiner, node⟩ hs
    have hnode : ∀ c ∈ node.clauses, p c ≤ q c := by
      intro c hc
      exact h c (mem_clausesOf.mpr ⟨_, hs, hc⟩)
    cases node with
    | clause c => exact hnode c (by simp [Node.clauses])
    | group g => exact ih _ hs g rfl hnode

end Truth

/-! ## Clauses -/

theorem Filter.paths_subset_of_mem_clauses {f : Filter} {c : Clause} (hc : c ∈ f.clauses) :
    c.paths ⊆ f.paths := by
  induction f using Filter.induction with
  | h row ih =>
    obtain ⟨⟨joiner, node⟩, hs, hnode⟩ := mem_clausesOf.mp hc
    have hpaths : c.paths ⊆ node.paths := by
      cases node with
      | clause d =>
        obtain rfl : c = d := by simpa [Node.clauses] using hnode
        exact fun p hp => hp
      | group g => exact ih _ hs g rfl hnode
    exact fun p hp => mem_pathsOf.mpr ⟨_, hs, hpaths hp⟩

/-- Whatever the first record has at one of the paths, the second one has there too. -/
def Json.KeptIn (paths : List FieldPath) (v w : Json) : Prop :=
  ∀ p ∈ paths, ∀ x, v.resolve? p = some x → ∃ y, w.resolve? p = some y ∧ x.Same y

theorem Json.KeptIn.subset {paths paths' : List FieldPath} {v w : Json} (h : KeptIn paths v w)
    (hsub : paths' ⊆ paths) : KeptIn paths' v w := fun p hp => h p (hsub hp)

theorem Operator.isNegated_iff {o : Operator} :
    o.isNegated = true ↔ o ∈ [neq, notIn, notBetween, notLike] := by
  cases o <;> decide

section Clauses

variable {v w : Json}

theorem Clause.holds_of_isNegated {c : Clause} (h : c.operator.isNegated = true) :
    c.holds v = !c.holdsPositively v := by
  rw [holds, if_pos h]

theorem Clause.holds_of_not_isNegated {c : Clause} (h : ¬ c.operator.isNegated = true) :
    c.holds v = c.holdsPositively v := by
  rw [holds, if_neg h]

theorem Operand.exists_resolve?_of_value? {o : Operand} {a : Scalar} (h : o.value? v = some a) :
    ∀ p ∈ Clause.operandPaths o, ∃ x, v.resolve? p = some x := by
  cases o with
  | field path =>
    obtain ⟨x, hx, -⟩ := Option.bind_eq_some_iff.mp h
    rw [Clause.operandPaths, List.forall_mem_singleton]
    exact ⟨x, hx⟩
  | literal value => simp [Clause.operandPaths]

theorem Object.exists_resolve?_of_admits {operator : Operator} {a : Scalar} {object : Object}
    (h : object.admits v operator a = true) :
    ∀ p ∈ Clause.objectPaths object, ∃ x, v.resolve? p = some x := by
  cases object with
  | operand o =>
    obtain ⟨b, hb, -⟩ := (Option.any_eq_true _ _).mp h
    exact Operand.exists_resolve?_of_value? hb
  | array array =>
    cases array with
    | literals values => simp [Clause.objectPaths]
    | field path =>
      rw [Clause.objectPaths, List.forall_mem_singleton]
      cases hx : v.resolve? path with
      | some x => exact ⟨x, rfl⟩
      | none => simp [Object.admits, ArrayObject.contains, hx] at h
  | range r => simp [Clause.objectPaths]
  | like wildcard => simp [Clause.objectPaths]

/-- **A clause that holds as a positive one has found a value at each of its paths.** -/
theorem Clause.exists_resolve?_of_holdsPositively {c : Clause} (h : c.holdsPositively v = true) :
    ∀ p ∈ c.paths, ∃ x, v.resolve? p = some x := by
  obtain ⟨a, ha, hadmits⟩ := (Option.any_eq_true _ _).mp h
  rw [paths, List.forall_mem_append]
  exact ⟨Operand.exists_resolve?_of_value? ha, Object.exists_resolve?_of_admits hadmits⟩

/-- A clause that holds as a positive one still holds where the values at its paths are kept. -/
theorem Clause.holdsPositively_le {c : Clause} (h : Json.KeptIn c.paths v w) :
    c.holdsPositively v ≤ c.holdsPositively w := by
  rw [Bool.le_iff_imp]
  intro hholds
  have hsame : ∀ p ∈ c.paths, Option.Rel Json.Same (v.resolve? p) (w.resolve? p) := by
    intro p hp
    obtain ⟨x, hx⟩ := exists_resolve?_of_holdsPositively hholds p hp
    obtain ⟨y, hy, hxy⟩ := h p hp x hx
    rw [hx, hy]
    exact .some hxy
  rw [← holdsPositively_congr hsame]
  exact hholds

end Clauses

/-! ## Filters -/

/-- **Missing data makes no positive filter true and no negated one false.** Where a second record has the same
value at each path of a well-formed filter that has one in a first record, a filter without negated operators
that is true of the first is true of the second, and a filter of negated operators only that is false of the
first is false of the second, unless a pattern is refused; where its patterns compile, it always is. -/
theorem Filter.test_mono (compiler : Wildcard.Compiler) (f : Filter) (hf : f.WellFormed) (v w : Json)
    (h : Json.KeptIn f.paths v w) :
    ((∀ c ∈ f.clauses, c.operator ∉ [.neq, .notIn, .notBetween, .notLike]) → f.test compiler v = .ok true →
      f.Gives compiler w true ∧ (f.Compiles compiler → f.test compiler w = .ok true)) ∧
    ((∀ c ∈ f.clauses, c.operator ∈ [.neq, .notIn, .notBetween, .notLike]) → f.test compiler v = .ok false →
      f.Gives compiler w false ∧ (f.Compiles compiler → f.test compiler w = .ok false)) := by
  have hpositive : ∀ c ∈ f.clauses, c.holdsPositively v ≤ c.holdsPositively w := by
    intro c hc
    exact Clause.holdsPositively_le (h.subset (paths_subset_of_mem_clauses hc))
  have hsecond {outcome : Bool} (htruth : f.truth (·.holds w) = outcome) :
      f.Gives compiler w outcome ∧ (f.Compiles compiler → f.test compiler w = .ok outcome) := by
    subst htruth
    have hgives := gives_truth hf compiler w
    exact ⟨hgives, hgives.test_eq⟩
  constructor
  · intro hoperators htrue
    have hle : f.truth (·.holds v) ≤ f.truth (·.holds w) := by
      refine truth_le fun c hc => ?_
      have hoperator : ¬ c.operator.isNegated = true := mt Operator.isNegated_iff.mp (hoperators c hc)
      rw [Clause.holds_of_not_isNegated hoperator, Clause.holds_of_not_isNegated hoperator]
      exact hpositive c hc
    exact hsecond (Bool.le_iff_imp.mp hle (truth_of_test htrue))
  · intro hoperators hfalse
    -- the records change places: what the second one makes true the first one does
    have hle : f.truth (·.holds w) ≤ f.truth (·.holds v) := by
      refine truth_le fun c hc => ?_
      have hoperator : c.operator.isNegated = true := Operator.isNegated_iff.mpr (hoperators c hc)
      rw [Clause.holds_of_isNegated hoperator, Clause.holds_of_isNegated hoperator]
      exact compl_le_compl (hpositive c hc)
    rw [truth_of_test hfalse] at hle
    exact hsecond (le_bot_iff.mp hle)

/-- The second record has a number that the first one lacks, and other signs of its zeros: a filter without
negated operators stays true, and one of negated operators stays false. -/
theorem Filter.test_mono_added :
    ∃ (f g : Filter) (v w : Json), f.text = "/a eq /b and (/c gt 1 or /a in /d or /c like \"_*\")" ∧
      g.text = "/a neq /b or (/a nin /d and /c neq 7)" ∧ v.member? "c" = none ∧
      Json.KeptIn f.paths v w ∧ Json.KeptIn g.paths v w ∧
      f.test .standard v = .ok true ∧ f.test .standard w = .ok true ∧
      g.test .standard v = .ok false ∧ g.test .standard w = .ok false := by
  let a : FieldPath := .ofKey "a" (by decide +kernel)
  let b : FieldPath := .ofKey "b" (by decide +kernel)
  let c : FieldPath := .ofKey "c" (by decide +kernel)
  let d : FieldPath := .ofKey "d" (by decide +kernel)
  let f : Filter := ⟨[⟨none, .clause ⟨.field a, .eq, .operand (.field b), rfl⟩⟩,
    ⟨some .and, .group ⟨[⟨none, .clause ⟨.field c, .gt, .operand (.literal (.int 1)), rfl⟩⟩,
      ⟨some .or, .clause ⟨.field a, .isIn, .array (.field d), rfl⟩⟩,
      ⟨some .or, .clause ⟨.field c, .like, .like ⟨"_*"⟩, rfl⟩⟩]⟩⟩]⟩
  let g : Filter := ⟨[⟨none, .clause ⟨.field a, .neq, .operand (.field b), rfl⟩⟩,
    ⟨some .or, .group ⟨[⟨none, .clause ⟨.field a, .notIn, .array (.field d), rfl⟩⟩,
      ⟨some .and, .clause ⟨.field c, .neq, .operand (.literal (.int 7)), rfl⟩⟩]⟩⟩]⟩
  let zero (negative : Bool) : Json := .number (.real (.zero negative))
  let v : Json := .object [("a", .number (.int 0)), ("b", zero true), ("d", .array [.null, zero true])]
  let w : Json := .object [("a", .number (.int 0)), ("b", zero false), ("c", .number (.int 7)),
    ("d", .array [.null, zero false])]
  have hzero : (zero true).Same (zero false) := .number (.real (by simp))
  have hkept : Json.KeptIn [a, b, c, d] v w := by
    intro p hp x hx
    simp only [List.mem_cons, List.not_mem_nil, or_false] at hp
    rcases hp with rfl | rfl | rfl | rfl
    · cases hx
      exact ⟨_, rfl, .refl _⟩
    · cases hx
      exact ⟨_, rfl, hzero⟩
    · cases hx
    · cases hx
      exact ⟨_, rfl, .array (.cons .null (.cons hzero .nil))⟩
  have hf : Json.KeptIn f.paths v w := hkept.subset (by decide +kernel)
  have hg : Json.KeptIn g.paths v w := hkept.subset (by decide +kernel)
  have hfirst : f.test .standard v = .ok true := by decide +kernel
  have hsecond : g.test .standard v = .ok false := by decide +kernel
  exact ⟨f, g, v, w, by decide +kernel, by decide +kernel, rfl, hf, hg, hfirst,
    ((test_mono .standard f (by decide) v w hf).1 (by decide) hfirst).2 (by decide +kernel), hsecond,
    ((test_mono .standard g (by decide) v w hg).2 (by decide) hsecond).2 (by decide +kernel)⟩

/-- The second record has a string that the first one lacks, and a pattern of 50,000 marks is matched against it: the
program refuses the pattern, so that a filter without negated operators that is true of the first record has no outcome
for the second one. -/
theorem Filter.test_mono_refused :
    ∃ (a b : FieldPath) (f : Filter) (v w : Json), FieldPath.ofText "/a" = .ok a ∧ FieldPath.ofText "/b" = .ok b ∧
      f.statements = [⟨none, .clause ⟨.field b, .like, .like (Wildcard.ones 50000), rfl⟩⟩,
        ⟨some .or, .clause ⟨.field a, .eq, .operand (.literal (.int 1)), rfl⟩⟩] ∧
      v = .object [("a", .number (.int 1))] ∧ w = .object [("a", .number (.int 1)), ("b", .string "x")] ∧
      f.WellFormed ∧ Json.KeptIn f.paths v w ∧
      (∀ c ∈ f.clauses, c.operator ∉ [.neq, .notIn, .notBetween, .notLike]) ∧ f.test .standard v = .ok true ∧
      f.test .standard w = .error (.refusedPattern (Wildcard.ones 50000).pattern Wildcard.sizeMessage) := by
  let a : FieldPath := .ofKey "a" (by decide +kernel)
  let b : FieldPath := .ofKey "b" (by decide +kernel)
  let like : Clause := ⟨.field b, .like, .like (Wildcard.ones 50000), rfl⟩
  let equal : Clause := ⟨.field a, .eq, .operand (.literal (.int 1)), rfl⟩
  let f : Filter := ⟨[⟨none, .clause like⟩, ⟨some .or, .clause equal⟩]⟩
  let v : Json := .object [("a", .number (.int 1))]
  let w : Json := .object [("a", .number (.int 1)), ("b", .string "x")]
  have hkept : Json.KeptIn f.paths v w := by
    intro p hp x hx
    have hpaths : f.paths = [b, a] := rfl
    rw [hpaths, List.mem_pair] at hp
    rcases hp with rfl | rfl
    · cases hx
    · cases hx
      exact ⟨_, rfl, .refl _⟩
  have hlike : like.test .standard w =
      .error (.refusedPattern (Wildcard.ones 50000).pattern Wildcard.sizeMessage) :=
    Clause.test_of_ones rfl (by decide) rfl
  have herror : f.test .standard w =
      .error (.refusedPattern (Wildcard.ones 50000).pattern Wildcard.sizeMessage) := by
    rw [Filter.test, Filter.testFrom, Node.test, hlike]
    rfl
  exact ⟨a, b, f, v, w, by decide +kernel, by decide +kernel, rfl, rfl, rfl, by decide, hkept, by decide, rfl, herror⟩

end RecordFilter
