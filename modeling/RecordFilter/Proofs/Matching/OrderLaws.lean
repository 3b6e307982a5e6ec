import Mathlib
import RecordFilter.Proofs.Filter.Origin
import RecordFilter.Proofs.Matching.Comparison
import RecordFilter.Proofs.Matching.Expansion

/-!
# OrderLaws — the comparing operators have the laws of an order

An operand stands for a string, a boolean, a number or nothing. Two strings and two numbers have an order,
the numbers by their exact values, and all other pairs have none. So the orders that two comparisons find can
be joined to one, and read the other way round they are the opposite ones, whatever the operands stand for.

* `Scalar.Ordered`, `Scalar.compare?_eq_some_iff`: which scalars have an order, and which.
* `Scalar.compare?_swap_iff`, `Scalar.compare?_then`: orders the other way round, and orders joined to one.
* `Operand.Accepted`, `Operand.Compares`: the operands of clauses, and what a comparison of two of them says.
* `Operand.compares_iff`: a comparison looks at the values of its operands.
* `Operand.compares_lawful`: the laws.
-/

namespace RecordFilter

open Number

/-- Two orders that go up are joined to one. -/
theorem compare_then {α : Type} [Ord α] [Std.TransOrd α] {a b c : α} (h : (compare a b).isLE = true)
    (h' : (compare b c).isLE = true) : compare a c = (compare a b).then (compare b c) := by
  cases hab : compare a b with
  | lt =>
    cases hbc : compare b c with
    | lt => exact Std.TransCmp.lt_trans hab hbc
    | eq => exact Std.TransCmp.lt_of_lt_of_eq hab hbc
    | gt => simp [hbc] at h'
  | eq =>
    cases hbc : compare b c with
    | lt => exact Std.TransCmp.lt_of_eq_of_lt hab hbc
    | eq => exact Std.TransCmp.eq_trans hab hbc
    | gt => simp [hbc] at h'
  | gt => simp [hab] at h

/-! ## Scalars -/

namespace Scalar

variable {a b c : Scalar} {o p : Ordering}

/-- The pairs of scalars that have an order: two strings, and two numbers with an exact value. -/
inductive Ordered : Scalar → Scalar → Ordering → Prop
  | strings (s t : String) : Ordered (.string s) (.string t) (compare s t)
  | numbers {a b : Scalar} {u v : EReal} (ha : a.number? = some u) (hb : b.number? = some v) :
      Ordered a b (compare u v)

theorem ne_nan_of_compare? (h : compare? a b = some o) : a ≠ .float .nan ∧ b ≠ .float .nan := by
  constructor
  · rintro rfl
    cases b <;> cases h
  · rintro rfl
    cases a with
    | float x => cases x <;> cases h
    | _ => cases h

theorem Ordered.of_compare? (h : compare? a b = some o) : Ordered a b o := by
  obtain ⟨hna, hnb⟩ := ne_nan_of_compare? h
  have hnumbers (ha : a.isNumber = true) (hb : b.isNumber = true) : Ordered a b o := by
    obtain ⟨u, hu⟩ := (exists_number?_iff a).mpr ⟨ha, hna⟩
    obtain ⟨v, hv⟩ := (exists_number?_iff b).mpr ⟨hb, hnb⟩
    rw [compare?_of_number hu hv, Option.some_inj] at h
    exact h ▸ .numbers hu hv
  cases a with
  | string s =>
    cases b with
    | string t =>
      cases h
      exact .strings s t
    | _ => cases h
  | bool x => cases b <;> cases h
  | int i =>
    cases b with
    | int j => exact hnumbers rfl rfl
    | float y => exact hnumbers rfl rfl
    | _ => cases h
  | float x =>
    cases b with
    | int j => exact hnumbers rfl rfl
    | float y => exact hnumbers rfl rfl
    | _ => cases h

/-- **Which scalars have an order, and which one**: strings by their characters, numbers by their values. -/
theorem compare?_eq_some_iff : compare? a b = some o ↔ Ordered a b o := by
  constructor
  · exact Ordered.of_compare?
  · rintro (⟨s, t⟩ | ⟨ha, hb⟩)
    · rfl
    · exact compare?_of_number ha hb

theorem Ordered.swap (h : Ordered a b o) : Ordered b a o.swap := by
  cases h with
  | strings s t =>
    rw [← Std.OrientedOrd.eq_swap]
    exact .strings t s
  | numbers ha hb =>
    rw [← Std.OrientedOrd.eq_swap]
    exact .numbers hb ha

/-- Orders that go up are joined to one, through strings or through numbers of any kind. -/
theorem Ordered.then (h : Ordered a b o) (h' : Ordered b c p) (ho : o.isLE = true) (hp : p.isLE = true) :
    Ordered a c (o.then p) := by
  cases h with
  | strings s t =>
    cases h' with
    | strings t r =>
      rw [← compare_then ho hp]
      exact .strings s r
    | numbers hb hc => cases hb
  | numbers ha hb =>
    cases h' with
    | strings t r => cases hb
    | numbers hb' hc =>
      cases hb.symm.trans hb'
      rw [← compare_then ho hp]
      exact .numbers ha hc

/-- The other way round the order is the opposite one. -/
theorem compare?_swap_iff : compare? b a = some o ↔ compare? a b = some o.swap := by
  rw [compare?_eq_some_iff, compare?_eq_some_iff]
  constructor
  · exact Ordered.swap
  · intro h
    rw [← o.swap_swap]
    exact h.swap

/-- **Orders that go up are joined to one.** -/
theorem compare?_then (h : compare? a b = some o) (h' : compare? b c = some p) (ho : o.isLE = true)
    (hp : p.isLE = true) : compare? a c = some (o.then p) :=
  compare?_eq_some_iff.mpr ((compare?_eq_some_iff.mp h).then (compare?_eq_some_iff.mp h') ho hp)

/-- Two strings have an order, and so have two numbers that are numbers. -/
theorem exists_compare?_of_isAlike (h : a.isAlike b = true) (ha : a ≠ .float .nan) (hb : b ≠ .float .nan) :
    ∃ o, compare? a b = some o := by
  simp only [isAlike, Bool.and_eq_true, beq_iff_eq] at h
  obtain ⟨⟨horder, horder'⟩, hsame⟩ := h
  by_cases hnumber : a.isNumber = true
  · obtain ⟨u, hu⟩ := (exists_number?_iff a).mpr ⟨hnumber, ha⟩
    obtain ⟨v, hv⟩ := (exists_number?_iff b).mpr ⟨hsame ▸ hnumber, hb⟩
    exact ⟨_, compare?_of_number hu hv⟩
  · cases a with
    | string s =>
      cases b with
      | string t => exact ⟨_, rfl⟩
      | bool q => cases horder'
      | _ => cases hsame
    | bool q => cases horder
    | _ => exact absurd rfl hnumber

/-! ## What the operators say of scalars -/

theorem relates_lt_iff : Operator.lt.relates a b = true ↔ compare? a b = some .lt :=
  beq_iff_eq

theorem relates_gt_iff : Operator.gt.relates a b = true ↔ compare? a b = some .gt :=
  beq_iff_eq

theorem relates_lte_iff :
    Operator.lte.relates a b = true ↔ compare? a b = some .lt ∨ compare? a b = some .eq := by
  change (compare? a b).any Ordering.isLE = true ↔ _
  cases compare? a b with
  | none => simp
  | some o => cases o <;> simp

theorem relates_gte_iff :
    Operator.gte.relates a b = true ↔ compare? a b = some .gt ∨ compare? a b = some .eq := by
  change (compare? a b).any Ordering.isGE = true ↔ _
  cases compare? a b with
  | none => simp
  | some o => cases o <;> simp

/-- Booleans can be equal, though they have no order. -/
theorem relates_eq_iff :
    Operator.eq.relates a b = true ↔ compare? a b = some .eq ∨ ∃ q, a = .bool q ∧ b = .bool q := by
  change a.equals b = true ↔ _
  cases a with
  | bool p =>
    cases b with
    | bool q => simp [equals, compare?, @eq_comm _ q p]
    | _ => simp [equals, compare?]
  | _ => simp [equals]

/-- No boolean has an order. -/
theorem ne_bool_of_compare? (h : compare? a b = some o) (q : Bool) : a ≠ .bool q ∧ b ≠ .bool q := by
  cases compare?_eq_some_iff.mp h with
  | strings s t => simp
  | numbers ha hb =>
    constructor
    · rintro rfl
      cases ha
    · rintro rfl
      cases hb

theorem relates_lt_trans (h : Operator.lt.relates a b = true) (h' : Operator.lt.relates b c = true) :
    Operator.lt.relates a c = true :=
  relates_lt_iff.mpr (compare?_then (relates_lt_iff.mp h) (relates_lt_iff.mp h') rfl rfl)

theorem relates_eq_trans (h : Operator.eq.relates a b = true) (h' : Operator.eq.relates b c = true) :
    Operator.eq.relates a c = true := by
  rw [relates_eq_iff] at h h' ⊢
  rcases h with h | ⟨q, rfl, rfl⟩
  · rcases h' with h' | ⟨q, rfl, rfl⟩
    · exact .inl (compare?_then h h' rfl rfl)
    · exact absurd rfl (ne_bool_of_compare? h q).2
  · rcases h' with h' | ⟨q', hq, rfl⟩
    · exact absurd rfl (ne_bool_of_compare? h' q).1
    · exact .inr ⟨q', hq, rfl⟩

/-- What is equal to a lesser scalar is less. -/
theorem relates_eq_lt (h : Operator.eq.relates a b = true) (h' : Operator.lt.relates b c = true) :
    Operator.lt.relates a c = true := by
  rw [relates_lt_iff] at h' ⊢
  rcases relates_eq_iff.mp h with h | ⟨q, rfl, rfl⟩
  · exact compare?_then h h' rfl rfl
  · exact absurd rfl (ne_bool_of_compare? h' q).1

/-- What is less than one of two equal scalars is less than the other. -/
theorem relates_lt_eq (h : Operator.lt.relates a b = true) (h' : Operator.eq.relates b c = true) :
    Operator.lt.relates a c = true := by
  rw [relates_lt_iff] at h ⊢
  rcases relates_eq_iff.mp h' with h' | ⟨q, rfl, rfl⟩
  · exact compare?_then h h' rfl rfl
  · exact absurd rfl (ne_bool_of_compare? h q).2

/-- At most one of the three holds of two scalars. -/
theorem relates_exclusive :
    ¬(Operator.lt.relates a b = true ∧ Operator.eq.relates a b = true) ∧
    ¬(Operator.lt.relates a b = true ∧ Operator.gt.relates a b = true) ∧
    ¬(Operator.eq.relates a b = true ∧ Operator.gt.relates a b = true) := by
  rw [relates_lt_iff, relates_gt_iff, relates_eq_iff]
  refine ⟨?_, ?_, ?_⟩
  · rintro ⟨h, h' | ⟨q, rfl, -⟩⟩
    · simp [h] at h'
    · exact (ne_bool_of_compare? h q).1 rfl
  · rintro ⟨h, h'⟩
    simp [h] at h'
  · rintro ⟨h | ⟨q, rfl, -⟩, h'⟩
    · simp [h] at h'
    · exact (ne_bool_of_compare? h' q).1 rfl

/-- One of the three holds of two strings and of two numbers that are numbers. -/
theorem relates_total (h : a.isAlike b = true) (ha : a ≠ .float .nan) (hb : b ≠ .float .nan) :
    Operator.lt.relates a b = true ∨ Operator.eq.relates a b = true ∨ Operator.gt.relates a b = true := by
  obtain ⟨o, ho⟩ := exists_compare?_of_isAlike h ha hb
  rw [relates_lt_iff, relates_gt_iff, relates_eq_iff]
  cases o with
  | lt => exact .inl ho
  | eq => exact .inr (.inl (.inl ho))
  | gt => exact .inr (.inr ho)

/-- Being at most another scalar is being less or equal, except among booleans. -/
theorem relates_lte_iff_or (h : ∀ p q, ¬(a = .bool p ∧ b = .bool q)) :
    Operator.lte.relates a b = true ↔ Operator.lt.relates a b = true ∨ Operator.eq.relates a b = true := by
  rw [relates_lte_iff, relates_lt_iff, relates_eq_iff]
  constructor
  · rintro (hlt | heq)
    · exact .inl hlt
    · exact .inr (.inl heq)
  · rintro (hlt | heq | ⟨q, ha, hb⟩)
    · exact .inl hlt
    · exact .inr heq
    · exact absurd ⟨ha, hb⟩ (h q q)

end Scalar

/-- The operators that compare two operands and negate no other one. -/
def Operator.Comparing (o : Operator) : Prop := o.shape = .compare ∧ o.isNegated = false

/-- The operator that says the same of two operands that change places; the other ones stay as they are. -/
def Operator.flip : Operator → Operator
  | lt => gt
  | gt => lt
  | lte => gte
  | gte => lte
  | operator => operator

theorem Operator.Comparing.flip {o : Operator} (h : o.Comparing) : o.flip.Comparing := by
  cases o <;> exact h

/-- **Scalars may change places with the operator turned round.** -/
theorem Operator.relates_flip (o : Operator) (a b : Scalar) : o.flip.relates b a = o.relates a b := by
  rw [Bool.eq_iff_iff]
  cases o with
  | eq =>
    simp only [flip, Scalar.relates_eq_iff, Scalar.compare?_swap_iff (a := a) (b := b), Ordering.swap]
    exact or_congr_right (exists_congr fun q => and_comm)
  | lt => exact Scalar.relates_gt_iff.trans (Scalar.compare?_swap_iff.trans Scalar.relates_lt_iff.symm)
  | gt => exact Scalar.relates_lt_iff.trans (Scalar.compare?_swap_iff.trans Scalar.relates_gt_iff.symm)
  | lte =>
    simp only [flip, Scalar.relates_gte_iff, Scalar.relates_lte_iff,
      Scalar.compare?_swap_iff (a := a) (b := b), Ordering.swap]
  | gte =>
    simp only [flip, Scalar.relates_gte_iff, Scalar.relates_lte_iff,
      Scalar.compare?_swap_iff (a := a) (b := b), Ordering.swap]
  | _ => rfl

/-! ## Operands -/

/-- Rounding gives a number or an infinity. -/
theorem Number.roundRatio_ne_nan (negative : Bool) (num den : Nat) : roundRatio negative num den ≠ .nan := by
  have hparts (mantissa : Nat) (exponent : Int) : Binary64.ofParts negative mantissa exponent ≠ .nan := by
    unfold Binary64.ofParts
    split <;> simp
  unfold roundRatio
  dsimp only
  split
  · simp
  · split
    · exact hparts _ _
    · exact hparts _ _

namespace Operand

variable {a b c : Operand} {record : Json} {x y : Scalar} {o p q : Operator}

/-- No operand that can be written stands for the value that is no number. -/
theorem ne_nan_of_value? (ha : a.check = .ok ()) (hx : a.value? record = some x) : x ≠ .float .nan := by
  rintro rfl
  cases a with
  | literal v =>
    cases hx
    cases ha
  | field p =>
    obtain ⟨v, -, hv⟩ := Option.bind_eq_some_iff.mp hx
    cases v with
    | number n =>
      cases n with
      | large n above =>
        have hnan : ofNat n.toNat = .nan := by simpa [Json.scalar?, JsonNumber.scalar] using hv
        exact roundRatio_ne_nan _ _ _ hnan
      | _ => cases hv
    | _ => cases hv

/-- An operand that stands in a clause, in whatever way the clause came about. -/
def Accepted (o : Operand) : Prop := ∃ c : Clause, c.Obtained ∧ (c.subject = o ∨ c.object = .operand o)

/-- An operand stands in a clause if it can be written. -/
theorem accepted_iff {a : Operand} : a.Accepted ↔ a.check = .ok () := by
  constructor
  · rintro ⟨c, hc, rfl | hobject⟩
    · exact hc.writable.1
    · rw [← Object.check_operand, ← hobject]
      exact hc.writable.2
  · intro h
    have hmake : Clause.make a .eq (.operand a) = _ := Clause.make_comparing rfl h h
    exact ⟨_, .made hmake, .inl rfl⟩

/-- Construction makes the clause that compares the two operands, and the clause holds of the record, whatever
compiles patterns. -/
def Compares (record : Json) (a : Operand) (operator : Operator) (b : Operand) : Prop :=
  ∃ c, Clause.make a operator (.operand b) = .ok c ∧ ∀ compiler, c.test compiler record = .ok true

/-- **A comparison looks at the values of its operands.** -/
theorem compares_iff (ha : a.check = .ok ()) (hb : b.check = .ok ()) (ho : o.Comparing) :
    Compares record a o b ↔
      ∃ x y, a.value? record = some x ∧ b.value? record = some y ∧ o.relates x y = true := by
  obtain ⟨hshape, hpositive⟩ := ho
  have hself : o.positive = o := by cases o <;> first | rfl | cases hpositive
  have hholds : (Clause.comparing a o b hshape).holds record =
      (a.value? record).any fun x => (b.value? record).any (o.relates x) := by
    rw [Clause.holds, Clause.comparing, hpositive, if_neg Bool.false_ne_true, Clause.holdsPositively, hself]
    rfl
  have htest (compiler : Wildcard.Compiler) : (Clause.comparing a o b hshape).test compiler record =
      .ok ((Clause.comparing a o b hshape).holds record) := Clause.test_of_pattern? rfl
  rw [Compares, Clause.make_comparing hshape ha hb]
  simp only [Except.ok.injEq, exists_eq_left', htest, forall_const, hholds, Option.any_eq_true]
  constructor
  · rintro ⟨x, hx, y, hy, h⟩
    exact ⟨x, y, hx, hy, h⟩
  · rintro ⟨x, y, hx, hy, h⟩
    exact ⟨x, hx, y, hy, h⟩

/-- The operands of a comparison may change places with the operator turned round. -/
theorem compares_flip (ha : a.check = .ok ()) (hb : b.check = .ok ()) (ho : o.Comparing) :
    Compares record a o b ↔ Compares record b o.flip a := by
  rw [compares_iff ha hb ho, compares_iff hb ha ho.flip]
  simp only [Operator.relates_flip]
  constructor
  · rintro ⟨x, y, hx, hy, h⟩
    exact ⟨y, x, hy, hx, h⟩
  · rintro ⟨y, x, hy, hx, h⟩
    exact ⟨x, y, hx, hy, h⟩

/-- Operators that are joined to one on scalars are joined to one on operands. -/
theorem compares_trans (ha : a.check = .ok ()) (hb : b.check = .ok ()) (hc : c.check = .ok ()) (ho : o.Comparing)
    (hp : p.Comparing) (hq : q.Comparing)
    (htrans : ∀ {x y z}, o.relates x y = true → p.relates y z = true → q.relates x z = true)
    (h : Compares record a o b) (h' : Compares record b p c) : Compares record a q c := by
  obtain ⟨x, y, hx, hy, hxy⟩ := (compares_iff ha hb ho).mp h
  obtain ⟨y', z, hy', hz, hyz⟩ := (compares_iff hb hc hp).mp h'
  cases hy.symm.trans hy'
  exact (compares_iff ha hc hq).mpr ⟨x, z, hx, hz, htrans hxy hyz⟩

/-- Operators that exclude each other on scalars exclude each other on operands. -/
theorem not_compares_both (ha : a.check = .ok ()) (hb : b.check = .ok ()) (ho : o.Comparing) (hp : p.Comparing)
    (hnot : ∀ {x y}, ¬(o.relates x y = true ∧ p.relates x y = true)) :
    ¬(Compares record a o b ∧ Compares record a p b) := by
  rintro ⟨h, h'⟩
  obtain ⟨x, y, hx, hy, hxy⟩ := (compares_iff ha hb ho).mp h
  obtain ⟨x', y', hx', hy', hxy'⟩ := (compares_iff ha hb hp).mp h'
  cases hx.symm.trans hx'
  cases hy.symm.trans hy'
  exact hnot ⟨hxy, hxy'⟩

/-- One of the three holds where the operands stand for two strings or for two numbers. -/
theorem compares_total (ha : a.check = .ok ()) (hb : b.check = .ok ()) (hx : a.value? record = some x)
    (hy : b.value? record = some y) (halike : x.isAlike y = true) :
    Compares record a .lt b ∨ Compares record a .eq b ∨ Compares record a .gt b := by
  have hrelates : ∀ {o : Operator}, o.Comparing → o.relates x y = true → Compares record a o b :=
    fun ho h => (compares_iff ha hb ho).mpr ⟨x, y, hx, hy, h⟩
  rcases Scalar.relates_total halike (ne_nan_of_value? ha hx) (ne_nan_of_value? hb hy) with h | h | h
  · exact .inl (hrelates ⟨rfl, rfl⟩ h)
  · exact .inr (.inl (hrelates ⟨rfl, rfl⟩ h))
  · exact .inr (.inr (hrelates ⟨rfl, rfl⟩ h))

theorem compares_lte_iff (ha : a.check = .ok ()) (hb : b.check = .ok ())
    (hbools : ∀ p q, ¬(a.value? record = some (.bool p) ∧ b.value? record = some (.bool q))) :
    Compares record a .lte b ↔ Compares record a .lt b ∨ Compares record a .eq b := by
  have hvalues : ∀ {x y}, a.value? record = some x → b.value? record = some y →
      ∀ p q, ¬(x = .bool p ∧ y = .bool q) := by
    rintro x y hx hy p q ⟨rfl, rfl⟩
    exact hbools p q ⟨hx, hy⟩
  rw [compares_iff ha hb ⟨rfl, rfl⟩, compares_iff ha hb ⟨rfl, rfl⟩, compares_iff ha hb ⟨rfl, rfl⟩]
  constructor
  · rintro ⟨x, y, hx, hy, h⟩
    rcases (Scalar.relates_lte_iff_or (hvalues hx hy)).mp h with h | h
    · exact .inl ⟨x, y, hx, hy, h⟩
    · exact .inr ⟨x, y, hx, hy, h⟩
  · rintro (⟨x, y, hx, hy, h⟩ | ⟨x, y, hx, hy, h⟩)
    · exact ⟨x, y, hx, hy, (Scalar.relates_lte_iff_or (hvalues hx hy)).mpr (.inl h)⟩
    · exact ⟨x, y, hx, hy, (Scalar.relates_lte_iff_or (hvalues hx hy)).mpr (.inr h)⟩

theorem not_compares_of_bool (ha : a.check = .ok ()) (hb : b.check = .ok ()) {p q : Bool}
    (hx : a.value? record = some (.bool p)) (hy : b.value? record = some (.bool q)) :
    ∀ o ∈ [Operator.lt, .lte, .gt, .gte], ¬Compares record a o b := by
  intro o ho h
  have hcomparing : o.Comparing := by
    simp only [List.mem_cons, List.not_mem_nil, or_false] at ho
    rcases ho with rfl | rfl | rfl | rfl <;> exact ⟨rfl, rfl⟩
  obtain ⟨x, y, hx', hy', h⟩ := (compares_iff ha hb hcomparing).mp h
  cases hx.symm.trans hx'
  cases hy.symm.trans hy'
  simp only [List.mem_cons, List.not_mem_nil, or_false] at ho
  rcases ho with rfl | rfl | rfl | rfl <;> cases h

/-- **The comparing operators have the laws of an order**, whatever the operands of clauses stand for in a
record: strings, booleans, numbers of either kind, other values or nothing.

* Any two operands make a clause with each operator that compares, and it has an outcome.
* The operands may change places with the operator turned round.
* At most one of `lt`, `eq` and `gt` holds, and one of them does between two strings and between two numbers.
* `lt` and `eq` are transitive, and `lt` does not tell equal operands apart, on either side.
* `lte` is `lt` or `eq` except between two booleans, and between these no operator of an order holds. -/
theorem compares_lawful (ha : a.Accepted) (hb : b.Accepted) (hc : c.Accepted) (record : Json) :
    (∀ o : Operator, o.shape = .compare →
      ∃ d outcome, Clause.make a o (.operand b) = .ok d ∧ ∀ compiler, d.test compiler record = .ok outcome) ∧
    ((Compares record a .lt b ↔ Compares record b .gt a) ∧
      (Compares record a .lte b ↔ Compares record b .gte a) ∧
      (Compares record a .eq b ↔ Compares record b .eq a)) ∧
    (¬(Compares record a .lt b ∧ Compares record a .eq b) ∧
      ¬(Compares record a .lt b ∧ Compares record a .gt b) ∧
      ¬(Compares record a .eq b ∧ Compares record a .gt b)) ∧
    (∀ x y, a.value? record = some x → b.value? record = some y → x.isAlike y = true →
      Compares record a .lt b ∨ Compares record a .eq b ∨ Compares record a .gt b) ∧
    ((Compares record a .lt b → Compares record b .lt c → Compares record a .lt c) ∧
      (Compares record a .eq b → Compares record b .eq c → Compares record a .eq c) ∧
      (Compares record a .eq b → Compares record b .lt c → Compares record a .lt c) ∧
      (Compares record a .lt b → Compares record b .eq c → Compares record a .lt c)) ∧
    ((∀ p q, ¬(a.value? record = some (.bool p) ∧ b.value? record = some (.bool q))) →
      (Compares record a .lte b ↔ Compares record a .lt b ∨ Compares record a .eq b)) ∧
    ∀ p q, a.value? record = some (.bool p) → b.value? record = some (.bool q) →
      ∀ o ∈ [Operator.lt, .lte, .gt, .gte], ¬Compares record a o b := by
  rw [accepted_iff] at ha hb hc
  have hlt : Operator.lt.Comparing := ⟨rfl, rfl⟩
  have heq : Operator.eq.Comparing := ⟨rfl, rfl⟩
  have hgt : Operator.gt.Comparing := ⟨rfl, rfl⟩
  have hlte : Operator.lte.Comparing := ⟨rfl, rfl⟩
  refine ⟨fun o ho => ⟨_, _, Clause.make_comparing ho ha hb, fun _ => Clause.test_of_pattern? rfl⟩,
    ⟨compares_flip ha hb hlt, compares_flip ha hb hlte, compares_flip ha hb heq⟩, ⟨?_, ?_, ?_⟩,
    fun x y hx hy => compares_total ha hb hx hy, ⟨?_, ?_, ?_, ?_⟩, compares_lte_iff ha hb,
    fun p q hx hy => not_compares_of_bool ha hb hx hy⟩
  · exact not_compares_both ha hb hlt heq Scalar.relates_exclusive.1
  · exact not_compares_both ha hb hlt hgt Scalar.relates_exclusive.2.1
  · exact not_compares_both ha hb heq hgt Scalar.relates_exclusive.2.2
  · exact compares_trans ha hb hc hlt hlt hlt Scalar.relates_lt_trans
  · exact compares_trans ha hb hc heq heq heq Scalar.relates_eq_trans
  · exact compares_trans ha hb hc heq hlt hlt Scalar.relates_eq_lt
  · exact compares_trans ha hb hc hlt heq hlt Scalar.relates_lt_eq

/-- The integer after `2 ^ 53`, which is no floating-point number, at `/n` of a record: it is greater than
`2 ^ 53` and less than the number after that one, so that the two are not equal. -/
theorem compares_lawful_between :
    ∃ (n : FieldPath) (x y : Dyadic64) (record : Json), x.value = 2 ^ 53 ∧ y.value = 2 ^ 53 + 2 ∧
      (Operand.field n).value? record = some (.int 9007199254740993) ∧
      Compares record (.literal (.float (.finite x))) .lt (.field n) ∧
      Compares record (.field n) .gt (.literal (.float (.finite x))) ∧
      Compares record (.field n) .lt (.literal (.float (.finite y))) ∧
      Compares record (.literal (.float (.finite x))) .lt (.literal (.float (.finite y))) := by
  let n : FieldPath := .ofKey "n" (by decide +kernel)
  let x : Dyadic64 := ⟨false, leastFull, 1, by decide⟩
  let y : Dyadic64 := ⟨false, leastFull + 1, 1, by decide⟩
  let record : Json := .object [("n", .number (.int 9007199254740993))]
  have hx : x.value = 2 ^ 53 := by norm_num [Dyadic64.value, x, leastFull]
  have hy : y.value = 2 ^ 53 + 2 := by norm_num [Dyadic64.value, y, leastFull]
  have hxn : Compares record (.literal (.float (.finite x))) .lt (.field n) :=
    ⟨_, rfl, fun _ => (Clause.test_of_pattern? rfl).trans (by decide +kernel)⟩
  have hny : Compares record (.field n) .lt (.literal (.float (.finite y))) :=
    ⟨_, rfl, fun _ => (Clause.test_of_pattern? rfl).trans (by decide +kernel)⟩
  obtain ⟨-, ⟨hflip, -, -⟩, -, -, ⟨htrans, -, -, -⟩, -, -⟩ :=
    compares_lawful (a := .literal (.float (.finite x))) (b := .field n) (c := .literal (.float (.finite y)))
      (accepted_iff.mpr rfl) (accepted_iff.mpr rfl) (accepted_iff.mpr rfl) record
  exact ⟨n, x, y, record, hx, hy, by decide +kernel, hxn, hflip.mp hxn, hny, htrans hxn hny⟩

end Operand

end RecordFilter
