import Mathlib
import RecordFilter.Matching.Comparison
import RecordFilter.Proofs.Number.Order

/-!
# Comparison — integers and floating-point numbers have one order

Every integer, every finite number and both infinities have an exact value. Whatever two of them are
compared, the outcome is the order of their values, so it is one order for all of them; only the value that
is no number stands outside of it.

* `Scalar.number?`: the exact value of a scalar.
* `Scalar.compare?_of_number`, `Scalar.equals_iff`, `Scalar.isAtMost_iff`: comparisons of numbers by their values.
* `Scalar.compare?_exact`: the order of an integer and a number, and of all numbers together.
-/

namespace RecordFilter.Scalar

open Number

/-- The exact value of a number; none for other scalars and for the value that is no number. -/
noncomputable def number? : Scalar → Option EReal
  | int i => some ((i.toInt : ℝ) : EReal)
  | float x => x.value?
  | string _ | bool _ => none

variable {a b : Scalar} {u v : EReal}

theorem exists_number?_iff (a : Scalar) :
    (∃ u, a.number? = some u) ↔ a.isNumber = true ∧ a ≠ .float .nan := by
  cases a with
  | string s => simp [number?, isNumber]
  | bool b => simp [number?, isNumber]
  | int i => simp [number?, isNumber]
  | float x => cases x <;> simp [number?, isNumber, Binary64.value?]

theorem compare_integers (i j : Int) : compare ((i : ℝ) : EReal) ((j : ℝ) : EReal) = compare i j :=
  compare_strictMono (EReal.coe_strictMono.comp Int.cast_strictMono) i j

/-- The other way round the order is the opposite one. -/
theorem compare?_float_int (x : Binary64) (i : Int64) :
    compare? (.float x) (.int i) = (compare? (.int i) (.float x)).map Ordering.swap :=
  rfl

/-- **Numbers are compared by their values**, integers and floating-point numbers alike. -/
theorem compare?_of_number (ha : a.number? = some u) (hb : b.number? = some v) :
    compare? a b = some (compare u v) := by
  cases a with
  | string s => cases ha
  | bool c => cases ha
  | int i =>
    cases ha
    cases b with
    | string s => cases hb
    | bool c => cases hb
    | int j =>
      cases hb
      rw [compare?, compare_integers]
    | float y =>
      rw [number?] at hb
      rw [compare?, Binary64.compareInt64?_eq, hb, Option.map_some]
  | float x =>
    rw [number?] at ha
    cases b with
    | string s => cases hb
    | bool c => cases hb
    | int j =>
      cases hb
      rw [compare?, Binary64.compareInt64?_eq, ha, Option.map_some, Option.map_some,
        ← Std.OrientedOrd.eq_swap]
    | float y =>
      rw [number?] at hb
      rw [compare?, Binary64.compare?_eq, ha, hb, Option.map₂_some_some]

theorem equals_iff (ha : a.number? = some u) (hb : b.number? = some v) : a.equals b = true ↔ u = v := by
  have hcompare : a.equals b = (compare? a b == some .eq) := by
    cases a with
    | bool c => cases ha
    | _ => rfl
  rw [hcompare, compare?_of_number ha hb, beq_iff_eq, Option.some_inj, compare_eq_iff_eq]

theorem isAtMost_iff (ha : a.number? = some u) (hb : b.number? = some v) : a.isAtMost b = true ↔ u ≤ v := by
  rw [isAtMost, compare?_of_number ha hb, Option.any_some, Ordering.isLE_iff_ne_gt]
  exact compare_gt_iff_gt.not.trans not_lt

/-- **Comparison of numbers is exact.** An integer and a floating-point number have an order unless the latter
is no number, and it is that of their exact values; the other way round it is the opposite. All scalars with an
exact value, which are the integers and the floating-point numbers but one, are ordered by these values and
equal exactly where the values are: any two of them have an order, two that are in both orders are equal, and
orders are joined to one, whichever of them are integers. -/
theorem compare?_exact :
    (∀ (i : Int64) (x : Binary64),
      (compare? (.int i) (.float x) = none ↔ x = .nan) ∧
      (∀ v, x.value? = some v → compare? (.int i) (.float x) = some (compare ((i.toInt : ℝ) : EReal) v)) ∧
      compare? (.float x) (.int i) = (compare? (.int i) (.float x)).map Ordering.swap) ∧
    (∀ a : Scalar, (∃ u, a.number? = some u) ↔ a.isNumber = true ∧ a ≠ .float .nan) ∧
    ∀ a b c : Scalar, ∀ u v w : EReal, a.number? = some u → b.number? = some v → c.number? = some w →
      compare? a b = some (compare u v) ∧ (a.equals b = true ↔ u = v) ∧
      (a.isAtMost b = true ∨ b.isAtMost a = true) ∧
      (a.isAtMost b = true → b.isAtMost a = true → a.equals b = true) ∧
      (a.isAtMost b = true → b.isAtMost c = true → a.isAtMost c = true) := by
  refine ⟨fun i x => ⟨?_, fun v hv => ?_, compare?_float_int x i⟩, exists_number?_iff,
    fun a b c u v w ha hb hc => ?_⟩
  · rw [compare?, Binary64.compareInt64?_eq, Option.map_eq_none_iff]
    cases x <;> simp [Binary64.value?]
  · exact compare?_of_number rfl hv
  · rw [isAtMost_iff ha hb, isAtMost_iff hb ha, isAtMost_iff hb hc, isAtMost_iff ha hc, equals_iff ha hb]
    exact ⟨compare?_of_number ha hb, Iff.rfl, le_total u v, le_antisymm, le_trans⟩

/-- The integer after `2 ^ 53` is no floating-point number, and lies between two of them. -/
theorem compare?_exact_between :
    ∃ x y : Dyadic64, x.value = 2 ^ 53 ∧ y.value = 2 ^ 53 + 2 ∧
      compare? (.int 9007199254740993) (.float (.finite x)) = some .gt ∧
      (Scalar.int 9007199254740993).equals (.float (.finite x)) = false ∧
      (Scalar.float (.finite x)).isAtMost (.float (.finite y)) = true := by
  let x : Dyadic64 := ⟨false, leastFull, 1, by decide⟩
  let y : Dyadic64 := ⟨false, leastFull + 1, 1, by decide⟩
  have hx : x.value = 2 ^ 53 := by norm_num [Dyadic64.value, x, leastFull]
  have hy : y.value = 2 ^ 53 + 2 := by norm_num [Dyadic64.value, y, leastFull]
  obtain ⟨hcompare, hequals, -, -, -⟩ := compare?_exact.2.2 (.int 9007199254740993) (.float (.finite x))
    (.float (.finite y)) _ _ _ rfl rfl rfl
  obtain ⟨-, -, -, -, htrans⟩ := compare?_exact.2.2 (.float (.finite x)) (.int 9007199254740993)
    (.float (.finite y)) _ _ _ rfl rfl rfl
  have hint : (Int64.toInt 9007199254740993 : ℝ) = 2 ^ 53 + 1 := by
    rw [show Int64.toInt 9007199254740993 = 2 ^ 53 + 1 by decide]
    norm_num
  have hlt : ((x.value : ℝ) : EReal) < ((Int64.toInt 9007199254740993 : ℝ) : EReal) := by
    rw [EReal.coe_lt_coe_iff, hint, hx]
    norm_num
  refine ⟨x, y, hx, hy, ?_, ?_, htrans (by decide +kernel) (by decide +kernel)⟩
  · rw [hcompare, compare_gt_iff_gt.mpr hlt]
  · rw [← Bool.not_eq_true, hequals]
    exact hlt.ne'

end RecordFilter.Scalar
