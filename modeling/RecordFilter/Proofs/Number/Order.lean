import Mathlib
import RecordFilter.Number.Binary64

/-!
# Order — numbers are compared by their exact values

A finite number is a dyadic rational, an infinity lies beyond all of them. Comparison never rounds: two
numbers are compared as multiples of one unit, an integer and a number by the integer part of the number
and then by its fraction.

* `Dyadic64.value`, `Binary64.value?`: the exact values.
* `compare_cut`: an integer beside a number that is cut at its point.
* `Binary64.compareInt64?_finite`: cutting a number and looking at its parts compares it as a whole.
* `Binary64.compare?_eq`, `Binary64.compareInt64?_eq`: comparison is the order of the values.
-/

namespace RecordFilter.Number

/-! ## Values -/

namespace Dyadic64

/-- The exact value of a finite number. -/
def value (x : Dyadic64) : ℚ := (if x.negative then -1 else 1) * x.mantissa * 2 ^ x.exponent

theorem unitsOfOne_pos : (0 : Int) < unitsOfOne := by decide +kernel

theorem cast_pow_toNat {e : Int} {k : Nat} (h : 0 ≤ e + k) :
    ((Nat.pow 2 (e + k).toNat : Nat) : ℚ) = 2 ^ e * (Nat.pow 2 k : Nat) := by
  simp only [Nat.pow_eq, Nat.cast_pow, Nat.cast_ofNat]
  rw [← zpow_natCast, Int.toNat_of_nonneg h, zpow_add₀ (by norm_num), zpow_natCast]

theorem magnitude_eq (x : Dyadic64) : (x.magnitude : ℚ) = x.mantissa * 2 ^ x.exponent * unitsOfOne := by
  -- with the exponent a variable, nothing computes the power
  obtain ⟨k, hk, hone⟩ : ∃ k : Nat, (k : Int) = 1074 ∧ unitsOfOne = Nat.pow 2 k :=
    ⟨1074, rfl, by decide +kernel⟩
  have hexp : 0 ≤ x.exponent + k := by
    have := x.canonical.2.1
    omega
  rw [magnitude, Nat.cast_mul, mul_assoc, hone, ← cast_pow_toNat hexp, hk]

theorem units_eq (x : Dyadic64) : (x.units : ℚ) = x.value * unitsOfOne := by
  unfold units value
  split
  · rw [Int.cast_neg, Int.cast_natCast, magnitude_eq]
    ring
  · rw [Int.cast_natCast, magnitude_eq]
    ring

end Dyadic64

namespace Binary64

/-- What lies beyond every number on the side of a sign. -/
noncomputable def beyond (negative : Bool) : EReal := if negative then ⊥ else ⊤

/-- The exact value of a number; none for the one that is no number. -/
noncomputable def value? : Binary64 → Option EReal
  | nan => none
  | infinite negative => some (beyond negative)
  | finite x => some ((x.value : ℝ) : EReal)

end Binary64

/-! ## Orders -/

theorem compare_strictMono {α β : Type} [LinearOrder α] [LinearOrder β] {f : α → β} (hf : StrictMono f)
    (a b : α) : compare (f a) (f b) = compare a b := by
  rw [← cmp_eq_compare, ← cmp_eq_compare, hf.cmp_map_eq]

theorem strictMono_mul_unitsOfOne : StrictMono fun q : ℚ => q * Dyadic64.unitsOfOne := by
  have hpos : (0 : ℚ) < Dyadic64.unitsOfOne := by exact_mod_cast Dyadic64.unitsOfOne_pos
  exact fun _ _ h => mul_lt_mul_of_pos_right h hpos

theorem strictMono_ereal : StrictMono fun q : ℚ => ((q : ℝ) : EReal) :=
  EReal.coe_strictMono.comp Rat.cast_strictMono

/-- Finite numbers are compared by their units as they are by their values. -/
theorem Dyadic64.compare_units (x y : Dyadic64) :
    compare x.units y.units = compare ((x.value : ℝ) : EReal) ((y.value : ℝ) : EReal) := by
  rw [compare_strictMono strictMono_ereal, ← compare_strictMono strictMono_mul_unitsOfOne,
    ← units_eq, ← units_eq, compare_strictMono Int.cast_strictMono]

/-- An integer and a number are compared by their units as they are by their values. -/
theorem Dyadic64.compare_int_units (i : Int) (x : Dyadic64) :
    compare (i * unitsOfOne) x.units = compare ((i : ℝ) : EReal) ((x.value : ℝ) : EReal) := by
  have hi : ((i * unitsOfOne : Int) : ℚ) = (i : ℚ) * unitsOfOne := by push_cast; rfl
  have hreal : (i : ℝ) = ((i : ℚ) : ℝ) := (Rat.cast_intCast i).symm
  rw [hreal, compare_strictMono strictMono_ereal, ← compare_strictMono strictMono_mul_unitsOfOne,
    ← hi, ← units_eq, compare_strictMono Int.cast_strictMono]

/-! ## A number cut at its point -/

/-- An integer beside `u / d`: the integer part of the quotient decides, where it is the integer the rest. -/
theorem compare_cut (i u : Int) {d : Int} (hd : 0 < d) :
    (compare i (u.tdiv d)).then (compare 0 (u.tmod d)) = compare (i * d) u := by
  have hu := Int.mul_tdiv_add_tmod u d
  have hlow := Int.lt_tmod_of_pos u hd
  have hhigh := Int.tmod_lt_of_pos u hd
  rcases lt_trichotomy i (u.tdiv d) with h | h | h
  · have hle : (i + 1) * d ≤ u.tdiv d * d := Int.mul_le_mul_of_nonneg_right h hd.le
    have hlt : i * d < u := by linarith
    rw [compare_lt_iff_lt.mpr h, compare_lt_iff_lt.mpr hlt]
    rfl
  · have hcut : u = i * d + u.tmod d := by rw [h]; linarith
    rw [compare_eq_iff_eq.mpr h, Ordering.eq_then]
    conv_rhs => rw [hcut]
    rw [← compare_strictMono (f := fun r => i * d + r) (fun _ _ hr => by simpa using hr), add_zero]
  · have hle : (u.tdiv d + 1) * d ≤ i * d := Int.mul_le_mul_of_nonneg_right h hd.le
    have hlt : u < i * d := by linarith
    rw [compare_gt_iff_gt.mpr h, compare_gt_iff_gt.mpr hlt]
    rfl

/-- The integer part of a quotient lies between the integers that the quotient lies between. -/
theorem tdiv_bounds {n u d : Int} (hn : 0 < n) (hd : 0 < d) (hlow : -(n * d) ≤ u) (hhigh : u < n * d) :
    -n ≤ u.tdiv d ∧ u.tdiv d < n := by
  rcases le_total 0 u with hu | hu
  · have hnonneg := Int.ediv_nonneg hu hd.le
    rw [Int.tdiv_eq_ediv_of_nonneg hu]
    exact ⟨by omega, Int.ediv_lt_of_lt_mul hd hhigh⟩
  · obtain ⟨m, rfl⟩ : ∃ m, u = -m := ⟨-u, by omega⟩
    have hm : 0 ≤ m := by omega
    have hnonneg := Int.ediv_nonneg hm hd.le
    have hle : m / d ≤ n := Int.ediv_le_of_le_mul hd (by omega)
    rw [Int.neg_tdiv, Int.tdiv_eq_ediv_of_nonneg hm]
    omega

theorem Dyadic64.wordLimit_units : wordLimit.units = 2 ^ 63 * unitsOfOne := by decide +kernel

/-- A number between the least and the greatest integer of 64 bits is cut to such an integer. -/
theorem Dyadic64.toInt_whole {x : Dyadic64} (hlow : -wordLimit.units ≤ x.units)
    (hhigh : x.units < wordLimit.units) : (Int64.ofInt x.whole).toInt = x.whole := by
  rw [wordLimit_units] at hlow hhigh
  obtain ⟨hge, hlt⟩ := tdiv_bounds (by norm_num) unitsOfOne_pos hlow hhigh
  exact Int64.toInt_ofInt_of_le hge hlt

namespace Binary64

/-- **Cutting a number and looking at its parts compares the number as a whole**, nothing being rounded. -/
theorem compareInt64?_finite (i : Int64) (x : Dyadic64) :
    compareInt64? i (.finite x) = some (compare (i.toInt * Dyadic64.unitsOfOne) x.units) := by
  have hpos := Dyadic64.unitsOfOne_pos
  rw [compareInt64?]
  split
  · next hbeyond =>
    rw [Dyadic64.wordLimit_units] at hbeyond
    have hlt : i.toInt * Dyadic64.unitsOfOne < x.units :=
      (Int.mul_lt_mul_of_pos_right i.toInt_lt hpos).trans_le hbeyond
    rw [compare_lt_iff_lt.mpr hlt]
  · next hnot =>
    split
    · next hbelow =>
      rw [Dyadic64.wordLimit_units] at hbelow
      have hle : -(2 ^ 63) * (Dyadic64.unitsOfOne : Int) ≤ i.toInt * Dyadic64.unitsOfOne :=
        Int.mul_le_mul_of_nonneg_right i.le_toInt hpos.le
      have hgt : x.units < i.toInt * Dyadic64.unitsOfOne := by linarith
      rw [compare_gt_iff_gt.mpr hgt]
    · next hnot' =>
      -- the integer part fits 64 bits, so no bit of it is lost
      rw [Dyadic64.toInt_whole (by omega) (by omega), Dyadic64.whole, Dyadic64.fraction,
        compare_cut _ _ hpos]

/-! ## Comparison is the order of the values -/

theorem compare_beyond (negative : Bool) (r : ℝ) : compare (beyond negative) (r : EReal) = beside negative := by
  cases negative with
  | false => exact compare_gt_iff_gt.mpr (EReal.coe_lt_top r)
  | true => exact compare_lt_iff_lt.mpr (EReal.bot_lt_coe r)

theorem compare_beyond_swap (negative : Bool) (r : ℝ) :
    compare (r : EReal) (beyond negative) = (beside negative).swap := by
  rw [← compare_beyond negative r, ← Std.OrientedOrd.eq_swap]

theorem compare_beyond_beyond (a b : Bool) :
    compare (beyond a) (beyond b) = if a == b then .eq else beside a := by
  have hlt : (⊥ : EReal) < ⊤ := bot_lt_top
  cases a <;> cases b
  · exact compare_eq_iff_eq.mpr rfl
  · exact compare_gt_iff_gt.mpr hlt
  · exact compare_lt_iff_lt.mpr hlt
  · exact compare_eq_iff_eq.mpr rfl

/-- **Two numbers are compared by their values.** -/
theorem compare?_eq (x y : Binary64) : compare? x y = Option.map₂ compare x.value? y.value? := by
  cases x with
  | nan => rfl
  | infinite a =>
    cases y with
    | nan => rfl
    | infinite b => simp only [compare?, value?, Option.map₂_some_some, compare_beyond_beyond]
    | finite y => simp only [compare?, value?, Option.map₂_some_some, compare_beyond]
  | finite x =>
    cases y with
    | nan => rfl
    | infinite b => simp only [compare?, value?, Option.map₂_some_some, compare_beyond_swap]
    | finite y => simp only [compare?, value?, Option.map₂_some_some, Dyadic64.compare_units]

/-- **An integer and a number are compared by their values.** -/
theorem compareInt64?_eq (i : Int64) (x : Binary64) :
    compareInt64? i x = x.value?.map (compare ((i.toInt : ℝ) : EReal)) := by
  cases x with
  | nan => rfl
  | infinite b => simp only [compareInt64?, value?, Option.map_some, compare_beyond_swap]
  | finite x =>
    rw [compareInt64?_finite, Dyadic64.compare_int_units]
    rfl

end Binary64

end RecordFilter.Number
