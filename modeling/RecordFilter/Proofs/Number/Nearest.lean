import Mathlib
import RecordFilter.Proofs.Number.Order
import RecordFilter.Proofs.Number.Rounding

/-!
# Nearest — rounding gives the nearest number, a half the even one

A finite number is nearest to a value if no other is nearer; of two that are equally near the one with the even
mantissa is meant. There is one such number for a value, greater values have no smaller ones, and it is the
number that rounding gives.

* `Dyadic64.IsNearest`: the number nearest to a value.
* `roundQuotient_nearest`, `Dyadic64.isNearest_of_roundRatio`: rounding gives the nearest integer and number.
* `Dyadic64.IsNearest.value_eq`, `Dyadic64.IsNearest.value_le`: there is one, and its order is that of the values.
* `exists_ofNat`: an integer of 64 bits rounds to a finite number.
-/

namespace RecordFilter.Number

/-! ## The grid of the finite numbers -/

namespace Dyadic64

theorem abs_value (x : Dyadic64) : |x.value| = x.mantissa * 2 ^ x.exponent := by
  have hnonneg : (0 : ℚ) ≤ x.mantissa * 2 ^ x.exponent := by positivity
  unfold value
  split
  · rw [mul_assoc, neg_one_mul, abs_neg, abs_of_nonneg hnonneg]
  · rw [one_mul, abs_of_nonneg hnonneg]

theorem value_of_nonneg {x : Dyadic64} (h : 0 ≤ x.value) : x.value = x.mantissa * 2 ^ x.exponent := by
  rw [← abs_value, abs_of_nonneg h]

@[simp] theorem value_zero (negative : Bool) : (zero negative).value = 0 := by
  simp [value, zero]

@[simp] theorem value_negate (x : Dyadic64) : x.negate.value = -x.value := by
  cases h : x.negative <;> simp [value, negate, h]

/-- A number is a multiple of each power of two up to its own. -/
theorem exists_multiple (x : Dyadic64) {e : Int} (h : e ≤ x.exponent) : ∃ k : Int, x.value = k * 2 ^ e := by
  obtain ⟨n, hn⟩ := Int.eq_ofNat_of_zero_le (sub_nonneg.mpr h)
  have hexp : x.exponent = e + n := by omega
  refine ⟨(if x.negative then -1 else 1) * x.mantissa * 2 ^ n, ?_⟩
  rw [value, hexp, zpow_add₀ (by norm_num), zpow_natCast]
  push_cast
  ring

/-- A number with a lesser power of two lies below the full mantissas of that power. -/
theorem abs_value_lt {x : Dyadic64} {e : Int} (h : x.exponent < e) : |x.value| < leastFull * 2 ^ e := by
  have hmantissa : (x.mantissa : ℚ) < 2 * leastFull := by exact_mod_cast x.canonical.1
  have hpower : (2 : ℚ) * 2 ^ x.exponent ≤ 2 ^ e := by
    rw [← zpow_one_add₀ (by norm_num)]
    exact zpow_le_zpow_right₀ (by norm_num) (by omega)
  have hpos : (0 : ℚ) < 2 ^ x.exponent := by positivity
  have hfull : (0 : ℚ) ≤ leastFull := by positivity
  rw [abs_value]
  calc (x.mantissa : ℚ) * 2 ^ x.exponent < 2 * leastFull * 2 ^ x.exponent := mul_lt_mul_of_pos_right hmantissa hpos
    _ = leastFull * (2 * 2 ^ x.exponent) := by ring
    _ ≤ leastFull * 2 ^ e := mul_le_mul_of_nonneg_left hpower hfull

/-- A number has one mantissa. -/
theorem mantissa_eq_of_value_eq {x y : Dyadic64} (h : x.value = y.value) : x.mantissa = y.mantissa := by
  have habs : (x.mantissa : ℚ) * 2 ^ x.exponent = y.mantissa * 2 ^ y.exponent := by
    rw [← abs_value, ← abs_value, h]
  have hx : (2 : ℚ) ^ x.exponent ≠ 0 := by positivity
  have hy : (2 : ℚ) ^ y.exponent ≠ 0 := by positivity
  by_cases hzero : x.mantissa = 0
  · rw [hzero, Nat.cast_zero, zero_mul, eq_comm, mul_eq_zero, or_iff_left hy] at habs
    rw [hzero]
    exact_mod_cast habs.symm
  · have hzero' : y.mantissa ≠ 0 := by
      intro h0
      rw [h0, Nat.cast_zero, zero_mul, mul_eq_zero, or_iff_left hx] at habs
      exact hzero (by exact_mod_cast habs)
    have hexp : x.exponent = y.exponent := by rw [← log_value hzero, habs, log_value hzero']
    rw [hexp] at habs
    exact_mod_cast mul_right_cancel₀ hy habs

/-! ## The nearest number -/

/-- No number is nearer to the value; where another one is as near, the mantissa is even. -/
structure IsNearest (x : Dyadic64) (v : ℚ) : Prop where
  nearest : ∀ y : Dyadic64, |v - x.value| ≤ |v - y.value|
  even : ∀ y : Dyadic64, y.value ≠ x.value → |v - y.value| = |v - x.value| → Even x.mantissa

/-- A number is nearest to its own value. -/
theorem isNearest_value (x : Dyadic64) : x.IsNearest x.value where
  nearest := fun y => by
    rw [sub_self, abs_zero]
    exact abs_nonneg _
  even := by
    intro y hne h
    rw [sub_self, abs_zero, abs_eq_zero, sub_eq_zero] at h
    exact absurd h.symm hne

namespace IsNearest

variable {x y : Dyadic64} {v w : ℚ}

/-- Which number is nearest hangs on its value alone. -/
theorem of_value_eq (h : x.IsNearest v) (hxy : x.value = y.value) : y.IsNearest v where
  nearest := fun z => hxy ▸ h.nearest z
  even := by
    intro z hne heq
    rw [← hxy] at hne heq
    rw [← mantissa_eq_of_value_eq hxy]
    exact h.even z hne heq

theorem negate (h : x.IsNearest v) : x.negate.IsNearest (-v) := by
  have hswap (y : Dyadic64) : |-v - y.value| = |v - y.negate.value| := by
    rw [value_negate, ← abs_neg]
    congr 1
    ring
  have hsame : |-v - x.negate.value| = |v - x.value| := by
    rw [hswap, value_negate, value_negate, neg_neg]
  constructor
  · intro y
    rw [hsame, hswap]
    exact h.nearest y.negate
  · intro y hne heq
    rw [hsame, hswap] at heq
    refine h.even y.negate (fun hv => hne ?_) heq
    rw [value_negate, ← hv, value_negate, neg_neg]

/-- No number lies between two that are nearest to one value, and only one of these has an even mantissa. -/
theorem not_lt_of_nonneg (hv : 0 ≤ v) (hx : x.IsNearest v) (hy : y.IsNearest v) : ¬ x.value < y.value := by
  intro hlt
  have hdistance : |v - x.value| = |v - y.value| := le_antisymm (hx.nearest y) (hy.nearest x)
  have hmiddle : v - x.value = y.value - v := by
    rcases abs_eq_abs.mp hdistance with h | h
    · linarith
    · linarith
  have hxeven : Even x.mantissa := hx.even y hlt.ne' hdistance.symm
  have hyeven : Even y.mantissa := hy.even x hlt.ne hdistance
  have hxnonneg : 0 ≤ x.value := by
    have hzero := hx.nearest (zero false)
    rw [value_zero, sub_zero, abs_of_nonneg hv] at hzero
    linarith [le_abs_self (v - x.value)]
  -- the number that follows `x` has the odd mantissa after that of `x`
  have hodd : x.mantissa + 1 < 2 * leastFull := by
    have hbound := x.canonical.1
    obtain ⟨k, hk⟩ := hxeven
    omega
  let z : Dyadic64 := ⟨false, x.mantissa + 1, x.exponent, hodd, x.canonical.2.1, x.canonical.2.2.1,
    x.canonical.2.2.2.imp_right fun h => h.trans (Nat.le_succ _)⟩
  have hpos : (0 : ℚ) < 2 ^ x.exponent := by positivity
  have hxvalue : x.value = x.mantissa * 2 ^ x.exponent := value_of_nonneg hxnonneg
  have hzvalue : z.value = (x.mantissa + 1) * 2 ^ x.exponent := by simp [z, value]
  have hzx : x.value < z.value := by linarith
  have hzy : z.value ≤ y.value := by
    by_cases hexp : x.exponent ≤ y.exponent
    · obtain ⟨k, hk⟩ := y.exists_multiple hexp
      rw [hxvalue, hk] at hlt
      have hk' : (x.mantissa : ℚ) < k := lt_of_mul_lt_mul_right hlt hpos.le
      have hk'' : (x.mantissa : Int) + 1 ≤ k := by exact_mod_cast hk'
      rw [hzvalue, hk]
      exact mul_le_mul_of_nonneg_right (by exact_mod_cast hk'') hpos.le
    · have hfull : leastFull ≤ x.mantissa := by
        have := y.canonical.2.1
        rcases x.canonical.2.2.2 with h | h
        · omega
        · exact h
      have hbelow := (le_abs_self _).trans_lt (abs_value_lt (not_le.mp hexp))
      have habove : (leastFull : ℚ) * 2 ^ x.exponent ≤ x.value := by
        rw [hxvalue]
        exact mul_le_mul_of_nonneg_right (by exact_mod_cast hfull) hpos.le
      linarith
  rcases hzy.lt_or_eq with hzy | hzy
  · have hnearer := hx.nearest z
    have hz : |v - z.value| < v - x.value := abs_lt.mpr ⟨by linarith, by linarith⟩
    linarith [le_abs_self (v - x.value)]
  · have hmantissa : x.mantissa + 1 = y.mantissa := mantissa_eq_of_value_eq hzy
    obtain ⟨k, hk⟩ := hxeven
    obtain ⟨l, hl⟩ := hyeven
    omega

/-- **There is one nearest number.** -/
theorem value_eq (hx : x.IsNearest v) (hy : y.IsNearest v) : x.value = y.value := by
  rcases le_total 0 v with hv | hv
  · exact le_antisymm (not_lt.mp (not_lt_of_nonneg hv hy hx)) (not_lt.mp (not_lt_of_nonneg hv hx hy))
  · have hneg : 0 ≤ -v := by linarith
    have hle := not_lt.mp (not_lt_of_nonneg hneg hy.negate hx.negate)
    have hge := not_lt.mp (not_lt_of_nonneg hneg hx.negate hy.negate)
    rw [value_negate, value_negate] at hle hge
    linarith

/-- **The number nearest to a greater value is no smaller.** -/
theorem value_le (hx : x.IsNearest v) (hy : y.IsNearest w) (h : v ≤ w) : x.value ≤ y.value := by
  rcases h.eq_or_lt with rfl | hlt
  · exact (hx.value_eq hy).le
  · by_contra hgt
    have hxy := sq_le_sq.mpr (hx.nearest y)
    have hyx := sq_le_sq.mpr (hy.nearest x)
    nlinarith [mul_pos (sub_pos.mpr (not_le.mp hgt)) (sub_pos.mpr hlt)]

end IsNearest

end Dyadic64

/-! ## Rounding -/

/-- The integer below the quotient, or the one above it. -/
theorem roundQuotient_cases (n d : Nat) :
    (2 * (n % d) < d ∧ roundQuotient n d = n / d) ∨
      (2 * (n % d) = d ∧ Even (roundQuotient n d) ∧
        (roundQuotient n d = n / d ∨ roundQuotient n d = n / d + 1)) ∨
      (d < 2 * (n % d) ∧ roundQuotient n d = n / d + 1) := by
  unfold roundQuotient
  simp only [Bool.or_eq_true, Bool.and_eq_true, decide_eq_true_eq, beq_iff_eq]
  rcases lt_trichotomy (2 * (n % d)) d with h | h | h
  · rw [if_pos (.inl h)]
    exact .inl ⟨h, rfl⟩
  · refine .inr (.inl ⟨h, ?_⟩)
    split
    · next hparity =>
      rcases hparity with hlt | ⟨-, heven⟩
      · omega
      · exact ⟨Nat.even_iff.mpr heven, .inl rfl⟩
    · next hparity =>
      rw [not_or, not_and] at hparity
      have hodd : n / d % 2 ≠ 0 := hparity.2 h
      exact ⟨Nat.even_iff.mpr (by omega), .inr rfl⟩
  · rw [if_neg (by omega)]
    exact .inr (.inr ⟨h, rfl⟩)

/-- A quotient is its integer part and a fraction, which the remainder compares with a half. -/
theorem exists_fraction (n : Nat) {d : Nat} (hd : 0 < d) :
    ∃ t : ℚ, ratioValue n d = (n / d : Nat) + t ∧ 0 ≤ t ∧ t < 1 ∧ (2 * (n % d) < d → t < 1 / 2) ∧
      (2 * (n % d) = d → t = 1 / 2) ∧ (d < 2 * (n % d) → 1 / 2 < t) := by
  have hd' : (0 : ℚ) < d := by exact_mod_cast hd
  have hdivision : (n : ℚ) = d * (n / d : Nat) + (n % d : Nat) := by exact_mod_cast (Nat.div_add_mod n d).symm
  have hmod : ((n % d : Nat) : ℚ) < d := by exact_mod_cast Nat.mod_lt n hd
  refine ⟨((n % d : Nat) : ℚ) / d, ?_, by positivity, (div_lt_one hd').mpr hmod, fun h => ?_, fun h => ?_,
    fun h => ?_⟩
  · rw [ratioValue, hdivision]
    field_simp
  · have h' : (2 : ℚ) * (n % d : Nat) < d := by exact_mod_cast h
    rw [div_lt_div_iff₀ hd' two_pos]
    linarith
  · have h' : (2 : ℚ) * (n % d : Nat) = d := by exact_mod_cast h
    rw [div_eq_div_iff hd'.ne' two_ne_zero]
    linarith
  · have h' : (d : ℚ) < 2 * (n % d : Nat) := by exact_mod_cast h
    rw [div_lt_div_iff₀ two_pos hd']
    linarith

/-- How far a number between two neighbouring integers is from any integer. -/
theorem abs_add_sub (q k : Int) {t : ℚ} (h0 : 0 ≤ t) (h1 : t < 1) :
    ((k : ℚ) ≤ q ∧ |q + t - k| = (q - k) + t) ∨ ((q : ℚ) + 1 ≤ k ∧ |q + t - k| = (k - q) - t) := by
  rcases le_or_gt k q with h | h
  · have hle : (k : ℚ) ≤ q := by exact_mod_cast h
    refine .inl ⟨hle, ?_⟩
    rw [abs_of_nonneg (by linarith)]
    ring
  · have hle : (q : ℚ) + 1 ≤ k := by exact_mod_cast h
    refine .inr ⟨hle, ?_⟩
    rw [abs_of_nonpos (by linarith)]
    ring

/-- **A quotient is rounded to the nearest integer, a half to the even one.** -/
theorem roundQuotient_nearest (n : Nat) {d : Nat} (hd : 0 < d) (k : Int) :
    |ratioValue n d - roundQuotient n d| ≤ |ratioValue n d - k| ∧
      (k ≠ roundQuotient n d → |ratioValue n d - k| = |ratioValue n d - roundQuotient n d| →
        Even (roundQuotient n d)) := by
  obtain ⟨t, hvalue, h0, h1, hlow, hhalf, hhigh⟩ := exists_fraction n hd
  have hcases := roundQuotient_cases n d
  rw [hvalue]
  generalize roundQuotient n d = m at hcases ⊢
  generalize n / d = q at hcases ⊢
  have hk := abs_add_sub q k h0 h1
  rw [Int.cast_natCast] at hk
  have hother (h : (k : ℚ) = m) : k = m := by exact_mod_cast h
  rcases hcases with ⟨hlt, rfl⟩ | ⟨heq, heven, hsides⟩ | ⟨hgt, rfl⟩
  · -- the integer part is nearer than the next integer
    have ht := hlow hlt
    have hdistance : |(m : ℚ) + t - m| = t := by rw [add_sub_cancel_left, abs_of_nonneg h0]
    rcases hk with ⟨hle, hk⟩ | ⟨hle, hk⟩
    · exact ⟨by linarith, fun hne h => absurd (hother (by linarith)) hne⟩
    · exact ⟨by linarith, fun hne h => absurd (hother (by linarith)) hne⟩
  · -- both are as near, and the even one is taken
    have ht := hhalf heq
    have hdistance : |(q : ℚ) + t - m| = 1 / 2 := by
      rcases hsides with hside | hside
      · rw [hside, add_sub_cancel_left, abs_of_nonneg h0, ht]
      · rw [hside, Nat.cast_succ, abs_of_nonpos (by linarith)]
        linarith
    rcases hk with ⟨hle, hk⟩ | ⟨hle, hk⟩
    · exact ⟨by linarith, fun _ _ => heven⟩
    · exact ⟨by linarith, fun _ _ => heven⟩
  · -- the next integer is nearer
    have ht := hhigh hgt
    rw [Nat.cast_succ] at hother ⊢
    have hdistance : |(q : ℚ) + t - (q + 1)| = 1 - t := by
      rw [abs_of_nonpos (by linarith)]
      ring
    rcases hk with ⟨hle, hk⟩ | ⟨hle, hk⟩
    · exact ⟨by linarith, fun hne h => absurd (hother (by linarith)) hne⟩
    · exact ⟨by linarith, fun hne h => absurd (hother (by linarith)) hne⟩

namespace Dyadic64

/-- A value of at least `2 ^ (e + 52)` is nearer to the multiples of `2 ^ e` than to any other number. -/
theorem sub_lt_of_exponent_lt {y : Dyadic64} {v : ℚ} {e : Int} (hv : leastFull * 2 ^ e ≤ v) (h : y.exponent < e) :
    |v - (leastFull : Int) * 2 ^ e| < |v - y.value| := by
  have hbelow := (le_abs_self _).trans_lt (abs_value_lt h)
  rw [Int.cast_natCast, abs_of_nonneg (by linarith), abs_of_nonneg (by linarith)]
  linarith

/-- The multiple of `2 ^ e` that is nearest to a value is nearest among the numbers, if the value has at least 53
binary digits above `2 ^ e` or no number has a lesser exponent. -/
theorem isNearest_of_scaled {x : Dyadic64} {v : ℚ} {e : Int} {m : Nat} (hx : x.value = m * 2 ^ e)
    (heven : Even m → Even x.mantissa) (hscale : e = -1074 ∨ leastFull * 2 ^ e ≤ v)
    (hm : ∀ k : Int, |v / 2 ^ e - m| ≤ |v / 2 ^ e - k| ∧
      (k ≠ m → |v / 2 ^ e - k| = |v / 2 ^ e - m| → Even m)) : x.IsNearest v := by
  have hpos : (0 : ℚ) < 2 ^ e := by positivity
  have hdistance (k : ℚ) : |v - k * 2 ^ e| = |v / 2 ^ e - k| * 2 ^ e := by
    rw [← abs_of_pos hpos, ← abs_mul, sub_mul, abs_of_pos hpos, div_mul_cancel₀ _ hpos.ne']
  have hmultiple (k : Int) : |v - x.value| ≤ |v - k * 2 ^ e| := by
    rw [hx, hdistance, hdistance]
    exact mul_le_mul_of_nonneg_right (hm k).1 hpos.le
  -- a number of a lesser exponent is further away than a multiple of `2 ^ e`
  have hfiner {y : Dyadic64} (h : y.exponent < e) : |v - x.value| < |v - y.value| := by
    have hlow := y.canonical.2.1
    have hv : leastFull * 2 ^ e ≤ v := hscale.resolve_left (by omega)
    exact (hmultiple _).trans_lt (sub_lt_of_exponent_lt hv h)
  constructor
  · intro y
    by_cases hexp : e ≤ y.exponent
    · obtain ⟨k, hk⟩ := y.exists_multiple hexp
      rw [hk]
      exact hmultiple k
    · exact (hfiner (not_le.mp hexp)).le
  · intro y hne heq
    by_cases hexp : e ≤ y.exponent
    · obtain ⟨k, hk⟩ := y.exists_multiple hexp
      rw [hk, hx, hdistance, hdistance] at heq
      have hkm : k ≠ m := by
        rintro rfl
        exact hne (by rw [hk, hx, Int.cast_natCast])
      exact heven ((hm k).2 hkm (mul_right_cancel₀ hpos.ne' heq))
    · exact absurd heq (hfiner (not_le.mp hexp)).ne'

end Dyadic64

/-- The parts of a number that is finite. -/
theorem Binary64.ofParts_eq_finite {negative : Bool} {mantissa : Nat} {exponent : Int} {x : Dyadic64}
    (h : ofParts negative mantissa exponent = .finite x) :
    x.negative = negative ∧ x.mantissa = mantissa ∧ x.exponent = exponent := by
  unfold ofParts at h
  split at h
  · cases h
    exact ⟨rfl, rfl, rfl⟩
  · cases h

/-- Values are scaled so that they have 53 binary digits, or no number has a lesser exponent. -/
theorem leastFull_mul_le {num den : Nat} (hn : 0 < num) (hd : 0 < den) :
    scaleExponent num den = -1074 ∨ leastFull * 2 ^ scaleExponent num den ≤ ratioValue num den := by
  have hpos := ratioValue_pos hn hd
  by_cases hlow : Int.log 2 (ratioValue num den) - 52 ≤ -1074
  · exact .inl ((scaleExponent_eq hn hd).trans (max_eq_right hlow))
  · have he : 52 + scaleExponent num den = Int.log 2 (ratioValue num den) := by
      rw [scaleExponent_eq hn hd, max_eq_left (by omega)]
      ring
    refine .inr ?_
    rw [leastFull_eq, ← zpow_add₀ (by norm_num), he]
    exact_mod_cast Int.zpow_log_le_self one_lt_two hpos

/-- **Rounding gives the nearest number**, of two equally near ones that with the even mantissa. -/
theorem Dyadic64.isNearest_of_roundRatio {num den : Nat} (hd : 0 < den) {x : Dyadic64}
    (h : roundRatio false num den = .finite x) : x.IsNearest (ratioValue num den) := by
  rcases Nat.eq_zero_or_pos num with rfl | hn
  · cases h
    have hzero : ratioValue 0 den = (zero false).value := by simp [ratioValue]
    rw [hzero]
    exact isNearest_value _
  · have hden : 0 < den * Nat.pow 2 (scaleExponent num den).toNat := Nat.mul_pos hd (pow_two_pos _)
    have hvalue := ratioValue_scale num hd (scaleExponent num den)
    have hm := roundQuotient_nearest (num * Nat.pow 2 (-scaleExponent num den).toNat) hden
    have hscale := leastFull_mul_le hn hd
    rw [roundRatio, if_neg (by simpa using hn.ne')] at h
    dsimp only at h
    rw [hvalue] at hm
    generalize scaleExponent num den = e at h hm hscale
    generalize roundQuotient (num * Nat.pow 2 (-e).toNat) (den * Nat.pow 2 e.toNat) = m at h hm
    split at h
    · next hfull =>
      obtain ⟨hnegative, hmantissa, hexponent⟩ := Binary64.ofParts_eq_finite h
      have hx : x.value = m * 2 ^ e := by
        rw [value, hnegative, hmantissa, hexponent, beq_iff_eq.mp hfull, zpow_add_one₀ (by norm_num)]
        push_cast
        simp
        ring
      refine isNearest_of_scaled hx (fun _ => ?_) hscale hm
      rw [hmantissa]
      decide
    · obtain ⟨hnegative, hmantissa, hexponent⟩ := Binary64.ofParts_eq_finite h
      have hx : x.value = m * 2 ^ e := by simp [value, hnegative, hmantissa, hexponent]
      exact isNearest_of_scaled hx (fun heven => hmantissa ▸ heven) hscale hm

/-- The mantissa of a value has at most 53 binary digits, or is the least number that has more. -/
theorem mantissa_bounds {num den : Nat} (hn : 0 < num) (hd : 0 < den) {e : Int} (he : scaleExponent num den = e) :
    roundQuotient (num * Nat.pow 2 (-e).toNat) (den * Nat.pow 2 e.toNat) ≤ 2 * leastFull ∧
      (e = -1074 ∨ leastFull ≤ roundQuotient (num * Nat.pow 2 (-e).toNat) (den * Nat.pow 2 e.toNat)) := by
  have hpos := ratioValue_pos hn hd
  have hden : 0 < den * Nat.pow 2 e.toNat := Nat.mul_pos hd (pow_two_pos _)
  have hlog := scaleExponent_eq hn hd
  have hbelow : num * Nat.pow 2 (-e).toNat / (den * Nat.pow 2 e.toNat) < 2 * leastFull := by
    rw [scaled_quotient_lt_iff num hd]
    have hlt : Int.log 2 (ratioValue num den) < e + 53 := by omega
    exact_mod_cast (Int.lt_zpow_iff_log_lt one_lt_two hpos).mpr hlt
  have hround := roundQuotient_cases (num * Nat.pow 2 (-e).toNat) (den * Nat.pow 2 e.toNat)
  refine ⟨by omega, ?_⟩
  rcases leastFull_mul_le hn hd with hleast | hfull
  · exact .inl (he ▸ hleast)
  · have hpower : (0 : ℚ) < 2 ^ e := by positivity
    have hden' : (0 : ℚ) < ((den * Nat.pow 2 e.toNat : Nat) : ℚ) := by exact_mod_cast hden
    rw [he, ← le_div_iff₀ hpower, ← ratioValue_scale num hd, ratioValue, le_div_iff₀ hden'] at hfull
    have habove : leastFull ≤ num * Nat.pow 2 (-e).toNat / (den * Nat.pow 2 e.toNat) := by
      rw [Nat.le_div_iff_mul_le hden]
      exact_mod_cast hfull
    exact .inr (by omega)

/-- A value below `2 ^ 1023` rounds to a finite number. -/
theorem exists_roundRatio {num den : Nat} (hd : 0 < den) (h : Int.log 2 (ratioValue num den) < 1023) :
    ∃ x, roundRatio false num den = .finite x := by
  rcases Nat.eq_zero_or_pos num with rfl | hn
  · exact ⟨_, rfl⟩
  · have he := scaleExponent_eq hn hd
    obtain ⟨hmost, hleast⟩ := mantissa_bounds hn hd rfl
    have hfinite {mantissa : Nat} {exponent : Int} (hcanonical : Canonical mantissa exponent) :
        ∃ x, Binary64.ofParts false mantissa exponent = .finite x :=
      ⟨⟨false, mantissa, exponent, hcanonical⟩, dif_pos hcanonical⟩
    rw [roundRatio, if_neg (by simpa using hn.ne')]
    dsimp only
    generalize scaleExponent num den = e at he hmost hleast
    generalize roundQuotient (num * Nat.pow 2 (-e).toNat) (den * Nat.pow 2 e.toNat) = m at hmost hleast
    split
    · exact hfinite ⟨by decide, by omega, by omega, .inr le_rfl⟩
    · next hfull =>
      have hlt : m < 2 * leastFull := lt_of_le_of_ne hmost (by simpa using hfull)
      exact hfinite ⟨hlt, by omega, by omega, hleast⟩

/-- **An integer of 64 bits rounds to the finite number nearest to it.** -/
theorem exists_ofNat {n : Nat} (h : n < UInt64.size) : ∃ x, ofNat n = .finite x ∧ x.IsNearest n := by
  have hvalue : ratioValue n 1 = n := by simp [ratioValue]
  have hlog : Int.log 2 (ratioValue n 1) < 1023 := by
    rw [hvalue, Int.log_natCast]
    have hlt : Nat.log 2 n < 64 := Nat.log_lt_of_lt_pow' (by decide) h
    omega
  obtain ⟨x, hx⟩ := exists_roundRatio Nat.one_pos hlog
  exact ⟨x, hx, hvalue ▸ Dyadic64.isNearest_of_roundRatio Nat.one_pos hx⟩

end RecordFilter.Number
