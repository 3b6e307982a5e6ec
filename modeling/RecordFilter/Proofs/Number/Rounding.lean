import Mathlib
import RecordFilter.Number.Rounding

/-!
# Rounding — the rounded number depends on the exact value alone

`roundRatio` and `ofDecimal` are given one of many quotients, or one of many pairs of digits and an
exponent, for the same value.

* `scaleExponent_eq`: the estimate of the exponent is the binary logarithm of the value.
* `roundRatio_congr`: quotients of one value round to one number.
* `roundRatio_exact`: the value of a finite number rounds to it.
* `roundRatio_of_large`, `roundRatio_of_small`: where rounding overflows, and where it gives zero.
* `ofDecimal_eq`, `ofDecimal_congr`: the bounds on powers of ten in `ofDecimal` change nothing, so
  decimals of one value are read as one number.
-/

namespace RecordFilter.Number

/-! ## Scaling by powers of two -/

/-- The value of a quotient. -/
def ratioValue (num den : Nat) : ℚ := (num : ℚ) / den

theorem zpow_split {b : ℚ} (hb : b ≠ 0) (e : Int) : b ^ e.toNat = b ^ e * b ^ (-e).toNat := by
  have he : e = (e.toNat : Int) - ((-e).toNat : Int) := by omega
  have h : b ^ e = b ^ e.toNat / b ^ (-e).toNat := by
    conv_lhs => rw [he]
    rw [zpow_sub₀ hb, zpow_natCast, zpow_natCast]
  rw [h, div_mul_cancel₀ _ (pow_ne_zero _ hb)]

theorem ratioValue_scale (num : Nat) {den : Nat} (hd : 0 < den) (e : Int) :
    ratioValue (num * Nat.pow 2 (-e).toNat) (den * Nat.pow 2 e.toNat) =
      ratioValue num den / 2 ^ e := by
  have hd' : (den : ℚ) ≠ 0 := by exact_mod_cast hd.ne'
  have h2 : (2 : ℚ) ^ (-e).toNat ≠ 0 := by positivity
  have h3 : (2 : ℚ) ^ e ≠ 0 := by positivity
  unfold ratioValue
  simp only [Nat.pow_eq, Nat.cast_mul, Nat.cast_pow, Nat.cast_ofNat]
  rw [zpow_split (by norm_num) e]
  field_simp

theorem ratioValue_eq_iff {n d n' d' : Nat} (hd : 0 < d) (hd' : 0 < d') :
    ratioValue n d = ratioValue n' d' ↔ n * d' = n' * d := by
  have h : (d : ℚ) ≠ 0 := by exact_mod_cast hd.ne'
  have h' : (d' : ℚ) ≠ 0 := by exact_mod_cast hd'.ne'
  unfold ratioValue
  rw [div_eq_div_iff h h']
  exact_mod_cast Iff.rfl

theorem ratioValue_pos {n d : Nat} (hn : 0 < n) (hd : 0 < d) : 0 < ratioValue n d := by
  have h : (0 : ℚ) < n := by exact_mod_cast hn
  have h' : (0 : ℚ) < d := by exact_mod_cast hd
  exact div_pos h h'

theorem pow_two_pos (k : Nat) : 0 < Nat.pow 2 k := Nat.two_pow_pos k

/-! ## The nearest integer -/

theorem roundQuotient_scale (n d : Nat) {k : Nat} (hk : 0 < k) :
    roundQuotient (n * k) (d * k) = roundQuotient n d := by
  unfold roundQuotient
  have h1 : 2 * (n * k % (d * k)) = 2 * (n % d) * k := by
    rw [Nat.mul_mod_mul_right, Nat.mul_assoc]
  have h2 : (2 * (n % d) * k < d * k) = (2 * (n % d) < d) := by
    rw [Nat.mul_lt_mul_right hk]
  have h3 : (2 * (n % d) * k == d * k) = (2 * (n % d) == d) := by
    rw [Bool.eq_iff_iff, beq_iff_eq, beq_iff_eq, Nat.mul_left_inj hk.ne']
  simp only [Nat.mul_div_mul_right _ _ hk, h1, h2, h3]

theorem roundQuotient_congr {n d n' d' : Nat} (hd : 0 < d) (hd' : 0 < d') (h : n * d' = n' * d) :
    roundQuotient n d = roundQuotient n' d' := by
  rw [← roundQuotient_scale n d hd', h, Nat.mul_comm d d', roundQuotient_scale n' d' hd]

theorem roundQuotient_mul (m : Nat) {d : Nat} (hd : 0 < d) : roundQuotient (m * d) d = m := by
  unfold roundQuotient
  simp [Nat.mul_div_cancel _ hd, hd]

theorem roundQuotient_of_lt_half {n d : Nat} (h : 2 * n < d) : roundQuotient n d = 0 := by
  unfold roundQuotient
  have hlt : n < d := by omega
  simp [Nat.div_eq_of_lt hlt, Nat.mod_eq_of_lt hlt, h]

/-! ## The exponent -/

theorem log_eq_of_bounds {r : ℚ} {k : Int} (h1 : (2 : ℚ) ^ k ≤ r) (h2 : r < (2 : ℚ) ^ (k + 1)) :
    Int.log 2 r = k := by
  have hr : 0 < r := lt_of_lt_of_le (by positivity) h1
  have h3 : k ≤ Int.log 2 r := (Int.zpow_le_iff_le_log one_lt_two hr).mp (by exact_mod_cast h1)
  have h4 : Int.log 2 r < k + 1 := (Int.lt_zpow_iff_log_lt one_lt_two hr).mp (by exact_mod_cast h2)
  omega

theorem ratioValue_log2_bounds {num den : Nat} (hn : 0 < num) (hd : 0 < den) :
    (2 : ℚ) ^ ((num.log2 : Int) - den.log2 - 1) < ratioValue num den ∧
      ratioValue num den < (2 : ℚ) ^ ((num.log2 : Int) - den.log2 + 1) := by
  have hn1 : (2 : ℚ) ^ (num.log2 : Int) ≤ num := by
    exact_mod_cast Nat.log2_self_le hn.ne'
  have hn2 : (num : ℚ) < (2 : ℚ) ^ ((num.log2 : Int) + 1) := by
    exact_mod_cast Nat.lt_log2_self (n := num)
  have hd1 : (2 : ℚ) ^ (den.log2 : Int) ≤ den := by
    exact_mod_cast Nat.log2_self_le hd.ne'
  have hd2 : (den : ℚ) < (2 : ℚ) ^ ((den.log2 : Int) + 1) := by
    exact_mod_cast Nat.lt_log2_self (n := den)
  have hd0 : (0 : ℚ) < den := by exact_mod_cast hd
  unfold ratioValue
  constructor
  · rw [lt_div_iff₀ hd0]
    calc (2 : ℚ) ^ ((num.log2 : Int) - den.log2 - 1) * den
        < (2 : ℚ) ^ ((num.log2 : Int) - den.log2 - 1) * (2 : ℚ) ^ ((den.log2 : Int) + 1) := by
          gcongr
      _ = (2 : ℚ) ^ (num.log2 : Int) := by
          rw [← zpow_add₀ (by norm_num)]; congr 1; omega
      _ ≤ num := hn1
  · rw [div_lt_iff₀ hd0]
    calc (num : ℚ) < (2 : ℚ) ^ ((num.log2 : Int) + 1) := hn2
      _ = (2 : ℚ) ^ ((num.log2 : Int) - den.log2 + 1) * (2 : ℚ) ^ (den.log2 : Int) := by
          rw [← zpow_add₀ (by norm_num)]; congr 1; omega
      _ ≤ (2 : ℚ) ^ ((num.log2 : Int) - den.log2 + 1) * den := by gcongr

theorem leastFull_eq : (leastFull : ℚ) = 2 ^ (52 : Int) := by norm_num [leastFull]

/-- The test in `scaleExponent` tells whether the value lies below the middle of its estimate. -/
theorem scaled_quotient_lt_iff (num : Nat) {den : Nat} (hd : 0 < den) (low : Int) :
    num * Nat.pow 2 (-low).toNat / (den * Nat.pow 2 low.toNat) < 2 * leastFull ↔
      ratioValue num den < (2 : ℚ) ^ (low + 53) := by
  have hpos : 0 < den * Nat.pow 2 low.toNat := Nat.mul_pos hd (pow_two_pos _)
  have hpos' : (0 : ℚ) < ((den * Nat.pow 2 low.toNat : Nat) : ℚ) := by exact_mod_cast hpos
  have hval := ratioValue_scale num hd low
  have hlf : ((2 * leastFull : Nat) : ℚ) = 2 ^ (53 : Int) := by norm_num [leastFull]
  rw [Nat.div_lt_iff_lt_mul hpos, add_comm, zpow_add₀ (by norm_num),
    ← div_lt_iff₀ (by positivity : (0 : ℚ) < 2 ^ low), ← hval, ← hlf]
  unfold ratioValue
  rw [div_lt_iff₀ hpos']
  exact_mod_cast Iff.rfl

/-- **The exponent is read off the binary logarithm of the value.** -/
theorem scaleExponent_eq {num den : Nat} (hn : 0 < num) (hd : 0 < den) :
    scaleExponent num den = max (Int.log 2 (ratioValue num den) - 52) (-1074) := by
  obtain ⟨h1, h2⟩ := ratioValue_log2_bounds hn hd
  set low : Int := (num.log2 : Int) - den.log2 - 53 with hlow
  have e1 : (num.log2 : Int) - den.log2 - 1 = low + 52 := by omega
  have e2 : (num.log2 : Int) - den.log2 + 1 = low + 54 := by omega
  rw [e1] at h1
  rw [e2] at h2
  have hdef : scaleExponent num den =
      max (if num * Nat.pow 2 (-low).toNat / (den * Nat.pow 2 low.toNat) < 2 * leastFull then low
        else low + 1) (-1074) := rfl
  rw [hdef]
  by_cases hc : ratioValue num den < (2 : ℚ) ^ (low + 53)
  · rw [if_pos ((scaled_quotient_lt_iff num hd low).mpr hc)]
    have hl : Int.log 2 (ratioValue num den) = low + 52 :=
      log_eq_of_bounds h1.le (by rwa [show low + 52 + 1 = low + 53 by omega])
    rw [hl]
    omega
  · rw [if_neg (fun h => hc ((scaled_quotient_lt_iff num hd low).mp h))]
    have hl : Int.log 2 (ratioValue num den) = low + 53 :=
      log_eq_of_bounds (not_lt.mp hc) (by rwa [show low + 53 + 1 = low + 54 by omega])
    rw [hl]
    omega

theorem scaleExponent_congr {num den num' den' : Nat} (hn : 0 < num) (hd : 0 < den)
    (hd' : 0 < den') (h : num * den' = num' * den) :
    scaleExponent num den = scaleExponent num' den' := by
  have hn' : 0 < num' := by
    rcases Nat.eq_zero_or_pos num' with rfl | h'
    · have := Nat.mul_pos hn hd'
      omega
    · exact h'
  rw [scaleExponent_eq hn hd, scaleExponent_eq hn' hd', (ratioValue_eq_iff hd hd').mpr h]

/-! ## The nearest number -/

/-- **Quotients of one value round to one number.** -/
theorem roundRatio_congr (negative : Bool) {num den num' den' : Nat} (hd : 0 < den)
    (hd' : 0 < den') (h : num * den' = num' * den) :
    roundRatio negative num den = roundRatio negative num' den' := by
  rcases Nat.eq_zero_or_pos num with rfl | hn
  · have hn' : num' = 0 := by
      have : num' * den = 0 := by omega
      rcases Nat.mul_eq_zero.mp this with h0 | h0
      · exact h0
      · omega
    subst hn'
    rfl
  · have hn' : num' ≠ 0 := by
      rintro rfl
      have := Nat.mul_pos hn hd'
      omega
    have hmant : ∀ e : Int,
        roundQuotient (num * Nat.pow 2 (-e).toNat) (den * Nat.pow 2 e.toNat) =
          roundQuotient (num' * Nat.pow 2 (-e).toNat) (den' * Nat.pow 2 e.toNat) := by
      intro e
      refine roundQuotient_congr (Nat.mul_pos hd (pow_two_pos _))
        (Nat.mul_pos hd' (pow_two_pos _)) ?_
      calc num * Nat.pow 2 (-e).toNat * (den' * Nat.pow 2 e.toNat)
          = num * den' * (Nat.pow 2 (-e).toNat * Nat.pow 2 e.toNat) := by ring
        _ = num' * Nat.pow 2 (-e).toNat * (den * Nat.pow 2 e.toNat) := by rw [h]; ring
    unfold roundRatio
    simp only [scaleExponent_congr hn hd hd' h, hmant, beq_iff_eq, hn.ne', hn', if_false]

theorem Binary64.ofParts_canonical (x : Dyadic64) :
    Binary64.ofParts x.negative x.mantissa x.exponent = .finite x := by
  unfold Binary64.ofParts
  rw [dif_pos x.canonical]

theorem Dyadic64.eq_zero_of_isZero {x : Dyadic64} (h : x.isZero = true) : x = zero x.negative := by
  obtain ⟨negative, mantissa, exponent, canonical⟩ := x
  have hm : mantissa = 0 := by simpa [isZero] using h
  subst hm
  have he : exponent = -1074 := by
    rcases canonical.2.2.2 with h' | h'
    · exact h'
    · exact absurd h' (by decide)
  subst he
  rfl

theorem Dyadic64.log_value {x : Dyadic64} (hx : x.mantissa ≠ 0) :
    max (Int.log 2 ((x.mantissa : ℚ) * 2 ^ x.exponent) - 52) (-1074) = x.exponent := by
  obtain ⟨hlt, hlow, -, hfull⟩ := x.canonical
  have hm : (1 : ℚ) ≤ x.mantissa := by exact_mod_cast Nat.one_le_iff_ne_zero.mpr hx
  have hp : (0 : ℚ) < 2 ^ x.exponent := by positivity
  have hr : 0 < (x.mantissa : ℚ) * 2 ^ x.exponent := mul_pos (by linarith) hp
  have hup : (x.mantissa : ℚ) * 2 ^ x.exponent < (2 : ℚ) ^ (x.exponent + 53) := by
    rw [add_comm, zpow_add₀ (by norm_num)]
    refine mul_lt_mul_of_pos_right ?_ hp
    have : (x.mantissa : ℚ) < ((2 * leastFull : Nat) : ℚ) := by exact_mod_cast hlt
    refine this.trans_eq ?_
    norm_num [leastFull]
  have hlog : Int.log 2 ((x.mantissa : ℚ) * 2 ^ x.exponent) < x.exponent + 53 :=
    (Int.lt_zpow_iff_log_lt one_lt_two hr).mp (by exact_mod_cast hup)
  rcases hfull with he | hfull
  · omega
  · have hdown : (2 : ℚ) ^ (x.exponent + 52) ≤ (x.mantissa : ℚ) * 2 ^ x.exponent := by
      rw [add_comm, zpow_add₀ (by norm_num)]
      refine mul_le_mul_of_nonneg_right ?_ hp.le
      rw [← leastFull_eq]
      exact_mod_cast hfull
    have : x.exponent + 52 ≤ Int.log 2 ((x.mantissa : ℚ) * 2 ^ x.exponent) :=
      (Int.zpow_le_iff_le_log one_lt_two hr).mp (by exact_mod_cast hdown)
    omega

/-- **The value of a finite number rounds to it.** -/
theorem roundRatio_exact {x : Dyadic64} (hx : x.mantissa ≠ 0) {num den : Nat} (hd : 0 < den)
    (h : ratioValue num den = (x.mantissa : ℚ) * 2 ^ x.exponent) :
    roundRatio x.negative num den = .finite x := by
  have hn : 0 < num := by
    rcases Nat.eq_zero_or_pos num with rfl | hn
    · have hm : (x.mantissa : ℚ) ≠ 0 := by exact_mod_cast hx
      have hp : (2 : ℚ) ^ x.exponent ≠ 0 := by positivity
      exact absurd h.symm (by simpa [ratioValue] using mul_ne_zero hm hp)
    · exact hn
  have he : scaleExponent num den = x.exponent := by
    rw [scaleExponent_eq hn hd, h, Dyadic64.log_value hx]
  have hden : 0 < den * Nat.pow 2 x.exponent.toNat := Nat.mul_pos hd (pow_two_pos _)
  have hnum : num * Nat.pow 2 (-x.exponent).toNat =
      x.mantissa * (den * Nat.pow 2 x.exponent.toNat) := by
    have hp : (2 : ℚ) ^ x.exponent ≠ 0 := by positivity
    have h1 := ratioValue_scale num hd x.exponent
    rw [h, mul_div_assoc, div_self hp, mul_one] at h1
    have h2 : ratioValue x.mantissa 1 = (x.mantissa : ℚ) := by simp [ratioValue]
    rw [← h2, ratioValue_eq_iff hden one_pos, mul_one] at h1
    exact h1
  have hfull : x.mantissa ≠ 2 * leastFull := x.canonical.1.ne
  unfold roundRatio
  simp only [he, hnum, roundQuotient_mul _ hden, beq_iff_eq, hn.ne', hfull, if_false,
    Binary64.ofParts_canonical]

/-- A value of `2 ^ 1024` or more is beyond every finite number. -/
theorem roundRatio_of_large (negative : Bool) {num den : Nat} {k : Int} (hk : 1024 ≤ k)
    (hd : 0 < den) (h : (2 : ℚ) ^ k ≤ ratioValue num den) :
    roundRatio negative num den = .infinite negative := by
  have hn : 0 < num := by
    rcases Nat.eq_zero_or_pos num with rfl | hn
    · have h0 : (0 : ℚ) < 2 ^ k := by positivity
      rw [ratioValue, Nat.cast_zero, zero_div] at h
      exact absurd h (not_le.mpr h0)
    · exact hn
  have hlog : k ≤ Int.log 2 (ratioValue num den) :=
    (Int.zpow_le_iff_le_log one_lt_two (ratioValue_pos hn hd)).mp (by exact_mod_cast h)
  have he : 972 ≤ scaleExponent num den := by
    rw [scaleExponent_eq hn hd]
    omega
  have hinf : ∀ (m : Nat) (e : Int), 972 ≤ e → Binary64.ofParts negative m e = .infinite negative := by
    intro m e he
    unfold Binary64.ofParts
    rw [dif_neg]
    rintro ⟨-, -, h971, -⟩
    omega
  unfold roundRatio
  simp only [beq_iff_eq, hn.ne', if_false]
  split
  · exact hinf _ _ (by omega)
  · exact hinf _ _ he

/-- A value below `2 ^ -1075` rounds to zero. -/
theorem roundRatio_of_small (negative : Bool) {num den : Nat} {k : Int} (hk : k ≤ -1075)
    (hd : 0 < den) (h : ratioValue num den < (2 : ℚ) ^ k) :
    roundRatio negative num den = .finite (.zero negative) := by
  rcases Nat.eq_zero_or_pos num with rfl | hn
  · rfl
  have hlog : Int.log 2 (ratioValue num den) < k :=
    (Int.lt_zpow_iff_log_lt one_lt_two (ratioValue_pos hn hd)).mp (by exact_mod_cast h)
  have he : scaleExponent num den = -1074 := by
    rw [scaleExponent_eq hn hd]
    omega
  have hhalf : ∀ e : Int, k < e →
      2 * (num * Nat.pow 2 (-e).toNat) < den * Nat.pow 2 e.toNat := by
    intro e hke
    have hden : (0 : ℚ) < ((den * Nat.pow 2 e.toNat : Nat) : ℚ) := by
      exact_mod_cast Nat.mul_pos hd (pow_two_pos _)
    have h1 : ratioValue num den / 2 ^ e < 1 / 2 := by
      rw [div_lt_iff₀ (by positivity)]
      calc ratioValue num den < 2 ^ k := h
        _ ≤ 2 ^ (e - 1) := zpow_le_zpow_right₀ (by norm_num) (by omega)
        _ = 1 / 2 * 2 ^ e := by rw [zpow_sub₀ (by norm_num), zpow_one]; ring
    rw [← ratioValue_scale num hd e, ratioValue, div_lt_iff₀ hden, div_mul_eq_mul_div, one_mul,
      lt_div_iff₀ (by norm_num)] at h1
    rw [Nat.mul_comm]
    exact_mod_cast h1
  unfold roundRatio
  simp only [he, roundQuotient_of_lt_half (hhalf (-1074) (by omega)), beq_iff_eq, hn.ne', if_false]
  rfl

/-! ## Decimals -/

/-- The value of digits with a power of ten. -/
def decimalValue (digits : Nat) (exponent : Int) : ℚ := (digits : ℚ) * 10 ^ exponent

theorem pow_ten_pos (k : Nat) : 0 < Nat.pow 10 k := Nat.pow_pos (by norm_num)

theorem ratioValue_decimal (digits : Nat) (exponent : Int) :
    ratioValue (digits * Nat.pow 10 exponent.toNat) (Nat.pow 10 (-exponent).toNat) =
      decimalValue digits exponent := by
  have h2 : (10 : ℚ) ^ (-exponent).toNat ≠ 0 := by positivity
  unfold ratioValue decimalValue
  simp only [Nat.pow_eq, Nat.cast_mul, Nat.cast_pow, Nat.cast_ofNat]
  rw [zpow_split (by norm_num) exponent, ← mul_assoc, mul_div_cancel_right₀ _ h2]

theorem decimalValue_lt (digits : Nat) (exponent : Int) :
    decimalValue digits exponent < 10 ^ (exponent + digits.log2 + 1) := by
  have h1 : (digits : ℚ) < 10 ^ ((digits.log2 : Int) + 1) := by
    have h2 : (digits : ℚ) < 2 ^ (digits.log2 + 1) := by
      exact_mod_cast Nat.lt_log2_self (n := digits)
    have h3 : (2 : ℚ) ^ (digits.log2 + 1) ≤ 10 ^ (digits.log2 + 1) := by
      gcongr
      norm_num
    exact_mod_cast h2.trans_le h3
  have h4 : (0 : ℚ) < 10 ^ exponent := by positivity
  rw [show exponent + digits.log2 + 1 = ((digits.log2 : Int) + 1) + exponent by ring,
    zpow_add₀ (by norm_num)]
  exact mul_lt_mul_of_pos_right h1 h4

theorem two_zpow_three_mul (k : Int) : (2 : ℚ) ^ (3 * k) = 8 ^ k := by
  rw [zpow_mul]
  norm_num

/-- **The bounds on powers of ten change nothing**: outside of them rounding gives an infinity or
zero as well. -/
theorem ofDecimal_eq (negative : Bool) (digits : Nat) (exponent : Int) :
    ofDecimal negative digits exponent =
      roundRatio negative (digits * Nat.pow 10 exponent.toNat) (Nat.pow 10 (-exponent).toNat) := by
  have hd : 0 < Nat.pow 10 (-exponent).toNat := pow_ten_pos _
  unfold ofDecimal
  by_cases h0 : digits = 0
  · subst h0
    simp [roundRatio]
  rw [if_neg (by simpa using h0)]
  have hone : (1 : ℚ) ≤ digits := by exact_mod_cast Nat.one_le_iff_ne_zero.mpr h0
  by_cases hlarge : 400 ≤ exponent
  · rw [if_pos hlarge, roundRatio_of_large negative (k := 3 * exponent) (by omega) hd]
    rw [ratioValue_decimal]
    calc (2 : ℚ) ^ (3 * exponent) = 8 ^ exponent := two_zpow_three_mul exponent
      _ ≤ 10 ^ exponent := zpow_le_zpow_left₀ (by omega) (by norm_num) (by norm_num)
      _ ≤ decimalValue digits exponent := le_mul_of_one_le_left (by positivity) hone
  rw [if_neg hlarge]
  by_cases hsmall : exponent + digits.log2 + 1 < -400
  · set k : Int := exponent + digits.log2 + 1 with hk
    rw [if_pos hsmall, roundRatio_of_small negative (k := 3 * k) (by omega) hd]
    rw [ratioValue_decimal]
    calc decimalValue digits exponent < 10 ^ k := decimalValue_lt _ _
      _ ≤ 8 ^ k := by
          rw [← neg_neg k, zpow_neg 10, zpow_neg 8]
          exact inv_anti₀ (by positivity) (zpow_le_zpow_left₀ (by omega) (by norm_num) (by norm_num))
      _ = 2 ^ (3 * k) := (two_zpow_three_mul k).symm
  · rw [if_neg hsmall]

/-- **Decimals of one value are read as one number.** -/
theorem ofDecimal_congr (negative : Bool) {digits digits' : Nat} {exponent exponent' : Int}
    (h : decimalValue digits exponent = decimalValue digits' exponent') :
    ofDecimal negative digits exponent = ofDecimal negative digits' exponent' := by
  rw [ofDecimal_eq, ofDecimal_eq]
  refine roundRatio_congr negative (pow_ten_pos _) (pow_ten_pos _) ?_
  rw [← ratioValue_eq_iff (pow_ten_pos _) (pow_ten_pos _), ratioValue_decimal, ratioValue_decimal, h]

end RecordFilter.Number
