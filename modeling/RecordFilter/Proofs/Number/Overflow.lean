import Mathlib
import RecordFilter.Proofs.Number.Nearest

/-!
# Overflow — which values round to a finite number

Half way between the largest finite number and `2 ^ 1024`, which would be the next one, stands the least value that
rounds to an infinity. A decimal below it, with either sign, is read as the number nearest to it.

* `roundQuotient_lt_iff`: when a quotient is rounded to less than an even integer.
* `overflowFrom`, `roundRatio_isFinite_iff`: the bound, and that it divides the values.
* `ofDecimal_isFinite_iff`, `Dyadic64.isNearest_of_ofDecimal`: the same of decimals, and what they are read as.
-/

namespace RecordFilter.Number

/-- A quotient is rounded to less than an even integer if it lies more than a half below it; the half itself goes to
the even integer. -/
theorem roundQuotient_lt_iff (n : Nat) {d k : Nat} (hd : 0 < d) (hk : Even k) :
    roundQuotient n d < k ↔ ratioValue n d < k - 1 / 2 := by
  obtain ⟨t, hvalue, h0, h1, hlow, hhalf, hhigh⟩ := exists_fraction n hd
  have hcases := roundQuotient_cases n d
  rw [hvalue]
  generalize roundQuotient n d = m at hcases ⊢
  generalize n / d = q at hcases ⊢
  have hcast (a b : Nat) : (a : ℚ) + 1 ≤ b ↔ a + 1 ≤ b := by exact_mod_cast Iff.rfl
  rcases hcases with ⟨hlt, rfl⟩ | ⟨heq, heven, hsides⟩ | ⟨hgt, rfl⟩
  · have ht := hlow hlt
    refine ⟨fun h => ?_, fun h => ?_⟩
    · have hle := (hcast m k).mpr h
      linarith
    · by_contra hge
      have hle : (k : ℚ) ≤ m := by exact_mod_cast not_lt.mp hge
      linarith
  · have ht := hhalf heq
    have hside : (m : ℚ) = q ∨ (m : ℚ) = q + 1 := by
      rcases hsides with h | h
      · exact .inl (by rw [h])
      · exact .inr (by rw [h]; push_cast; rfl)
    refine ⟨fun h => ?_, fun h => ?_⟩
    · -- both integers are even, so a whole integer lies between them
      have hgap : m + 1 + 1 ≤ k := by
        obtain ⟨a, rfl⟩ := heven
        obtain ⟨b, rfl⟩ := hk
        omega
      have hle := (hcast (m + 1) k).mpr hgap
      push_cast at hle
      rcases hside with hm | hm <;> linarith
    · by_contra hge
      have hle : (k : ℚ) ≤ m := by exact_mod_cast not_lt.mp hge
      rcases hside with hm | hm <;> linarith
  · have ht := hhigh hgt
    refine ⟨fun h => ?_, fun h => ?_⟩
    · have hle := (hcast (q + 1) k).mpr h
      push_cast at hle
      linarith
    · by_contra hge
      have hle : (k : ℚ) ≤ (q + 1 : Nat) := by exact_mod_cast not_lt.mp hge
      push_cast at hle
      linarith

/-- The least value that rounds to an infinity. -/
def overflowFrom : ℚ := (4 * leastFull - 1) * 2 ^ (970 : Int)

theorem overflowFrom_eq : overflowFrom = ((2 * leastFull : Nat) - 1 / 2) * 2 ^ (971 : Int) := by
  have hpower : (2 : ℚ) ^ (971 : Int) = 2 ^ (970 : Int) * 2 := zpow_add_one₀ (by norm_num) 970
  rw [overflowFrom, hpower]
  generalize (2 : ℚ) ^ (970 : Int) = p
  push_cast
  ring

theorem overflowFrom_bounds : (2 : ℚ) ^ (1023 : Int) < overflowFrom ∧ overflowFrom < 2 ^ (1024 : Int) := by
  have hlow : (2 : ℚ) ^ (1023 : Int) = 2 ^ (53 : Int) * 2 ^ (970 : Int) := by rw [← zpow_add₀ (by norm_num)]; rfl
  have hhigh : (2 : ℚ) ^ (1024 : Int) = 2 ^ (54 : Int) * 2 ^ (970 : Int) := by rw [← zpow_add₀ (by norm_num)]; rfl
  have hpos : (0 : ℚ) < 2 ^ (970 : Int) := by positivity
  rw [overflowFrom, hlow, hhigh]
  exact ⟨mul_lt_mul_of_pos_right (by norm_num [leastFull]) hpos, mul_lt_mul_of_pos_right (by norm_num [leastFull]) hpos⟩

theorem Binary64.ofParts_isFinite_iff {negative : Bool} {mantissa : Nat} {exponent : Int} :
    (ofParts negative mantissa exponent).isFinite = true ↔ Canonical mantissa exponent := by
  unfold ofParts
  split
  · next h => exact ⟨fun _ => h, fun _ => rfl⟩
  · next h => exact ⟨fun hfinite => absurd hfinite Bool.false_ne_true, fun hcanonical => absurd hcanonical h⟩

/-- **A value rounds to a finite number exactly if it lies below the bound.** -/
theorem roundRatio_isFinite_iff (negative : Bool) {num den : Nat} (hd : 0 < den) :
    (roundRatio negative num den).isFinite = true ↔ ratioValue num den < overflowFrom := by
  obtain ⟨hmore, hless⟩ := overflowFrom_bounds
  rcases Nat.eq_zero_or_pos num with rfl | hn
  · have hpos : 0 < overflowFrom := lt_trans (by positivity) hmore
    simpa [ratioValue, roundRatio, Binary64.isFinite] using hpos
  · have hpos := ratioValue_pos hn hd
    have hden (e : Int) : 0 < den * Nat.pow 2 e.toNat := Nat.mul_pos hd (pow_two_pos _)
    have he := scaleExponent_eq hn hd
    obtain ⟨hmost, hleast⟩ := mantissa_bounds hn hd rfl
    have hbelow : ratioValue num den < 2 ^ (Int.log 2 (ratioValue num den) + 1) := by
      exact_mod_cast Int.lt_zpow_succ_log_self one_lt_two (ratioValue num den)
    have habove : (2 : ℚ) ^ Int.log 2 (ratioValue num den) ≤ ratioValue num den := by
      exact_mod_cast Int.zpow_log_le_self one_lt_two hpos
    have hmantissa := roundQuotient_lt_iff (num * Nat.pow 2 (-scaleExponent num den).toNat)
      (hden (scaleExponent num den)) (k := 2 * leastFull) (by decide)
    rw [ratioValue_scale num hd, div_lt_iff₀ (by positivity)] at hmantissa
    have hfinite : (roundRatio negative num den).isFinite = true ↔ scaleExponent num den ≤ 970 ∨
        scaleExponent num den = 971 ∧ roundQuotient (num * Nat.pow 2 (-scaleExponent num den).toNat)
          (den * Nat.pow 2 (scaleExponent num den).toNat) < 2 * leastFull := by
      rw [roundRatio, if_neg (by simpa using hn.ne')]
      dsimp only
      generalize scaleExponent num den = e at he hmost hleast
      generalize roundQuotient (num * Nat.pow 2 (-e).toNat) (den * Nat.pow 2 e.toNat) = m at hmost hleast
      split
      · next hfull =>
        rw [beq_iff_eq] at hfull
        rw [Binary64.ofParts_isFinite_iff, Canonical]
        have hfull' : 0 < leastFull := by decide
        omega
      · next hfull =>
        rw [beq_iff_eq] at hfull
        rw [Binary64.ofParts_isFinite_iff, Canonical]
        omega
    rw [hfinite]
    rcases lt_trichotomy (scaleExponent num den) 971 with hlt | heq | hgt
    · have hsmall : ratioValue num den < 2 ^ (1023 : Int) :=
        hbelow.trans_le (zpow_le_zpow_right₀ (by norm_num) (by omega))
      exact ⟨fun _ => hsmall.trans hmore, fun _ => .inl (by omega)⟩
    · rw [overflowFrom_eq, ← heq, ← hmantissa, heq]
      exact ⟨fun h => (h.resolve_left (by omega)).2, fun h => .inr ⟨rfl, h⟩⟩
    · have hlarge : (2 : ℚ) ^ (1024 : Int) ≤ ratioValue num den :=
        (zpow_le_zpow_right₀ (by norm_num) (by omega)).trans habove
      refine ⟨fun h => by omega, fun h => ?_⟩
      exact absurd (hlarge.trans_lt h) (not_lt.mpr hless.le)

/-- A sign is put before the rounded number. -/
theorem roundRatio_true_eq_finite {num den : Nat} {x : Dyadic64} (h : roundRatio true num den = .finite x) :
    roundRatio false num den = .finite x.negate := by
  have hparts {mantissa : Nat} {exponent : Int} (hx : Binary64.ofParts true mantissa exponent = .finite x) :
      Binary64.ofParts false mantissa exponent = .finite x.negate := by
    unfold Binary64.ofParts at hx ⊢
    split at hx
    · next hcanonical =>
      cases hx
      rw [dif_pos hcanonical]
      rfl
    · cases hx
  unfold roundRatio at h ⊢
  dsimp only at h ⊢
  split at h
  · next hzero =>
    cases h
    rw [if_pos hzero]
    rfl
  · next hzero =>
    rw [if_neg hzero]
    split at h
    · next hfull =>
      rw [if_pos hfull]
      exact hparts h
    · next hfull =>
      rw [if_neg hfull]
      exact hparts h

theorem Dyadic64.negative_of_roundRatio {negative : Bool} {num den : Nat} {x : Dyadic64}
    (h : roundRatio negative num den = .finite x) : x.negative = negative := by
  unfold roundRatio at h
  dsimp only at h
  split at h
  · cases h
    rfl
  · split at h <;> exact (Binary64.ofParts_eq_finite h).1

/-! ## Decimals -/

theorem ofDecimal_isFinite_iff (negative : Bool) (digits : Nat) (exponent : Int) :
    (ofDecimal negative digits exponent).isFinite = true ↔ decimalValue digits exponent < overflowFrom := by
  rw [ofDecimal_eq, roundRatio_isFinite_iff negative (pow_ten_pos _), ratioValue_decimal]

/-- **A decimal is read as the number nearest to it, with its sign.** -/
theorem Dyadic64.isNearest_of_ofDecimal {negative : Bool} {digits : Nat} {exponent : Int} {x : Dyadic64}
    (h : ofDecimal negative digits exponent = .finite x) :
    x.negative = negative ∧ x.IsNearest ((if negative then -1 else 1) * decimalValue digits exponent) := by
  rw [ofDecimal_eq] at h
  refine ⟨negative_of_roundRatio h, ?_⟩
  rw [← ratioValue_decimal]
  cases negative with
  | false =>
    rw [if_neg Bool.false_ne_true, one_mul]
    exact isNearest_of_roundRatio (pow_ten_pos _) h
  | true =>
    have hnearest := (isNearest_of_roundRatio (pow_ten_pos _) (roundRatio_true_eq_finite h)).negate
    have hback : x.negate.negate = x := by simp [negate]
    rw [if_pos rfl, neg_one_mul, ← hback]
    exact hnearest

end RecordFilter.Number
