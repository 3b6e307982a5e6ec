import Mathlib
import RecordFilter.Number.Layout
import RecordFilter.Proofs.Number.Numeral
import RecordFilter.Proofs.Number.Rounding

/-!
# Shortest — a written number reads back

* `Dyadic64.ofDecimal_shortest`: the decimal that is written rounds to the number it is written for.
* `Layout.exists_numeral`: a layout sets a decimal out as a numeral of the same value, with a
  fraction or an exponent.
* `Layout.write_reads`: the text of a finite number is a numeral that reads back as the number.
-/

namespace RecordFilter.Number

/-! ## The decimal -/

theorem decimalValue_mul_ten (digits : Nat) (exponent : Int) :
    decimalValue (10 * digits) exponent = decimalValue digits (exponent + 1) := by
  unfold decimalValue
  rw [zpow_add_one₀ (by norm_num)]
  push_cast
  ring

theorem decimalValue_mul_pow (digits k : Nat) (exponent : Int) :
    decimalValue (digits * 10 ^ k) exponent = decimalValue digits (exponent + k) := by
  unfold decimalValue
  rw [zpow_add₀ (by norm_num), zpow_natCast]
  push_cast
  ring

/-- Moving trailing zeros into the exponent keeps the value. -/
theorem Decimal.decimalValue_strip (n : Nat) (d : Decimal) :
    decimalValue (d.strip n).digits (d.strip n).exponent = decimalValue d.digits d.exponent := by
  induction n generalizing d with
  | zero => rfl
  | succ n ih =>
    unfold Decimal.strip
    split
    · next h =>
      simp only [Bool.and_eq_true, beq_iff_eq] at h
      rw [ih, ← decimalValue_mul_ten, show 10 * (d.digits / 10) = d.digits by omega]
    · rfl

namespace Dyadic64

theorem readsBack_of_onGrid? {x : Dyadic64} {tie : Tie} {n : Nat} {d : Decimal}
    (h : x.onGrid? tie n = some d) : x.readsBack d = true := by
  unfold onGrid? at h
  dsimp only at h
  split at h
  · cases h
  · next h1 h2 => cases h; exact h1
  · next h1 h2 => cases h; exact h2
  · next h1 h2 =>
    split at h
    · cases h; exact h1
    · cases h; exact h2
    · split at h
      · cases h; exact h1
      · cases h; exact h2

theorem decimalValue_exact (x : Dyadic64) :
    decimalValue x.exact.digits x.exact.exponent = (x.mantissa : ℚ) * 2 ^ x.exponent := by
  unfold exact decimalValue
  split
  · next h =>
    obtain ⟨k, hk⟩ := Int.eq_ofNat_of_zero_le h
    simp [hk]
  · next h =>
    obtain ⟨k, hk⟩ : ∃ k : Nat, x.exponent = -(k : Int) := ⟨(-x.exponent).toNat, by omega⟩
    simp only [hk, neg_neg, Int.toNat_natCast, Nat.pow_eq, Nat.cast_mul, Nat.cast_pow,
      Nat.cast_ofNat, zpow_neg, zpow_natCast]
    rw [show (10 : ℚ) = 5 * 2 by norm_num, mul_pow]
    field_simp

theorem readsBack_exact {x : Dyadic64} (hx : x.mantissa ≠ 0) : x.readsBack x.exact = true := by
  unfold readsBack
  rw [ofDecimal_eq, roundRatio_exact hx (pow_ten_pos _), beq_self_eq_true]
  rw [ratioValue_decimal, decimalValue_exact]

/-- **The decimal that is written for a number rounds to it.** -/
theorem ofDecimal_shortest (x : Dyadic64) (tie : Tie) :
    ofDecimal x.negative (x.shortest tie).digits (x.shortest tie).exponent = .finite x := by
  unfold shortest
  split
  · next h => rw [eq_zero_of_isZero h]; rfl
  · next h =>
    have hx : x.mantissa ≠ 0 := by simpa [isZero] using h
    set d := ((List.range' 1 17).findSome? (x.onGrid? tie)).getD x.exact with hd
    have hback : x.readsBack d = true := by
      cases hf : (List.range' 1 17).findSome? (x.onGrid? tie) with
      | none => rw [hd, hf]; exact readsBack_exact hx
      | some e =>
        obtain ⟨n, -, hn⟩ := List.exists_of_findSome?_eq_some hf
        rw [hd, hf]
        exact readsBack_of_onGrid? hn
    rw [ofDecimal_congr x.negative (Decimal.decimalValue_strip 17 d)]
    simpa [readsBack] using hback

end Dyadic64

/-! ## The layout -/

namespace Layout

/-- The value of a numeral's digits with its power of ten. -/
def numeralValue (n : Numeral) : ℚ := decimalValue n.coefficient n.scale

/-- What a layout has to give for a decimal: a numeral of its value that is not whole. -/
def Shows (text : List Char) (d : Decimal) (negative : Bool) (n : Numeral) : Prop :=
  n.WellFormed ∧ n.negative = negative ∧ (if negative then ['-'] else []) ++ text = n.chars ∧
    n.isWhole = false ∧ numeralValue n = decimalValue d.digits d.exponent

variable {d : Decimal} {negative : Bool}

/-- A numeral with these whole digits and fraction shows the decimal if it has its value. -/
theorem shows_fraction (whole fraction : List Char) (hw : IsDigits whole) (hf : IsDigits fraction)
    (hv : decimalValue (digitsValue (whole ++ fraction)) (-(fraction.length : Int)) =
      decimalValue d.digits d.exponent) :
    Shows (whole ++ '.' :: fraction) d negative ⟨negative, whole, some fraction, none⟩ := by
  refine ⟨⟨hw, ?_, by simp⟩, rfl, ?_, rfl, ?_⟩
  · intro ds hds
    cases hds
    exact hf
  · simp [Numeral.chars]
  · simpa [numeralValue, Numeral.coefficient, Numeral.scale] using hv

theorem digitsValue_zeros_append (k : Nat) (ds : List Char) :
    digitsValue (List.replicate k '0' ++ ds) = digitsValue ds := by
  rw [digitsValue_append, digitsValue, digitsValueFrom_zeros, Nat.zero_mul, digitsValue]

theorem isDigits_zeros_append (k : Nat) {ds : List Char} (h : IsDigits ds) :
    IsDigits (List.replicate k '0' ++ ds) := by
  refine ⟨List.append_ne_nil_of_right_ne_nil _ h.1, fun c hc => ?_⟩
  rcases List.mem_append.mp hc with hc | hc
  · rw [(List.mem_replicate.mp hc).2]
    decide
  · exact h.2 c hc

theorem isDigits_append_zeros {ds : List Char} (h : IsDigits ds) (k : Nat) :
    IsDigits (ds ++ List.replicate k '0') := by
  refine ⟨List.append_ne_nil_of_left_ne_nil h.1 _, fun c hc => ?_⟩
  rcases List.mem_append.mp hc with hc | hc
  · exact h.2 c hc
  · rw [(List.mem_replicate.mp hc).2]
    decide

/-- Zeros between the point and the digits. -/
theorem shows_point_before (k : Nat) (h : d.exponent + (naturalChars d.digits).length = -(k : Int)) :
    Shows ('0' :: '.' :: (List.replicate k '0' ++ naturalChars d.digits)) d negative
      ⟨negative, ['0'], some (List.replicate k '0' ++ naturalChars d.digits), none⟩ := by
  refine shows_fraction ['0'] _ ⟨by simp, by simp⟩
    (isDigits_zeros_append k (isDigits_naturalChars _)) ?_
  have hz : digitsValue (['0'] ++ (List.replicate k '0' ++ naturalChars d.digits)) = d.digits := by
    rw [← List.append_assoc, show ['0'] ++ List.replicate k '0' = List.replicate (k + 1) '0' from rfl,
      digitsValue_zeros_append, digitsValue_naturalChars]
  rw [hz, List.length_append, List.length_replicate]
  congr 1
  omega

/-- Zeros between the digits and the point. -/
theorem shows_point_after (k : Nat) (h : d.exponent = k) :
    Shows (naturalChars d.digits ++ List.replicate k '0' ++ ['.', '0']) d negative
      ⟨negative, naturalChars d.digits ++ List.replicate k '0', some ['0'], none⟩ := by
  refine shows_fraction _ ['0'] (isDigits_append_zeros (isDigits_naturalChars _) k)
    ⟨by simp, by simp⟩ ?_
  have hz : digitsValue (naturalChars d.digits ++ List.replicate k '0' ++ ['0']) =
      d.digits * 10 ^ (k + 1) := by
    rw [List.append_assoc, ← List.replicate_succ', digitsValue_append, digitsValue_naturalChars,
      digitsValueFrom_zeros]
  rw [hz, decimalValue_mul_pow, h]
  congr 1
  simp

/-- The point among the digits. -/
theorem shows_point_among (k : Nat) (hpos : 0 < k) (hlt : k < (naturalChars d.digits).length)
    (h : (naturalChars d.digits).length + d.exponent = k) :
    Shows ((naturalChars d.digits).take k ++ '.' :: (naturalChars d.digits).drop k) d negative
      ⟨negative, (naturalChars d.digits).take k, some ((naturalChars d.digits).drop k), none⟩ := by
  have hall := (isDigits_naturalChars d.digits).2
  refine shows_fraction _ _ ⟨?_, fun c hc => hall c (List.mem_of_mem_take hc)⟩
    ⟨?_, fun c hc => hall c (List.mem_of_mem_drop hc)⟩ ?_
  · exact List.ne_nil_of_length_pos (by rw [List.length_take]; omega)
  · exact List.ne_nil_of_length_pos (by rw [List.length_drop]; omega)
  · rw [List.take_append_drop, digitsValue_naturalChars, List.length_drop]
    congr 1
    omega

/-- Digits with the point before them, after them or among them have the value of the decimal. -/
theorem exists_positional (d : Decimal) (negative : Bool) :
    ∃ n, Shows (positional (naturalChars d.digits) ((naturalChars d.digits).length + d.exponent))
      d negative n := by
  unfold positional
  split
  · exact ⟨_, shows_point_before _ (by omega)⟩
  · dsimp only
    split
    · exact ⟨_, shows_point_after _ (by omega)⟩
    · exact ⟨_, shows_point_among _ (by omega) (by omega) (by omega)⟩

/-- The sign that the layout writes before the digits of an exponent. -/
def exponentSign (l : Layout) (exponent : Int) : Option Char :=
  if exponent < 0 then some '-' else if l.plus then some '+' else none

theorem exponentSign_chars (l : Layout) (exponent : Int) :
    (if l.plus && 0 ≤ exponent then ['+'] else []) ++ integerChars exponent =
      (l.exponentSign exponent).toList ++ naturalChars exponent.natAbs := by
  unfold exponentSign integerChars
  by_cases h : exponent < 0
  · simp [h, not_le.mpr h]
  · cases hp : l.plus <;> simp [h, not_lt.mp h]

theorem exponent_value (l : Layout) (exponent : Int) :
    Exponent.value ⟨'e', l.exponentSign exponent, naturalChars exponent.natAbs⟩ = exponent := by
  unfold Exponent.value exponentSign
  by_cases h : exponent < 0
  · simp only [h, if_true, digitsValue_naturalChars]
    omega
  · cases hp : l.plus <;> simp only [h, if_false, if_true, Bool.false_eq_true, reduceCtorEq,
      Option.some.injEq, Char.reduceEq, digitsValue_naturalChars] <;> omega

theorem exponent_wellFormed (l : Layout) (exponent : Int) :
    Exponent.WellFormed ⟨'e', l.exponentSign exponent, naturalChars exponent.natAbs⟩ := by
  refine ⟨Or.inl rfl, ?_, isDigits_naturalChars _⟩
  intro c hc
  dsimp only [exponentSign] at hc
  split at hc
  · cases hc; exact Or.inr rfl
  · split at hc <;> cases hc
    exact Or.inl rfl

/-- One digit, the others as a fraction, and an exponent have the value of the decimal. -/
theorem exists_scientific (l : Layout) (d : Decimal) (negative : Bool) :
    ∃ n, Shows (l.scientific (naturalChars d.digits)
      ((naturalChars d.digits).length + d.exponent - 1)) d negative n := by
  obtain ⟨c, tail, hdigits⟩ := List.exists_cons_of_ne_nil (naturalChars_ne_nil d.digits)
  have hval : digitsValue (c :: tail) = d.digits := by rw [← hdigits, digitsValue_naturalChars]
  have hall : ∀ x ∈ c :: tail, x.isDigit = true := by
    rw [← hdigits]
    exact (isDigits_naturalChars _).2
  rw [hdigits]
  set exponent : Int := ((c :: tail).length : Int) + d.exponent - 1 with hexp
  set e : Exponent := ⟨'e', l.exponentSign exponent, naturalChars exponent.natAbs⟩ with he
  have hlen : exponent = (tail.length : Int) + d.exponent := by
    rw [hexp, List.length_cons]
    push_cast
    ring
  have hchars : e.chars = 'e' :: ((if l.plus && 0 ≤ exponent then ['+'] else []) ++ integerChars exponent) := by
    rw [exponentSign_chars]
    rfl
  refine ⟨⟨negative, [c], if tail.isEmpty then none else some tail, some e⟩,
    ⟨⟨by simp, fun x hx => hall x (by simp_all)⟩, ?_, ?_⟩, rfl, ?_, by simp [Numeral.isWhole], ?_⟩
  · intro ds hds
    cases htail : tail with
    | nil => simp [htail] at hds
    | cons t ts =>
      obtain rfl : tail = ds := by simpa [htail] using hds
      exact ⟨by simp [htail], fun x hx => hall x (List.mem_cons_of_mem _ hx)⟩
  · intro x hx
    cases hx
    exact exponent_wellFormed l exponent
  · simp only [scientific, Numeral.chars, hchars]
    cases tail <;> simp
  · unfold numeralValue Numeral.coefficient Numeral.scale
    rw [Option.map_some, Option.getD_some, exponent_value, hlen]
    have hcoeff : digitsValue ([c] ++ (if tail.isEmpty then none else some tail).getD []) =
        d.digits := by
      rw [← hval]
      cases tail <;> rfl
    have hscale : (((if tail.isEmpty then none else some tail).getD []).length : Int) =
        tail.length := by
      cases tail <;> rfl
    rw [hcoeff, hscale]
    congr 1
    omega

/-- **A layout sets a decimal out as a numeral of its value**, with a fraction or an exponent. -/
theorem exists_numeral (l : Layout) (d : Decimal) (negative : Bool) :
    ∃ n, Shows (l.writeDecimal d) d negative n := by
  unfold writeDecimal
  dsimp only
  split
  · next h =>
    have h0 : d.digits = 0 := by simpa using h
    refine ⟨_, shows_fraction ['0'] ['0'] ⟨by simp, by simp⟩ ⟨by simp, by simp⟩ ?_⟩
    simp [decimalValue, h0, digitsValue, digitsValueFrom, digitValue]
  · split
    · exact exists_positional d negative
    · exact exists_scientific l d negative

/-- **The text of a finite number is a numeral that reads back as the number.** -/
theorem write_reads (l : Layout) (x : Dyadic64) :
    ∃ n : Numeral, n.WellFormed ∧ l.write x = n.chars ∧ n.isWhole = false ∧
      n.toBinary64 = .finite x := by
  obtain ⟨n, hwf, hneg, hchars, hwhole, hvalue⟩ := exists_numeral l (x.shortest l.tie) x.negative
  refine ⟨n, hwf, hchars, hwhole, ?_⟩
  unfold Numeral.toBinary64
  rw [hneg, ofDecimal_congr x.negative hvalue, Dyadic64.ofDecimal_shortest]

end Layout

end RecordFilter.Number
