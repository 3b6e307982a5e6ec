import Mathlib
import RecordFilter.Number.Layout
import RecordFilter.Toml.Plain
import RecordFilter.Proofs.Filter.FieldPath

/-!
# Plain values read back — the digits of a natural number

A run of digits is neither a word nor a moment, for these hold letters or marks; it is the numeral of its integer,
since the digits of a number begin with no needless zero.

* `Moment.isMoment_eq_false`: there is a mark in every moment.
* `plain?_of_digits`: digits are read as a decimal number.
* `plain?_naturalChars`: the digits of a natural number are read as the number.
-/

namespace RecordFilter.Toml

open Number Text

/-! ## Moments -/

namespace Moment

variable {s : List Char}

theorem isDate_eq_false (h : '-' ∉ s) : isDate s = false := by
  unfold isDate
  split
  · next hdash =>
    have hmem : '-' ∈ s.drop 4 := by simp [hdash]
    exact absurd (List.mem_of_mem_drop hmem) h
  · rfl

theorem isTime_eq_false (h : ':' ∉ s) : isTime s = false := by
  have hhour : isHourMinute (s.take 5) = false := by
    unfold isHourMinute
    split
    · next hcolon =>
      have hmem : ':' ∈ s.take 5 := by simp [hcolon]
      exact absurd (List.mem_of_mem_take hmem) h
    · rfl
  rw [isTime, hhour]
  rfl

/-- There is a mark in every moment. -/
theorem isMoment_eq_false (hdash : '-' ∉ s) (hcolon : ':' ∉ s) : isMoment s = false := by
  unfold isMoment
  split
  · rw [isDate_eq_false hdash, isTime_eq_false hcolon]
    rfl
  · rw [isDate_eq_false fun h => hdash (List.mem_of_mem_take h), isTime_eq_false hcolon]
    simp

end Moment

/-! ## Naturals -/

theorem ne_of_isDigit {c d : Char} (hc : c.isDigit = true) (hd : d.isDigit = false) : c ≠ d := by
  rintro rfl
  rw [hc] at hd
  cases hd

section Digits

variable {s : List Char} (h : ∀ c ∈ s, c.isDigit = true)

include h

theorem not_mem_of_digits {d : Char} (hd : d.isDigit = false) : d ∉ s :=
  fun hmem => ne_of_isDigit (h d hmem) hd rfl

theorem spacedDigits_of_digits (after : Bool) : spacedDigits Char.isDigit after s = true := by
  induction s generalizing after with
  | nil => rfl
  | cons c s ih =>
    obtain ⟨hc, hs⟩ := List.forall_mem_cons.mp h
    rw [spacedDigits]
    · exact ih hs _
    · exact ne_of_isDigit hc (by decide)

/-- Digits without underscores are joined to themselves. -/
theorem joinDigits?_of_digits : joinDigits? Char.isDigit s = some s := by
  have hfilter : s.filter (· != '_') = s :=
    List.filter_eq_self.mpr fun c hc => bne_iff_ne.mpr (ne_of_isDigit (h c hc) (by decide))
  rw [joinDigits?, if_pos (spacedDigits_of_digits h false), hfilter]

/-- Digits are no word with another character in it. -/
theorem ofList_ne_of_digits {word : String} {d : Char} (hmem : d ∈ word.toList) (hd : d.isDigit = false) :
    String.ofList s ≠ word := by
  rintro rfl
  rw [String.toList_ofList] at hmem
  exact not_mem_of_digits h hd hmem

end Digits

theorem number?_of_digits {s : List Char} (hs : IsDigits s) : number? s = decimalNumber? s := by
  obtain ⟨hne, hall⟩ := hs
  have hunsigned : unsignedNumber? false s = decimalNumber? s := by
    unfold unsignedNumber?
    split
    · next hinf => exact absurd hinf (ofList_ne_of_digits hall (d := 'n') (by decide) (by decide))
    · next hnan => exact absurd hnan (ofList_ne_of_digits hall (d := 'n') (by decide) (by decide))
    · obtain ⟨c, cs, rfl⟩ := List.exists_cons_of_ne_nil hne
      simp [hall c List.mem_cons_self]
  unfold number?
  split
  · exact absurd (by simp) (not_mem_of_digits hall (d := 'x') (by decide))
  · exact absurd (by simp) (not_mem_of_digits hall (d := 'o') (by decide))
  · exact absurd (by simp) (not_mem_of_digits hall (d := 'b') (by decide))
  · exact absurd (by simp) (not_mem_of_digits hall (d := '+') (by decide))
  · exact absurd (by simp) (not_mem_of_digits hall (d := '-') (by decide))
  · exact hunsigned

theorem plain?_of_digits {s : List Char} (hs : IsDigits s) : plain? s = decimalNumber? s := by
  have hall := hs.2
  unfold plain?
  split
  · next htrue => exact absurd htrue (ofList_ne_of_digits hall (d := 't') (by decide) (by decide))
  · next hfalse => exact absurd hfalse (ofList_ne_of_digits hall (d := 'f') (by decide) (by decide))
  · have hmoment := Moment.isMoment_eq_false (not_mem_of_digits hall (by decide))
      (not_mem_of_digits hall (by decide))
    rw [hmoment, if_neg Bool.false_ne_true, number?_of_digits hs]

theorem naturalChars_ne_zero_cons (n : Nat) (c : Char) (cs : List Char) : naturalChars n ≠ '0' :: c :: cs := by
  intro h
  rcases Nat.eq_zero_or_pos n with rfl | hn
  · have hzero : naturalChars 0 = ['0'] := by decide
    rw [hzero] at h
    cases h
  · exact head?_naturalChars_ne_zero hn.ne' (by rw [h]; rfl)

/-- **The digits of a natural number are its numeral**, if 128 bits hold it. -/
theorem plain?_naturalChars {n : Nat} (hn : n < 2 ^ 128) : plain? (naturalChars n) = some (.integer n) := by
  have hchars : (Numeral.ofInt n).chars = naturalChars n := by
    rw [Numeral.chars_ofInt, integerChars, if_neg (by omega), Int.natAbs_natCast]
  have hsplit : Numeral.split? (naturalChars n) = some (Numeral.ofInt n, []) := by
    have h := Numeral.split?_chars (Numeral.ofInt_wellFormed n) (show EndsNumeral [] by simp [EndsNumeral])
    rwa [hchars, List.append_nil] at h
  have hwhole : (Numeral.ofInt n).whole = naturalChars n := congrArg naturalChars (Int.natAbs_natCast n)
  have hvalue : integerOf? n = some (.integer n) := by
    rw [integerOf?, if_pos]
    constructor
    · have hpow : (0 : Int) ≤ (Nat.pow 2 127 : Int) := Int.natCast_nonneg _
      omega
    · exact_mod_cast hn
  rw [plain?_of_digits (isDigits_naturalChars n), decimalNumber?,
    joinDigits?_of_digits (isDigits_naturalChars n).2]
  simp only [Option.bind_eq_bind, Option.bind_some, hsplit, hwhole]
  split
  · next h => cases h
  · next h => exact absurd h (naturalChars_ne_zero_cons n _ _)
  · rw [if_pos (Numeral.isWhole_ofInt n), Numeral.integerValue_ofInt, hvalue]

end RecordFilter.Toml
