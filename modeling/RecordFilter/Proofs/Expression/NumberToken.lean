import Mathlib
import RecordFilter.Proofs.Expression.Lexing
import RecordFilter.Proofs.Number.LongestNumeral
import RecordFilter.Proofs.Number.Overflow

/-!
# Number tokens — which runs of characters are numbers, and which numbers they are

A run of characters that begins with a minus sign or a digit reaches up to the next delimiter. It is a number if all
of it is a numeral with a finite value: an integer if it is written as one and 64 bits hold it, otherwise the
floating-point number nearest to its value. Any other run is refused at the first character behind the longest
numeral that begins it.

* `Numeral.value`: the value of a numeral.
* `Lexeme.numeralValue?_cases`: what the value of a numeral becomes.
* `Text.untilDelimiter`, `Lexeme.number_cases`: the run, and what is read of it.
* `Lexeme.next_numeral`: which runs are numbers, and where the others are refused.
-/

namespace RecordFilter

open Number Text

namespace Number

/-! ## The value of a numeral -/

/-- The value of a numeral with its sign. -/
def Numeral.value (n : Numeral) : ℚ := (if n.negative then -1 else 1) * decimalValue n.coefficient n.scale

/-- Where neither fraction nor exponent is written, the value is the integer. -/
theorem Numeral.value_of_isWhole {n : Numeral} (h : n.isWhole = true) : n.value = n.integerValue := by
  obtain ⟨negative, whole, fraction, exponent⟩ := n
  simp only [isWhole, Bool.and_eq_true, Option.isNone_iff_eq_none] at h
  obtain ⟨rfl, rfl⟩ := h
  cases negative <;> simp [value, decimalValue, coefficient, scale, integerValue]

theorem Numeral.abs_value (n : Numeral) : |n.value| = decimalValue n.coefficient n.scale := by
  have hnonneg : 0 ≤ decimalValue n.coefficient n.scale := by
    unfold decimalValue
    positivity
  unfold value
  split
  · rw [neg_one_mul, abs_neg, abs_of_nonneg hnonneg]
  · rw [one_mul, abs_of_nonneg hnonneg]

/-- An integer is one of 64 bits exactly if they hold it. -/
theorem int64?_eq_some_iff {i : Int} {j : Int64} : int64? i = some j ↔ i = j.toInt := by
  constructor
  · intro h
    unfold int64? at h
    split at h
    · next hrange =>
      cases h
      exact (Int64.toInt_ofInt_of_le (by simpa using hrange.1) (by simpa using hrange.2)).symm
    · cases h
  · rintro rfl
    exact int64?_toInt j

end Number

namespace Lexeme

/-- The integer of 64 bits that a numeral without fraction and exponent denotes. -/
def Denotes (n : Numeral) (i : Int64) : Prop := n.isWhole = true ∧ n.integerValue = i.toInt

theorem Denotes.abs_lt {n : Numeral} {i : Int64} (h : Denotes n i) : |n.value| < overflowFrom := by
  have hlow := i.le_toInt
  have hhigh := i.toInt_lt
  have hbound : |n.value| ≤ 2 ^ (63 : Int) := by
    rw [Numeral.value_of_isWhole h.1, h.2, abs_le]
    constructor
    · exact_mod_cast hlow
    · exact_mod_cast hhigh.le
  refine hbound.trans_lt (lt_trans ?_ overflowFrom_bounds.1)
  exact zpow_lt_zpow_right₀ (by norm_num) (by norm_num)

/-- **What the value of a numeral becomes**: the integer that it denotes, else the finite number nearest to it, else
nothing. -/
theorem numeralValue?_cases (n : Numeral) :
    (∃ i, Denotes n i ∧ numeralValue? n = some (.int i)) ∨
    ((∀ i, ¬ Denotes n i) ∧ |n.value| < overflowFrom ∧
      ∃ x : Dyadic64, x.IsNearest n.value ∧ x.negative = n.negative ∧
        numeralValue? n = some (.float (.finite x))) ∨
    (overflowFrom ≤ |n.value| ∧ numeralValue? n = none) := by
  unfold numeralValue?
  cases hint : (if n.isWhole then int64? n.integerValue else none) with
  | some i =>
    split at hint
    · next hwhole => exact .inl ⟨i, ⟨hwhole, int64?_eq_some_iff.mp hint⟩, rfl⟩
    · cases hint
  | none =>
    have hnone (i : Int64) : ¬ Denotes n i := by
      rintro ⟨hwhole, hvalue⟩
      rw [if_pos hwhole, int64?_eq_some_iff.mpr hvalue] at hint
      cases hint
    have hrange : n.toBinary64.isFinite = true ↔ |n.value| < overflowFrom := by
      rw [n.abs_value]
      exact ofDecimal_isFinite_iff n.negative n.coefficient n.scale
    by_cases hfinite : n.toBinary64.isFinite = true
    · cases hx : n.toBinary64 with
      | nan | infinite =>
        rw [hx] at hfinite
        cases hfinite
      | finite x =>
        obtain ⟨hsign, hnearest⟩ := Dyadic64.isNearest_of_ofDecimal hx
        exact .inr (.inl ⟨hnone, hrange.mp hfinite, x, hnearest, hsign, rfl⟩)
    · exact .inr (.inr ⟨not_lt.mp fun hlt => hfinite (hrange.mpr hlt), if_neg hfinite⟩)

theorem numeralValue?_eq_int_iff {n : Numeral} {i : Int64} : numeralValue? n = some (.int i) ↔ Denotes n i := by
  rcases numeralValue?_cases n with ⟨j, hj, hv⟩ | ⟨hnone, -, x, -, -, hv⟩ | ⟨hle, hv⟩
  · rw [hv]
    refine ⟨fun h => ?_, fun hi => ?_⟩
    · cases h
      exact hj
    · rw [Int64.toInt_inj.mp (hj.2.symm.trans hi.2)]
  · rw [hv]
    exact iff_of_false (by simp) (hnone i)
  · rw [hv]
    exact iff_of_false (by simp) fun hi => not_lt.mpr hle hi.abs_lt

theorem numeralValue?_eq_none_iff {n : Numeral} : numeralValue? n = none ↔ overflowFrom ≤ |n.value| := by
  rcases numeralValue?_cases n with ⟨i, hi, hv⟩ | ⟨-, hlt, x, -, -, hv⟩ | ⟨hle, hv⟩
  · rw [hv]
    exact iff_of_false (by simp) (not_le.mpr hi.abs_lt)
  · rw [hv]
    exact iff_of_false (by simp) (not_le.mpr hlt)
  · exact iff_of_true hv hle

/-- A finite value that is no integer of 64 bits is rounded. -/
theorem exists_numeralValue?_float {n : Numeral} (hnone : ∀ i, ¬ Denotes n i) (hlt : |n.value| < overflowFrom) :
    ∃ x : Dyadic64, x.IsNearest n.value ∧ x.negative = n.negative ∧
      numeralValue? n = some (.float (.finite x)) := by
  rcases numeralValue?_cases n with ⟨i, hi, -⟩ | ⟨-, -, hx⟩ | ⟨hle, -⟩
  · exact absurd hi (hnone i)
  · exact hx
  · exact absurd hlt (not_lt.mpr hle)

end Lexeme

/-! ## Runs of characters -/

namespace Text

/-- What stands before the first delimiter. -/
def untilDelimiter (s : List Char) : List Char := s.takeWhile fun c => !isDelimiter c

theorem untilDelimiter_append {p : List Char} (hp : ∀ c ∈ p, isDelimiter c = false) (s : List Char) :
    untilDelimiter (p ++ s) = p ++ untilDelimiter s :=
  List.takeWhile_append_of_pos fun c hc => by rw [hp c hc, Bool.not_false]

theorem untilDelimiter_of_endsLiteral {s : List Char} (h : endsLiteral s = true) : untilDelimiter s = [] := by
  cases s with
  | nil => rfl
  | cons c s =>
    have hc : isDelimiter c = true := h
    exact List.takeWhile_cons_of_neg (by simp [hc])

theorem untilDelimiter_cons {c : Char} (hc : isDelimiter c = false) (s : List Char) :
    untilDelimiter (c :: s) = c :: untilDelimiter s :=
  List.takeWhile_cons_of_pos (by rw [hc, Bool.not_false])

theorem untilDelimiter_isPrefix (s : List Char) : untilDelimiter s <+: s := List.takeWhile_prefix _

/-- A numeral that begins a text ends before the first delimiter. -/
theorem prefix_untilDelimiter_iff {q s : List Char} (hq : Numeral.IsText q) : q <+: untilDelimiter s ↔ q <+: s := by
  refine ⟨fun h => h.trans (untilDelimiter_isPrefix s), ?_⟩
  obtain ⟨n, hn, rfl⟩ := hq
  rintro ⟨t, rfl⟩
  rw [untilDelimiter_append fun c hc => Numeral.not_isDelimiter_of_mem_chars hn hc]
  exact List.prefix_append _ _

theorem longestOf_untilDelimiter {s p : List Char} (h : Numeral.LongestOf s p) :
    Numeral.LongestOf (untilDelimiter s) p where
  isText := h.isText
  begins := (prefix_untilDelimiter_iff h.isText).mpr h.begins
  longest := fun q hq hbegins => h.longest q hq ((prefix_untilDelimiter_iff hq).mp hbegins)

end Text

namespace Lexeme

variable {c : Char} {rest : List Char}

/-- A run that begins with a minus sign or a digit is a numeral, or it is longer than the longest one that begins it,
or no digit follows its minus sign. -/
theorem number_cases (hc : c = '-' ∨ c.isDigit = true) (position : Nat) (rest : List Char) :
    (∃ n : Numeral, n.WellFormed ∧ n.chars = untilDelimiter (c :: rest) ∧ number position (c :: rest) =
      match numeralValue? n with
      | some value => .ok ⟨.number value, n.chars.length - 1⟩
      | none => .error (.invalidNumber (String.ofList n.chars) position)) ∨
    (∃ p found after, Numeral.LongestOf (untilDelimiter (c :: rest)) p ∧
      untilDelimiter (c :: rest) = p ++ found :: after ∧
      number position (c :: rest) = .error (.unexpectedCharacter found (position + p.length))) ∨
    (c = '-' ∧ NoDigit rest ∧ number position (c :: rest) = .error (.unexpectedCharacter '-' position)) := by
  unfold number
  cases hsplit : Numeral.split? (c :: rest) with
  | none =>
    obtain rfl : c = '-' := hc.resolve_right fun hdigit => Numeral.split?_ne_none hdigit rest hsplit
    refine .inr (.inr ⟨rfl, fun d hd => ?_, rfl⟩)
    -- a digit would begin the digits of the numeral
    by_contra hdigit
    rw [Bool.not_eq_false] at hdigit
    obtain ⟨tail, rfl⟩ := List.head?_eq_some_iff.mp hd
    have hunsigned : Numeral.splitUnsigned? true (d :: tail) = none := hsplit
    unfold Numeral.splitUnsigned? at hunsigned
    rw [List.takeWhile_cons_of_pos hdigit] at hunsigned
    cases hunsigned
  | some parts =>
    obtain ⟨n, after⟩ := parts
    obtain ⟨hwell, hchars⟩ := Numeral.of_split? hsplit
    have hrun : untilDelimiter (c :: rest) = n.chars ++ untilDelimiter after := by
      rw [← hchars, untilDelimiter_append fun d hd => Numeral.not_isDelimiter_of_mem_chars hwell hd]
    cases hends : endsLiteral after with
    | true =>
      rw [untilDelimiter_of_endsLiteral hends, List.append_nil] at hrun
      refine .inl ⟨n, hwell, hrun.symm, ?_⟩
      cases hvalue : numeralValue? n <;> simp only [hends, if_true, hvalue]
    | false =>
      cases after with
      | nil => cases hends
      | cons found after =>
        rw [untilDelimiter_cons hends] at hrun
        have hlongest := longestOf_untilDelimiter (Numeral.longestOf_of_split? hsplit)
        refine .inr (.inl ⟨n.chars, found, untilDelimiter after, hlongest, hrun, ?_⟩)
        simp [hends]

/-- The token that begins with `c` is the whole run, if its kind is that of a number. -/
theorem scan_of_next (hc : isSpace c = false) {position : Nat} {l : Lexeme} {w : List Char} (hw : w <+: c :: rest)
    (hlength : l.tail + 1 = w.length) (h : next position c rest = .ok l) :
    Token.scan position (c :: rest) =
      (Token.scan (position + w.length) ((c :: rest).drop w.length)).map
        (⟨l.kind, String.ofList w, position⟩ :: ·) := by
  have htext : c :: rest.take l.tail = w := by
    rw [← List.take_succ_cons, hlength]
    exact (List.prefix_iff_eq_take.mp hw).symm
  rw [Token.scan, if_neg (by simp [hc]), h]
  dsimp only
  rw [htext, hlength, ← List.drop_succ_cons (a := c), hlength]
  cases Token.scan (position + w.length) ((c :: rest).drop w.length) <;> rfl

theorem untilDelimiter_of_numeral (hc : c = '-' ∨ c.isDigit = true) (rest : List Char) :
    untilDelimiter (c :: rest) = c :: untilDelimiter rest := by
  refine untilDelimiter_cons ?_ rest
  by_contra h
  simp only [isDelimiter, isSpace, Bool.not_eq_false, Bool.or_eq_true, beq_iff_eq] at h
  rcases h with ((((((rfl | rfl) | rfl) | rfl) | rfl) | rfl) | rfl) | rfl <;> exact absurd hc (by decide)

/-- A run that is longer than the longest numeral at its start is no numeral. -/
theorem not_isText_of_longestOf {p after : List Char} {found : Char}
    (h : Numeral.LongestOf (p ++ found :: after) p) : ¬ Numeral.IsText (p ++ found :: after) := by
  intro htext
  have hle := h.longest _ htext (List.prefix_refl _)
  simp at hle

/-- Neither is one with a minus sign that no digit follows. -/
theorem not_isText_of_noDigit (h : NoDigit rest) : ¬ Numeral.IsText ('-' :: untilDelimiter rest) := by
  intro htext
  obtain ⟨d, hd, hdigit⟩ := Numeral.digit_of_isText_minus htext
  cases rest with
  | nil => cases hd
  | cons r rest =>
    have hsame : d = r := by
      unfold untilDelimiter at hd
      rw [List.takeWhile_cons] at hd
      split at hd
      · exact (Option.some.inj hd).symm
      · cases hd
    rw [hsame, h r rfl] at hdigit
    cases hdigit

/-- A run that is a numeral is read as its value. -/
theorem next_of_chars_eq (hc : c = '-' ∨ c.isDigit = true) (position : Nat) {n : Numeral} (hn : n.WellFormed)
    (hw : n.chars = untilDelimiter (c :: rest)) :
    next position c rest =
      match numeralValue? n with
      | some value => .ok ⟨.number value, (untilDelimiter (c :: rest)).length - 1⟩
      | none => .error (.invalidNumber (String.ofList (untilDelimiter (c :: rest))) position) := by
  rw [next_of_numeral hc]
  rcases number_cases hc position rest with ⟨m, hm, hrun, hnumber⟩ | ⟨p, found, after, hp, hrun, -⟩ | ⟨rfl, hrest, -⟩
  · obtain rfl : m = n := Numeral.eq_of_chars_eq hm hn (hrun.trans hw.symm)
    rw [hnumber, hrun]
  · rw [hrun] at hp hw
    exact absurd ⟨n, hn, hw⟩ (not_isText_of_longestOf hp)
  · rw [untilDelimiter_of_numeral hc] at hw
    exact absurd ⟨n, hn, hw⟩ (not_isText_of_noDigit hrest)

/-- A run that is no numeral is refused behind the longest numeral that begins it. -/
theorem next_of_not_isText (hc : c = '-' ∨ c.isDigit = true) (position : Nat)
    (hw : ¬ Numeral.IsText (untilDelimiter (c :: rest))) :
    (∃ p found after, Numeral.LongestOf (untilDelimiter (c :: rest)) p ∧
      untilDelimiter (c :: rest) = p ++ found :: after ∧
      next position c rest = .error (.unexpectedCharacter found (position + p.length))) ∨
    (c = '-' ∧ NoDigit rest ∧ next position c rest = .error (.unexpectedCharacter '-' position)) := by
  rw [next_of_numeral hc]
  exact (number_cases hc position rest).resolve_left fun ⟨n, hn, hrun, _⟩ => hw ⟨n, hn, hrun⟩

section Numeral

variable {position : Nat} {n : Numeral}

theorem next_eq_number_iff (hc : c = '-' ∨ c.isDigit = true) (hn : n.WellFormed)
    (hw : n.chars = untilDelimiter (c :: rest)) {v : Scalar} :
    next position c rest = .ok ⟨.number v, (untilDelimiter (c :: rest)).length - 1⟩ ↔ numeralValue? n = some v := by
  rw [next_of_chars_eq hc position hn hw]
  cases numeralValue? n with
  | some u => simp
  | none => simp

/-- Only a numeral with a finite value is read. -/
theorem numeral_of_next (hc : c = '-' ∨ c.isDigit = true) {l : Lexeme} (h : next position c rest = .ok l) :
    ∃ n : Numeral, n.WellFormed ∧ n.chars = untilDelimiter (c :: rest) ∧ |n.value| < overflowFrom ∧
      ∃ v, l = ⟨.number v, (untilDelimiter (c :: rest)).length - 1⟩ := by
  by_cases htext : Numeral.IsText (untilDelimiter (c :: rest))
  · obtain ⟨n, hn, hw⟩ := htext
    rw [next_of_chars_eq hc position hn hw] at h
    cases hv : numeralValue? n with
    | some v =>
      rw [hv] at h
      have hfinite : ¬ overflowFrom ≤ |n.value| := by
        rw [← numeralValue?_eq_none_iff, hv]
        simp
      exact ⟨n, hn, hw, not_le.mp hfinite, v, (Except.ok.inj h).symm⟩
    | none =>
      rw [hv] at h
      cases h
  · rcases next_of_not_isText hc position htext with ⟨p, found, after, -, -, herror⟩ | ⟨-, -, herror⟩
    · rw [herror] at h
      cases h
    · rw [herror] at h
      cases h

end Numeral

/-- **Numbers are read to the next delimiter, and exactly.** Let `w` be the characters before the first delimiter of a
text that begins with a minus sign or a digit. There is a token exactly if `w` is a numeral with a finite value, and
then the token is a number with the text `w`: the integer that `w` denotes if it has neither fraction nor exponent and
64 bits hold it, otherwise the floating-point number nearest to the value, with the sign of the numeral. A numeral
beyond the finite numbers is refused as such. A run that is no numeral is refused at the first character behind the
longest numeral that begins it, or at its minus sign if no digit follows. So every integer of 64 bits is read from its
own digits. -/
theorem next_numeral (hc : c = '-' ∨ c.isDigit = true) (position : Nat) (rest : List Char) :
    let w := untilDelimiter (c :: rest)
    let token (v : Scalar) : Except ParseError Lexeme := .ok ⟨.number v, w.length - 1⟩
    ((∃ l, next position c rest = .ok l) ↔
      ∃ n : Numeral, n.WellFormed ∧ n.chars = w ∧ |n.value| < overflowFrom) ∧
    (∀ l, next position c rest = .ok l → ∃ v, l = ⟨.number v, w.length - 1⟩ ∧
      Token.scan position (c :: rest) =
        (Token.scan (position + w.length) ((c :: rest).drop w.length)).map
          (⟨.number v, String.ofList w, position⟩ :: ·)) ∧
    (∀ n : Numeral, n.WellFormed → n.chars = w →
      (∀ i, next position c rest = token (.int i) ↔ Denotes n i) ∧
      ((∀ i, ¬ Denotes n i) → |n.value| < overflowFrom →
        ∃ x : Dyadic64, x.IsNearest n.value ∧ x.negative = n.negative ∧
          next position c rest = token (.float (.finite x))) ∧
      (overflowFrom ≤ |n.value| →
        next position c rest = .error (.invalidNumber (String.ofList w) position))) ∧
    (¬ Numeral.IsText w →
      (∃ p found after, Numeral.LongestOf w p ∧ w = p ++ found :: after ∧
        next position c rest = .error (.unexpectedCharacter found (position + p.length))) ∨
      (c = '-' ∧ NoDigit rest ∧ next position c rest = .error (.unexpectedCharacter '-' position))) ∧
    (∀ i : Int64, w = integerChars i.toInt → next position c rest = token (.int i)) := by
  intro w token
  have hlength : w.length - 1 + 1 = w.length := by
    have hw : w = c :: untilDelimiter rest := untilDelimiter_of_numeral hc rest
    rw [hw]
    simp
  refine ⟨⟨?_, ?_⟩, ?_, ?_, fun hw => next_of_not_isText hc position hw, ?_⟩
  · rintro ⟨l, hl⟩
    obtain ⟨n, hn, hw, hlt, -⟩ := numeral_of_next hc hl
    exact ⟨n, hn, hw, hlt⟩
  · rintro ⟨n, hn, hw, hlt⟩
    have hsome : numeralValue? n ≠ none := fun h => not_le.mpr hlt (numeralValue?_eq_none_iff.mp h)
    obtain ⟨v, hv⟩ := Option.ne_none_iff_exists'.mp hsome
    exact ⟨_, (next_eq_number_iff hc hn hw).mpr hv⟩
  · intro l hl
    obtain ⟨n, -, -, -, v, rfl⟩ := numeral_of_next hc hl
    exact ⟨v, rfl, scan_of_next (isSpace_of_numeral hc) (untilDelimiter_isPrefix _) hlength hl⟩
  · intro n hn hw
    refine ⟨fun i => (next_eq_number_iff hc hn hw).trans numeralValue?_eq_int_iff, fun hnone hlt => ?_, fun hle => ?_⟩
    · obtain ⟨x, hnearest, hsign, hv⟩ := exists_numeralValue?_float hnone hlt
      exact ⟨x, hnearest, hsign, (next_eq_number_iff hc hn hw).mpr hv⟩
    · rw [next_of_chars_eq hc position hn hw, numeralValue?_eq_none_iff.mpr hle]
  · intro i hw
    have hchars : (Numeral.ofInt i.toInt).chars = w := (Numeral.chars_ofInt _).trans hw.symm
    have hvalue : numeralValue? (.ofInt i.toInt) = some (.int i) :=
      numeralValue?_eq_int_iff.mpr ⟨Numeral.isWhole_ofInt _, Numeral.integerValue_ofInt _⟩
    exact (next_eq_number_iff hc (Numeral.ofInt_wellFormed _) hchars).mpr hvalue

/-- The least integer of 64 bits is read as itself, the first one beyond the greatest is rounded, and an exponent
without digits is left: the run is refused at its mark. -/
theorem next_numeral_limits :
    next 0 '-' "9223372036854775808)".toList = .ok ⟨.number (.int Int64.minValue), 19⟩ ∧
    (∃ x : Dyadic64, x.IsNearest 9223372036854775808 ∧
      next 0 '9' "223372036854775808]".toList = .ok ⟨.number (.float (.finite x)), 18⟩) ∧
    next 7 '-' "12e+.3,".toList = .error (.unexpectedCharacter 'e' 10) ∧
    ¬ ∃ n : Numeral, n.WellFormed ∧ n.chars = "-12e+.3".toList ∧ |n.value| < overflowFrom := by
  refine ⟨?_, ?_, ?_⟩
  · obtain ⟨-, -, -, -, hint⟩ := next_numeral (.inl rfl) 0 "9223372036854775808)".toList
    exact hint Int64.minValue (by decide +kernel)
  · obtain ⟨-, -, hvalue, -⟩ := next_numeral (c := '9') (.inr (by decide)) 0 "223372036854775808]".toList
    let n := Numeral.ofInt 9223372036854775808
    have hinteger : n.integerValue = 9223372036854775808 := Numeral.integerValue_ofInt _
    have hexact : n.value = 9223372036854775808 := by
      rw [Numeral.value_of_isWhole rfl, hinteger]
      norm_num
    have hnone (i : Int64) : ¬ Denotes n i := by
      rintro ⟨-, hi⟩
      have hlt := i.toInt_lt
      omega
    have hlt : |n.value| < overflowFrom := by
      have hpower : |n.value| = 2 ^ (63 : Int) := by
        rw [hexact]
        norm_num
      rw [hpower]
      exact lt_trans (zpow_lt_zpow_right₀ (by norm_num) (by norm_num)) overflowFrom_bounds.1
    obtain ⟨x, hnearest, -, hx⟩ := (hvalue n (Numeral.ofInt_wellFormed _) (by decide +kernel)).2.1 hnone hlt
    exact ⟨x, hexact ▸ hnearest, hx⟩
  · obtain ⟨hsome, -⟩ := next_numeral (.inl rfl) 7 "12e+.3,".toList
    have herror : next 7 '-' "12e+.3,".toList = .error (.unexpectedCharacter 'e' 10) := by decide +kernel
    refine ⟨herror, fun hnumeral => ?_⟩
    obtain ⟨l, hl⟩ := hsome.mpr hnumeral
    rw [herror] at hl
    cases hl

end Lexeme

end RecordFilter
