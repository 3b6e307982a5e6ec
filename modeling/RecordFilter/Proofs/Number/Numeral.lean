import Mathlib
import RecordFilter.Number.Layout
import RecordFilter.Text.Delimited

/-!
# Numeral — a numeral is split off a text as it was written

* `digitsValue_naturalChars`, `naturalChars_digitsValue`: the digits of a natural number have its
  value, and digits without a leading zero are the digits of their value.
* `Numeral.WellFormed`: the numerals that the form allows.
* `Numeral.split?_chars`: such a numeral, before anything that cannot belong to it, is split off whole.
* `Numeral.of_split?`: nothing but such a numeral is split off.
* `Numeral.ofInt`, `int64?_toInt`: integers as numerals, and their way back.
-/

namespace RecordFilter.Number

open Text

/-! ## Digits -/

theorem digitsValueFrom_eq (n : Nat) (ds : List Char) :
    digitsValueFrom n ds = Nat.ofDigitChars 10 ds n := rfl

theorem digitsValue_append (ds es : List Char) :
    digitsValue (ds ++ es) = digitsValueFrom (digitsValue ds) es := by
  simp [digitsValue, digitsValueFrom]

theorem digitsValueFrom_zeros (n k : Nat) :
    digitsValueFrom n (List.replicate k '0') = n * 10 ^ k := by
  rw [digitsValueFrom_eq, Nat.ofDigitChars_replicate_zero, Nat.mul_comm]

@[simp] theorem digitsValue_naturalChars (n : Nat) : digitsValue (naturalChars n) = n :=
  Nat.ofDigitChars_ten_toDigits

theorem isDigit_of_mem_naturalChars {n : Nat} {c : Char} (h : c ∈ naturalChars n) :
    c.isDigit = true :=
  Nat.isDigit_of_mem_toDigits (by norm_num) (by norm_num) h

@[simp] theorem naturalChars_ne_nil (n : Nat) : naturalChars n ≠ [] := Nat.toDigits_ne_nil

theorem toNat_of_isDigit {c : Char} (h : c.isDigit = true) : 0x30 ≤ c.toNat ∧ c.toNat ≤ 0x39 := by
  simpa [Char.isDigit, UInt32.le_iff_toNat_le] using h

theorem digitValue_lt_and_digitChar {c : Char} (h : c.isDigit = true) :
    digitValue c < 10 ∧ Nat.digitChar (digitValue c) = c := by
  have hrange := toNat_of_isDigit h
  have hall : ∀ k < 10, Nat.digitChar k = Char.ofNat (0x30 + k) := by decide
  have hvalue : 0x30 + digitValue c = c.toNat := by
    unfold digitValue
    have h0 : '0'.toNat = 0x30 := rfl
    omega
  refine ⟨by omega, ?_⟩
  rw [hall _ (by omega), hvalue, Char.ofNat_toNat]

theorem naturalChars_digitValue {c : Char} (h : c.isDigit = true) :
    naturalChars (digitValue c) = [c] := by
  obtain ⟨hlt, hchar⟩ := digitValue_lt_and_digitChar h
  unfold naturalChars
  rw [Nat.toDigits_of_lt_base hlt, hchar]

theorem digitsValue_concat (ds : List Char) (d : Char) :
    digitsValue (ds ++ [d]) = 10 * digitsValue ds + digitValue d := by
  simp [digitsValue, digitsValueFrom]

/-- Digits that begin with no zero are the digits of their value. -/
theorem naturalChars_digitsValue {c : Char} {ds : List Char} (hc : c ≠ '0')
    (h : ∀ d ∈ c :: ds, d.isDigit = true) :
    0 < digitsValue (c :: ds) ∧ naturalChars (digitsValue (c :: ds)) = c :: ds := by
  induction ds using List.reverseRecOn with
  | nil =>
    have hdigit := h c (by simp)
    have hvalue : digitsValue [c] = digitValue c := by simp [digitsValue, digitsValueFrom]
    obtain ⟨hlt, hchar⟩ := digitValue_lt_and_digitChar hdigit
    rw [hvalue]
    refine ⟨Nat.pos_of_ne_zero fun h0 => hc ?_, naturalChars_digitValue hdigit⟩
    rw [← hchar, h0]
    rfl
  | append_singleton ds d ih =>
    rw [← List.cons_append, List.forall_mem_append, List.forall_mem_singleton] at h
    obtain ⟨hds, hd⟩ := h
    obtain ⟨hpos, hchars⟩ := ih hds
    have hlast := naturalChars_digitValue hd
    rw [← List.cons_append, digitsValue_concat]
    refine ⟨by omega, ?_⟩
    unfold naturalChars at hchars hlast ⊢
    rw [← Nat.toDigits_append_toDigits (by norm_num) hpos (digitValue_lt_and_digitChar hd).1, hchars,
      hlast]

/-- The text does not begin with a digit. -/
def NoDigit (s : List Char) : Prop := ∀ c ∈ s.head?, c.isDigit = false

theorem takeWhile_stop {p : Char → Bool} {ds s : List Char} (hd : ∀ c ∈ ds, p c = true)
    (hs : ∀ c ∈ s.head?, p c = false) : (ds ++ s).takeWhile p = ds := by
  rw [List.takeWhile_append_of_pos hd]
  cases s with
  | nil => simp
  | cons c s => rw [List.takeWhile_cons_of_neg (by simp [hs c (by simp)]), List.append_nil]

theorem dropWhile_stop {p : Char → Bool} {ds s : List Char} (hd : ∀ c ∈ ds, p c = true)
    (hs : ∀ c ∈ s.head?, p c = false) : (ds ++ s).dropWhile p = s := by
  rw [List.dropWhile_append_of_pos hd]
  cases s with
  | nil => rfl
  | cons c s => rw [List.dropWhile_cons_of_neg (by simp [hs c (by simp)])]

/-! ## Numerals -/

/-- A non-empty row of digits. -/
def IsDigits (ds : List Char) : Prop := ds ≠ [] ∧ ∀ c ∈ ds, c.isDigit = true

theorem isDigits_naturalChars (n : Nat) : IsDigits (naturalChars n) :=
  ⟨naturalChars_ne_nil n, fun _ => isDigit_of_mem_naturalChars⟩

/-- The mark, the sign and the digits of an exponent. -/
def Exponent.WellFormed (e : Exponent) : Prop :=
  (e.mark = 'e' ∨ e.mark = 'E') ∧ (∀ c ∈ e.sign, c = '+' ∨ c = '-') ∧ IsDigits e.digits

/-- Each part that is written has the form that splitting looks for. -/
def Numeral.WellFormed (n : Numeral) : Prop :=
  IsDigits n.whole ∧ (∀ ds ∈ n.fraction, IsDigits ds) ∧ ∀ e ∈ n.exponent, e.WellFormed

theorem isDigits_takeWhile {s : List Char} (hne : s.takeWhile Char.isDigit ≠ []) :
    IsDigits (s.takeWhile Char.isDigit) :=
  ⟨hne, fun _ => List.mem_takeWhile_imp⟩

theorem sign_of_splitSign {s rest : List Char} {sign : Option Char}
    (h : splitSign s = (sign, rest)) :
    (∀ c ∈ sign, c = '+' ∨ c = '-') ∧ sign.toList ++ rest = s := by
  unfold splitSign at h
  split at h <;> cases h <;> simp

/-- The text does not begin with a character that a numeral could go on with. -/
def EndsNumeral (s : List Char) : Prop :=
  ∀ c ∈ s.head?, c.isDigit = false ∧ c ≠ '.' ∧ c ≠ 'e' ∧ c ≠ 'E'

theorem endsNumeral_of_endsLiteral {s : List Char} (h : endsLiteral s = true) : EndsNumeral s := by
  cases s with
  | nil => simp [EndsNumeral]
  | cons c s =>
    simp only [endsLiteral, isDelimiter, isSpace, Bool.or_eq_true, beq_iff_eq] at h
    intro d hd
    obtain rfl : c = d := by simpa using hd
    rcases h with ((((((h | h) | h) | h) | h) | h) | h) | h <;> subst h <;> decide

theorem splitSign_chars {sign : Option Char} {ds : List Char}
    (hs : ∀ c ∈ sign, c = '+' ∨ c = '-') (hd : IsDigits ds) (rest : List Char) :
    splitSign (sign.toList ++ (ds ++ rest)) = (sign, ds ++ rest) := by
  cases sign with
  | some c => rcases hs c rfl with rfl | rfl <;> rfl
  | none =>
    obtain ⟨hne, hall⟩ := hd
    obtain ⟨c, ds, rfl⟩ := List.exists_cons_of_ne_nil hne
    have hc := hall c (by simp)
    simp only [Option.toList_none, List.nil_append, List.cons_append]
    unfold splitSign
    split
    · next h => exact absurd hc (by simp [(List.cons_eq_cons.mp h).1])
    · next h => exact absurd hc (by simp [(List.cons_eq_cons.mp h).1])
    · rfl

theorem splitExponent_chars {e : Exponent} (he : e.WellFormed) {rest : List Char}
    (hr : NoDigit rest) : splitExponent (e.chars ++ rest) = (some e, rest) := by
  obtain ⟨mark, sign, digits⟩ := e
  obtain ⟨hmark, hsign, hdigits⟩ := he
  have hm : (mark == 'e' || mark == 'E') = true := by simpa using hmark
  have hchars : Exponent.chars ⟨mark, sign, digits⟩ ++ rest = mark :: (sign.toList ++ (digits ++ rest)) := by
    simp [Exponent.chars]
  obtain ⟨c, ds, rfl⟩ := List.exists_cons_of_ne_nil hdigits.1
  rw [hchars]
  simp only [splitExponent, hm, if_true, splitSign_chars hsign hdigits,
    takeWhile_stop hdigits.2 hr, dropWhile_stop hdigits.2 hr]

theorem splitExponent_of_ends {s : List Char} (h : EndsNumeral s) : splitExponent s = (none, s) := by
  cases s with
  | nil => rfl
  | cons c s =>
    obtain ⟨-, -, h1, h2⟩ := h c rfl
    simp [splitExponent, h1, h2]

theorem splitFraction_none {s : List Char} (h : s.head? ≠ some '.') : splitFraction s = (none, s) := by
  unfold splitFraction
  split
  · exact absurd rfl h
  · rfl

theorem splitFraction_chars {ds : List Char} (hd : IsDigits ds) {rest : List Char}
    (hr : NoDigit rest) : splitFraction ('.' :: (ds ++ rest)) = (some ds, rest) := by
  obtain ⟨c, ds, rfl⟩ := List.exists_cons_of_ne_nil hd.1
  simp only [splitFraction, takeWhile_stop hd.2 hr, dropWhile_stop hd.2 hr]

namespace Numeral

/-- The exponent of a numeral as written, if there is one. -/
def exponentChars (n : Numeral) : List Char :=
  match n.exponent with | some e => e.chars | none => []

/-- The fraction of a numeral as written, if there is one. -/
def fractionChars (n : Numeral) : List Char :=
  match n.fraction with | some ds => '.' :: ds | none => []

theorem splitExponent_exponentChars {n : Numeral} (hn : n.WellFormed) {rest : List Char}
    (hr : EndsNumeral rest) : splitExponent (n.exponentChars ++ rest) = (n.exponent, rest) := by
  unfold exponentChars
  cases he : n.exponent with
  | none => exact splitExponent_of_ends hr
  | some e => exact splitExponent_chars (hn.2.2 e he) fun c hc => (hr c hc).1

/-- What stands after the digits of a fraction, an exponent or the end, begins with no digit. -/
theorem noDigit_exponentChars {n : Numeral} (hn : n.WellFormed) {rest : List Char}
    (hr : EndsNumeral rest) : NoDigit (n.exponentChars ++ rest) := by
  unfold exponentChars
  cases he : n.exponent with
  | none => exact fun c hc => (hr c hc).1
  | some e =>
    intro c hc
    obtain rfl : e.mark = c := by simpa [Exponent.chars] using hc
    rcases (hn.2.2 e he).1 with h | h <;> rw [h] <;> decide

theorem head?_exponentChars_ne {n : Numeral} (hn : n.WellFormed) {rest : List Char}
    (hr : EndsNumeral rest) : (n.exponentChars ++ rest).head? ≠ some '.' := by
  unfold exponentChars
  cases he : n.exponent with
  | none => exact fun h => (hr '.' h).2.1 rfl
  | some e =>
    have hmark := (hn.2.2 e he).1
    rintro h
    obtain hd : e.mark = '.' := by simpa [Exponent.chars] using h
    rw [hd] at hmark
    exact absurd hmark (by decide)

theorem splitFraction_fractionChars {n : Numeral} (hn : n.WellFormed) {rest : List Char}
    (hr : EndsNumeral rest) :
    splitFraction (n.fractionChars ++ (n.exponentChars ++ rest)) =
      (n.fraction, n.exponentChars ++ rest) := by
  unfold fractionChars
  cases hf : n.fraction with
  | none => exact splitFraction_none (head?_exponentChars_ne hn hr)
  | some ds => exact splitFraction_chars (hn.2.1 ds hf) (noDigit_exponentChars hn hr)

theorem noDigit_fractionChars {n : Numeral} (hn : n.WellFormed) {rest : List Char}
    (hr : EndsNumeral rest) : NoDigit (n.fractionChars ++ (n.exponentChars ++ rest)) := by
  unfold fractionChars
  cases n.fraction with
  | none => exact noDigit_exponentChars hn hr
  | some ds =>
    intro c hc
    obtain rfl : '.' = c := by simpa using hc
    decide

theorem splitUnsigned?_chars {n : Numeral} (hn : n.WellFormed) {rest : List Char}
    (hr : EndsNumeral rest) :
    splitUnsigned? n.negative (n.whole ++ (n.fractionChars ++ (n.exponentChars ++ rest))) =
      some (n, rest) := by
  have hnd := noDigit_fractionChars hn hr
  unfold splitUnsigned?
  rw [takeWhile_stop hn.1.2 hnd, dropWhile_stop hn.1.2 hnd]
  split
  · next h => exact absurd h hn.1.1
  · simp only [splitFraction_fractionChars hn hr, splitExponent_exponentChars hn hr]

/-- A numeral in front of a rest, part by part. -/
theorem chars_append (n : Numeral) (rest : List Char) :
    n.chars ++ rest = (if n.negative then ['-'] else []) ++
      (n.whole ++ (n.fractionChars ++ (n.exponentChars ++ rest))) := by
  have hparts : n.chars =
      (if n.negative then ['-'] else []) ++ n.whole ++ n.fractionChars ++ n.exponentChars := rfl
  rw [hparts]
  simp only [List.append_assoc]

/-- The sign of a numeral decides how its text is split. -/
theorem split?_append {n : Numeral} (hn : n.WellFormed) (t : List Char) :
    split? (n.chars ++ t) = splitUnsigned? n.negative (n.whole ++ (n.fractionChars ++ (n.exponentChars ++ t))) := by
  rw [chars_append]
  cases hneg : n.negative with
  | true => rfl
  | false =>
    obtain ⟨c, ds, hw⟩ := List.exists_cons_of_ne_nil hn.1.1
    have hc : c.isDigit = true := hn.1.2 c (by rw [hw]; simp)
    rw [hw, if_neg Bool.false_ne_true, List.nil_append, List.cons_append]
    unfold split?
    split
    · next h => exact absurd hc (by simp [(List.cons_eq_cons.mp h).1])
    · rfl

/-- **A numeral before anything that cannot belong to it is split off whole.** -/
theorem split?_chars {n : Numeral} (hn : n.WellFormed) {rest : List Char} (hr : EndsNumeral rest) :
    split? (n.chars ++ rest) = some (n, rest) := by
  rw [split?_append hn, splitUnsigned?_chars hn hr]

theorem chars_ne_nil {n : Numeral} (hn : n.WellFormed) : n.chars ≠ [] := by
  obtain ⟨c, ds, hw⟩ := List.exists_cons_of_ne_nil hn.1.1
  simp [chars, hw]

/-- A numeral begins with a minus sign or a digit. -/
theorem head?_chars {n : Numeral} (hn : n.WellFormed) :
    ∃ c ∈ n.chars.head?, c = '-' ∨ c.isDigit = true := by
  obtain ⟨c, ds, hw⟩ := List.exists_cons_of_ne_nil hn.1.1
  have hc : c.isDigit = true := hn.1.2 c (by rw [hw]; simp)
  cases hneg : n.negative with
  | true => exact ⟨'-', by simp [chars, hneg], Or.inl rfl⟩
  | false => exact ⟨c, by simp [chars, hneg, hw], Or.inr hc⟩

/-! ## What is split off -/

theorem fraction_of_splitFraction {n : Numeral} {s rest : List Char}
    (h : splitFraction s = (n.fraction, rest)) :
    (∀ ds ∈ n.fraction, IsDigits ds) ∧ n.fractionChars ++ rest = s := by
  unfold fractionChars
  unfold splitFraction at h
  split at h
  · next after =>
    split at h
    · obtain ⟨hf, rfl⟩ := Prod.mk.inj h
      rw [← hf]
      simp
    · next hne =>
      obtain ⟨hf, rfl⟩ := Prod.mk.inj h
      rw [← hf]
      refine ⟨?_, ?_⟩
      · rintro _ ⟨⟩
        exact isDigits_takeWhile hne
      · rw [List.cons_append, List.takeWhile_append_dropWhile]
  · obtain ⟨hf, rfl⟩ := Prod.mk.inj h
    rw [← hf]
    simp

theorem exponent_of_splitExponent {n : Numeral} {s rest : List Char}
    (h : splitExponent s = (n.exponent, rest)) :
    (∀ e ∈ n.exponent, e.WellFormed) ∧ n.exponentChars ++ rest = s := by
  unfold exponentChars
  unfold splitExponent at h
  split at h
  · next c after =>
    split at h
    · next hmark =>
      obtain ⟨hsign, hafter⟩ := sign_of_splitSign (Prod.mk.eta (p := splitSign after)).symm
      dsimp only at h
      split at h
      · obtain ⟨he, rfl⟩ := Prod.mk.inj h
        rw [← he]
        simp
      · next hne =>
        obtain ⟨he, rfl⟩ := Prod.mk.inj h
        rw [← he]
        refine ⟨?_, ?_⟩
        · rintro _ ⟨⟩
          exact ⟨by simpa using hmark, hsign, isDigits_takeWhile hne⟩
        · simp [Exponent.chars, hafter]
    · obtain ⟨he, rfl⟩ := Prod.mk.inj h
      rw [← he]
      simp
  · obtain ⟨he, rfl⟩ := Prod.mk.inj h
    rw [← he]
    simp

theorem of_splitUnsigned? {negative : Bool} {n : Numeral} {s rest : List Char}
    (h : splitUnsigned? negative s = some (n, rest)) :
    n.WellFormed ∧ n.chars ++ rest = (if negative then ['-'] else []) ++ s := by
  rcases hfraction : splitFraction (s.dropWhile Char.isDigit) with ⟨fraction, afterFraction⟩
  rcases hexponent : splitExponent afterFraction with ⟨exponent, afterExponent⟩
  unfold splitUnsigned? at h
  split at h
  · cases h
  · next hne =>
    simp only [hfraction, hexponent, Option.some.injEq, Prod.mk.injEq] at h
    obtain ⟨rfl, rfl⟩ := h
    obtain ⟨hf, hfchars⟩ := fraction_of_splitFraction
      (n := ⟨negative, s.takeWhile Char.isDigit, fraction, exponent⟩) hfraction
    obtain ⟨he, hechars⟩ := exponent_of_splitExponent
      (n := ⟨negative, s.takeWhile Char.isDigit, fraction, exponent⟩) hexponent
    refine ⟨⟨isDigits_takeWhile hne, hf, he⟩, ?_⟩
    rw [chars_append, hechars, hfchars, List.takeWhile_append_dropWhile]

/-- **What is split off is a numeral, and the text is the numeral and the rest.** -/
theorem of_split? {n : Numeral} {s rest : List Char} (h : split? s = some (n, rest)) :
    n.WellFormed ∧ n.chars ++ rest = s := by
  unfold split? at h
  split at h <;> exact of_splitUnsigned? h

/-- A digit begins a numeral. -/
theorem split?_ne_none {c : Char} (hc : c.isDigit = true) (s : List Char) : split? (c :: s) ≠ none := by
  have htake : (c :: s).takeWhile Char.isDigit = c :: s.takeWhile Char.isDigit :=
    List.takeWhile_cons_of_pos hc
  unfold split?
  split
  · next heq =>
    cases heq
    exact absurd hc (by decide)
  · unfold splitUnsigned?
    rw [htake]
    simp

/-! ## Integers -/

/-- The numeral of an integer. -/
def ofInt (i : Int) : Numeral := ⟨decide (i < 0), naturalChars i.natAbs, none, none⟩

theorem ofInt_wellFormed (i : Int) : (ofInt i).WellFormed :=
  ⟨isDigits_naturalChars _, by simp [ofInt], by simp [ofInt]⟩

theorem chars_ofInt (i : Int) : (ofInt i).chars = integerChars i := by
  unfold chars ofInt integerChars
  by_cases h : i < 0 <;> simp [h]

theorem isWhole_ofInt (i : Int) : (ofInt i).isWhole = true := rfl

theorem integerValue_ofInt (i : Int) : (ofInt i).integerValue = i := by
  unfold integerValue ofInt
  by_cases h : i < 0
  · simp only [h, decide_true, if_true, digitsValue_naturalChars]
    omega
  · simp only [h, decide_false, Bool.false_eq_true, if_false, digitsValue_naturalChars]
    omega

end Numeral

/-- An integer of 64 bits is read back as itself. -/
theorem int64?_toInt (i : Int64) : int64? i.toInt = some i := by
  have h1 := i.le_toInt
  have h2 := i.toInt_lt
  have hr : -0x8000000000000000 ≤ i.toInt ∧ i.toInt < 0x8000000000000000 := by omega
  rw [int64?, if_pos hr, Int64.ofInt_toInt]

end RecordFilter.Number
