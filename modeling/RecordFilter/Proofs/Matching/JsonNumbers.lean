import Mathlib
import RecordFilter.Proofs.Matching.OrderLaws
import RecordFilter.Proofs.Number.Nearest

/-!
# Json numbers — the numbers of a record are never told the wrong way round

A number of a record is an integer of 64 bits, a larger integer or a finite number. Only the larger integers are
rounded before they are compared, and rounding keeps the order. So a comparison says what the exact values say,
except that a larger integer is equal to what rounds to the same number; beside an integer of 64 bits nothing is
lost.

* `JsonNumber.value`: the exact value of a number.
* `JsonNumber.Seen`: the values as which numbers are compared.
* `JsonNumber.Blurred`: two numbers that rounding makes equal.
* `JsonNumber.Seen.lt_iff`, `JsonNumber.Seen.eq_iff`: the order of what is seen, by the exact values.
* `JsonNumber.compares_fields_iff`: what the comparing operators say of the numbers at two fields.
-/

namespace RecordFilter

open Number

namespace JsonNumber

/-- The exact value of a number. -/
def value : JsonNumber → ℚ
  | int i => i.toInt
  | large n _ => n.toNat
  | real x => x.value

/-- An integer of 64 bits with a sign. -/
def IsInt (a : JsonNumber) : Prop := ∃ i, a = int i

/-- An integer beyond those. -/
def IsLarge (a : JsonNumber) : Prop := ∃ n above, a = large n above

/-- Two numbers, neither an integer of 64 bits with a sign and one an integer beyond those, that round to the same
finite number. -/
structure Blurred (a b : JsonNumber) : Prop where
  left : ¬ a.IsInt
  right : ¬ b.IsInt
  large : a.IsLarge ∨ b.IsLarge
  rounded : ∃ x : Dyadic64, x.IsNearest a.value ∧ x.IsNearest b.value

theorem Blurred.symm {a b : JsonNumber} (h : Blurred a b) : Blurred b a :=
  let ⟨x, ha, hb⟩ := h.rounded
  ⟨h.right, h.left, h.large.symm, x, hb, ha⟩

/-- The value as which a number is compared: an integer of 64 bits as it is, any other number rounded. -/
inductive Seen : JsonNumber → ℚ → Prop
  | int (i : Int64) : Seen (int i) i.toInt
  | rounded {a : JsonNumber} {x : Dyadic64} (ha : ¬ a.IsInt) (h : x.IsNearest a.value) : Seen a x.value

variable {a b : JsonNumber} {r s : ℚ}

/-- **Numbers are compared as they are seen.** -/
theorem exists_seen (a : JsonNumber) : ∃ r : ℚ, Seen a r ∧ a.scalar.number? = some ((r : ℝ) : EReal) := by
  cases a with
  | int i => exact ⟨i.toInt, .int i, by simp [scalar, Scalar.number?]⟩
  | large n above =>
    obtain ⟨x, hx, hnearest⟩ := exists_ofNat n.toNat_lt
    refine ⟨x.value, .rounded (by simp [IsInt]) hnearest, ?_⟩
    rw [scalar, hx]
    rfl
  | real x => exact ⟨x.value, .rounded (by simp [IsInt]) x.isNearest_value, rfl⟩

/-! ## What is seen -/

theorem value_wordLimit : Dyadic64.wordLimit.value = 2 ^ 63 := by
  norm_num [Dyadic64.value, Dyadic64.wordLimit, leastFull]

theorem IsInt.value_lt (h : a.IsInt) : a.value < 2 ^ 63 := by
  obtain ⟨i, rfl⟩ := h
  have hi : i.toInt < 2 ^ 63 := i.toInt_lt
  rw [value]
  exact_mod_cast hi

theorem IsLarge.le_value (h : a.IsLarge) : 2 ^ 63 ≤ a.value := by
  obtain ⟨n, above, rfl⟩ := h
  rw [value]
  exact_mod_cast above

theorem IsLarge.not_isInt (h : a.IsLarge) : ¬ a.IsInt := by
  rintro ⟨i, rfl⟩
  obtain ⟨n, above, h⟩ := h
  cases h

namespace Seen

/-- A number is seen as it is, unless it is one of the larger integers; these stay beyond the others. -/
theorem eq_value_or (h : Seen a r) : r = a.value ∨ (a.IsLarge ∧ 2 ^ 63 ≤ r) := by
  cases h with
  | int i => exact .inl rfl
  | rounded ha hx =>
    cases a with
    | int i => exact absurd ⟨i, rfl⟩ ha
    | large n above =>
      have hlarge : (large n above).IsLarge := ⟨n, above, rfl⟩
      have hle := Dyadic64.wordLimit.isNearest_value.value_le hx (value_wordLimit ▸ hlarge.le_value)
      exact .inr ⟨hlarge, value_wordLimit ▸ hle⟩
    | real x => exact .inl (hx.value_eq x.isNearest_value)

theorem eq_value (h : Seen a r) (ha : ¬ a.IsLarge) : r = a.value :=
  h.eq_value_or.resolve_right fun hlarge => ha hlarge.1

/-- An integer of 64 bits is less than every larger one, and is seen so. -/
theorem lt_of_isInt_of_isLarge (ha : Seen a r) (hb : Seen b s) (hint : a.IsInt) (hlarge : b.IsLarge) :
    r < s ∧ a.value < b.value := by
  have hvalues : a.value < b.value := hint.value_lt.trans_le hlarge.le_value
  rw [ha.eq_value fun h => h.not_isInt hint]
  rcases hb.eq_value_or with rfl | ⟨-, hs⟩
  · exact ⟨hvalues, hvalues⟩
  · exact ⟨hint.value_lt.trans_le hs, hvalues⟩

/-- **What is seen is in order if the values are and rounding does not make them equal.** -/
theorem lt_iff (ha : Seen a r) (hb : Seen b s) : r < s ↔ a.value < b.value ∧ ¬ Blurred a b := by
  by_cases hlarge : a.IsLarge ∨ b.IsLarge
  · cases ha with
    | int i =>
      have hint : (JsonNumber.int i).IsInt := ⟨i, rfl⟩
      have hb' : b.IsLarge := hlarge.resolve_left fun h => h.not_isInt hint
      obtain ⟨hseen, hvalues⟩ := lt_of_isInt_of_isLarge (.int i) hb hint hb'
      exact ⟨fun _ => ⟨hvalues, fun h => h.left hint⟩, fun _ => hseen⟩
    | @rounded _ x ha hx =>
      cases hb with
      | int j =>
        have hint : (JsonNumber.int j).IsInt := ⟨j, rfl⟩
        have ha' : a.IsLarge := hlarge.resolve_right fun h => h.not_isInt hint
        obtain ⟨hseen, hvalues⟩ := lt_of_isInt_of_isLarge (.int j) (.rounded ha hx) hint ha'
        exact ⟨fun h => absurd h hseen.not_gt, fun h => absurd h.1 hvalues.not_gt⟩
      | @rounded _ y hb hy =>
        constructor
        · intro h
          refine ⟨lt_of_not_ge fun hle => h.not_ge (hy.value_le hx hle), fun hblurred => ?_⟩
          obtain ⟨z, hza, hzb⟩ := hblurred.rounded
          exact h.ne ((hx.value_eq hza).trans (hzb.value_eq hy))
        · rintro ⟨hvalues, hclear⟩
          refine lt_of_le_of_ne (hx.value_le hy hvalues.le) fun hsame => hclear ?_
          exact ⟨ha, hb, hlarge, x, hx, hy.of_value_eq hsame.symm⟩
  · rw [not_or] at hlarge
    rw [ha.eq_value hlarge.1, hb.eq_value hlarge.2]
    exact ⟨fun h => ⟨h, fun hblurred => not_or.mpr hlarge hblurred.large⟩, And.left⟩

/-- **What is seen is equal if the values are or rounding makes them equal.** -/
theorem eq_iff (ha : Seen a r) (hb : Seen b s) : r = s ↔ a.value = b.value ∨ Blurred a b := by
  have hlt := ha.lt_iff hb
  have hgt := hb.lt_iff ha
  constructor
  · rintro rfl
    by_contra hnone
    rw [not_or] at hnone
    rcases lt_or_gt_of_ne hnone.1 with h | h
    · exact lt_irrefl _ (hlt.mpr ⟨h, hnone.2⟩)
    · exact lt_irrefl _ (hgt.mpr ⟨h, fun hblurred => hnone.2 hblurred.symm⟩)
  · intro h
    refine le_antisymm (not_lt.mp fun hsr => ?_) (not_lt.mp fun hrs => ?_)
    · obtain ⟨hvalue, hclear⟩ := hgt.mp hsr
      exact h.elim hvalue.ne' fun hblurred => hclear hblurred.symm
    · obtain ⟨hvalue, hclear⟩ := hlt.mp hrs
      exact h.elim hvalue.ne hclear

end Seen

/-! ## The numbers at two fields -/

open Operand in
/-- **The numbers of a record are never told the wrong way round.** One is less than another if its exact value is,
or equal to it if the values are, except that two numbers are equal of which neither is an integer of 64 bits with a
sign, one is an integer beyond those, and both round to the same finite number. So a comparison is exact if either
of them is an integer of 64 bits. -/
theorem compares_fields_iff {record : Json} {p q : FieldPath} (ha : record.resolve? p = some (.number a))
    (hb : record.resolve? q = some (.number b)) :
    (Compares record (.field p) .lt (.field q) ↔ a.value < b.value ∧ ¬ Blurred a b) ∧
      (Compares record (.field p) .gt (.field q) ↔ b.value < a.value ∧ ¬ Blurred a b) ∧
      (Compares record (.field p) .eq (.field q) ↔ a.value = b.value ∨ Blurred a b) ∧
      (a.IsInt ∨ b.IsInt → ¬ Blurred a b) := by
  obtain ⟨r, hr, har⟩ := exists_seen a
  obtain ⟨s, hs, hbs⟩ := exists_seen b
  have horder : Scalar.compare? a.scalar b.scalar = some (compare r s) := by
    rw [Scalar.compare?_of_number har hbs, compare_strictMono strictMono_ereal]
  have hp : (Operand.field p).value? record = some a.scalar := by rw [value?, ha]; rfl
  have hq : (Operand.field q).value? record = some b.scalar := by rw [value?, hb]; rfl
  have hcompares {o : Operator} (ho : o.Comparing) :
      Compares record (.field p) o (.field q) ↔ o.relates a.scalar b.scalar = true := by
    rw [compares_iff rfl rfl ho, hp, hq]
    simp
  refine ⟨?_, ?_, ?_, ?_⟩
  · rw [hcompares ⟨rfl, rfl⟩, Scalar.relates_lt_iff, horder, Option.some_inj, compare_lt_iff_lt, hr.lt_iff hs]
  · rw [hcompares ⟨rfl, rfl⟩, Scalar.relates_gt_iff, horder, Option.some_inj, compare_gt_iff_gt, hs.lt_iff hr]
    exact and_congr_right' (not_congr ⟨Blurred.symm, Blurred.symm⟩)
  · rw [hcompares ⟨rfl, rfl⟩, Scalar.relates_eq_iff, horder, Option.some_inj, compare_eq_iff_eq, hr.eq_iff hs]
    refine or_iff_left ?_
    rintro ⟨c, hbool, -⟩
    rw [hbool] at har
    cases har
  · rintro (hint | hint) hblurred
    · exact hblurred.left hint
    · exact hblurred.right hint

open Operand in
/-- The integer after `2 ^ 63` is equal to `2 ^ 63`, to which it rounds; the greatest integer of 64 bits with a sign,
which would round there too, is less than either. -/
theorem compares_fields_iff_rounded :
    ∃ (m n k : FieldPath) (record : Json),
      record.resolve? m = some (.number (.int 9223372036854775807)) ∧
      record.resolve? n = some (.number (.large 9223372036854775809 (by decide))) ∧
      record.resolve? k = some (.number (.real Dyadic64.wordLimit)) ∧
      Compares record (.field n) .eq (.field k) ∧ ¬ Compares record (.field k) .lt (.field n) ∧
      Compares record (.field m) .lt (.field n) ∧ ¬ Compares record (.field m) .eq (.field k) := by
  let m : FieldPath := .ofKey "m" (by decide +kernel)
  let n : FieldPath := .ofKey "n" (by decide +kernel)
  let k : FieldPath := .ofKey "k" (by decide +kernel)
  let a : JsonNumber := .int 9223372036854775807
  let b : JsonNumber := .large 9223372036854775809 (by decide)
  let c : JsonNumber := .real Dyadic64.wordLimit
  let record : Json := .object [("m", .number a), ("n", .number b), ("k", .number c)]
  have ha : record.resolve? m = some (.number a) := rfl
  have hb : record.resolve? n = some (.number b) := rfl
  have hc : record.resolve? k = some (.number c) := rfl
  have hround : ofNat 9223372036854775809 = .finite Dyadic64.wordLimit := by decide +kernel
  have hblurred : Blurred b c := by
    obtain ⟨x, hx, hnearest⟩ := exists_ofNat (n := 9223372036854775809) (by decide)
    cases hround.symm.trans hx
    exact ⟨by simp [IsInt, b], by simp [IsInt, c], .inl ⟨_, _, rfl⟩, _, hnearest, Dyadic64.isNearest_value _⟩
  have hint : a.IsInt := ⟨_, rfl⟩
  have hlt : a.value < b.value := hint.value_lt.trans_le (IsLarge.le_value ⟨_, _, rfl⟩)
  have hlt' : a.value < c.value := hint.value_lt.trans_eq value_wordLimit.symm
  obtain ⟨-, -, hbc, -⟩ := compares_fields_iff hb hc
  obtain ⟨hcb, -, -, -⟩ := compares_fields_iff hc hb
  obtain ⟨hab, -, -, hexact⟩ := compares_fields_iff ha hb
  obtain ⟨-, -, hac, hexact'⟩ := compares_fields_iff ha hc
  refine ⟨m, n, k, record, ha, hb, hc, hbc.mpr (.inr hblurred), fun h => (hcb.mp h).2 hblurred.symm,
    hab.mpr ⟨hlt, hexact (.inl hint)⟩, fun h => ?_⟩
  exact (hac.mp h).elim hlt'.ne (hexact' (.inl hint))

end JsonNumber

end RecordFilter
