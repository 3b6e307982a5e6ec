import Mathlib
import RecordFilter.Proofs.Number.Numeral

/-!
# Longest numerals — what is split off a text is the longest numeral that begins it

A fraction or an exponent that is begun and not finished is left in the rest. The rest is none the less the shortest
that any numeral at the start of the text leaves: whatever numeral begins the text, reading it part by part gets at
least as far.

* `Numeral.IsText`, `Numeral.LongestOf`: the texts of numerals, and the longest one that begins a text.
* `Numeral.length_rest_le`: a numeral that begins a text leaves no shorter rest than splitting does.
* `Numeral.longestOf_of_split?`: so the longest numeral is split off.
* `Numeral.eq_of_chars_eq`, `Numeral.not_isDelimiter_of_mem_chars`: a text is that of one numeral, and holds no
  delimiter.
-/

namespace RecordFilter.Number

open Text

/-! ## How far the parts reach -/

theorem length_splitExponent_le (s : List Char) : (splitExponent s).2.length ≤ s.length := by
  have hsplit : splitExponent s = ((splitExponent s).1, (splitExponent s).2) := rfl
  obtain ⟨-, hchars⟩ := Numeral.exponent_of_splitExponent (n := ⟨false, [], none, (splitExponent s).1⟩) hsplit
  have hlength := congrArg List.length hchars
  rw [List.length_append] at hlength
  omega

theorem length_splitFraction_le (s : List Char) : (splitFraction s).2.length ≤ s.length := by
  have hsplit : splitFraction s = ((splitFraction s).1, (splitFraction s).2) := rfl
  obtain ⟨-, hchars⟩ := Numeral.fraction_of_splitFraction (n := ⟨false, [], (splitFraction s).1, none⟩) hsplit
  have hlength := congrArg List.length hchars
  rw [List.length_append] at hlength
  omega

/-- Digits that follow a row of digits belong to it. -/
theorem IsDigits.append_takeWhile {ds : List Char} (h : IsDigits ds) (t : List Char) :
    IsDigits (ds ++ t.takeWhile Char.isDigit) :=
  ⟨fun hnil => h.1 (List.append_eq_nil_iff.mp hnil).1,
    List.forall_mem_append.mpr ⟨h.2, fun _ => List.mem_takeWhile_imp⟩⟩

theorem noDigit_dropWhile (t : List Char) : NoDigit (t.dropWhile Char.isDigit) := by
  intro c hc
  have hstop := List.head?_dropWhile_not Char.isDigit t
  rw [Option.mem_def.mp hc] at hstop
  simpa using hstop

theorem length_splitExponent_chars {e : Exponent} (he : e.WellFormed) (t : List Char) :
    (splitExponent (e.chars ++ t)).2.length ≤ t.length := by
  -- the digits that follow make the exponent longer
  let more : Exponent := { e with digits := e.digits ++ t.takeWhile Char.isDigit }
  have hmore : more.WellFormed := ⟨he.1, he.2.1, he.2.2.append_takeWhile t⟩
  have hchars : e.chars ++ t = more.chars ++ t.dropWhile Char.isDigit := by
    simp [Exponent.chars, more, List.takeWhile_append_dropWhile]
  rw [hchars, splitExponent_chars hmore (noDigit_dropWhile t)]
  exact (List.dropWhile_sublist _).length_le

theorem length_splitFraction_chars {ds : List Char} (hd : IsDigits ds) (t : List Char) :
    (splitFraction ('.' :: (ds ++ t))).2.length ≤ t.length := by
  have hchars : ds ++ t = (ds ++ t.takeWhile Char.isDigit) ++ t.dropWhile Char.isDigit := by
    rw [List.append_assoc, List.takeWhile_append_dropWhile]
  rw [hchars, splitFraction_chars (hd.append_takeWhile t) (noDigit_dropWhile t)]
  exact (List.dropWhile_sublist _).length_le

namespace Numeral

/-! ## Numerals that begin a text -/

/-- A text of the form of a numeral: perhaps a minus sign, digits, perhaps a point with digits, perhaps an exponent. -/
def IsText (w : List Char) : Prop := ∃ n : Numeral, n.WellFormed ∧ n.chars = w

/-- The longest numeral that begins a text. -/
structure LongestOf (s p : List Char) : Prop where
  isText : IsText p
  begins : p <+: s
  longest : ∀ q, IsText q → q <+: s → q.length ≤ p.length

theorem rest_of_splitUnsigned? {negative : Bool} {s rest : List Char} {n : Numeral}
    (h : splitUnsigned? negative s = some (n, rest)) :
    rest = (splitExponent (splitFraction (s.dropWhile Char.isDigit)).2).2 := by
  unfold splitUnsigned? at h
  split at h
  · cases h
  · cases h
    rfl

theorem length_splitExponent_exponentChars {m : Numeral} (hm : m.WellFormed) (t : List Char) :
    (splitExponent (m.exponentChars ++ t)).2.length ≤ t.length := by
  unfold exponentChars
  cases he : m.exponent with
  | none => exact length_splitExponent_le t
  | some e => exact length_splitExponent_chars (hm.2.2 e he) t

/-- **A numeral that begins a text leaves no shorter rest than splitting does.** -/
theorem length_rest_le {m n : Numeral} {t rest : List Char} (hm : m.WellFormed)
    (h : split? (m.chars ++ t) = some (n, rest)) : rest.length ≤ t.length := by
  rw [split?_append hm] at h
  rw [rest_of_splitUnsigned? h, List.dropWhile_append_of_pos hm.1.2]
  have hexponent := length_splitExponent_exponentChars hm t
  have hstop {s : List Char} (hs : NoDigit s) : s.dropWhile Char.isDigit = s := by
    rw [← List.nil_append s]
    exact dropWhile_stop (by simp) hs
  have hpoint (s : List Char) : NoDigit ('.' :: s) := by
    intro c hc
    obtain rfl : '.' = c := by simpa using hc
    decide
  have hdrop : (t.dropWhile Char.isDigit).length ≤ t.length := (List.dropWhile_sublist _).length_le
  unfold fractionChars
  unfold exponentChars at hexponent ⊢
  cases he : m.exponent with
  | none =>
    -- nothing follows that has to stop the part before it, so that part may grow into the rest
    have hrest (s : List Char) := length_splitExponent_le s
    cases hf : m.fraction with
    | none => exact (hrest _).trans ((length_splitFraction_le _).trans hdrop)
    | some ds =>
      rw [List.cons_append, hstop (hpoint _)]
      exact (hrest _).trans (length_splitFraction_chars (hm.2.1 ds hf) _)
  | some e =>
    rw [he] at hexponent
    have hmark := (hm.2.2 e he).1
    have hhead : (e.chars ++ t).head? = some e.mark := rfl
    have hnodigit : NoDigit (e.chars ++ t) := by
      intro c hc
      obtain rfl : e.mark = c := by simpa [hhead] using hc
      rcases hmark with h | h <;> rw [h] <;> decide
    have hnopoint : (e.chars ++ t).head? ≠ some '.' := by
      rw [hhead]
      rcases hmark with h | h <;> rw [h] <;> decide
    cases hf : m.fraction with
    | none =>
      rw [List.nil_append, hstop hnodigit, splitFraction_none hnopoint]
      exact hexponent
    | some ds =>
      rw [List.cons_append, hstop (hpoint _), splitFraction_chars (hm.2.1 ds hf) hnodigit]
      exact hexponent

/-- **What is split off is the longest numeral that begins the text.** -/
theorem longestOf_of_split? {s rest : List Char} {n : Numeral} (h : split? s = some (n, rest)) :
    LongestOf s n.chars := by
  obtain ⟨hwell, hs⟩ := of_split? h
  refine ⟨⟨n, hwell, rfl⟩, ⟨rest, hs⟩, ?_⟩
  rintro _ ⟨m, hm, rfl⟩ ⟨t, ht⟩
  have hle := length_rest_le hm (ht.symm ▸ h)
  have hlength := congrArg List.length (hs.trans ht.symm)
  rw [List.length_append, List.length_append] at hlength
  omega

/-! ## One numeral for a text -/

theorem eq_of_chars_eq {m n : Numeral} (hm : m.WellFormed) (hn : n.WellFormed) (h : m.chars = n.chars) : m = n := by
  have hends : EndsNumeral [] := by simp [EndsNumeral]
  have hsplit := split?_chars hm hends
  rw [h, split?_chars hn hends] at hsplit
  exact (Prod.mk.inj (Option.some.inj hsplit)).1.symm

theorem digit_of_isText_minus {s : List Char} (h : IsText ('-' :: s)) : ∃ d ∈ s.head?, d.isDigit = true := by
  obtain ⟨n, hn, hchars⟩ := h
  obtain ⟨c, ds, hw⟩ := List.exists_cons_of_ne_nil hn.1.1
  have hc : c.isDigit = true := hn.1.2 c (by rw [hw]; simp)
  have hparts := chars_append n []
  rw [List.append_nil, hchars, hw] at hparts
  cases hneg : n.negative with
  | true =>
    rw [hneg] at hparts
    exact ⟨c, by simp [(List.cons_eq_cons.mp hparts).2], hc⟩
  | false =>
    rw [hneg] at hparts
    have hminus : '-' = c := (List.cons_eq_cons.mp hparts).1
    exact absurd hc (by rw [← hminus]; decide)

/-- The characters of numerals. -/
theorem cases_of_mem_chars {n : Numeral} (hn : n.WellFormed) {c : Char} (hc : c ∈ n.chars) :
    c.isDigit = true ∨ c ∈ ['-', '+', '.', 'e', 'E'] := by
  have hparts := chars_append n []
  rw [List.append_nil] at hparts
  rw [hparts, List.mem_append, List.mem_append, List.mem_append, List.append_nil] at hc
  rcases hc with hc | hc | hc | hc
  · split at hc
    · exact .inr (List.mem_cons.mpr (.inl (List.mem_singleton.mp hc)))
    · cases hc
  · exact .inl (hn.1.2 c hc)
  · unfold fractionChars at hc
    split at hc
    · next ds hf =>
      rcases List.mem_cons.mp hc with rfl | hc
      · exact .inr (by simp)
      · exact .inl ((hn.2.1 ds hf).2 c hc)
    · cases hc
  · unfold exponentChars at hc
    split at hc
    · next e he =>
      obtain ⟨hmark, hsign, hdigits⟩ := hn.2.2 e he
      rw [Exponent.chars, List.mem_append, List.mem_cons, Option.mem_toList] at hc
      rcases hc with (rfl | hc) | hc
      · rcases hmark with h | h <;> exact .inr (by simp [h])
      · rcases hsign c hc with h | h <;> exact .inr (by simp [h])
      · exact .inl (hdigits.2 c hc)
    · cases hc

theorem not_isDelimiter_of_mem_chars {n : Numeral} (hn : n.WellFormed) {c : Char} (hc : c ∈ n.chars) :
    isDelimiter c = false := by
  rcases cases_of_mem_chars hn hc with hdigit | hmark
  · by_contra hdelimiter
    simp only [isDelimiter, isSpace, Bool.not_eq_false, Bool.or_eq_true, beq_iff_eq] at hdelimiter
    rcases hdelimiter with ((((((rfl | rfl) | rfl) | rfl) | rfl) | rfl) | rfl) | rfl <;> exact absurd hdigit (by decide)
  · simp only [List.mem_cons, List.not_mem_nil, or_false] at hmark
    rcases hmark with rfl | rfl | rfl | rfl | rfl <;> decide

end Numeral

end RecordFilter.Number
