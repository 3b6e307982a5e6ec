import Mathlib
import RecordFilter.Filter.FieldPath
import RecordFilter.Proofs.Number.Numeral

/-!
# FieldPath — the text of a path spells the path

* `Segment.ofName_name`: a segment is what its name reads as.
* `FieldPath.ofKey`: the path of a single name.
* `FieldPath.unescape_escape`, `FieldPath.pieces_escape`: escaped names are cut and read back.
* `FieldPath.parse_chars`: the text of a path spells the path.
* `FieldPath.breaksPath_of_mem_chars`: no character of the text ends the path early.
-/

namespace RecordFilter

open Number Text

/-! ## Names -/

theorem breaksPath_of_isDigit {c : Char} (h : c.isDigit = true) : breaksPath c = false := by
  cases hb : breaksPath c with
  | false => rfl
  | true =>
    simp only [breaksPath, isSpace, Bool.or_eq_true, beq_iff_eq] at hb
    rcases hb with (((((hb | hb) | hb) | hb) | hb) | hb) | hb <;> subst hb <;> exact absurd h (by decide)

/-- The digits of a positive number begin with no zero. -/
theorem Number.head?_naturalChars_ne_zero {n : Nat} (hn : n ≠ 0) :
    (naturalChars n).head? ≠ some '0' := by
  unfold naturalChars
  induction n using Nat.strong_induction_on with
  | _ n ih =>
    rw [Nat.toDigits_eq_if (by norm_num)]
    split
    · next hlt =>
      have hdigit : ∀ d < 10, d ≠ 0 → Nat.digitChar d ≠ '0' := by decide
      simpa using hdigit n hlt hn
    · next hge =>
      rw [List.head?_append_of_ne_nil _ Nat.toDigits_ne_nil]
      exact ih (n / 10) (by omega) (by omega)

namespace Segment

theorem isPosition_naturalChars (n : Nat) : isPosition (naturalChars n) = true := by
  have hall : (naturalChars n).all Char.isDigit = true :=
    List.all_eq_true.mpr fun _ => isDigit_of_mem_naturalChars
  rcases Nat.eq_zero_or_pos n with rfl | hn
  · decide
  · have hhead := head?_naturalChars_ne_zero hn.ne'
    unfold isPosition
    split
    · next h => exact absurd h (naturalChars_ne_nil n)
    · rfl
    · next h => exact absurd (by rw [h]; rfl) hhead
    · exact hall

instance : DecidablePred IsCanonical
  | key name =>
    decidable_of_iff (ofName name = key name ∧ name.toList.all (fun c => !breaksPath c) = true) (by
      simp [IsCanonical])
  | index _ => .isTrue True.intro

/-- **A segment is what its name reads as.** -/
theorem ofName_name {s : Segment} (hs : s.IsCanonical) : ofName s.name = s := by
  cases s with
  | key name => exact hs.1
  | index position =>
    have hlt : position.toNat < UInt64.size := position.toNat_lt
    simp only [name, ofName, String.toList_ofList, isPosition_naturalChars, digitsValue_naturalChars,
      hlt, decide_true, Bool.and_self, if_true, UInt64.ofNat_toNat]

theorem breaksPath_of_mem_name {s : Segment} (hs : s.IsCanonical) {c : Char}
    (hc : c ∈ s.name.toList) : breaksPath c = false := by
  cases s with
  | key name => exact hs.2 c hc
  | index position =>
    rw [name, String.toList_ofList] at hc
    exact breaksPath_of_isDigit (isDigit_of_mem_naturalChars hc)

end Segment

/-! ## Escapes -/

namespace FieldPath

/-- The path of a single name. -/
def ofKey (name : String) (h : (Segment.key name).IsCanonical) : FieldPath :=
  ⟨[.key name], List.cons_ne_nil _ _, List.forall_mem_singleton.mpr h⟩

theorem unescape_escapeChar (c : Char) (rest : List Char) :
    unescape (escapeChar c ++ rest) = c :: unescape rest := by
  unfold escapeChar
  by_cases h1 : c = '~'
  · subst h1; simp [unescape]
  · by_cases h2 : c = '/'
    · subst h2; simp [unescape]
    · simp only [beq_iff_eq, h1, h2, if_false, List.singleton_append]
      rw [unescape]
      · rintro rest' rfl; exact absurd rfl h1
      · rintro rest' rfl; exact absurd rfl h1

/-- An escaped name is read back. -/
theorem unescape_escape (s : List Char) : unescape (s.flatMap escapeChar) = s := by
  induction s with
  | nil => rfl
  | cons c s ih => rw [List.flatMap_cons, unescape_escapeChar, ih]

theorem ne_slash_of_mem_escape {s : List Char} {c : Char} (h : c ∈ s.flatMap escapeChar) :
    c ≠ '/' := by
  obtain ⟨d, -, hd⟩ := List.mem_flatMap.mp h
  unfold escapeChar at hd
  split at hd
  · rcases List.mem_pair.mp hd with rfl | rfl <;> decide
  · split at hd
    · rcases List.mem_pair.mp hd with rfl | rfl <;> decide
    · next hne => rw [List.mem_singleton.mp hd]; simpa using hne

theorem pieces_of_no_slash {s : List Char} (h : ∀ c ∈ s, c ≠ '/') : pieces s = [s] := by
  induction s with
  | nil => rfl
  | cons c s ih =>
    have hc : (c == '/') = false := by simpa using h c (by simp)
    simp [pieces, hc, ih fun d hd => h d (by simp [hd])]

theorem pieces_append_slash {s : List Char} (h : ∀ c ∈ s, c ≠ '/') (rest : List Char) :
    pieces (s ++ '/' :: rest) = s :: pieces rest := by
  induction s with
  | nil => simp [pieces]
  | cons c s ih =>
    have hc : (c == '/') = false := by simpa using h c (by simp)
    simp [pieces, hc, ih fun d hd => h d (by simp [hd])]

/-- The text of segments, without the slash before the first one. -/
def bodyChars (first : Segment) (rest : List Segment) : List Char :=
  first.name.toList.flatMap escapeChar ++ rest.flatMap segmentChars

/-- Escaped names are cut where one ends and the next one begins. -/
theorem pieces_escape (first : Segment) (rest : List Segment) :
    pieces (bodyChars first rest) =
      (first :: rest).map fun s => s.name.toList.flatMap escapeChar := by
  unfold bodyChars
  induction rest generalizing first with
  | nil => simp [pieces_of_no_slash fun _ => ne_slash_of_mem_escape]
  | cons second rest ih =>
    rw [List.flatMap_cons, segmentChars, List.cons_append,
      pieces_append_slash (fun _ => ne_slash_of_mem_escape), ih second]
    rfl

theorem segmentsOf_bodyChars {first : Segment} {rest : List Segment}
    (h : ∀ s ∈ first :: rest, s.IsCanonical) :
    segmentsOf (bodyChars first rest) = first :: rest := by
  unfold segmentsOf
  rw [pieces_escape, List.map_map]
  conv_rhs => rw [← List.map_id (first :: rest)]
  refine List.map_congr_left fun s hs => ?_
  simp only [Function.comp_apply, unescape_escape, String.ofList_toList, id]
  exact Segment.ofName_name (h s hs)

/-! ## Faults -/

theorem bodyFault?_escapeChar {c : Char} (hc : breaksPath c = false) {rest : List Char}
    (hr : ∀ position, bodyFault? position rest = none) (position : Nat) :
    bodyFault? position (escapeChar c ++ rest) = none := by
  have h0 : breaksPath '0' = false := by decide
  have h1 : breaksPath '1' = false := by decide
  have ht : breaksPath '~' = false := by decide
  unfold escapeChar
  by_cases hc1 : c = '~'
  · simp [hc1, bodyFault?, beginsEscape, h0, ht, hr]
  · by_cases hc2 : c = '/'
    · simp [hc2, bodyFault?, beginsEscape, h1, ht, hr]
    · simp [hc1, hc2, bodyFault?, hc, hr]

theorem bodyFault?_escape {s : List Char} (hs : ∀ c ∈ s, breaksPath c = false) {rest : List Char}
    (hr : ∀ position, bodyFault? position rest = none) (position : Nat) :
    bodyFault? position (s.flatMap escapeChar ++ rest) = none := by
  induction s generalizing position with
  | nil => exact hr position
  | cons c s ih =>
    rw [List.flatMap_cons, List.append_assoc]
    exact bodyFault?_escapeChar (hs c (by simp)) (ih fun d hd => hs d (by simp [hd])) position

theorem bodyFault?_segments {segments : List Segment} (h : ∀ s ∈ segments, s.IsCanonical)
    (position : Nat) : bodyFault? position (segments.flatMap segmentChars) = none := by
  induction segments generalizing position with
  | nil => rfl
  | cons s segments ih =>
    have hslash : breaksPath '/' = false := by decide
    rw [List.flatMap_cons, segmentChars, List.cons_append]
    simp only [bodyFault?, hslash]
    exact bodyFault?_escape (fun c => Segment.breaksPath_of_mem_name (h s (by simp)))
      (fun _ => ih (fun t ht => h t (by simp [ht])) _) _

theorem bodyFault?_bodyChars {first : Segment} {rest : List Segment}
    (h : ∀ s ∈ first :: rest, s.IsCanonical) (position : Nat) :
    bodyFault? position (bodyChars first rest) = none :=
  bodyFault?_escape (fun _ => Segment.breaksPath_of_mem_name (h first (by simp)))
    (fun _ => bodyFault?_segments (fun t ht => h t (by simp [ht])) _) position

theorem chars_eq (p : FieldPath) :
    ∃ first rest, p.segments = first :: rest ∧ p.chars = '/' :: bodyChars first rest := by
  obtain ⟨first, rest, h⟩ := List.exists_cons_of_ne_nil p.nonempty
  exact ⟨first, rest, h, by rw [chars, h, List.flatMap_cons, segmentChars]; rfl⟩

/-- **The text of a path spells the path.** -/
theorem parse_chars (p : FieldPath) : parse p.chars = .ok p := by
  obtain ⟨first, rest, hseg, hchars⟩ := chars_eq p
  have hcan : ∀ s ∈ first :: rest, s.IsCanonical := by
    rw [← hseg]
    exact p.canonical
  rw [hchars]
  simp only [parse, beq_self_eq_true, if_true]
  split
  · next fault h => rw [bodyFault?_bodyChars hcan] at h; cases h
  · obtain ⟨segments, hne, hc⟩ := p
    dsimp only at hseg
    subst hseg
    simp only [ofBody, segmentsOf_bodyChars hcan]

/-- No character of a path's text ends the path early. -/
theorem breaksPath_of_mem_chars {p : FieldPath} {c : Char} (hc : c ∈ p.chars) :
    breaksPath c = false := by
  obtain ⟨first, rest, hseg, hchars⟩ := chars_eq p
  have hcan : ∀ s ∈ first :: rest, s.IsCanonical := by
    rw [← hseg]
    exact p.canonical
  rw [hchars] at hc
  rcases List.mem_cons.mp hc with rfl | hc
  · decide
  · exact breaksPath_of_bodyFault? (bodyFault?_bodyChars hcan 0) c hc

end FieldPath

end RecordFilter
