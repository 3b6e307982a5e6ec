import Mathlib
import RecordFilter.Proofs.Filter.FieldPath

/-!
# Path text — the texts that spell a path

A text spells a path if it begins with a slash, no character in it ends a path and every tilde begins
an escape. It is then the text of that path: each name is written as it was read, as a name that
reads as a position has no other digits than the position. Any other text is refused at the first
place where it goes wrong.

* `Segment.name_ofName`: what a name reads as has the name.
* `FieldPath.IsText`, `FieldPath.FaultyAt`: the form of a path's text, and the places at fault.
* `FieldPath.rewritten_of_not_offends`: names are written as they stand in a text without fault.
* `FieldPath.faultyAt_of_parse`: where a text is refused.
* `FieldPath.exists_parse_iff`, `FieldPath.parse_eq_ok_iff`: which texts spell a path, and which path.
-/

namespace RecordFilter

open Number Text

/-! ## Names -/

namespace Segment

/-- The digits of a position are the digits of its value. -/
theorem naturalChars_of_isPosition {ds : List Char} (h : isPosition ds = true) :
    naturalChars (digitsValue ds) = ds := by
  unfold isPosition at h
  split at h
  · cases h
  · decide
  · cases h
  · next hne _ hzero =>
    obtain ⟨c, rest, rfl⟩ := List.exists_cons_of_ne_nil hne
    refine (naturalChars_digitsValue (fun hc => hzero rest (by rw [hc])) ?_).2
    simpa using h

/-- **What a name reads as has the name.** -/
theorem name_ofName (name : String) : (ofName name).name = name := by
  rw [ofName]
  split
  · next h =>
    rw [Bool.and_eq_true, decide_eq_true_eq] at h
    have hvalue : (UInt64.ofNat (digitsValue name.toList)).toNat = digitsValue name.toList :=
      UInt64.toNat_ofNat_of_lt h.2
    rw [Segment.name, hvalue, naturalChars_of_isPosition h.1, String.ofList_toList]
  · rfl

end Segment

namespace FieldPath

/-! ## Faults -/

/-- The form of the text of a path. -/
structure IsText (s : List Char) : Prop where
  slash : s.head? = some '/'
  unbroken : ∀ c ∈ s, breaksPath c = false
  escapes : ∀ i, s[i]? = some '~' → s[i + 1]? = some '0' ∨ s[i + 1]? = some '1'

/-- Here stands a character that ends a path, or a tilde that begins no escape. -/
def Offends (s : List Char) (i : Nat) : Prop :=
  (∃ c, s[i]? = some c ∧ breaksPath c = true) ∨
    (s[i]? = some '~' ∧ s[i + 1]? ≠ some '0' ∧ s[i + 1]? ≠ some '1')

/-- Here the text differs from the text of any path. -/
def FaultyAt (s : List Char) (i : Nat) : Prop := (i = 0 ∧ s.head? ≠ some '/') ∨ Offends s i

theorem isText_iff {s : List Char} : IsText s ↔ ∀ i, ¬ FaultyAt s i := by
  constructor
  · rintro ⟨hslash, hunbroken, hescapes⟩ i (⟨-, hne⟩ | ⟨c, hc, hbreaks⟩ | ⟨htilde, h0, h1⟩)
    · exact hne hslash
    · rw [hunbroken c (List.mem_of_getElem? hc)] at hbreaks
      cases hbreaks
    · exact (hescapes i htilde).elim h0 h1
  · intro h
    refine ⟨?_, fun c hc => ?_, fun i htilde => ?_⟩
    · by_contra hne
      exact h 0 (.inl ⟨rfl, hne⟩)
    · obtain ⟨i, hi⟩ := List.getElem?_of_mem hc
      by_contra hbreaks
      exact h i (.inr (.inl ⟨c, hi, by simpa using hbreaks⟩))
    · by_contra hne
      rw [not_or] at hne
      exact h i (.inr (.inr ⟨htilde, hne⟩))

theorem offends_succ {c : Char} {s : List Char} {i : Nat} :
    Offends (c :: s) (i + 1) ↔ Offends s i := by
  simp [Offends]

theorem offends_zero {c : Char} {s : List Char} :
    Offends (c :: s) 0 ↔ breaksPath c = true ∨ (c = '~' ∧ beginsEscape s = false) := by
  cases s with
  | nil => simp [Offends, beginsEscape]
  | cons d s => simp [Offends, beginsEscape]

theorem faultyAt_slash_zero (body : List Char) : ¬ FaultyAt ('/' :: body) 0 := by
  simp [FaultyAt, Offends, breaksPath, isSpace]

theorem faultyAt_slash_succ {body : List Char} {i : Nat} :
    FaultyAt ('/' :: body) (i + 1) ↔ Offends body i := by
  simp [FaultyAt, offends_succ]

theorem bodyFault?_of_offends {c : Char} {s : List Char} (h : Offends (c :: s) 0) (position : Nat) :
    ∃ fault, bodyFault? position (c :: s) = some (position, fault) := by
  rw [offends_zero] at h
  rw [bodyFault?]
  split
  · exact ⟨_, rfl⟩
  · next hescape =>
    split
    · exact ⟨_, rfl⟩
    · next hbreaks =>
      rcases h with hb | ⟨rfl, he⟩
      · exact absurd hb hbreaks
      · simp [he] at hescape

theorem bodyFault?_of_not_offends {c : Char} {s : List Char} (h : ¬ Offends (c :: s) 0)
    (position : Nat) : bodyFault? position (c :: s) = bodyFault? (position + 1) s := by
  rw [offends_zero, not_or] at h
  obtain ⟨hbreaks, hescape⟩ := h
  rw [bodyFault?, if_neg (by simpa using hescape), if_neg hbreaks]

theorem bodyFault?_eq_none_iff {position : Nat} {s : List Char} :
    bodyFault? position s = none ↔ ∀ i, ¬ Offends s i := by
  induction s generalizing position with
  | nil => simp [bodyFault?, Offends]
  | cons c s ih =>
    by_cases hzero : Offends (c :: s) 0
    · obtain ⟨fault, hfault⟩ := bodyFault?_of_offends hzero position
      rw [hfault]
      constructor
      · intro h
        cases h
      · exact fun h => absurd hzero (h 0)
    · rw [bodyFault?_of_not_offends hzero, ih]
      constructor
      · intro h i
        cases i with
        | zero => exact hzero
        | succ i => exact fun hi => h i (offends_succ.mp hi)
      · exact fun h i hi => h (i + 1) (offends_succ.mpr hi)

/-- The fault that is found in a text is the first one. -/
theorem offends_of_bodyFault? {position k : Nat} {s : List Char} {fault : Fault}
    (h : bodyFault? position s = some (k, fault)) :
    ∃ i, k = position + i ∧ Offends s i ∧ ∀ j < i, ¬ Offends s j := by
  induction s generalizing position with
  | nil => cases h
  | cons c s ih =>
    by_cases hzero : Offends (c :: s) 0
    · obtain ⟨_, hfault⟩ := bodyFault?_of_offends hzero position
      rw [hfault] at h
      cases h
      exact ⟨0, rfl, hzero, by simp⟩
    · rw [bodyFault?_of_not_offends hzero] at h
      obtain ⟨i, rfl, hi, hfirst⟩ := ih h
      refine ⟨i + 1, by omega, offends_succ.mpr hi, fun j hj => ?_⟩
      cases j with
      | zero => exact hzero
      | succ j => exact fun ho => hfirst j (by omega) (offends_succ.mp ho)

/-! ## Names as they are written -/

/-- What stands before a text, without a slash, goes into the first piece. -/
theorem pieces_append {cs : List Char} (h : ∀ c ∈ cs, c ≠ '/') (s : List Char) :
    ∃ piece others, pieces s = piece :: others ∧ pieces (cs ++ s) = (cs ++ piece) :: others := by
  obtain ⟨piece, others, hs⟩ := List.exists_cons_of_ne_nil (pieces_ne_nil s)
  refine ⟨piece, others, hs, ?_⟩
  induction cs with
  | nil => exact hs
  | cons c cs ih =>
    have hc : (c == '/') = false := by simpa using h c (by simp)
    simp [pieces, hc, ih fun d hd => h d (by simp [hd])]

theorem unescape_cons_of_ne {c : Char} (hc : c ≠ '~') (s : List Char) :
    unescape (c :: s) = c :: unescape s := by
  rw [unescape]
  · rintro rest rfl; exact absurd rfl hc
  · rintro rest rfl; exact absurd rfl hc

/-- The names between the slashes of a text, unescaped and written again. -/
def rewritten (s : List Char) : List Char :=
  (pieces s).flatMap fun piece => '/' :: (unescape piece).flatMap escapeChar

theorem rewritten_append (cs : List Char) {s : List Char} (hslash : ∀ c ∈ cs, c ≠ '/')
    (hcs : ∀ piece, (unescape (cs ++ piece)).flatMap escapeChar =
      cs ++ (unescape piece).flatMap escapeChar)
    (h : rewritten s = '/' :: s) : rewritten (cs ++ s) = '/' :: (cs ++ s) := by
  obtain ⟨piece, others, hs, happ⟩ := pieces_append hslash s
  unfold rewritten at h ⊢
  rw [hs, List.flatMap_cons, List.cons_append, List.cons.injEq] at h
  rw [happ, List.flatMap_cons, hcs, List.cons_append, List.append_assoc, h.2]

theorem rewritten_slash {s : List Char} (h : rewritten s = '/' :: s) :
    rewritten ('/' :: s) = '/' :: '/' :: s := by
  have hpieces : pieces ('/' :: s) = [] :: pieces s := by simp [pieces]
  unfold rewritten at h ⊢
  rw [hpieces, List.flatMap_cons, h]
  rfl

/-- **The names of a text without fault are written as they stand there.** -/
theorem rewritten_of_not_offends {s : List Char} (h : ∀ i, ¬ Offends s i) :
    rewritten s = '/' :: s := by
  fun_induction unescape s with
  | case1 rest ih =>
    refine rewritten_append ['~', '0'] (by simp) (fun piece => ?_) (ih fun i hi => ?_)
    · simp [unescape, escapeChar]
    · exact h (i + 2) (offends_succ.mpr (offends_succ.mpr hi))
  | case2 rest ih =>
    refine rewritten_append ['~', '1'] (by simp) (fun piece => ?_) (ih fun i hi => ?_)
    · simp [unescape, escapeChar]
    · exact h (i + 2) (offends_succ.mpr (offends_succ.mpr hi))
  | case3 c rest h0 h1 ih =>
    have ih := ih fun i hi => h (i + 1) (offends_succ.mpr hi)
    -- a tilde that begins no escape is a fault
    have htilde : c ≠ '~' := by
      intro hc
      refine h 0 (offends_zero.mpr (.inr ⟨hc, ?_⟩))
      cases rest with
      | nil => rfl
      | cons d rest =>
        simp only [beginsEscape, Bool.or_eq_false_iff, beq_eq_false_iff_ne]
        exact ⟨fun hd => h0 rest hc (by rw [hd]), fun hd => h1 rest hc (by rw [hd])⟩
    by_cases hslash : c = '/'
    · subst hslash
      exact rewritten_slash ih
    · refine rewritten_append [c] (by simpa using hslash) (fun piece => ?_) ih
      simp [unescape_cons_of_ne htilde, escapeChar, htilde, hslash]
  | case4 => rfl

/-! ## Texts and paths -/

/-- **A text that spells no path is refused at the first place that is at fault.** -/
theorem faultyAt_of_parse {s : List Char} {k : Nat} {fault : Fault}
    (h : parse s = .error (k, fault)) : FaultyAt s k ∧ ∀ j < k, ¬ FaultyAt s j := by
  unfold parse at h
  split at h
  · cases h
    exact ⟨.inl ⟨rfl, by simp⟩, by simp⟩
  · next c body =>
    split at h
    · next hslash =>
      obtain rfl : c = '/' := beq_iff_eq.mp hslash
      split at h
      · next hfault =>
        cases h
        obtain ⟨i, rfl, hi, hfirst⟩ := offends_of_bodyFault? hfault
        rw [Nat.add_comm]
        refine ⟨faultyAt_slash_succ.mpr hi, fun j hj => ?_⟩
        cases j with
        | zero => exact faultyAt_slash_zero body
        | succ j => exact fun hj' => hfirst j (by omega) (faultyAt_slash_succ.mp hj')
      · cases h
    · next hslash =>
      cases h
      exact ⟨.inl ⟨rfl, by simpa using hslash⟩, by simp⟩

theorem exists_body_of_parse {s : List Char} {p : FieldPath} (h : parse s = .ok p) :
    ∃ body, s = '/' :: body ∧ (∀ i, ¬ Offends body i) ∧ p.segments = segmentsOf body := by
  unfold parse at h
  split at h
  · cases h
  · next c body =>
    split at h
    · next hslash =>
      obtain rfl : c = '/' := beq_iff_eq.mp hslash
      split at h
      · cases h
      · next hfault =>
        cases h
        exact ⟨body, rfl, bodyFault?_eq_none_iff.mp hfault, rfl⟩
    · cases h

/-- **A text spells a path exactly if it has the form of one.** -/
theorem exists_parse_iff {s : List Char} : (∃ p, parse s = .ok p) ↔ IsText s := by
  constructor
  · rintro ⟨p, h⟩
    obtain ⟨body, rfl, hbody, -⟩ := exists_body_of_parse h
    rw [isText_iff]
    intro i
    cases i with
    | zero => exact faultyAt_slash_zero body
    | succ i => exact fun hi => hbody i (faultyAt_slash_succ.mp hi)
  · intro h
    cases hp : parse s with
    | ok p => exact ⟨p, rfl⟩
    | error e =>
      obtain ⟨k, fault⟩ := e
      exact absurd (faultyAt_of_parse hp).1 (isText_iff.mp h k)

/-- **A text spells a path exactly if it is the path's text.** -/
theorem parse_eq_ok_iff {s : List Char} {p : FieldPath} : parse s = .ok p ↔ p.chars = s := by
  constructor
  · intro h
    obtain ⟨body, rfl, hbody, hsegments⟩ := exists_body_of_parse h
    rw [← rewritten_of_not_offends hbody, chars, hsegments]
    simp [segmentsOf, rewritten, List.flatMap_map, segmentChars, Segment.name_ofName]
  · rintro rfl
    exact p.parse_chars

end FieldPath

end RecordFilter
