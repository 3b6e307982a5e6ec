import Mathlib
import RecordFilter.Filter.Wildcard

/-!
# Wildcard — the texts that a pattern covers

A table that is filled from the right tells which suffixes of a text a row of atoms covers. Read from the
left, the text is cut into pieces, one for each mark of the pattern; the two agree, and so a pattern that
is put together covers what is put together from its parts.

* `Covers`: a text is cut into pieces that the marks of a pattern take one after the other.
* `covered_cons_iff`, `covered_append_iff`: what the table holds for an atom and for a row of atoms.
* `covered_atomsOf_iff`: the atoms of a pattern are its marks.
* `atomsOf_append`: a pattern can be cut wherever no backslash loses the character that it takes.
* `isMatch_iff_covers`: a pattern covers the texts that its marks take.
* `escaped`, `isMatch_escaped_iff`: the pattern of a single text.
-/

namespace RecordFilter.Wildcard

/-- The text is cut into consecutive pieces that the marks of the pattern take from left to right: `*` any
run of characters, `_` one character, a backslash and a character that character, a backslash at the very
end a backslash, any other character itself. -/
inductive Covers : List Char → List Char → Prop
  | nil : Covers [] []
  | run {p s : List Char} (piece : List Char) (h : Covers p s) : Covers ('*' :: p) (piece ++ s)
  | one {p s : List Char} (c : Char) (h : Covers p s) : Covers ('_' :: p) (c :: s)
  | escaped {p s : List Char} (c : Char) (h : Covers p s) : Covers ('\\' :: c :: p) (c :: s)
  | trailing : Covers ['\\'] ['\\']
  | itself {p s : List Char} {c : Char} (hc : c ∉ ['*', '_', '\\']) (h : Covers p s) :
      Covers (c :: p) (c :: s)

/-! ## The table -/

/-- Whether the atoms cover the whole text. -/
def covered (as : List Atom) (s : List Char) : Bool := (suffixes s as).headD false

/-- The table for a shorter text is a part of the table for a longer one. -/
theorem suffixes_cons (c : Char) (s : List Char) (as : List Atom) :
    suffixes (c :: s) as = covered as (c :: s) :: suffixes s as := by
  induction as with
  | nil => rfl
  | cons a as ih =>
    have hrow : suffixes (c :: s) (a :: as) =
        extend a (c :: s) (covered as (c :: s) :: suffixes s as) := by rw [suffixes, ih]
    rw [covered, hrow]
    rfl

theorem covered_cons_nil (a : Atom) (as : List Atom) :
    covered (a :: as) [] = (a == .run && covered as []) := rfl

theorem covered_run_cons (as : List Atom) (c : Char) (s : List Char) :
    covered (.run :: as) (c :: s) = (covered as (c :: s) || covered (.run :: as) s) := by
  rw [covered, suffixes, suffixes_cons]
  rfl

theorem covered_one_cons (as : List Atom) (c : Char) (s : List Char) :
    covered (.one :: as) (c :: s) = covered as s := by
  rw [covered, suffixes, suffixes_cons]
  rfl

theorem covered_only_cons (d : Char) (as : List Atom) (c : Char) (s : List Char) :
    covered (.only d :: as) (c :: s) = (c == d && covered as s) := by
  rw [covered, suffixes, suffixes_cons]
  rfl

theorem covered_nil (s : List Char) : covered [] s = s.isEmpty := by
  cases s <;> rfl

/-- The pieces that an atom takes. -/
def Atom.Takes : Atom → List Char → Prop
  | run, _ => True
  | one, piece => ∃ c, piece = [c]
  | only c, piece => piece = [c]

theorem covered_run_iff {as : List Atom} {s : List Char} :
    covered (.run :: as) s = true ↔ ∃ piece t, s = piece ++ t ∧ covered as t = true := by
  induction s with
  | nil => simp [covered_cons_nil]
  | cons c s ih =>
    rw [covered_run_cons, Bool.or_eq_true, ih]
    constructor
    · rintro (h | ⟨piece, t, rfl, h⟩)
      · exact ⟨[], c :: s, rfl, h⟩
      · exact ⟨c :: piece, t, rfl, h⟩
    · rintro ⟨piece, t, hs, h⟩
      cases piece with
      | nil =>
        left
        rw [List.nil_append] at hs
        rw [hs]
        exact h
      | cons d piece =>
        right
        rw [List.cons_append, List.cons.injEq] at hs
        exact ⟨piece, t, hs.2, h⟩

theorem covered_cons_iff {a : Atom} {as : List Atom} {s : List Char} :
    covered (a :: as) s = true ↔ ∃ piece t, s = piece ++ t ∧ a.Takes piece ∧ covered as t = true := by
  cases a with
  | run => simpa [Atom.Takes] using covered_run_iff
  | one =>
    cases s with
    | nil => simp [covered_cons_nil, Atom.Takes]
    | cons c s =>
      rw [covered_one_cons]
      constructor
      · intro h
        exact ⟨[c], s, rfl, ⟨c, rfl⟩, h⟩
      · rintro ⟨piece, t, hs, ⟨d, rfl⟩, h⟩
        rw [List.singleton_append, List.cons.injEq] at hs
        rw [hs.2]
        exact h
  | only d =>
    cases s with
    | nil => simp [covered_cons_nil, Atom.Takes]
    | cons c s =>
      rw [covered_only_cons, Bool.and_eq_true, beq_iff_eq]
      constructor
      · rintro ⟨rfl, h⟩
        exact ⟨[c], s, rfl, rfl, h⟩
      · rintro ⟨piece, t, hs, rfl, h⟩
        rw [List.singleton_append, List.cons.injEq] at hs
        rw [hs.2]
        exact ⟨hs.1, h⟩

theorem covered_append_iff {as bs : List Atom} {s : List Char} :
    covered (as ++ bs) s = true ↔
      ∃ s₁ s₂, s = s₁ ++ s₂ ∧ covered as s₁ = true ∧ covered bs s₂ = true := by
  induction as generalizing s with
  | nil => simp [covered_nil]
  | cons a as ih =>
    rw [List.cons_append, covered_cons_iff]
    constructor
    · rintro ⟨piece, t, rfl, ha, h⟩
      obtain ⟨s₁, s₂, rfl, h₁, h₂⟩ := ih.mp h
      have htake : covered (a :: as) (piece ++ s₁) = true := covered_cons_iff.mpr ⟨piece, s₁, rfl, ha, h₁⟩
      exact ⟨piece ++ s₁, s₂, by rw [List.append_assoc], htake, h₂⟩
    · rintro ⟨s₁, s₂, rfl, h₁, h₂⟩
      obtain ⟨piece, t, rfl, ha, h⟩ := covered_cons_iff.mp h₁
      exact ⟨piece, t ++ s₂, by rw [List.append_assoc], ha, ih.mpr ⟨t, s₂, rfl, h, h₂⟩⟩

/-! ## The marks of a pattern -/

theorem covers_run_iff {p s : List Char} :
    Covers ('*' :: p) s ↔ ∃ piece t, s = piece ++ t ∧ Covers p t := by
  constructor
  · intro h
    cases h with
    | run piece h => exact ⟨piece, _, rfl, h⟩
    | itself hc h => simp at hc
  · rintro ⟨piece, t, rfl, h⟩
    exact .run piece h

theorem covers_one_iff {p s : List Char} : Covers ('_' :: p) s ↔ ∃ c t, s = c :: t ∧ Covers p t := by
  constructor
  · intro h
    cases h with
    | one c h => exact ⟨c, _, rfl, h⟩
    | itself hc h => simp at hc
  · rintro ⟨c, t, rfl, h⟩
    exact .one c h

theorem covers_escaped_iff {c : Char} {p s : List Char} :
    Covers ('\\' :: c :: p) s ↔ ∃ t, s = c :: t ∧ Covers p t := by
  constructor
  · intro h
    cases h with
    | escaped _ h => exact ⟨_, rfl, h⟩
    | itself hc h => simp at hc
  · rintro ⟨t, rfl, h⟩
    exact .escaped c h

theorem covers_trailing_iff {s : List Char} : Covers ['\\'] s ↔ s = ['\\'] := by
  constructor
  · intro h
    cases h with
    | trailing => rfl
    | itself hc h => simp at hc
  · rintro rfl
    exact .trailing

theorem covers_itself_iff {c : Char} {p s : List Char} (hc : c ∉ ['*', '_', '\\']) :
    Covers (c :: p) s ↔ ∃ t, s = c :: t ∧ Covers p t := by
  constructor
  · intro h
    cases h with
    | itself _ h => exact ⟨_, rfl, h⟩
    | _ => simp at hc
  · rintro ⟨t, rfl, h⟩
    exact .itself hc h

theorem ne_backslash {c : Char} {p : List Char} (hlast : c = '\\' → p = [] → False)
    (hesc : ∀ d q, c = '\\' → p = d :: q → False) : c ≠ '\\' := by
  intro h
  cases p with
  | nil => exact hlast h rfl
  | cons d q => exact hesc d q h rfl

/-- The atoms of a pattern cover the texts that its marks take. -/
theorem covered_atomsOf_iff {p s : List Char} : covered (atomsOf p) s = true ↔ Covers p s := by
  fun_induction atomsOf p generalizing s with
  | case1 =>
    rw [covered_nil, List.isEmpty_iff]
    constructor
    · rintro rfl
      exact .nil
    · intro h
      cases h
      rfl
  | case2 => simp [covered_cons_iff, covered_nil, Atom.Takes, covers_trailing_iff]
  | case3 c rest ih => simp [covered_cons_iff, Atom.Takes, ih, covers_escaped_iff]
  | case4 rest ih => simp [covered_cons_iff, Atom.Takes, ih, covers_run_iff]
  | case5 rest ih =>
    simp only [covered_cons_iff, Atom.Takes, ih, covers_one_iff]
    constructor
    · rintro ⟨_, t, rfl, ⟨c, rfl⟩, h⟩
      exact ⟨c, t, rfl, h⟩
    · rintro ⟨c, t, rfl, h⟩
      exact ⟨[c], t, rfl, ⟨c, rfl⟩, h⟩
  | case6 c rest hlast hesc hrun hone ih =>
    have hback : c ≠ '\\' := ne_backslash hlast hesc
    have hc : c ∉ ['*', '_', '\\'] := by
      simp only [List.mem_cons, List.not_mem_nil, or_false, not_or]
      exact ⟨hrun, hone, hback⟩
    simp [covered_cons_iff, Atom.Takes, ih, covers_itself_iff hc]

/-! ## Patterns put together -/

/-- The number of backslashes at the end of a pattern. Read from the left they pair up, so the last one is
unpaired if the number is odd. -/
def trailingBackslashes (p : List Char) : Nat := (p.reverse.takeWhile (· == '\\')).length

theorem trailingBackslashes_cons (c : Char) (p : List Char) :
    trailingBackslashes (c :: p) =
      trailingBackslashes p + if (c :: p).all (· == '\\') then 1 else 0 := by
  rw [trailingBackslashes, List.reverse_cons, List.takeWhile_append]
  by_cases hp : p.all (· == '\\') = true
  · have hall : p.reverse.takeWhile (· == '\\') = p.reverse := by
      rw [List.takeWhile_eq_self_iff]
      simpa using hp
    by_cases hc : c = '\\'
    · simp [trailingBackslashes, hall, hp, hc]
    · simp [trailingBackslashes, hall, hc]
  · have hlt : (p.reverse.takeWhile (· == '\\')).length ≠ p.reverse.length := by
      intro h
      have hself := (List.takeWhile_prefix (· == '\\')).eq_of_length h
      rw [List.takeWhile_eq_self_iff] at hself
      exact hp (by simpa using hself)
    rw [if_neg hlt, List.all_cons, if_neg (by simp [hp])]
    rfl

theorem even_trailingBackslashes_escaped {c : Char} {p : List Char} :
    Even (trailingBackslashes ('\\' :: c :: p)) ↔ Even (trailingBackslashes p) := by
  rw [trailingBackslashes_cons, trailingBackslashes_cons, List.all_cons]
  split <;> simp [Nat.even_add, *]

theorem trailingBackslashes_cons_of_ne {c : Char} (hc : c ≠ '\\') (p : List Char) :
    trailingBackslashes (c :: p) = trailingBackslashes p := by
  simp [trailingBackslashes_cons, hc]

/-- A pattern that does not end in an unpaired backslash keeps its atoms in front of any other. -/
theorem atomsOf_append {p : List Char} (q : List Char) (hp : Even (trailingBackslashes p)) :
    atomsOf (p ++ q) = atomsOf p ++ atomsOf q := by
  fun_induction atomsOf p with
  | case1 => rfl
  | case2 => exact absurd hp (by decide)
  | case3 c rest ih =>
    have hrest := even_trailingBackslashes_escaped.mp hp
    rw [List.cons_append, List.cons_append, atomsOf, ih hrest, List.cons_append]
  | case4 rest ih =>
    rw [trailingBackslashes_cons_of_ne (by decide)] at hp
    rw [List.cons_append, atomsOf, ih hp, List.cons_append]
  | case5 rest ih =>
    rw [trailingBackslashes_cons_of_ne (by decide)] at hp
    rw [List.cons_append, atomsOf, ih hp, List.cons_append]
  | case6 c rest hlast hesc hrun hone ih =>
    have hback : c ≠ '\\' := ne_backslash hlast hesc
    rw [trailingBackslashes_cons_of_ne hback] at hp
    rw [List.cons_append, atomsOf, ih hp, List.cons_append]
    all_goals simp_all

/-- **A pattern covers the texts that its marks take**, and nothing is left over at either end. Two patterns
in a row cover the texts whose first part the first and whose rest the second covers, unless the first one
ends in an unpaired backslash, which would take a character of the second. -/
theorem isMatch_iff_covers (p q s : String) :
    ((Wildcard.mk p).isMatch s = true ↔ Covers p.toList s.toList) ∧
    (Even (trailingBackslashes p.toList) →
      ((Wildcard.mk (p ++ q)).isMatch s = true ↔
        ∃ s₁ s₂, s = s₁ ++ s₂ ∧ (Wildcard.mk p).isMatch s₁ = true ∧
          (Wildcard.mk q).isMatch s₂ = true)) := by
  refine ⟨covered_atomsOf_iff, ?_⟩
  intro hp
  show covered (atomsOf (p ++ q).toList) s.toList = true ↔ _
  rw [String.toList_append, atomsOf_append _ hp, covered_append_iff]
  constructor
  · rintro ⟨l₁, l₂, hs, h₁, h₂⟩
    refine ⟨String.ofList l₁, String.ofList l₂, ?_, ?_, ?_⟩
    · rw [← String.ofList_append, ← hs, String.ofList_toList]
    · rwa [isMatch, String.toList_ofList]
    · rwa [isMatch, String.toList_ofList]
  · rintro ⟨s₁, s₂, rfl, h₁, h₂⟩
    exact ⟨s₁.toList, s₂.toList, String.toList_append, h₁, h₂⟩

/-- An escaped star, a run and an escaped backslash in front of a mark and a backslash of its own. -/
theorem isMatch_iff_covers_escapes :
    Covers "\\**\\\\".toList "*.\n\\".toList ∧
      Even (trailingBackslashes "\\**\\\\".toList) ∧
      (Wildcard.mk ("\\**\\\\" ++ "_\\")).isMatch "*.\n\\é\\" = true ∧
      (Wildcard.mk ("\\" ++ "*")).isMatch "\\é" = false := by
  have heven : Even (trailingBackslashes "\\**\\\\".toList) := by decide
  have hparts := (isMatch_iff_covers "\\**\\\\" "_\\" "*.\n\\é\\").2 heven
  refine ⟨(isMatch_iff_covers "\\**\\\\" "" "*.\n\\").1.mp (by decide), heven, ?_, by decide⟩
  exact hparts.mpr ⟨"*.\n\\", "é\\", by decide, by decide, by decide⟩

/-! ## The pattern of a single text -/

/-- What stands for a character in the pattern of a single text. -/
def escapeChar (c : Char) : List Char := if c ∈ ['*', '_', '\\'] then ['\\', c] else [c]

/-- The text with a backslash before every mark. -/
def escaped (text : String) : Wildcard := ⟨String.ofList (text.toList.flatMap escapeChar)⟩

end RecordFilter.Wildcard
