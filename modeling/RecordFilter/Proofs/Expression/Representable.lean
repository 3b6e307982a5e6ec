import Mathlib
import RecordFilter.Proofs.Expression.FieldText

/-!
# Representable — construction refuses just what cannot be written

A string is checked by looking for a quote in it that would close its literal, a name by looking for a
character that would end its path. Reading a text looks for the same from the other end, at the first closing
quote and at the end of a path. Whatever is written behind the literal, both agree on every content.

* `Text.closing?_of_not_fitsQuotes`: a content that does not fit is cut short, always at the same quote.
* `checkString_eq_ok_iff`: a string passes its check exactly if its literal ends where it should.
* `FieldPath.exists_ofSegments_iff`: which segments make a path.
* `FieldPath.ofSegments_key_iff`: a name passes exactly if its text is a token of that name.
* `checks_exact`: both checks, neither too lax nor too strict.
-/

namespace RecordFilter

open Text

/-! ## Strings -/

/-- A content that does not fit is cut short at one of its own quotes, whatever follows the literal. -/
theorem Text.closing?_of_not_fitsQuotes {s : List Char} (h : fitsQuotes s = false) :
    ∃ n < s.length, ∀ rest, closing? (s ++ '"' :: rest) = some n := by
  induction s with
  | nil => cases h
  | cons c s ih =>
    -- the last character is followed by the closing quote, which is no delimiter
    have hne : s ≠ [] := by
      rintro rfl
      simp [fitsQuotes] at h
    have hends : ∀ rest, endsLiteral (s ++ '"' :: rest) = endsLiteral s := by
      intro rest
      obtain ⟨d, s, rfl⟩ := List.exists_cons_of_ne_nil hne
      rfl
    by_cases hclose : (c == '"' && endsLiteral s) = true
    · refine ⟨0, by simp, fun rest => ?_⟩
      rw [List.cons_append, closing?, hends, if_pos hclose]
    · have hrest : fitsQuotes s = false := by
        rw [fitsQuotes, Bool.and_right_comm, (Bool.not_eq_true _).mp hclose] at h
        simpa using h
      obtain ⟨n, hn, hclosing⟩ := ih hrest
      refine ⟨n + 1, by simpa using hn, fun rest => ?_⟩
      rw [List.cons_append, closing?, hends, if_neg hclose, hclosing, Option.map_some]

/-- A string that fails its check has a literal that ends early, whatever follows it. -/
theorem closing?_of_checkString {s : String} (h : checkString s ≠ .ok ()) :
    ∃ n < s.length, ∀ rest, closing? (s.toList ++ '"' :: rest) = some n := by
  rw [← String.length_toList]
  refine closing?_of_not_fitsQuotes ?_
  by_contra hfits
  exact h (checkString_of_fitsQuotes (by simpa using hfits))

/-- **A string passes its check exactly if its literal ends with its own closing quote** in front of everything
that may follow a literal. -/
theorem checkString_eq_ok_iff {s : String} : checkString s = .ok () ↔
    ∀ rest, endsLiteral rest = true → closing? (s.toList ++ '"' :: rest) = some s.length := by
  constructor
  · intro h rest hr
    rw [closing?_of_fitsQuotes (fitsQuotes_of_checkString h) hr, String.length_toList]
  · intro h
    by_contra hcheck
    obtain ⟨n, hn, hclosing⟩ := closing?_of_checkString hcheck
    have hlength := h [] rfl
    rw [hclosing] at hlength
    exact hn.ne (Option.some.inj hlength)

/-! ## Names -/

namespace FieldPath

theorem segments_ofSegments {segments : List Segment} {p : FieldPath} (h : ofSegments segments = .ok p) :
    p.segments = segments.map Segment.normalize := by
  unfold ofSegments at h
  split at h
  · cases h
  · split at h
    · cases h
    · cases h
      rfl

/-- Segments make a path if there are any and none of their names ends a path early. -/
theorem exists_ofSegments_iff {segments : List Segment} :
    (∃ p, ofSegments segments = .ok p) ↔ segments ≠ [] ∧ ∀ s ∈ segments, s.isBroken = false := by
  unfold ofSegments
  split
  · next hempty => simp [hempty]
  · next hempty =>
    split
    · next s hs =>
      have hbroken : s.isBroken = true := List.find?_some hs
      have hmem := List.mem_of_find?_eq_some hs
      simp only [reduceCtorEq, exists_false, false_iff, not_and, not_forall]
      exact fun _ => ⟨s, hmem, by simp [hbroken]⟩
    · next hnone =>
      simp only [Except.ok.injEq, exists_eq', true_iff]
      exact ⟨hempty, by simpa using hnone⟩

/-- **A name passes its check exactly if its text, as a part of filter text, is one token**, of a path that has
this name and nothing else. -/
theorem ofSegments_key_iff {name : String} :
    (∃ p, ofSegments [.key name] = .ok p) ↔
      ∃ (t : Token) (p : FieldPath) (s : Segment),
        tokenize (String.ofList ('/' :: name.toList.flatMap escapeChar)) = .ok [t] ∧
          t.kind = .field p ∧ p.segments = [s] ∧ s.name = name := by
  constructor
  · rintro ⟨p, hp⟩
    have hchars : p.chars = '/' :: name.toList.flatMap escapeChar := by
      simpa [segmentChars, Segment.name] using chars_ofSegments hp
    have hsegments : p.segments = [.ofName name] := segments_ofSegments hp
    refine ⟨⟨.field p, String.ofList p.chars, 0⟩, p, .ofName name, tokenize_eq_ok_iff.mpr ?_, rfl, hsegments,
      Segment.name_ofName name⟩
    rw [String.toList_ofList, ← hchars]
    exact CutInto.of_isText (.field p) 0
  · rintro ⟨t, p, s, -, -, hsegments, rfl⟩
    -- a path holds no name that would end it early
    have hcanonical : s.IsCanonical := p.canonical s (by simp [hsegments])
    rw [exists_ofSegments_iff, List.forall_mem_singleton, Segment.isBroken, List.any_eq_false]
    exact ⟨by simp, fun c hc => by simp [Segment.breaksPath_of_mem_name hcanonical hc]⟩

end FieldPath

/-- **Both checks are exact.** A string passes its check if and only if its literal, behind the opening quote,
ends with its last character wherever the text ends or goes on with a delimiter; a string that fails has a
literal that ends earlier, whatever follows. A name makes a path if and only if a slash and the escaped name are
cut into one token, a field whose only segment has that name. -/
theorem checks_exact :
    (∀ s : String,
      (checkString s = .ok () ↔
        ∀ rest, endsLiteral rest = true → closing? (s.toList ++ '"' :: rest) = some s.length) ∧
      (checkString s ≠ .ok () → ∃ n < s.length, ∀ rest, closing? (s.toList ++ '"' :: rest) = some n)) ∧
    ∀ name : String,
      (∃ p, FieldPath.ofSegments [.key name] = .ok p) ↔
        ∃ (t : Token) (p : FieldPath) (s : Segment),
          tokenize (String.ofList ('/' :: name.toList.flatMap FieldPath.escapeChar)) = .ok [t] ∧
            t.kind = .field p ∧ p.segments = [s] ∧ s.name = name :=
  ⟨fun _ => ⟨checkString_eq_ok_iff, closing?_of_checkString⟩, fun _ => FieldPath.ofSegments_key_iff⟩

/-- A quote at the very end does not close its own literal, one before a blank does. A name with both escapes and
a quote is a token, one with a blank is none. -/
theorem checks_exact_quotes :
    closing? "é\"\") and".toList = some 2 ∧
    (∃ n < 14, ∀ rest, closing? ("say \"hi\" there".toList ++ '"' :: rest) = some n) ∧
    (∃ p, FieldPath.ofSegments [.key "~/é\""] = .ok p) ∧
    ¬ ∃ (t : Token) (p : FieldPath) (s : Segment),
      tokenize "/a b" = .ok [t] ∧ t.kind = .field p ∧ p.segments = [s] ∧ s.name = "a b" := by
  obtain ⟨hstrings, hnames⟩ := checks_exact
  refine ⟨?_, ?_, ?_, ?_⟩
  · exact (hstrings "é\"").1.mp (by decide) ") and".toList (by decide)
  · exact (hstrings "say \"hi\" there").2 (by decide)
  · rw [FieldPath.exists_ofSegments_iff]
    decide
  · have hescaped : String.ofList ('/' :: "a b".toList.flatMap FieldPath.escapeChar) = "/a b" := by decide
    rw [← hescaped, ← hnames, FieldPath.exists_ofSegments_iff]
    decide

end RecordFilter
