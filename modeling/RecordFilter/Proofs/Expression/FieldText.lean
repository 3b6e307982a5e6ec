import Mathlib
import RecordFilter.Proofs.Expression.Cutting
import RecordFilter.Proofs.Filter.Checked

/-!
# Field text — three ways to a path

A path is read from a text of its own, cut off as a token of filter text, or made of segments. All three
end at the same path, which has one text: so paths are told apart by their texts.

* `CutInto.of_isText`: a text of a token, alone, is cut into that token.
* `FieldPath.chars_ofSegments`: a path is written as the segments that it was made of.
* `FieldPath.ofText_bijective`: texts and paths, and where a text that is no path is refused.
-/

namespace RecordFilter

open Text

theorem CutInto.of_isText {cs : List Char} {k : Token.Kind} (h : k.IsText cs) (position : Nat) :
    CutInto position cs [⟨k, String.ofList cs, position⟩] := by
  have hcut : CutInto position (cs ++ []) [⟨k, String.ofList cs, position⟩] := .token h (.nil k) .nil
  rwa [List.append_nil] at hcut

namespace FieldPath

theorem ofText_eq_ok_iff {text : String} {p : FieldPath} : ofText text = .ok p ↔ p.text = text := by
  have hparse : ofText text = .ok p ↔ parse text.toList = .ok p := by
    unfold ofText
    cases parse text.toList <;> simp
  rw [hparse, parse_eq_ok_iff, FieldPath.text]
  constructor
  · intro h
    rw [h, String.ofList_toList]
  · rintro rfl
    rw [String.toList_ofList]

theorem ofText_text (p : FieldPath) : ofText p.text = .ok p :=
  ofText_eq_ok_iff.mpr rfl

theorem ofText_error {text : String} {e : ParseError} (h : ofText text = .error e) :
    ∃ fault, e = .invalidPointer fault e.position ∧ parse text.toList = .error (e.position, fault) := by
  unfold ofText at h
  split at h
  · cases h
  · next position fault hparse =>
    cases h
    exact ⟨fault, rfl, hparse⟩

/-- A path is written as the segments that it was made of. -/
theorem chars_ofSegments {segments : List Segment} {p : FieldPath} (h : ofSegments segments = .ok p) :
    p.chars = segments.flatMap segmentChars := by
  have hname : ∀ s : Segment, segmentChars s.normalize = segmentChars s := by
    intro s
    cases s with
    | key name => rw [Segment.normalize, segmentChars, Segment.name_ofName]; rfl
    | index position => rfl
  unfold ofSegments at h
  split at h
  · cases h
  · split at h
    · cases h
    · cases h
      simp [chars, List.flatMap_map, hname]

/-- **Texts and paths correspond one to one.** A text spells a path exactly if it has the form of one; it is
then the text of the path, and cut up as filter text it is one token, of that path. A text that spells none is
refused at the first place that is at fault. What segments make is what their text spells, and its own text
and its own segments give it back; paths with the same text are the same, and each segment of a path is what
its own text reads as. -/
theorem ofText_bijective :
    (∀ text : String,
      ((∃ p, ofText text = .ok p) ↔ IsText text.toList) ∧
      (∀ p, ofText text = .ok p → p.text = text ∧ tokenize text = .ok [⟨.field p, text, 0⟩]) ∧
      ∀ e, ofText text = .error e → (∃ fault, e = .invalidPointer fault e.position) ∧
        FaultyAt text.toList e.position ∧ ∀ i < e.position, ¬ FaultyAt text.toList i) ∧
    (∀ segments p, ofSegments segments = .ok p →
      ofText (String.ofList (segments.flatMap segmentChars)) = .ok p ∧
      ofText p.text = .ok p ∧ ofSegments p.segments = .ok p) ∧
    (∀ p q : FieldPath, p = q ↔ p.text = q.text) ∧
    ∀ p : FieldPath, ∀ s ∈ p.segments, ∃ q,
      ofText (String.ofList (segmentChars s)) = .ok q ∧ q.segments = [s] := by
  refine ⟨fun text => ⟨?_, fun p hp => ?_, fun e he => ?_⟩, fun segments p hp => ⟨?_, ?_, ?_⟩,
    fun p q => ⟨fun h => by rw [h], fun h => ?_⟩, fun p s hs => ?_⟩
  · rw [← exists_parse_iff]
    refine exists_congr fun p => ?_
    rw [ofText_eq_ok_iff, parse_eq_ok_iff, FieldPath.text, ← String.toList_inj, String.toList_ofList]
  · obtain rfl := ofText_eq_ok_iff.mp hp
    refine ⟨rfl, tokenize_eq_ok_iff.mpr ?_⟩
    rw [FieldPath.text, String.toList_ofList]
    exact CutInto.of_isText (.field p) 0
  · obtain ⟨fault, hfault, hparse⟩ := ofText_error he
    exact ⟨⟨fault, hfault⟩, faultyAt_of_parse hparse⟩
  · rw [ofText_eq_ok_iff, FieldPath.text, chars_ofSegments hp]
  · exact p.ofText_text
  · exact p.ofSegments_segments
  · have hq := ofText_eq_ok_iff.mpr h
    rw [ofText_text] at hq
    exact (Except.ok.inj hq).symm
  · let q : FieldPath := ⟨[s], by simp, by simpa using p.canonical s hs⟩
    refine ⟨q, ofText_eq_ok_iff.mpr ?_, rfl⟩
    simp [FieldPath.text, chars, q]

/-- Names with both escapes, a position, digits that are none and an empty name; a name made of the digits of
a position; a tilde behind a character of several bytes that begins no escape. -/
theorem ofText_bijective_escapes :
    (∃ p, ofText "/~01/0/00//~1" = .ok p ∧ p.text = "/~01/0/00//~1" ∧
      tokenize "/~01/0/00//~1" = .ok [⟨.field p, "/~01/0/00//~1", 0⟩]) ∧
    (∃ p, ofSegments [.key "7", .key "18446744073709551616", .key "~1"] = .ok p ∧
      ofText "/7/18446744073709551616/~01" = .ok p ∧ ofSegments p.segments = .ok p) ∧
    ofText "/é~ b" = .error (.invalidPointer .badEscape 2) ∧ FaultyAt "/é~ b".toList 2 ∧
    ∀ i < 2, ¬ FaultyAt "/é~ b".toList i := by
  obtain ⟨htexts, hsegments, -, -⟩ := ofText_bijective
  refine ⟨?_, ?_, ?_⟩
  · cases hp : ofText "/~01/0/00//~1" with
    | error e =>
      have hok : (ofText "/~01/0/00//~1").toOption.isSome = true := by decide +kernel
      rw [hp] at hok
      cases hok
    | ok p => exact ⟨p, rfl, (htexts _).2.1 p hp⟩
  · cases hp : ofSegments [.key "7", .key "18446744073709551616", .key "~1"] with
    | error e =>
      have hok : (ofSegments [.key "7", .key "18446744073709551616", .key "~1"]).toOption.isSome = true := by
        decide +kernel
      rw [hp] at hok
      cases hok
    | ok p =>
      obtain ⟨htext, -, hagain⟩ := hsegments _ p hp
      exact ⟨p, rfl, htext, hagain⟩
  · have herror : ofText "/é~ b" = .error (.invalidPointer .badEscape 2) := by decide +kernel
    exact ⟨herror, ((htexts _).2.2 _ herror).2⟩

end FieldPath

end RecordFilter
