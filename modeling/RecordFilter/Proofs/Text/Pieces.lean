import Mathlib
import RecordFilter.Directory

/-!
# Pieces — a text is cut at its slashes, character by character

The names in a text that names a place are found by a scan over bytes. The scan stands between characters
whenever it looks, so the names are what stands between the slashes of the list of characters.

* `splitOnAux_slash`: the scan from a place between two characters.
* `splitOn_slash`: a text cut at its slashes.
* `Directory.locate_eq`: the place that a text names.
-/

namespace RecordFilter

open String in
/-- The scan stands after `l` and `m`, and the piece that it is reading began after `l`. -/
theorem splitOnAux_slash (l m r : List Char) (found : List String) :
    splitOnAux (ofList (l ++ m ++ r)) "/" ⟨utf8Len l⟩ ⟨utf8Len l + utf8Len m⟩ 0 found =
      found.reverse ++ (List.splitOnPPrepend (· == '/') r m.reverse).map ofList := by
  have hget : Pos.Raw.get "/" 0 = '/' := by decide
  have hnext : Pos.Raw.next "/" 0 = ⟨1⟩ := by decide
  have hend : Pos.Raw.atEnd "/" ⟨1⟩ = true := by decide
  have hsize : '/'.utf8Size = 1 := by decide
  induction r generalizing l m found with
  | nil =>
    have hall : Pos.Raw.atEnd (ofList (l ++ m ++ [])) ⟨utf8Len l + utf8Len m⟩ = true := by
      simp only [atEnd_iff, rawEndPos_ofList, utf8Len_append, Pos.Raw.mk_le_mk, utf8Len_nil, Nat.add_zero,
        Nat.le_refl]
    rw [splitOnAux, if_pos hall]
    simpa using extract_of_valid l m []
  | cons c r ih =>
    have hopen : Pos.Raw.atEnd (ofList (l ++ m ++ c :: r)) ⟨utf8Len l + utf8Len m⟩ ≠ true := by
      have hpos := c.utf8Size_pos
      simp only [ne_eq, atEnd_iff, rawEndPos_ofList, utf8Len_append, Pos.Raw.mk_le_mk, utf8Len_cons]
      omega
    have hc := get_of_valid (l ++ m) (c :: r)
    have hafter := next_of_valid (l ++ m) c r
    rw [utf8Len_append, List.headD_cons] at hc
    rw [utf8Len_append] at hafter
    rw [splitOnAux, if_neg hopen, hget, hc, List.splitOnPPrepend_cons_eq_if]
    by_cases hslash : c = '/'
    · subst hslash
      have hpiece := extract_of_valid l m ('/' :: r)
      have hrest := ih (l ++ m ++ ['/']) [] (ofList m :: found)
      simp only [hafter, hnext, hend, beq_self_eq_true, if_true, hsize]
      have hpos : (⟨utf8Len l + utf8Len m + 1⟩ : Pos.Raw).unoffsetBy ⟨1⟩ = ⟨utf8Len l + utf8Len m⟩ := rfl
      rw [hpos, hpiece]
      simpa [hsize, Nat.add_assoc] using hrest
    · have hstay : (⟨utf8Len l + utf8Len m⟩ : Pos.Raw).unoffsetBy 0 = ⟨utf8Len l + utf8Len m⟩ := rfl
      have hrest := ih l (m ++ [c]) found
      rw [if_neg (by simpa using hslash), hstay, hafter, if_neg (by simpa using hslash)]
      simpa [utf8Len_append, Nat.add_assoc] using hrest

/-- **A text is cut at its slashes.** -/
theorem splitOn_slash (s : String) : s.splitOn "/" = (s.toList.splitOn '/').map String.ofList := by
  have h := splitOnAux_slash [] [] s.toList []
  rw [String.splitOn, if_neg (by decide)]
  simpa [List.splitOn] using h

/-- The place that a text names is reached by the names between its slashes. -/
theorem Directory.locate_eq {path : String} (d : Directory) (hzero : '\x00' ∉ path.toList) (hne : path ≠ "")
    (hsize : path.utf8ByteSize ≤ pathLimit) :
    d.locate path = d.walk (d.origin path) ((path.toList.splitOn '/').map String.ofList) := by
  have hnames : names path = .ok ((path.toList.splitOn '/').map String.ofList) := by
    rw [names, if_neg (by simpa using hzero), if_neg (by simpa using hne), if_neg (Nat.not_lt.mpr hsize),
      splitOn_slash]
  rw [locate, hnames]
  rfl

end RecordFilter
