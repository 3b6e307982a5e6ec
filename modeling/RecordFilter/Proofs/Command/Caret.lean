import Mathlib
import RecordFilter.Command.Caret
import RecordFilter.Proofs.Expression.ErrorPlace

/-!
# Caret — the mark below a text and the character above it

An error is shown in three parts, each after a line feed: its wording, the text behind two spaces, and the mark
behind as many spaces as there are characters before the place, and two more. The two spaces before the text
stand before its first line only, and the place counts the characters of all lines. So the mark is under its
character in a text of one line; in a text of more lines it is too far to the right.

* `textLines`: the lines of a text.
* `Marks`: the last line marks a place in a text.
* `ParseError.textLines_pointedAt`: the lines in which an error is shown.
* `ParseError.pointedAt_marks`: when the mark stands under its character.
-/

namespace RecordFilter

/-- The lines of a text. -/
def textLines (text : String) : List (List Char) :=
  text.toList.splitOn '\n'

/-- The last line is spaces and a caret. The line above it has at the column of the caret the character that the
text has at the place, and ends there if the text does. -/
def Marks (shown text : String) (place : Nat) : Prop :=
  ∃ before above column, textLines shown = before ++ [above, List.replicate column ' ' ++ ['^']] ∧
    column ≤ above.length ∧ above[column]? = text.toList[place]?

/-! ## Lines -/

theorem textLines_feed (s t : String) : textLines (s ++ "\n" ++ t) = textLines s ++ textLines t := by
  have hsplit : (s ++ "\n" ++ t).toList = s.toList ++ '\n' :: t.toList := by simp
  rw [textLines, hsplit]
  exact List.splitOn_append_cons_self _ _

theorem textLines_of_not_mem {text : String} (h : '\n' ∉ text.toList) : textLines text = [text.toList] :=
  List.splitOn_eq_singleton h

/-- The last line of a text is what follows its last line feed. -/
theorem textLines_concat {first last : List Char} {text : String} (h : text.toList = first ++ '\n' :: last)
    (hlast : '\n' ∉ last) : textLines text = first.splitOn '\n' ++ [last] := by
  rw [textLines, h, List.splitOn_append_cons_self, List.splitOn_eq_singleton hlast]

theorem feed_not_mem_caretLine (column : Nat) : '\n' ∉ List.replicate column ' ' ++ ['^'] := by
  simp [List.mem_replicate]

/-- The last two lines decide what is marked. -/
theorem marks_iff_of_textLines {shown text : String} {place column : Nat} {before : List (List Char)}
    {above : List Char} (h : textLines shown = before ++ [above, List.replicate column ' ' ++ ['^']]) :
    Marks shown text place ↔ column ≤ above.length ∧ above[column]? = text.toList[place]? := by
  constructor
  · rintro ⟨before', above', column', h', hcolumn, hat⟩
    have hpair := List.append_inj_right' (h.symm.trans h') rfl
    obtain ⟨rfl, hcaret⟩ : above = above' ∧
        List.replicate column ' ' ++ ['^'] = List.replicate column' ' ' ++ ['^'] := by
      simpa using hpair
    have hlength := congrArg List.length hcaret
    obtain rfl : column = column' := by simpa using hlength
    exact ⟨hcolumn, hat⟩
  · rintro ⟨hcolumn, hat⟩
    exact ⟨before, above, column, h, hcolumn, hat⟩

namespace ParseError

/-- **The lines in which an error is shown**: those of its wording, those of the text behind two spaces, and
the mark. -/
theorem textLines_pointedAt {e : ParseError} (h : e.hasPlace = true) (text : String) :
    textLines (e.pointedAt text) =
      textLines e.message ++ textLines ("  " ++ text) ++
        [List.replicate (e.position + 2) ' ' ++ ['^']] := by
  have hparts : e.pointedAt text = e.message ++ "\n" ++ ("  " ++ text) ++ "\n" ++
      String.ofList (List.replicate (e.position + 2) ' ' ++ ['^']) := by
    rw [pointedAt, if_pos h, ← String.toList_inj]
    simp [List.replicate_succ]
  have hcaret : textLines (String.ofList (List.replicate (e.position + 2) ' ' ++ ['^'])) =
      [List.replicate (e.position + 2) ' ' ++ ['^']] := by
    rw [textLines_of_not_mem (by rw [String.toList_ofList]; exact feed_not_mem_caretLine _),
      String.toList_ofList]
  rw [hparts, textLines_feed, textLines_feed, hcaret]

theorem PointsInto.hasPlace {e : ParseError} {text : String} (h : e.PointsInto text) : e.hasPlace = true := by
  cases e with
  | emptyInput | invalidEncoding => exact h.elim
  | _ => rfl

/-- The place of an error is in the text, or at its end. -/
theorem PointsInto.position_le {e : ParseError} {text : String} (h : e.PointsInto text) :
    e.position ≤ text.length := by
  by_cases hend : ∃ expected position, e = .unexpectedEnd expected position
  · obtain ⟨expected, position, rfl⟩ := hend
    exact le_of_eq h
  · exact (h.position_lt fun expected position he => hend ⟨expected, position, he⟩).le

/-- In a text of one line the mark is under its character. -/
theorem marks_of_line {e : ParseError} {text : String} (h : e.PointsInto text) (hline : '\n' ∉ text.toList) :
    Marks (e.pointedAt text) text e.position := by
  have habove : textLines ("  " ++ text) = [' ' :: ' ' :: text.toList] := by
    rw [textLines_of_not_mem] <;> simp [hline]
  have hlines := textLines_pointedAt h.hasPlace text
  rw [habove, List.append_assoc] at hlines
  have hle := h.position_le
  rw [← String.length_toList] at hle
  exact (marks_iff_of_textLines hlines).mpr ⟨by simpa using hle, by simp⟩

/-- In a text of more lines the mark is compared with the last one, which begins further on in the text and stands
behind no spaces. -/
theorem marks_iff_of_lines {e : ParseError} {text : String} (h : e.PointsInto text) {first last : List Char}
    (htext : text.toList = first ++ '\n' :: last) (hlast : '\n' ∉ last) :
    Marks (e.pointedAt text) text e.position ↔
      e.position + 2 ≤ last.length ∧ last[e.position + 2]? = text.toList[e.position]? := by
  have hindented : ("  " ++ text).toList = (' ' :: ' ' :: first) ++ '\n' :: last := by simp [htext]
  have hlines := textLines_pointedAt h.hasPlace text
  rw [textLines_concat hindented hlast, List.append_assoc, List.append_assoc, ← List.append_assoc] at hlines
  exact marks_iff_of_textLines hlines

/-- **The mark stands under the character that an error is about, in a text of one line.** Whatever the text that is
no filter, unless it is blank, the error is shown in the lines of its wording, those of the text behind two spaces,
and one of spaces and a caret. In a text of one line the character at the place of the error is above the caret, or
the text ends there. In a text of more lines only the last one is above the caret: it marks the place where that line
happens to have the same character in this column, and it never marks the end of the text. -/
theorem pointedAt_marks {limit : Nat} {text : String} {e : ParseError} (h : Filter.parse limit text = .error e)
    (hne : e ≠ .emptyInput) :
    textLines (e.pointedAt text) =
        textLines e.message ++ textLines ("  " ++ text) ++
          [List.replicate (e.position + 2) ' ' ++ ['^']] ∧
      ('\n' ∉ text.toList → Marks (e.pointedAt text) text e.position) ∧
      ∀ first last, text.toList = first ++ '\n' :: last → '\n' ∉ last →
        (Marks (e.pointedAt text) text e.position ↔
          e.position + 2 ≤ last.length ∧ last[e.position + 2]? = text.toList[e.position]?) :=
  have hpoints := Filter.pointsInto_of_parse h hne
  ⟨textLines_pointedAt hpoints.hasPlace text, marks_of_line hpoints,
    fun _ _ htext hlast => marks_iff_of_lines hpoints htext hlast⟩

/-- A group where an object is missing, behind characters of two and three bytes, in a text of one line. -/
theorem pointedAt_marks_wide :
    Filter.parse 64 "\"é€\" eq (1" = .error (.unexpectedToken "(" ["field reference", "literal"] 8) ∧
      Marks ((unexpectedToken "(" ["field reference", "literal"] 8).pointedAt "\"é€\" eq (1")
        "\"é€\" eq (1" 8 := by
  have ht : tokenize "\"é€\" eq (1" = .ok
      [⟨.string "é€", "\"é€\"", 0⟩, ⟨.operator .eq, "eq", 5⟩, ⟨.groupOpen, "(", 8⟩,
        ⟨.number (.int 1), "1", 9⟩] := by
    decide +kernel
  have he : Filter.parse 64 "\"é€\" eq (1" =
      .error (.unexpectedToken "(" ["field reference", "literal"] 8) := by
    rw [Filter.parse, ht, if_neg (by decide +kernel)]
    rfl
  exact ⟨he, (pointedAt_marks he (by decide)).2.1 (by decide)⟩

/-- In a text of two lines the caret is five columns to the right of its character, behind the end of the line
above it. -/
theorem pointedAt_not_marks :
    Filter.parse 64 "/a\neq # 1" = .error (.unexpectedCharacter '#' 6) ∧
      textLines ((unexpectedCharacter '#' 6).pointedAt "/a\neq # 1") =
        ["Unexpected character '#' at position 6".toList, "  /a".toList, "eq # 1".toList,
          "        ^".toList] ∧
      ¬ Marks ((unexpectedCharacter '#' 6).pointedAt "/a\neq # 1") "/a\neq # 1" 6 := by
  have ht : tokenize "/a\neq # 1" = .error (.unexpectedCharacter '#' 6) := by decide +kernel
  have he : Filter.parse 64 "/a\neq # 1" = .error (.unexpectedCharacter '#' 6) := by
    rw [Filter.parse, ht, if_neg (by decide +kernel)]
    rfl
  refine ⟨he, by decide +kernel, fun hmarks => ?_⟩
  have hpoints := Filter.pointsInto_of_parse he (by decide)
  have htext : "/a\neq # 1".toList = "/a".toList ++ '\n' :: "eq # 1".toList := by decide
  have hwithin := (marks_iff_of_lines hpoints htext (by decide)).mp hmarks
  exact absurd hwithin.1 (by decide)

end ParseError

end RecordFilter
