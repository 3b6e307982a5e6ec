import Mathlib
import RecordFilter.Command.Run
import RecordFilter.Proofs.Text.Percent

/-!
# Lines — a text and its lines

A line ends with a line feed or with a carriage return and a line feed; what follows the last line feed is a line
if there is anything. Every text has one row of lines, and its bytes are cut into the bytes of these lines, as no
other character has the byte of a line feed in it.

* `Text.Lines`: a text and its lines.
* `Text.existsUnique_lines`: every text has one row of lines.
* `Command.splitLines_bytesOf`: the bytes of a text are cut into the bytes of its lines.
* `Command.lines_outputLine`: what is written line by line has these lines.
-/

namespace RecordFilter

namespace Text

/-- A text and its lines, without what ends them. -/
inductive Lines : List Char → List (List Char) → Prop
  | nil : Lines [] []
  /-- The last line, with nothing that ends it. -/
  | last {line : List Char} (hne : line ≠ []) (hline : '\n' ∉ line) : Lines line [line]
  | feed {line text : List Char} {lines : List (List Char)} (hline : '\n' ∉ line)
      (hreturn : line.getLast? ≠ some '\r') (h : Lines text lines) : Lines (line ++ '\n' :: text) (line :: lines)
  | returnFeed {line text : List Char} {lines : List (List Char)} (hline : '\n' ∉ line) (h : Lines text lines) :
      Lines (line ++ '\r' :: '\n' :: text) (line :: lines)

theorem exists_lines (text : List Char) : ∃ lines, Lines text lines := by
  induction hlength : text.length using Nat.strong_induction_on generalizing text with
  | _ n ih =>
    by_cases hfeed : '\n' ∈ text
    · obtain ⟨line, rest, rfl, hline⟩ := List.eq_append_cons_of_mem hfeed
      have hshorter : rest.length < n := by
        rw [← hlength, List.length_append, List.length_cons]
        omega
      obtain ⟨lines, hlines⟩ := ih _ hshorter rest rfl
      by_cases hreturn : line.getLast? = some '\r'
      · obtain ⟨init, rfl⟩ := List.getLast?_eq_some_iff.mp hreturn
        rw [List.mem_append, not_or] at hline
        have h := Lines.returnFeed hline.1 hlines
        rw [List.append_assoc]
        exact ⟨_, h⟩
      · exact ⟨_, .feed hline hreturn hlines⟩
    · by_cases hne : text = []
      · exact ⟨[], hne ▸ .nil⟩
      · exact ⟨_, .last hne hfeed⟩

/-- The bytes of some characters. -/
def bytesOf (cs : List Char) : List UInt8 := cs.flatMap String.utf8EncodeChar

theorem bytesOf_append (cs ds : List Char) : bytesOf (cs ++ ds) = bytesOf cs ++ bytesOf ds := List.flatMap_append

theorem decode_bytesOf (cs : List Char) : Utf8.decode (bytesOf cs) = .ok (String.ofList cs) := by
  have h := Utf8.decode_encode (String.ofList cs)
  rwa [Utf8.encode, String.toList_ofList] at h

theorem bytesOf_injective : Function.Injective bytesOf := by
  intro cs ds h
  have hdecoded := congrArg Utf8.decode h
  rw [decode_bytesOf, decode_bytesOf, Except.ok.injEq] at hdecoded
  exact String.ofList_injective hdecoded

/-- The byte of an ASCII character stands in no other character. -/
theorem mem_utf8EncodeChar_iff {a c : Char} (ha : a.toNat < 0x80) :
    UInt8.ofNat a.toNat ∈ String.utf8EncodeChar c ↔ c = a := by
  have hbyte : (UInt8.ofNat a.toNat).toNat = a.toNat := UInt8.toNat_ofNat_of_lt (ha.trans (by decide))
  by_cases hc : c.toNat < 0x80
  · have hcbyte : (UInt8.ofNat c.toNat).toNat = c.toNat := UInt8.toNat_ofNat_of_lt (hc.trans (by decide))
    rw [Percent.utf8EncodeChar_of_ascii hc, List.mem_singleton]
    constructor
    · intro h
      have hnat : a.toNat = c.toNat := by rw [← hbyte, h, hcbyte]
      exact Char.toNat_inj.mp hnat.symm
    · rintro rfl
      rfl
  · constructor
    · intro h
      have hbeyond := Percent.le_of_mem_utf8EncodeChar (not_lt.mp hc) _ h
      omega
    · rintro rfl
      exact absurd ha hc

end Text

namespace Command

open Text

/-! ## Bytes cut into lines -/

section Bytes

variable {bytes rest : List UInt8}

theorem splitLinesFrom_append (h : lineFeed ∉ bytes) (line : List UInt8) :
    splitLinesFrom line (bytes ++ rest) = splitLinesFrom (bytes.reverse ++ line) rest := by
  induction bytes generalizing line with
  | nil => rfl
  | cons b bytes ih =>
    rw [List.mem_cons, not_or] at h
    have hb : b ≠ lineFeed := Ne.symm h.1
    rw [List.cons_append, splitLinesFrom, if_neg hb, ih h.2, List.reverse_cons, List.append_assoc]
    rfl

theorem splitLines_feed (h : lineFeed ∉ bytes) :
    splitLines (bytes ++ lineFeed :: rest) = dropReturn bytes :: splitLines rest := by
  rw [splitLines, splitLinesFrom_append h, List.append_nil, splitLinesFrom, if_pos rfl, List.reverse_reverse]
  rfl

theorem splitLines_last (h : lineFeed ∉ bytes) (hne : bytes ≠ []) : splitLines bytes = [bytes] := by
  have happend : splitLinesFrom [] (bytes ++ []) = splitLinesFrom (bytes.reverse ++ []) [] :=
    splitLinesFrom_append h []
  rw [List.append_nil, List.append_nil] at happend
  rw [splitLines, happend, splitLinesFrom, if_neg (by simpa using hne), List.reverse_reverse]

theorem dropReturn_append_return (bytes : List UInt8) : dropReturn (bytes ++ [13]) = bytes := by
  rw [dropReturn, if_pos List.getLast?_concat, List.dropLast_concat]

end Bytes

theorem lineFeed_mem_bytesOf_iff {cs : List Char} : lineFeed ∈ bytesOf cs ↔ '\n' ∈ cs := by
  have hfeed : ∀ c, lineFeed ∈ String.utf8EncodeChar c ↔ c = '\n' :=
    fun c => mem_utf8EncodeChar_iff (show '\n'.toNat < 0x80 by decide)
  rw [bytesOf, List.mem_flatMap]
  simp only [hfeed, exists_eq_right]

theorem dropReturn_bytesOf {line : List Char} (h : line.getLast? ≠ some '\r') :
    dropReturn (bytesOf line) = bytesOf line := by
  rw [dropReturn, if_neg]
  intro hlast
  rcases List.eq_nil_or_concat line with rfl | ⟨init, c, rfl⟩
  · cases hlast
  · have hbytes : bytesOf (init.concat c) = bytesOf init ++ String.utf8EncodeChar c := by
      rw [List.concat_eq_append, bytesOf_append]
      exact congrArg _ (List.flatMap_singleton ..)
    rw [hbytes, List.getLast?_append_of_ne_nil _ String.utf8EncodeChar_ne_nil] at hlast
    have hc : c = '\r' :=
      (mem_utf8EncodeChar_iff (show '\r'.toNat < 0x80 by decide)).mp (List.mem_of_getLast? hlast)
    rw [hc, List.concat_eq_append] at h
    exact h List.getLast?_concat

/-- **The bytes of a text are cut into the bytes of its lines.** -/
theorem splitLines_bytesOf {text : List Char} {lines : List (List Char)} (h : Lines text lines) :
    splitLines (bytesOf text) = lines.map bytesOf := by
  have hfree {line : List Char} (hline : '\n' ∉ line) : lineFeed ∉ bytesOf line :=
    fun h => hline (lineFeed_mem_bytesOf_iff.mp h)
  have hfeed (rest : List Char) : bytesOf ('\n' :: rest) = lineFeed :: bytesOf rest := rfl
  have hreturn (rest : List Char) : bytesOf ('\r' :: rest) = [13] ++ bytesOf rest := rfl
  induction h with
  | nil => rfl
  | @last line hne hline =>
    have hbytes : bytesOf line ≠ [] := fun h => hne (bytesOf_injective h)
    exact splitLines_last (hfree hline) hbytes
  | @feed line text lines hline hlast h ih =>
    rw [bytesOf_append, hfeed, splitLines_feed (hfree hline), dropReturn_bytesOf hlast, ih]
    rfl
  | @returnFeed line text lines hline h ih =>
    have hmarked : lineFeed ∉ bytesOf line ++ [13] := by
      rw [List.mem_append, not_or]
      exact ⟨hfree hline, by decide⟩
    rw [bytesOf_append, hreturn, hfeed, ← List.append_assoc, splitLines_feed hmarked, dropReturn_append_return, ih]
    rfl

end Command

namespace Text

/-- **Every text has one row of lines.** -/
theorem existsUnique_lines (text : List Char) : ∃! lines, Lines text lines := by
  obtain ⟨lines, hlines⟩ := exists_lines text
  refine ⟨lines, hlines, fun others hothers => ?_⟩
  have h : others.map bytesOf = lines.map bytesOf := by
    rw [← Command.splitLines_bytesOf hlines, ← Command.splitLines_bytesOf hothers]
  exact List.map_injective_iff.mpr bytesOf_injective h

end Text

namespace Command

open Text

/-- **What is written line by line has these lines.** -/
theorem lines_outputLine {names : List String} (h : ∀ name ∈ names, '\n' ∉ name.toList ∧ '\r' ∉ name.toList) :
    Lines (String.join (names.map outputLine)).toList (names.map String.toList) := by
  induction names with
  | nil => exact .nil
  | cons name names ih =>
    rw [List.forall_mem_cons] at h
    have hwritten : (String.join ((name :: names).map outputLine)).toList =
        name.toList ++ '\n' :: (String.join (names.map outputLine)).toList := by
      rw [List.map_cons, String.join_cons, outputLine, String.append_assoc, String.toList_append,
        String.toList_append]
      rfl
    rw [hwritten]
    refine .feed h.1.1 (fun hlast => ?_) (ih h.2)
    exact h.1.2 (List.mem_of_getLast? hlast)

end Command

end RecordFilter
