import Mathlib
import RecordFilter.Proofs.Command.Lines
import RecordFilter.Proofs.Command.Report

/-!
# Line input — the records of lines are those of a document

Records can be given as JSON texts on lines of their own or as the items of one array. However the texts are laid
out, with blank lines between them and either kind of line end, the lines have the records of the array, and so a
task writes and ends the same. The first line that holds no JSON text is named by its number among all lines.

* `Text.LaidOut`: texts on lines of their own.
* `Text.LaidOut.exists_lines`: the lines of such a text, blank ones aside, are the texts.
* `Json.allBlank_of_parse?`: no JSON text is blank.
* `Command.Spell`, `Command.readRecords_of_laidOut`: texts with their values, and what their lines are read as.
* `Command.FaultAfter`, `Command.readRecords_of_faultAfter`: the first line that cannot be read.
* `Command.Fed`: the bytes of the one source of a task.
* `Command.Task.run_lines`: lines and documents, and the first line at fault.
-/

namespace RecordFilter

/-! ## Layouts -/

namespace Text

/-- A line feed, or a carriage return and a line feed. -/
def IsLineEnd (e : List Char) : Prop := e = ['\n'] ∨ e = ['\r', '\n']

/-- What stands on a line: a text, or nothing but blanks. -/
inductive Carries : List Char → List String → Prop
  | text (t : String) : Carries t.toList [t]
  | blank {line : List Char} (hblank : line.all isBlank = true) (hfeed : '\n' ∉ line) : Carries line []

/-- Texts on lines of their own, one after the other, with blank lines anywhere. The last line may have nothing that
ends it. -/
inductive LaidOut : List String → List Char → Prop
  | last {line : List Char} {texts : List String} (hline : Carries line texts) : LaidOut texts line
  | line {line e rest : List Char} {texts others : List String} (hline : Carries line texts) (he : IsLineEnd e)
      (h : LaidOut others rest) : LaidOut (texts ++ others) (line ++ e ++ rest)

/-- A text that can stand on a line: there is something in it, no line feed, and no carriage return at its end. -/
structure FitsLine (t : String) : Prop where
  unbroken : '\n' ∉ t.toList
  unended : t.toList.getLast? ≠ some '\r'
  filled : allBlank t = false

/-- A line that is ended in either way is the first line, but for a carriage return at its end. -/
theorem Lines.cons {line e rest : List Char} {lines : List (List Char)} (hline : '\n' ∉ line) (he : IsLineEnd e)
    (h : Lines rest lines) :
    ∃ kept, Lines (line ++ e ++ rest) (kept :: lines) ∧ (kept = line ∨ line = kept ++ ['\r']) := by
  rcases he with rfl | rfl
  · rw [List.append_assoc]
    by_cases hreturn : line.getLast? = some '\r'
    · obtain ⟨init, rfl⟩ := List.getLast?_eq_some_iff.mp hreturn
      rw [List.mem_append, not_or] at hline
      rw [List.append_assoc]
      exact ⟨init, .returnFeed hline.1 h, .inr rfl⟩
    · exact ⟨line, .feed hline hreturn h, .inl rfl⟩
  · rw [List.append_assoc]
    exact ⟨line, .returnFeed hline h, .inl rfl⟩

/-- **The lines of texts that are laid out are these texts**, blank lines aside. -/
theorem LaidOut.exists_lines {texts : List String} {text : List Char} (h : LaidOut texts text)
    (htexts : ∀ t ∈ texts, FitsLine t) :
    ∃ lines, Lines text lines ∧ (lines.map String.ofList).filter (fun line => !allBlank line) = texts := by
  induction h with
  | @last line texts hline =>
    cases hline with
    | text t =>
      obtain ⟨hfeed, -, hfilled⟩ := htexts t List.mem_cons_self
      have hne : t.toList ≠ [] := by
        intro hempty
        rw [allBlank, hempty] at hfilled
        cases hfilled
      refine ⟨_, .last hne hfeed, ?_⟩
      simp [hfilled]
    | blank hblank hfeed =>
      by_cases hempty : line = []
      · exact ⟨[], hempty ▸ .nil, rfl⟩
      · refine ⟨_, .last hempty hfeed, ?_⟩
        simp [allBlank, hblank]
  | @line line e rest texts others hline he h ih =>
    obtain ⟨lines, hlines, hfilter⟩ := ih fun t ht => htexts t (List.mem_append_right _ ht)
    cases hline with
    | text t =>
      obtain ⟨hfeed, hended, hfilled⟩ := htexts t List.mem_cons_self
      obtain ⟨kept, hkept, hsame⟩ := hlines.cons hfeed he
      obtain rfl : kept = t.toList := by
        refine hsame.resolve_right fun hreturn => hended ?_
        rw [hreturn, List.getLast?_concat]
      refine ⟨_, hkept, ?_⟩
      simp [hfilled, hfilter]
    | blank hblank hfeed =>
      obtain ⟨kept, hkept, hsame⟩ := hlines.cons hfeed he
      have hkeptBlank : kept.all isBlank = true := by
        rcases hsame with rfl | rfl
        · exact hblank
        · rw [List.all_append, Bool.and_eq_true] at hblank
          exact hblank.1
      have hskip : allBlank (String.ofList kept) = true := by rwa [allBlank, String.toList_ofList]
      refine ⟨_, hkept, ?_⟩
      rw [List.map_cons, List.filter_cons_of_neg (by simp [hskip])]
      exact hfilter

end Text

open Text

/-! ## Blank texts -/

namespace Json

/-- No token begins with a blank. -/
theorem Token.next?_of_isBlank {c : Char} (h : isBlank c = true) (rest : List Char) : next? c rest = none := by
  have hne {d : Char} (hd : isBlank d = false) : c ≠ d := by
    rintro rfl
    rw [h] at hd
    cases hd
  unfold next?
  split
  case h_8 =>
    have hdigit : c.isDigit = false := by
      by_contra hdigit
      have hrange := Number.toNat_of_isDigit (by simpa using hdigit)
      simp only [isBlank, inRanges, blankRanges, List.any_cons, List.any_nil, Bool.or_eq_true, Bool.and_eq_true,
        decide_eq_true_eq, Bool.false_eq_true, or_false] at h
      omega
    have hword (letters : List Char) : word? (c :: letters) = none := by
      unfold word?
      split
      case h_4 => rfl
      all_goals
        next hletters =>
          have hc := congrArg (fun s => s.toList.head?) hletters
          simp only [String.toList_ofList, List.head?_cons] at hc
          exact absurd (Option.some.inj hc) (hne (by decide))
    have hminus : (c == '-') = false := beq_eq_false_iff_ne.mpr (hne (by decide))
    rw [hdigit, hminus, hword]
    rfl
  all_goals exact absurd rfl (hne (by decide))

/-- A blank text has no tokens. -/
theorem Token.scanFrom?_of_allBlank {s : List Char} (h : s.all isBlank = true) {done tokens : List Token} {room : Nat}
    (hscan : scanFrom? done room s = some tokens) : tokens = done.reverse := by
  induction s generalizing room with
  | nil =>
    rw [scanFrom?] at hscan
    exact (Option.some.inj hscan).symm
  | cons c s ih =>
    rw [List.all_cons, Bool.and_eq_true] at h
    cases room with
    | zero => cases hscan
    | succ room =>
      rw [scanFrom?, next?_of_isBlank h.1] at hscan
      split at hscan
      · exact ih h.2 hscan
      · cases hscan

/-- No JSON text is blank. -/
theorem allBlank_of_parse? {t : String} {v : Json} (h : parse? t = some v) : allBlank t = false := by
  by_contra hblank
  obtain ⟨tokens, hscan, hv⟩ := Option.bind_eq_some_iff.mp h
  rw [Token.scanFrom?_of_allBlank (by simpa [allBlank] using hblank) hscan] at hv
  cases hv

end Json

/-! ## Lines as records -/

namespace Command

/-- A line is blank or holds a JSON text. -/
def Readable (line : List Char) : Prop :=
  allBlank (String.ofList line) = true ∨ ∃ v, Json.parse? (String.ofList line) = some v

/-- The first line that is neither blank nor a JSON text is the one after the first `k`. -/
structure FaultAfter (lines : List (List Char)) (k : Nat) : Prop where
  fault : ∃ line, lines[k]? = some line ∧ ¬ Readable line
  before : ∀ j < k, ∀ line, lines[j]? = some line → Readable line

theorem FaultAfter.tail {line : List Char} {lines : List (List Char)} {k : Nat}
    (h : FaultAfter (line :: lines) (k + 1)) : FaultAfter lines k where
  fault := h.fault
  before := fun j hj other hother => h.before (j + 1) (by omega) other hother

/-- The text of an array, from the texts of its items. -/
def arrayText (texts : List String) : String := "[" ++ ",".intercalate texts ++ "]"

/-- Texts without line breaks that spell values, as the array of the texts spells the array of the values. -/
structure Spell (texts : List String) (values : List Json) : Prop where
  each : List.Forall₂ (fun t v => Json.parse? t = some v) texts values
  unbroken : ∀ t ∈ texts, '\n' ∉ t.toList ∧ t.toList.getLast? ≠ some '\r'
  array : Json.parse? (arrayText texts) = some (.array values)

theorem Spell.fitsLine {texts : List String} {values : List Json} (h : Spell texts values) :
    ∀ t ∈ texts, FitsLine t := by
  intro t ht
  obtain ⟨i, hi, rfl⟩ := List.getElem_of_mem ht
  have hparse := h.each.get hi (h.each.length_eq ▸ hi)
  exact ⟨(h.unbroken _ ht).1, (h.unbroken _ ht).2, Json.allBlank_of_parse? hparse⟩

theorem readLinesFrom_eq_ok {lines : List (List Char)} {texts : List String} {values : List Json} (source : String)
    (hlines : (lines.map String.ofList).filter (fun line => !allBlank line) = texts)
    (hvalues : List.Forall₂ (fun t v => Json.parse? t = some v) texts values) (number : Nat) :
    readLinesFrom source number (lines.map bytesOf) = .ok values := by
  induction lines generalizing texts values number with
  | nil =>
    subst hlines
    cases hvalues
    rfl
  | cons line lines ih =>
    rw [List.map_cons, List.filter_cons] at hlines
    rw [List.map_cons, readLinesFrom, decode_bytesOf]
    dsimp only
    by_cases hblank : allBlank (String.ofList line) = true
    · rw [if_neg (by simp [hblank])] at hlines
      rw [if_pos hblank]
      exact ih hlines hvalues _
    · rw [if_pos (by simpa using hblank)] at hlines
      subst hlines
      cases hvalues with
      | cons hvalue hvalues =>
        rw [if_neg hblank, hvalue]
        dsimp only
        rw [ih rfl hvalues]
        rfl

theorem readLinesFrom_eq_error {lines : List (List Char)} {k : Nat} (source : String) (h : FaultAfter lines k)
    (number : Nat) :
    readLinesFrom source number (lines.map bytesOf) = .error (.invalidLine source (number + k)) := by
  induction lines generalizing k number with
  | nil =>
    obtain ⟨line, hline, -⟩ := h.fault
    cases hline
  | cons first lines ih =>
    rw [List.map_cons, readLinesFrom, decode_bytesOf]
    dsimp only
    cases k with
    | zero =>
      obtain ⟨line, hline, hbad⟩ := h.fault
      cases hline
      rw [Readable, not_or, not_exists] at hbad
      rw [if_neg hbad.1, Option.eq_none_iff_forall_ne_some.mpr hbad.2]
      rfl
    | succ k =>
      rw [ih h.tail (number + 1), Nat.add_right_comm]
      rcases h.before 0 (Nat.succ_pos k) first rfl with hblank | ⟨v, hv⟩
      · rw [if_pos hblank]
        rfl
      · have hfilled := Json.allBlank_of_parse? hv
        rw [if_neg (by simp [hfilled]), hv]
        rfl

/-- **Texts on lines of their own are read as their values.** -/
theorem readRecords_of_laidOut {texts : List String} {values : List Json} {text : List Char} (source : String)
    (hspell : Spell texts values) (h : LaidOut texts text) : readRecords true source (bytesOf text) = .ok values := by
  obtain ⟨lines, hlines, hfilter⟩ := h.exists_lines hspell.fitsLine
  rw [readRecords, if_pos rfl, readLines, splitLines_bytesOf hlines]
  exact readLinesFrom_eq_ok source hfilter hspell.each 1

/-- The array of the texts is read as the same values. -/
theorem readRecords_arrayText {texts : List String} {values : List Json} (source : String)
    (hspell : Spell texts values) : readRecords false source (Utf8.encode (arrayText texts)) = .ok values := by
  rw [readRecords, if_neg Bool.false_ne_true, readDocument, Utf8.decode_encode]
  dsimp only
  rw [hspell.array]
  rfl

/-- **The first line that cannot be read is named by its number**, counted from 1. -/
theorem readRecords_of_faultAfter {text : List Char} {lines : List (List Char)} {k : Nat} (source : String)
    (hlines : Lines text lines) (h : FaultAfter lines k) :
    readRecords true source (bytesOf text) = .error (.invalidLine source (k + 1)) := by
  rw [readRecords, if_pos rfl, readLines, splitLines_bytesOf hlines, readLinesFrom_eq_error source h, Nat.add_comm]

/-! ## One source -/

/-- The bytes of the one source of a task and what it is called: the input if no file is named, or the one file that
is. -/
inductive Fed (w : Surroundings) : List String → String → List UInt8 → Prop
  | input : Fed w [] inputName w.input
  | file {bytes : List UInt8} (path : String) (h : w.directory.read path = .ok bytes) : Fed w [path] path bytes

theorem Fed.taskRecords_eq {w : Surroundings} {files : List String} {source : String} {bytes : List UInt8}
    (h : Fed w files source bytes) (lines : Bool) : taskRecords w files lines = readRecords lines source bytes := by
  cases h with
  | input => rfl
  | file _ h =>
    have hfile : readFileRecords w.directory lines source = readRecords lines source bytes := by
      rw [readFileRecords, h]
    rw [taskRecords, if_neg (by simp), readFiles, hfile]
    cases readRecords lines source bytes with
    | error e => rfl
    | ok records => exact congrArg Except.ok (List.append_nil records)

/-- A line for each record does not hang on how they were given. -/
theorem report_lines (compiler : Wildcard.Compiler) (s : Settings) (lines lines' : Bool) (f : Filter)
    (records : List Json) :
    report compiler s lines false f records = report compiler s lines' false f records := by
  induction records with
  | nil => rfl
  | cons record rest ih =>
    rw [report, report, ih]
    rfl

theorem runRecords_congr {w w' : Surroundings} {files files' : List String} {lines lines' : Bool}
    (h : taskRecords w files lines = taskRecords w' files' lines') (compiler : Wildcard.Compiler) (s : Settings)
    (expression : String) (exitStatus encoded : Bool) :
    runRecords compiler s w expression files lines false exitStatus encoded =
      runRecords compiler s w' expression files' lines' false exitStatus encoded := by
  rw [runRecords, runRecords, h]
  cases readExpression s expression encoded with
  | error e => rfl
  | ok f =>
    cases taskRecords w' files' lines' with
    | error e => rfl
    | ok records =>
      dsimp only
      rw [report_lines compiler s lines lines']

/-! ## Tasks -/

/-- **Lines and documents have the same records, and the first line at fault is named.** Where texts that spell values
are laid out on lines in any way, a task that writes a line for every record writes and ends the same for the lines as
for the array of the texts; if its expression is a filter, it writes a line for every value. Where a line of a text
neither is blank nor holds a JSON text, a task whose expression is a filter writes nothing and names the first such
line by its number, counted from 1 among all lines. -/
theorem Task.run_lines (compiler : Wildcard.Compiler) (s : Settings) (expression : String)
    (exitStatus encoded : Bool) :
    (∀ w w' files files' source source' texts values text, Spell texts values → LaidOut texts text →
      Fed w files source (bytesOf text) → Fed w' files' source' (Utf8.encode (arrayText texts)) →
      let lines := Task.run compiler s w (.records expression files true false exitStatus encoded)
      let document := Task.run compiler s w' (.records expression files' false false exitStatus encoded)
      lines.output = document.output ∧ lines.result = document.result ∧
        ∀ f, readExpression s expression encoded = .ok f →
          lines.output = (report compiler s true false f values).1) ∧
    ∀ f w files source text lines k select, readExpression s expression encoded = .ok f →
      Fed w files source (bytesOf text) → Lines text lines → FaultAfter lines k →
      ∃ e : RunError, Task.run compiler s w (.records expression files true select exitStatus encoded) =
          ⟨"", w.directory, .error e⟩ ∧
        e = .input (.invalidLine source (k + 1)) ∧ e.message = s!"Input error: {source}:{k + 1}: invalid JSON" := by
  refine ⟨?_, ?_⟩
  · intro w w' files files' source source' texts values text hspell hlaid hfed hfed'
    have hlines : taskRecords w files true = .ok values := by
      rw [hfed.taskRecords_eq, readRecords_of_laidOut source hspell hlaid]
    have hdocument : taskRecords w' files' false = .ok values := by
      rw [hfed'.taskRecords_eq, readRecords_arrayText source' hspell]
    have hrun := runRecords_congr (hlines.trans hdocument.symm) compiler s expression exitStatus encoded
    refine ⟨congrArg Prod.fst hrun, congrArg Prod.snd hrun, fun f hf => ?_⟩
    rw [Task.run, runRecords, hf, hlines]
    dsimp only
    cases (report compiler s true false f values).2 <;> rfl
  · intro f w files source text lines k select hf hfed hlines hfault
    have hrecords : taskRecords w files true = .error (.invalidLine source (k + 1)) := by
      rw [hfed.taskRecords_eq, readRecords_of_faultAfter source hlines hfault]
    refine ⟨_, ?_, rfl, rfl⟩
    rw [Task.run, runRecords, hf, hrecords]

/-- Two records with a blank line between them and both kinds of line ends, the last line without any; the second
record is an array. Then an input whose fourth line is no JSON text, after two blank lines. -/
theorem Task.run_lines_blank :
    let w (input : String) : Surroundings := ⟨⟨[], []⟩, [], none, Utf8.encode input⟩
    let lines := Task.run .standard {} (w "\x7b\"n\": 2\x7d\r\n \t\n[1]") (.records "/n gt 1" [] true false true false)
    let document := Task.run .standard {} (w "[\x7b\"n\": 2\x7d,[1]]") (.records "/n gt 1" [] false false true false)
    (lines.output = document.output ∧ lines.result = document.result ∧ lines.output = "true\nfalse\n") ∧
      ∃ e : RunError, Task.run .standard {} (w "1\r\n\n \r\nnope\n[") (.records "/n gt 1" [] true false true false) =
          ⟨"", ⟨[], []⟩, .error e⟩ ∧
        e.message = "Input error: <stdin>:4: invalid JSON" := by
  intro w lines document
  refine ⟨?_, ?_⟩
  · obtain ⟨hsame, -⟩ := run_lines .standard {} "/n gt 1" true false
    have hspell : Spell ["\x7b\"n\": 2\x7d", "[1]"] [.object [("n", .number (.int 2))], .array [.number (.int 1)]] :=
      ⟨.cons rfl (.cons rfl .nil), by decide +kernel, rfl⟩
    have hlaid : LaidOut ["\x7b\"n\": 2\x7d", "[1]"] "\x7b\"n\": 2\x7d\r\n \t\n[1]".toList := by
      have htext : "\x7b\"n\": 2\x7d\r\n \t\n[1]".toList =
          "\x7b\"n\": 2\x7d".toList ++ ['\r', '\n'] ++ ([' ', '\t'] ++ ['\n'] ++ "[1]".toList) := by
        decide +kernel
      rw [htext]
      exact .line (.text _) (.inr rfl) (.line (.blank (by decide) (by decide)) (.inl rfl) (.last (.text _)))
    obtain ⟨houtput, hresult, -⟩ := hsame (w "\x7b\"n\": 2\x7d\r\n \t\n[1]") (w "[\x7b\"n\": 2\x7d,[1]]") [] []
      inputName inputName _ _ _ hspell hlaid .input .input
    exact ⟨houtput, hresult, by decide +kernel⟩
  · obtain ⟨f, hf⟩ : ∃ f, readExpression {} "/n gt 1" false = .ok f := by
      cases h : readExpression {} "/n gt 1" false with
      | ok f => exact ⟨f, rfl⟩
      | error e =>
        have hsome : (readExpression {} "/n gt 1" false).toOption.isSome = true := by decide +kernel
        rw [h] at hsome
        cases hsome
    have hlines : Lines "1\r\n\n \r\nnope\n[".toList [['1'], [], [' '], ['n', 'o', 'p', 'e'], ['[']] := by
      have htext : "1\r\n\n \r\nnope\n[".toList = ['1'] ++ '\r' :: '\n' :: ([] ++ '\n' ::
          ([' '] ++ '\r' :: '\n' :: (['n', 'o', 'p', 'e'] ++ '\n' :: ['[']))) := by
        decide +kernel
      rw [htext]
      exact .returnFeed (by decide) (.feed (by decide) (by decide) (.returnFeed (by decide)
        (.feed (by decide) (by decide) (.last (by decide) (by decide)))))
    have hfault : FaultAfter [['1'], [], [' '], ['n', 'o', 'p', 'e'], ['[']] 3 := by
      refine ⟨⟨_, rfl, ?_⟩, ?_⟩
      · have hnone : (Json.parse? (String.ofList ['n', 'o', 'p', 'e'])).isNone = true := by decide +kernel
        rintro (hblank | ⟨v, hv⟩)
        · exact absurd hblank (by decide)
        · rw [hv] at hnone
          cases hnone
      · intro j hj line hline
        interval_cases j
        · cases hline
          exact .inr ⟨.number (.int 1), rfl⟩
        · cases hline
          exact .inl rfl
        · cases hline
          exact .inl (by decide)
    obtain ⟨-, hnamed⟩ := run_lines .standard {} "/n gt 1" true false
    obtain ⟨e, hrun, -, hmessage⟩ :=
      hnamed f (w "1\r\n\n \r\nnope\n[") [] inputName _ _ 3 false hf .input hlines hfault
    exact ⟨e, hrun, hmessage⟩

end Command

end RecordFilter
