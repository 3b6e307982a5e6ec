import Mathlib
import RecordFilter.Expression.Parse
import RecordFilter.Filter.Text
import RecordFilter.Proofs.Expression.Derivation
import RecordFilter.Proofs.Expression.Transition
import RecordFilter.Proofs.Filter.FieldPath
import RecordFilter.Proofs.Number.Shortest

/-!
# Lexing — how a written text is cut into tokens

What is cut off depends on what follows, so every statement about the text of a lexeme is made in
front of an arbitrary rest: a literal needs a delimiter or the end there, a field a separator, a
parenthesis or the end.

* `Text.fitsQuotes_of_closing?`, `Lexeme.check_of_numeralValue?`: literals that are cut off can be written.
* `CutsOff`: a lexeme is cut off in front of a rest.
* `Scalar.cutsOff_chars`, `Operand.cutsOff_chars`: the literals, the operands.
* `Spells`, `CutsOff.spells`: a text is cut into tokens of certain kinds.
-/

namespace RecordFilter

open Number Text Grammar

/-! ## Literals that are cut off, texts without tokens -/

theorem Text.endsLiteral_of_take {s : List Char} {n : Nat} (hne : (s.take n).isEmpty = false)
    (h : endsLiteral (s.take n) = true) : endsLiteral s = true := by
  cases s with
  | nil => rfl
  | cons c rest =>
    cases n with
    | zero => simp at hne
    | succ n => exact h

/-- What stands before the closing quote can be written between quotes. -/
theorem Text.fitsQuotes_of_closing? {s : List Char} {n : Nat} (h : closing? s = some n) :
    fitsQuotes (s.take n) = true := by
  induction s generalizing n with
  | nil => simp [closing?] at h
  | cons c rest ih =>
    rw [closing?] at h
    split at h
    · cases h; rfl
    · next hc =>
      obtain ⟨m, hm, rfl⟩ := Option.map_eq_some_iff.mp h
      rw [List.take_succ_cons, fitsQuotes, ih hm, Bool.and_true]
      -- a quote before a delimiter would have closed the literal
      by_contra hcut
      rw [Bool.not_eq_true', Bool.not_eq_false] at hcut
      simp only [Bool.and_eq_true, Bool.not_eq_true'] at hcut
      obtain ⟨⟨hquote, hne⟩, hends⟩ := hcut
      rw [hquote, endsLiteral_of_take hne hends] at hc
      exact hc rfl

theorem Lexeme.check_of_numeralValue? {n : Numeral} {v : Scalar} (h : numeralValue? n = some v) :
    v.check = .ok () := by
  unfold numeralValue? at h
  split at h
  · cases h; rfl
  · split at h
    · next hfinite =>
      cases h
      simp [Scalar.check, hfinite]
    · cases h

theorem Text.isBlank_of_graphic {c : Char} (h : 0x20 < c.toNat ∧ c.toNat < 0x7f) :
    isBlank c = false := by
  simp only [isBlank, inRanges, blankRanges, List.any_cons, List.any_nil, Bool.or_false,
    Bool.or_eq_false_iff, Bool.and_eq_false_iff, decide_eq_false_iff_not]
  omega

theorem Text.toNat_of_isAlpha {c : Char} (h : c.isAlpha = true) :
    (0x41 ≤ c.toNat ∧ c.toNat ≤ 0x5a) ∨ (0x61 ≤ c.toNat ∧ c.toNat ≤ 0x7a) := by
  simpa [Char.isAlpha, Char.isUpper, Char.isLower, UInt32.le_iff_toNat_le] using h

theorem Lexeme.isBlank_of_next {position : Nat} {c : Char} {rest : List Char} {l : Lexeme}
    (h : next position c rest = .ok l) : isBlank c = false := by
  unfold next at h
  split at h
  case h_8 =>
    apply isBlank_of_graphic
    split at h
    · next hc =>
      rw [Bool.or_eq_true, beq_iff_eq] at hc
      rcases hc with rfl | hc
      · decide
      · have := toNat_of_isDigit hc
        omega
    · split at h
      · next hc =>
        have := toNat_of_isAlpha hc
        omega
      · cases h
  all_goals decide

/-- A text of blanks has no tokens. -/
theorem Token.eq_nil_of_scan_blank {position : Nat} {s : List Char} {ts : List Token}
    (h : scan position s = .ok ts) (hs : s.all isBlank = true) : ts = [] := by
  fun_induction scan position s generalizing ts with
  | case1 => cases h; rfl
  | case2 position c rest hspace ih =>
    rw [List.all_cons, Bool.and_eq_true] at hs
    exact ih h hs.2
  | case3 => cases h
  | case4 => cases h
  | case5 position c rest hspace lexeme hnext tokens hscan ih =>
    rw [List.all_cons, Lexeme.isBlank_of_next hnext] at hs
    cases hs

/-- A text with a token is read by its tokens. -/
theorem Filter.parse_of_tokenize {text : String} {ts : List Token} (ht : tokenize text = .ok ts) (hne : ts ≠ [])
    (limit : Nat) : Filter.parse limit text = ofTokens limit text.length ts := by
  unfold Filter.parse
  split
  · next hblank => exact absurd (Token.eq_nil_of_scan_blank ht hblank) hne
  · rw [ht]
    rfl

/-! ## A lexeme in front of a rest -/

/-- In front of `rest`, the characters `cs` are cut off as a token of kind `k`. -/
def CutsOff (cs : List Char) (k : Token.Kind) (rest : List Char) : Prop :=
  ∃ c tail, cs = c :: tail ∧ isSpace c = false ∧
    ∀ position, Lexeme.next position c (tail ++ rest) = .ok ⟨k, tail.length⟩

/-- What may follow a field, an object, a term and a filter. -/
def EndsTerm (rest : List Char) : Prop := ∀ c ∈ rest.head?, c = ' ' ∨ c = ')'

theorem EndsTerm.nil : EndsTerm [] := by simp [EndsTerm]

theorem EndsTerm.space (rest : List Char) : EndsTerm (' ' :: rest) := by simp [EndsTerm]

theorem EndsTerm.close (rest : List Char) : EndsTerm (')' :: rest) := by simp [EndsTerm]

theorem EndsTerm.breaksPath {rest : List Char} (h : EndsTerm rest) :
    ∀ c ∈ rest.head?, breaksPath c = true := by
  intro c hc
  rcases h c hc with rfl | rfl <;> rfl

theorem EndsTerm.endsLiteral {rest : List Char} (h : EndsTerm rest) : endsLiteral rest = true := by
  cases rest with
  | nil => rfl
  | cons c rest => rcases h c rfl with rfl | rfl <;> rfl

/-- The mark that is a token by itself, whatever follows it. -/
def Token.Kind.mark? : Token.Kind → Option Char
  | groupOpen => some '('
  | groupClose => some ')'
  | arrayOpen => some '['
  | arrayClose => some ']'
  | comma => some ','
  | _ => none

theorem cutsOff_mark (k : Token.Kind) {c : Char} (h : k.mark? = some c) (rest : List Char) : CutsOff [c] k rest := by
  cases k <;> cases h <;> exact ⟨_, [], rfl, by decide, fun _ => rfl⟩

/-- The closing quote of a content that fits is the one written after it. -/
theorem closing?_of_fitsQuotes {s rest : List Char} (h : fitsQuotes s = true)
    (hr : endsLiteral rest = true) : closing? (s ++ '"' :: rest) = some s.length := by
  induction s with
  | nil => simp [closing?, hr]
  | cons c s ih =>
    simp only [fitsQuotes, Bool.and_eq_true, Bool.not_eq_true'] at h
    obtain ⟨hc, hs⟩ := h
    -- behind the last character stands a quote, which is no delimiter
    have hopen : (c == '"' && endsLiteral (s ++ '"' :: rest)) = false := by
      cases s with
      | nil => simp [endsLiteral, isDelimiter, isSpace]
      | cons d s => simpa [endsLiteral] using hc
    simp [closing?, hopen, ih hs]

theorem cutsOff_string {s : String} (h : fitsQuotes s.toList = true) {rest : List Char}
    (hr : endsLiteral rest = true) : CutsOff (Scalar.quotedChars s) (.string s) rest := by
  refine ⟨'"', s.toList ++ ['"'], rfl, by decide, fun position => ?_⟩
  have happ : s.toList ++ ['"'] ++ rest = s.toList ++ '"' :: rest := by simp
  have hclose := closing?_of_fitsQuotes h hr
  simp only [Lexeme.next, Lexeme.string, happ, hclose, List.take_left, String.ofList_toList,
    List.length_append, List.length_singleton]

theorem cutsOff_field (p : FieldPath) {rest : List Char} (hr : ∀ c ∈ rest.head?, breaksPath c = true) :
    CutsOff p.chars (.field p) rest := by
  obtain ⟨first, others, -, hchars⟩ := p.chars_eq
  refine ⟨'/', _, hchars, by decide, fun position => ?_⟩
  have hspan : (p.chars ++ rest).takeWhile (fun c => !breaksPath c) = p.chars := by
    refine takeWhile_stop (fun c hc => ?_) fun c hc => ?_
    · simp [FieldPath.breaksPath_of_mem_chars hc]
    · simp [hr c hc]
  have hnext : ∀ s, Lexeme.next position '/' s = Lexeme.field position ('/' :: s) := fun _ => rfl
  rw [hnext, ← List.cons_append, ← hchars, Lexeme.field, hspan, FieldPath.parse_chars]
  simp [hchars]

theorem Lexeme.next_of_numeral {c : Char} (hc : c = '-' ∨ c.isDigit = true) (position : Nat)
    (s : List Char) : next position c s = number position (c :: s) := by
  unfold next
  split
  case h_8 => exact if_pos (by simpa using hc)
  all_goals exact absurd hc (by decide)

theorem Lexeme.numeral_of_isAlpha {c : Char} (hc : c.isAlpha = true) :
    (c == '-' || c.isDigit) = false := by
  have halpha := toNat_of_isAlpha hc
  by_contra h
  rw [Bool.not_eq_false, Bool.or_eq_true, beq_iff_eq] at h
  rcases h with rfl | h
  · exact absurd hc (by decide)
  · have := toNat_of_isDigit h
    omega

theorem Lexeme.next_of_isAlpha {c : Char} (hc : c.isAlpha = true) (position : Nat)
    (s : List Char) : next position c s = word position (c :: s) := by
  have hdigit := numeral_of_isAlpha hc
  unfold next
  split
  case h_8 => simp [hdigit, hc]
  all_goals exact absurd hc (by decide)

theorem isSpace_of_numeral {c : Char} (hc : c = '-' ∨ c.isDigit = true) : isSpace c = false := by
  by_contra h
  simp only [isSpace, Bool.not_eq_false, Bool.or_eq_true, beq_iff_eq] at h
  rcases h with (((rfl | rfl) | rfl) | rfl) | rfl <;> exact absurd hc (by decide)

theorem cutsOff_number {n : Numeral} (hn : n.WellFormed) {v : Scalar}
    (hv : Lexeme.numeralValue? n = some v) {rest : List Char} (hr : endsLiteral rest = true) :
    CutsOff n.chars (.number v) rest := by
  obtain ⟨c, tail, hchars⟩ := List.exists_cons_of_ne_nil (Numeral.chars_ne_nil hn)
  obtain ⟨d, hd, hbegin⟩ := Numeral.head?_chars hn
  obtain rfl : c = d := by simpa [hchars] using hd
  have hsplit := Numeral.split?_chars hn (endsNumeral_of_endsLiteral hr)
  refine ⟨c, tail, hchars, isSpace_of_numeral hbegin, fun position => ?_⟩
  rw [Lexeme.next_of_numeral hbegin, ← List.cons_append, ← hchars, Lexeme.number, hsplit]
  simp [hr, hv, hchars]

/-- The kind of token that a word is. -/
def Keyword.kind : Keyword → Token.Kind
  | operator o => .operator o
  | joiner j => .joiner j
  | boolean b => .boolean b

theorem Keyword.find?_text (w : Keyword) : find? w.text = some w := by
  rcases w with o | j | b
  · cases o <;> rfl
  · cases j <;> rfl
  · cases b <;> rfl

theorem Keyword.text_letters (w : Keyword) :
    ∃ c tail, w.text.toList = c :: tail ∧ c.isAlpha = true ∧ isSpace c = false ∧
      ∀ d ∈ c :: tail, Lexeme.isWordChar d = true := by
  rcases w with o | j | b
  · cases o <;> simp [text, Operator.keyword, isSpace, Lexeme.isWordChar]
  · cases j <;> simp [text, Joiner.keyword, isSpace, Lexeme.isWordChar]
  · cases b <;> simp [text, isSpace, Lexeme.isWordChar]

theorem Lexeme.not_isWordChar_of_endsLiteral {rest : List Char} (hr : endsLiteral rest = true) :
    ∀ c ∈ rest.head?, isWordChar c = false := by
  cases rest with
  | nil => simp
  | cons c rest =>
    intro d hd
    obtain rfl : c = d := by simpa using hd
    simp only [endsLiteral, isDelimiter, isSpace, Bool.or_eq_true, beq_iff_eq] at hr
    rcases hr with ((((((rfl | rfl) | rfl) | rfl) | rfl) | rfl) | rfl) | rfl <;> decide

theorem EndsTerm.not_isWordChar {rest : List Char} (h : EndsTerm rest) :
    ∀ c ∈ rest.head?, Lexeme.isWordChar c = false :=
  Lexeme.not_isWordChar_of_endsLiteral h.endsLiteral

theorem cutsOff_word (w : Keyword) {rest : List Char}
    (hr : ∀ c ∈ rest.head?, Lexeme.isWordChar c = false) : CutsOff w.text.toList w.kind rest := by
  obtain ⟨c, tail, hchars, halpha, hspace, hletters⟩ := w.text_letters
  refine ⟨c, tail, hchars, hspace, fun position => ?_⟩
  have hspan := takeWhile_stop hletters hr
  have htext : String.ofList (c :: tail) = w.text := by rw [← hchars, String.ofList_toList]
  rw [Lexeme.next_of_isAlpha halpha, ← List.cons_append, Lexeme.word, hspan]
  simp only [htext, Keyword.find?_text, List.length_cons, Nat.add_sub_cancel]
  cases w <;> rfl

/-! ## Literals and operands -/

/-- The text of a literal that can be written is cut off as one token of its value. -/
theorem Scalar.cutsOff_chars {v : Scalar} (h : v.check = .ok ()) :
    ∃ k, IsLiteral k v ∧ ∀ rest, endsLiteral rest = true → CutsOff v.chars k rest := by
  cases v with
  | string s =>
    exact ⟨_, .string s, fun rest hr => cutsOff_string (fitsQuotes_of_checkString h) hr⟩
  | bool b =>
    refine ⟨_, .boolean b, fun rest hr => ?_⟩
    have hchars : (Scalar.bool b).chars = (Keyword.boolean b).text.toList := by cases b <;> rfl
    rw [hchars]
    exact cutsOff_word (.boolean b) (Lexeme.not_isWordChar_of_endsLiteral hr)
  | int i =>
    refine ⟨_, .number (.int i), fun rest hr => ?_⟩
    rw [chars, ← Numeral.chars_ofInt]
    refine cutsOff_number (Numeral.ofInt_wellFormed _) ?_ hr
    simp [Lexeme.numeralValue?, Numeral.isWhole_ofInt, Numeral.integerValue_ofInt, int64?_toInt]
  | float x =>
    cases x with
    | nan => cases h
    | infinite negative => cases h
    | finite x =>
      obtain ⟨n, hn, hchars, hwhole, hvalue⟩ := layout.write_reads x
      refine ⟨_, .number (.float (.finite x)), fun rest hr => ?_⟩
      rw [chars, Binary64.chars, hchars]
      exact cutsOff_number hn (by simp [Lexeme.numeralValue?, hwhole, hvalue, Binary64.isFinite]) hr

theorem Operand.cutsOff_chars {o : Operand} (h : o.check = .ok ()) :
    ∃ k, IsOperand k o ∧ ∀ rest, EndsTerm rest → CutsOff o.chars k rest := by
  cases o with
  | field p => exact ⟨_, .field p, fun rest hr => cutsOff_field p hr.breaksPath⟩
  | literal v =>
    obtain ⟨k, hk, hcuts⟩ := Scalar.cutsOff_chars h
    exact ⟨k, .literal hk, fun rest hr => hcuts rest hr.endsLiteral⟩

/-! ## Texts -/

/-- Wherever the text stands, it is cut into tokens of these kinds. -/
def Spells (s : List Char) (ks : List Token.Kind) : Prop :=
  ∀ position, ∃ ts, Token.scan position s = .ok ts ∧ ts.map (·.kind) = ks

theorem Spells.nil : Spells [] [] := fun _ => ⟨[], by rw [Token.scan], rfl⟩

theorem Spells.of_isSpace {c : Char} (hc : isSpace c = true) {s : List Char} {ks : List Token.Kind}
    (h : Spells s ks) : Spells (c :: s) ks := by
  intro position
  rw [Token.scan, if_pos hc]
  exact h (position + 1)

theorem Spells.space {s : List Char} {ks : List Token.Kind} (h : Spells s ks) :
    Spells (' ' :: s) ks :=
  h.of_isSpace (by decide)

theorem CutsOff.scan {cs rest : List Char} {k : Token.Kind} {position : Nat} {ts : List Token}
    (hc : CutsOff cs k rest) (h : Token.scan (position + cs.length) rest = .ok ts) :
    Token.scan position (cs ++ rest) = .ok (⟨k, String.ofList cs, position⟩ :: ts) := by
  obtain ⟨c, tail, rfl, hspace, hnext⟩ := hc
  rw [List.cons_append, Token.scan, if_neg (by simp [hspace]), hnext]
  dsimp only
  rw [List.drop_left, List.take_left, ← List.length_cons, h]

theorem CutsOff.spells {cs rest : List Char} {k : Token.Kind} {ks : List Token.Kind}
    (hc : CutsOff cs k rest) (h : Spells rest ks) : Spells (cs ++ rest) (k :: ks) := by
  intro position
  obtain ⟨ts, hscan, hts⟩ := h (position + cs.length)
  exact ⟨_, hc.scan hscan, by rw [List.map_cons, hts]⟩

end RecordFilter
