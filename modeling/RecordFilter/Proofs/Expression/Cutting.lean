import Mathlib
import RecordFilter.Proofs.Expression.Lexing
import RecordFilter.Proofs.Filter.PathText

/-!
# Cutting — which texts are cut into which tokens

Every kind of token has its texts, and what may follow such a text directly; both are said here
without a word on how a text is scanned. A text is cut into tokens if it is their texts, each before
something that may follow it, with separators between them. Scanning finds just these tokens.

* `Token.Kind.IsText`, `Token.Kind.MayPrecede`: the texts of a kind, and what may follow them.
* `Token.Kind.IsText.cutsOff`, `Lexeme.heads_of_next`: a text of a kind is cut off, and nothing else is.
* `CutInto`, `Token.scan_eq_ok_iff`: the tokens of a text.
* `CutInto.stands`, `CutInto.apart`, `CutInto.exists_gaps`: where they stand, and what is between them.
* `Token.writable_of_scan`, `Token.scan_increasing`: literals can be written again, and positions grow.
* `tokenize_lossless`: no character but separators is lost, and positions count characters.
-/

namespace RecordFilter

open Number Text

/-! ## Texts of tokens -/

/-- The texts of the tokens of a kind. -/
inductive Token.Kind.IsText : Token.Kind → List Char → Prop
  | groupOpen : IsText .groupOpen ['(']
  | groupClose : IsText .groupClose [')']
  | arrayOpen : IsText .arrayOpen ['[']
  | arrayClose : IsText .arrayClose [']']
  | comma : IsText .comma [',']
  | field (p : FieldPath) : IsText (.field p) p.chars
  | string {s : String} (h : fitsQuotes s.toList = true) : IsText (.string s) (Scalar.quotedChars s)
  | number {n : Numeral} {v : Scalar} (hn : n.WellFormed) (hv : Lexeme.numeralValue? n = some v) :
      IsText (.number v) n.chars
  | operator (o : Operator) : IsText (.operator o) (Keyword.operator o).text.toList
  | joiner (j : Joiner) : IsText (.joiner j) (Keyword.joiner j).text.toList
  | boolean (b : Bool) : IsText (.boolean b) (Keyword.boolean b).text.toList

/-- What may follow a token of this kind directly. -/
def Token.Kind.MayPrecede : Token.Kind → List Char → Prop
  | .field _, rest => ∀ c ∈ rest.head?, breaksPath c = true
  | .string _, rest | .number _, rest => endsLiteral rest = true
  | .operator _, rest | .joiner _, rest | .boolean _, rest =>
    ∀ c ∈ rest.head?, Lexeme.isWordChar c = false
  | .groupOpen, _ | .groupClose, _ | .arrayOpen, _ | .arrayClose, _ | .comma, _ => True

namespace Token.Kind

variable {k : Token.Kind} {cs rest : List Char}

/-- A text of a token is cut off in front of what may follow it. -/
theorem IsText.cutsOff (h : k.IsText cs) (hr : k.MayPrecede rest) : CutsOff cs k rest := by
  cases h with
  | groupOpen | groupClose | arrayOpen | arrayClose | comma => exact cutsOff_mark _ rfl rest
  | field p => exact cutsOff_field p hr
  | string hs => exact cutsOff_string hs hr
  | number hn hv => exact cutsOff_number hn hv hr
  | operator o => exact cutsOff_word (.operator o) hr
  | joiner j => exact cutsOff_word (.joiner j) hr
  | boolean b => exact cutsOff_word (.boolean b) hr

/-- Nothing may follow every token. -/
theorem MayPrecede.nil (k : Token.Kind) : k.MayPrecede [] := by
  cases k <;> simp [MayPrecede, endsLiteral]

/-- The literal that a token is can be written again. -/
theorem IsText.writable (h : k.IsText cs) : k.Writable := by
  intro v hv
  cases h with
  | string hs =>
    cases hv
    exact checkString_of_fitsQuotes hs
  | number hn hvalue =>
    cases hv
    exact Lexeme.check_of_numeralValue? hvalue
  | boolean b =>
    cases hv
    rfl
  | _ => cases hv

theorem IsText.ne_nil (h : k.IsText cs) : cs ≠ [] := by
  obtain ⟨c, tail, rfl, -⟩ := h.cutsOff (.nil k)
  simp

end Token.Kind

/-! ## What is cut off -/

/-- The closing quote, and what follows it. -/
theorem Text.exists_of_closing? {s : List Char} {n : Nat} (h : closing? s = some n) :
    ∃ rest, s = s.take n ++ '"' :: rest ∧ (s.take n).length = n ∧ endsLiteral rest = true := by
  induction s generalizing n with
  | nil => cases h
  | cons c s ih =>
    rw [closing?] at h
    split at h
    · next hclose =>
      cases h
      rw [Bool.and_eq_true, beq_iff_eq] at hclose
      obtain ⟨rfl, hends⟩ := hclose
      exact ⟨s, rfl, rfl, hends⟩
    · obtain ⟨m, hm, rfl⟩ := Option.map_eq_some_iff.mp h
      obtain ⟨rest, hs, hlength, hends⟩ := ih hm
      refine ⟨rest, ?_, ?_, hends⟩
      · rw [List.take_succ_cons, List.cons_append, ← hs]
      · rw [List.take_succ_cons, List.length_cons, hlength]

theorem Keyword.text_of_find? {word : String} {w : Keyword} (h : find? word = some w) :
    w.text = word := by
  simpa using List.find?_some h

theorem not_of_head?_dropWhile {p : Char → Bool} {s : List Char} :
    ∀ c ∈ (s.dropWhile p).head?, p c = false := by
  intro c hc
  have hnot := List.head?_dropWhile_not p s
  rw [Option.mem_def] at hc
  rwa [hc] at hnot

/-- A text that begins with no character but a delimiter ends a literal. -/
theorem Text.endsLiteral_of_none {s : List Char}
    (h : (if endsLiteral s then none else s.head?) = none) : endsLiteral s = true := by
  cases s with
  | nil => rfl
  | cons c s =>
    by_contra hne
    rw [if_neg hne] at h
    cases h

namespace Lexeme

/-- The text of the lexeme stands at the start, before something that may follow it. -/
def Heads (c : Char) (rest : List Char) (l : Lexeme) : Prop :=
  ∃ tail after, rest = tail ++ after ∧ l.tail = tail.length ∧ l.kind.IsText (c :: tail) ∧
    l.kind.MayPrecede after

variable {position : Nat} {c : Char} {rest : List Char} {l : Lexeme}

theorem heads_of_string (h : string position rest = .ok l) : Heads '"' rest l := by
  unfold string at h
  split at h
  · next n hn =>
    cases h
    obtain ⟨after, hrest, hlength, hends⟩ := exists_of_closing? hn
    refine ⟨rest.take n ++ ['"'], after, by simpa using hrest, by simp [hlength], ?_, hends⟩
    have htext := Token.Kind.IsText.string (s := String.ofList (rest.take n))
      (by simpa using fitsQuotes_of_closing? hn)
    simpa [Scalar.quotedChars] using htext
  · cases h

theorem heads_of_field (h : field position ('/' :: rest) = .ok l) : Heads '/' rest l := by
  have hspan : ('/' :: rest).takeWhile (fun c => !breaksPath c)
      = '/' :: rest.takeWhile fun c => !breaksPath c := List.takeWhile_cons_of_pos (by decide)
  unfold field at h
  rw [hspan] at h
  dsimp only at h
  split at h
  · next path hpath =>
    cases h
    refine ⟨_, _, List.takeWhile_append_dropWhile.symm, rfl, ?_, fun d hd => ?_⟩
    · have htext := Token.Kind.IsText.field path
      rwa [FieldPath.parse_eq_ok_iff.mp hpath] at htext
    · simpa using not_of_head?_dropWhile d hd
  · cases h

theorem heads_of_number (h : number position (c :: rest) = .ok l) : Heads c rest l := by
  unfold number at h
  split at h
  · cases h
  · next numeral after hsplit =>
    obtain ⟨hwell, hchars⟩ := Numeral.of_split? hsplit
    obtain ⟨d, tail, hnumeral⟩ := List.exists_cons_of_ne_nil (Numeral.chars_ne_nil hwell)
    rw [hnumeral, List.cons_append, List.cons.injEq] at hchars
    obtain ⟨rfl, rfl⟩ := hchars
    dsimp only at h
    split at h
    · cases h
    · next hends =>
      split at h
      · next v hv =>
        cases h
        refine ⟨tail, after, rfl, by simp [hnumeral], ?_, ?_⟩
        · rw [← hnumeral]
          exact .number hwell hv
        · exact endsLiteral_of_none hends
      · cases h

theorem heads_of_word (hc : c.isAlpha = true) (h : word position (c :: rest) = .ok l) :
    Heads c rest l := by
  have hword : isWordChar c = true := by simp [isWordChar, Char.isAlphanum, hc]
  have hspan : (c :: rest).takeWhile isWordChar = c :: rest.takeWhile isWordChar :=
    List.takeWhile_cons_of_pos hword
  unfold word at h
  rw [hspan] at h
  have htext : ∀ w : Keyword, Keyword.find? (String.ofList (c :: rest.takeWhile isWordChar)) = some w →
      w.text.toList = c :: rest.takeWhile isWordChar := by
    intro w hw
    rw [Keyword.text_of_find? hw, String.toList_ofList]
  refine ⟨_, _, List.takeWhile_append_dropWhile (p := isWordChar).symm, ?_⟩
  dsimp only at h
  split at h <;> cases h
  · next hw => exact ⟨rfl, htext _ hw ▸ .operator _, not_of_head?_dropWhile⟩
  · next hw => exact ⟨rfl, htext _ hw ▸ .joiner _, not_of_head?_dropWhile⟩
  · next hw => exact ⟨rfl, htext _ hw ▸ .boolean _, not_of_head?_dropWhile⟩

/-- **What is cut off is a text of its kind, and something that may follow it comes next.** -/
theorem heads_of_next (h : next position c rest = .ok l) : Heads c rest l := by
  unfold next at h
  split at h
  case h_1 => cases h; exact ⟨[], rest, rfl, rfl, .groupOpen, trivial⟩
  case h_2 => cases h; exact ⟨[], rest, rfl, rfl, .groupClose, trivial⟩
  case h_3 => cases h; exact ⟨[], rest, rfl, rfl, .arrayOpen, trivial⟩
  case h_4 => cases h; exact ⟨[], rest, rfl, rfl, .arrayClose, trivial⟩
  case h_5 => cases h; exact ⟨[], rest, rfl, rfl, .comma, trivial⟩
  case h_6 => exact heads_of_string h
  case h_7 => exact heads_of_field h
  case h_8 =>
    split at h
    · exact heads_of_number h
    · split at h
      · next hc => exact heads_of_word hc h
      · cases h

end Lexeme

/-! ## Texts and their tokens -/

/-- The text, which `position` characters stand before, is cut into these tokens. -/
inductive CutInto : Nat → List Char → List Token → Prop
  | nil {position : Nat} : CutInto position [] []
  | space {position : Nat} {c : Char} {s : List Char} {ts : List Token} (hc : isSpace c = true)
      (h : CutInto (position + 1) s ts) : CutInto position (c :: s) ts
  | token {position : Nat} {cs rest : List Char} {k : Token.Kind} {ts : List Token}
      (ht : k.IsText cs) (hr : k.MayPrecede rest) (h : CutInto (position + cs.length) rest ts) :
      CutInto position (cs ++ rest) (⟨k, String.ofList cs, position⟩ :: ts)

theorem CutInto.of_scan {position : Nat} {s : List Char} {ts : List Token}
    (h : Token.scan position s = .ok ts) : CutInto position s ts := by
  fun_induction Token.scan position s generalizing ts with
  | case1 => cases h; exact .nil
  | case2 position c rest hspace ih => exact .space hspace (ih h)
  | case3 => cases h
  | case4 => cases h
  | case5 position c rest hspace lexeme hnext tokens hscan ih =>
    cases h
    obtain ⟨tail, after, rfl, hlength, htext, hafter⟩ := Lexeme.heads_of_next hnext
    rw [hlength, List.drop_left] at ih hscan
    rw [hlength, List.take_left, ← List.cons_append]
    exact .token htext hafter (ih hscan)

/-- **A text is scanned as the tokens that it is cut into.** -/
theorem Token.scan_eq_ok_iff {position : Nat} {s : List Char} {ts : List Token} :
    scan position s = .ok ts ↔ CutInto position s ts := by
  constructor
  · exact CutInto.of_scan
  · intro h
    induction h with
    | nil => rw [scan]
    | space hc h ih => rw [scan, if_pos hc, ih]
    | token ht hr h ih => exact (ht.cutsOff hr).scan ih

theorem tokenize_eq_ok_iff {text : String} {ts : List Token} :
    tokenize text = .ok ts ↔ CutInto 0 text.toList ts :=
  Token.scan_eq_ok_iff

/-! ## Nothing is lost -/

namespace CutInto

variable {position : Nat} {s : List Char} {ts : List Token}

/-- The text of a token stands where the token says, before something that may follow it. -/
theorem stands (h : CutInto position s ts) : ∀ t ∈ ts, ∃ before after,
    s = before ++ (t.text.toList ++ after) ∧ t.position = position + before.length ∧
      t.kind.IsText t.text.toList ∧ t.kind.MayPrecede after := by
  induction h with
  | nil => simp
  | @space position c s ts hc h ih =>
    intro t ht
    obtain ⟨before, after, rfl, hposition, hkind⟩ := ih t ht
    exact ⟨c :: before, after, rfl, by rw [hposition, List.length_cons]; omega, hkind⟩
  | @token position cs rest k ts htext hr h ih =>
    rw [List.forall_mem_cons]
    refine ⟨⟨[], rest, by simp, rfl, by simpa using htext, hr⟩, fun t ht => ?_⟩
    obtain ⟨before, after, rfl, hposition, hkind⟩ := ih t ht
    exact ⟨cs ++ before, after, by simp, by rw [hposition, List.length_append]; omega, hkind⟩

/-- A token begins where the ones before it have ended. -/
theorem apart (h : CutInto position s ts) : (∀ t ∈ ts, position ≤ t.position) ∧
    ts.Pairwise fun t u => t.position + t.text.length ≤ u.position := by
  induction h with
  | nil => simp
  | space hc h ih =>
    obtain ⟨hge, hpair⟩ := ih
    exact ⟨fun t ht => by have := hge t ht; omega, hpair⟩
  | token ht hr h ih =>
    obtain ⟨hge, hpair⟩ := ih
    rw [List.forall_mem_cons, List.pairwise_cons]
    refine ⟨⟨le_refl _, fun t ht => ?_⟩, fun t ht => ?_, hpair⟩
    · have := hge t ht
      omega
    · simpa using hge t ht

/-- A character outside of all tokens is a separator. -/
theorem isSpace_of_outside (h : CutInto position s ts) {i : Nat} {c : Char} (hc : s[i]? = some c)
    (hout : ∀ t ∈ ts, position + i < t.position ∨ t.position + t.text.length ≤ position + i) :
    isSpace c = true := by
  induction h generalizing i with
  | nil => cases hc
  | space hspace h ih =>
    cases i with
    | zero =>
      cases hc
      exact hspace
    | succ i =>
      refine ih (by simpa using hc) fun t ht => ?_
      have := hout t ht
      omega
  | @token position cs rest k ts ht hr h ih =>
    rw [List.forall_mem_cons] at hout
    obtain ⟨hfirst, hrest⟩ := hout
    have hge : cs.length ≤ i := by
      simp only [String.length_ofList] at hfirst
      omega
    rw [List.getElem?_append_right hge] at hc
    refine ih hc fun t ht => ?_
    have := hrest t ht
    omega

/-- The text is the texts of the tokens with separators between them. -/
theorem exists_gaps (h : CutInto position s ts) : ∃ gaps last, gaps.length = ts.length ∧
    (∀ gap ∈ last :: gaps, ∀ c ∈ gap, isSpace c = true) ∧
    s = (List.zipWith (fun gap t => gap ++ t.text.toList) gaps ts).flatten ++ last := by
  induction h with
  | nil => exact ⟨[], [], rfl, by simp, rfl⟩
  | @space position c s ts hc h ih =>
    obtain ⟨gaps, last, hlength, hspaces, rfl⟩ := ih
    -- the separator goes into the gap before the next token, or after the last one
    cases ts with
    | nil =>
      obtain rfl : gaps = [] := List.eq_nil_of_length_eq_zero hlength
      exact ⟨[], c :: last, rfl, by simpa [hc] using hspaces, rfl⟩
    | cons t ts =>
      obtain ⟨gap, gaps, rfl⟩ := List.exists_cons_of_length_eq_add_one hlength
      refine ⟨(c :: gap) :: gaps, last, hlength, ?_, rfl⟩
      simpa [hc] using hspaces
  | @token position cs rest k ts ht hr h ih =>
    obtain ⟨gaps, last, hlength, hspaces, rfl⟩ := ih
    refine ⟨[] :: gaps, last, by simp [hlength], ?_, by simp⟩
    simpa using hspaces

/-- Every token has a text of its kind. -/
theorem isText (h : CutInto position s ts) {t : Token} (ht : t ∈ ts) :
    t.kind.IsText t.text.toList := by
  obtain ⟨_, _, _, _, hkind, _⟩ := h.stands t ht
  exact hkind

end CutInto

/-- The literals of a text can be written again. -/
theorem Token.writable_of_scan {position : Nat} {s : List Char} {ts : List Token}
    (h : scan position s = .ok ts) : ∀ t ∈ ts, t.kind.Writable :=
  fun _ ht => ((CutInto.of_scan h).isText ht).writable

/-- A token stands after the tokens before it. -/
theorem Token.scan_increasing {position : Nat} {s : List Char} {ts : List Token}
    (h : scan position s = .ok ts) : ts.Pairwise fun t u => t.position < u.position := by
  have hcut := CutInto.of_scan h
  refine hcut.apart.2.imp_of_mem fun {t u} ht _ hle => ?_
  have hpos : 0 < t.text.length := by
    rw [← String.length_toList]
    exact List.length_pos_of_ne_nil (hcut.isText ht).ne_nil
  omega

/-- **Cutting a text up loses nothing but separators.** Tokens follow one another and do not overlap, each
has the characters that stand at its position, and every character outside of them is a separator; so the
text is the texts of the tokens with runs of separators around them. -/
theorem tokenize_lossless {text : String} {ts : List Token} (h : tokenize text = .ok ts) :
    (ts.Pairwise fun t u => t.position < u.position) ∧
    (∀ t ∈ ts, t.text ≠ "" ∧
      (text.toList.drop t.position).take t.text.length = t.text.toList) ∧
    (ts.Pairwise fun t u => t.position + t.text.length ≤ u.position) ∧
    (∀ i c, text.toList[i]? = some c →
      (∀ t ∈ ts, i < t.position ∨ t.position + t.text.length ≤ i) → isSpace c = true) ∧
    ∃ gaps last, gaps.length = ts.length ∧
      (∀ gap ∈ last :: gaps, ∀ c ∈ gap, isSpace c = true) ∧
      text.toList = (List.zipWith (fun gap t => gap ++ t.text.toList) gaps ts).flatten ++ last := by
  have hcut := tokenize_eq_ok_iff.mp h
  refine ⟨Token.scan_increasing h, fun t ht => ?_, hcut.apart.2, fun i c hc hout => ?_,
    hcut.exists_gaps⟩
  · obtain ⟨before, after, htext, hposition, hkind, -⟩ := hcut.stands t ht
    constructor
    · intro hempty
      exact hkind.ne_nil (by rw [hempty]; rfl)
    · rw [htext, hposition, Nat.zero_add, List.drop_left, ← String.length_toList, List.take_left]
  · exact hcut.isSpace_of_outside hc (by simpa using hout)

/-- Characters of two and three bytes, in a path, in a string and before a number. -/
theorem tokenize_lossless_wide :
    ∃ ts, tokenize "/é\" nin [\"€\"ü\"\t,-1e2 ]" = .ok ts ∧
      ts.map (·.position) = [0, 4, 8, 9, 15, 16, 21] ∧
      ∃ gaps last, gaps.length = 7 ∧ (∀ gap ∈ last :: gaps, ∀ c ∈ gap, isSpace c = true) ∧
        "/é\" nin [\"€\"ü\"\t,-1e2 ]".toList =
          (List.zipWith (fun gap t => gap ++ t.text.toList) gaps ts).flatten ++ last := by
  have hlast : ((tokenize "/é\" nin [\"€\"ü\"\t,-1e2 ]").toOption.map fun ts => ts.map (·.position)) =
      some [0, 4, 8, 9, 15, 16, 21] := by
    decide +kernel
  cases hts : tokenize "/é\" nin [\"€\"ü\"\t,-1e2 ]" with
  | error e =>
    rw [hts] at hlast
    cases hlast
  | ok ts =>
    rw [hts] at hlast
    have hpositions : ts.map (·.position) = [0, 4, 8, 9, 15, 16, 21] := Option.some.inj hlast
    obtain ⟨-, -, -, -, gaps, last, hlength, hgaps, htext⟩ := tokenize_lossless hts
    have hseven : ts.length = 7 := by simpa using congrArg List.length hpositions
    exact ⟨ts, rfl, hpositions, gaps, last, hlength.trans hseven, hgaps, htext⟩

end RecordFilter
