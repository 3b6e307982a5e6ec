import Mathlib
import RecordFilter.Filter.Text
import RecordFilter.Proofs.Expression.Lexing
import RecordFilter.Proofs.Expression.Reading
import RecordFilter.Proofs.Filter.Checked
import RecordFilter.Proofs.Filter.Origin

/-!
# Round trip — the text of a filter reads back as the filter

The text is cut into tokens whose kinds derive the filter, part by part from the literals up to
the row of statements; tokens that derive a filter are read as that filter. How a part is cut up does
not depend on what is written after it, as that begins with a blank or a closing parenthesis.

* `ReadsAs`: a part of a text, in front of whatever may follow it.
* `Object.exists_readsAs`, `Clause.exists_readsAs`, `Filter.exists_readsAs`: the parts and the whole.
* `Filter.parse_text`: the text of a well-formed filter reads back.
* `Filter.checked_of_parse`: what holds of every filter that is read from a text.
-/

namespace RecordFilter

open Text Grammar

/-- In front of whatever may follow a term, the text is cut into tokens of these kinds. -/
def ReadsAs (cs : List Char) (ks : List Token.Kind) : Prop :=
  ∀ rest ls, EndsTerm rest → Spells rest ls → Spells (cs ++ rest) (ks ++ ls)

theorem ReadsAs.of_cutsOff {cs : List Char} {k : Token.Kind}
    (h : ∀ rest, EndsTerm rest → CutsOff cs k rest) : ReadsAs cs [k] :=
  fun rest _ hr hs => (h rest hr).spells hs

/-- The text of some literals with a comma between them. -/
def literalsChars (vs : List Scalar) : List Char := ((vs.map Scalar.chars).intersperse [',']).flatten

theorem exists_spells_literals {vs : List Scalar} (hne : vs ≠ []) (h : ∀ v ∈ vs, v.check = .ok ()) :
    ∃ ks, IsLiterals ks vs ∧ ∀ rest ls, endsLiteral rest = true → Spells rest ls →
      Spells (literalsChars vs ++ rest) (ks ++ ls) := by
  induction vs with
  | nil => exact absurd rfl hne
  | cons v vs ih =>
    rw [List.forall_mem_cons] at h
    obtain ⟨k, hk, hcuts⟩ := Scalar.cutsOff_chars h.1
    cases vs with
    | nil =>
      refine ⟨[k], .one hk, fun rest ls hr hs => ?_⟩
      simpa [literalsChars] using (hcuts rest hr).spells hs
    | cons w vs =>
      obtain ⟨ks, hks, hspells⟩ := ih (by simp) h.2
      refine ⟨k :: .comma :: ks, .more hk hks, fun rest ls hr hs => ?_⟩
      have hcomma := (cutsOff_mark .comma rfl _).spells (hspells rest ls hr hs)
      have hchars : literalsChars (v :: w :: vs) ++ rest =
          v.chars ++ ([','] ++ (literalsChars (w :: vs) ++ rest)) := by
        simp [literalsChars]
      rw [hchars]
      exact (hcuts _ rfl).spells hcomma

theorem ArrayObject.exists_readsAs {a : ArrayObject} (h : (Object.array a).check = .ok ()) :
    ∃ ks, IsObject .array ks (.array a) ∧ ReadsAs a.chars ks := by
  cases a with
  | field p => exact ⟨_, .field p, .of_cutsOff fun rest hr => cutsOff_field p hr.breaksPath⟩
  | literals vs =>
    by_cases hne : vs = []
    · subst hne
      refine ⟨_, .noLiterals, fun rest ls _ hs => ?_⟩
      exact (cutsOff_mark .arrayOpen rfl _).spells ((cutsOff_mark .arrayClose rfl rest).spells hs)
    · obtain ⟨ks, hks, hspells⟩ := exists_spells_literals hne (Scalar.forM_check_iff.mp h)
      refine ⟨_, .literals hks, fun rest ls _ hs => ?_⟩
      have hclose := hspells _ _ rfl ((cutsOff_mark .arrayClose rfl rest).spells hs)
      have hopen := (cutsOff_mark .arrayOpen rfl _).spells hclose
      simpa [chars, literalsChars] using hopen

/-- A range is cut off in front of whatever may follow it. -/
theorem Range.exists_readsAs {r : Range} (h : (Object.range r).check = .ok ()) :
    ∃ ks, IsObject .range ks (.range r) ∧ ReadsAs r.chars ks := by
  obtain ⟨hlower, hupper⟩ := Object.check_range_iff.mp h
  obtain ⟨k, hk, hcuts⟩ := Scalar.cutsOff_chars hlower
  obtain ⟨l, hl, hcuts'⟩ := Scalar.cutsOff_chars hupper
  refine ⟨_, .range hk hl, fun rest ls hr hs => ?_⟩
  have hcomma := (cutsOff_mark .comma rfl _).spells ((hcuts' rest hr.endsLiteral).spells hs)
  have hall := (hcuts _ rfl).spells hcomma
  simpa [chars] using hall

theorem Object.exists_readsAs {object : Object} (h : object.check = .ok ()) :
    ∃ ks, IsObject object.shape ks object ∧ ReadsAs object.chars ks := by
  cases object with
  | operand o =>
    rw [check_operand] at h
    obtain ⟨k, hk, hcuts⟩ := Operand.cutsOff_chars h
    exact ⟨_, .operand hk, .of_cutsOff hcuts⟩
  | array a => exact ArrayObject.exists_readsAs h
  | range r => exact Range.exists_readsAs h
  | like w =>
    have hfits : fitsQuotes w.pattern.toList = true := fitsQuotes_of_checkString h
    exact ⟨_, .pattern w.pattern, .of_cutsOff fun rest hr => cutsOff_string hfits hr.endsLiteral⟩

theorem Clause.exists_readsAs {c : Clause} (h : c.Writable) :
    ∃ ks, IsClause ks c ∧ ReadsAs c.chars ks := by
  obtain ⟨k, hk, hcuts⟩ := Operand.cutsOff_chars h.1
  obtain ⟨ks, hks, hobject⟩ := Object.exists_readsAs h.2
  rw [c.fits] at hks
  refine ⟨_, .mk hk hks, fun rest ls hr hs => ?_⟩
  have hword := (cutsOff_word (.operator c.operator) (EndsTerm.space _).not_isWordChar).spells
    (hobject rest ls hr hs).space
  have hall := (hcuts _ (EndsTerm.space _)).spells hword.space
  simpa [chars, Keyword.text, Keyword.kind] using hall

/-! ## Rows of statements -/

theorem ReadsAs.group {cs : List Char} {ks : List Token.Kind} (h : ReadsAs cs ks) :
    ReadsAs ('(' :: cs ++ [')']) (.groupOpen :: (ks ++ [.groupClose])) := by
  intro rest ls _ hs
  have hclose := (cutsOff_mark .groupClose rfl rest).spells hs
  have hopen := (cutsOff_mark .groupOpen rfl _).spells (h _ _ (EndsTerm.close rest) hclose)
  simpa using hopen

/-- A term in front of the joiner and the terms that follow it. -/
theorem ReadsAs.joined {j : Joiner} {cs ds : List Char} {ks ls : List Token.Kind}
    (h : ReadsAs cs ks) (ht : ReadsAs ds ls)
    (hd : ∀ rest, EndsTerm rest → EndsTerm (ds ++ rest)) :
    ReadsAs (joinerChars (some j) ++ cs ++ ds) (.joiner j :: (ks ++ ls)) := by
  intro rest ms hr hs
  have hterm := h _ _ (hd rest hr) (ht rest ms hr hs)
  have hword := (cutsOff_word (.joiner j) (EndsTerm.space _).not_isWordChar).spells hterm.space
  simpa [joinerChars, Keyword.text, Keyword.kind] using hword.space

/-- A row of statements with joiners begins with a blank. -/
theorem endsTerm_charsOf {row : List Statement} (h : ∀ s ∈ row, ∃ j, s.joiner = some j)
    {rest : List Char} (hr : EndsTerm rest) : EndsTerm (Filter.charsOf row ++ rest) := by
  cases row with
  | nil => simpa [Filter.charsOf] using hr
  | cons s row =>
    obtain ⟨j, hj⟩ := h s (by simp)
    obtain ⟨joiner, node⟩ := s
    obtain rfl : joiner = some j := hj
    exact EndsTerm.space _

theorem exists_readsAs_tail {row : List Statement} (hj : ∀ s ∈ row, ∃ j, s.joiner = some j)
    (h : ∀ s ∈ row, ∃ ks, IsTerm ks s.node ∧ ReadsAs s.node.chars ks) :
    ∃ ks, IsTail ks row ∧ ReadsAs (Filter.charsOf row) ks := by
  induction row with
  | nil => exact ⟨[], .nil, fun rest ls _ hs => hs⟩
  | cons s row ih =>
    rw [List.forall_mem_cons] at hj h
    obtain ⟨⟨j, hs⟩, hrow⟩ := hj
    obtain ⟨⟨ks, hterm, hreads⟩, hnodes⟩ := h
    obtain ⟨ls, htail, hreads'⟩ := ih hrow hnodes
    obtain ⟨joiner, node⟩ := s
    obtain rfl : joiner = some j := hs
    exact ⟨_, .cons hterm htail, hreads.joined hreads' fun rest hr => endsTerm_charsOf hrow hr⟩

/-- The text of a well-formed filter is cut into tokens that derive it. -/
theorem Filter.exists_readsAs {f : Filter} (h : f.Writable) (hw : f.WellFormed) :
    ∃ ks, IsFilter ks f ∧ ReadsAs f.chars ks := by
  induction f using Filter.induction with
  | h row ih =>
    obtain ⟨hnone, hgroups⟩ := wellFormed_mk.mp hw
    have hclauses := writable_mk.mp h
    -- a node reads as a term wherever it stands in the row
    have hnodes : ∀ s ∈ row, ∃ ks, IsTerm ks s.node ∧ ReadsAs s.node.chars ks := by
      rintro ⟨joiner, node⟩ hs
      cases node with
      | clause c =>
        obtain ⟨ks, hc, hreads⟩ := Clause.exists_readsAs (hclauses _ hs c (by simp [Node.clauses]))
        exact ⟨ks, .clause hc, hreads⟩
      | group g =>
        obtain ⟨ks, hg, hreads⟩ := ih _ hs g rfl (hclauses _ hs) (hgroups _ hs g rfl)
        exact ⟨_, .group hg, hreads.group⟩
    obtain ⟨node, rest, rfl, hj⟩ := malformed?_eq_none_iff.mp hnone
    rw [List.forall_mem_cons] at hnodes
    obtain ⟨⟨ks, hterm, hreads⟩, hrest⟩ := hnodes
    obtain ⟨ls, htail, hreads'⟩ := exists_readsAs_tail hj hrest
    refine ⟨_, .mk hterm htail, fun more ms hr hs => ?_⟩
    have hall := hreads _ _ (endsTerm_charsOf hj hr) (hreads' more ms hr hs)
    simpa [chars, charsOf, Statement.chars, joinerChars] using hall

/-! ## The whole text -/

theorem Grammar.IsFilter.ne_nil {ks : List Token.Kind} {f : Filter} (h : IsFilter ks f) : ks ≠ [] := by
  cases h with
  | mk hn ht =>
    cases hn with
    | clause hc => cases hc; simp
    | group hg => simp

/-- A text that is cut into tokens which derive a filter is read as the filter. -/
theorem Filter.parse_of_readsAs {f : Filter} {ks : List Token.Kind} {limit : Nat} {text : String}
    (hks : IsFilter ks f) (hreads : ReadsAs text.toList ks) (hd : f.depth ≤ limit) :
    Filter.parse limit text = .ok f := by
  obtain ⟨ts, htokens, hkinds⟩ := hreads [] [] .nil .nil 0
  rw [List.append_nil] at htokens hkinds
  have hne : ts ≠ [] := by
    rintro rfl
    exact hks.ne_nil hkinds.symm
  rw [parse_of_tokenize htokens hne]
  rw [← hkinds] at hks
  exact ofTokens_of_isFilter hks (Token.writable_of_scan htokens) hd _

/-- The text of a filter whose literals can be written reads back as the filter. -/
theorem Filter.parse_of_writable {f : Filter} {limit : Nat} (h : f.Writable) (hw : f.WellFormed)
    (hd : f.depth ≤ limit) : Filter.parse limit f.text = .ok f := by
  obtain ⟨ks, hks, hreads⟩ := exists_readsAs h hw
  exact parse_of_readsAs hks (by rwa [text, String.toList_ofList]) hd

/-- **The text of a filter reads back as the filter**, if every row of statements is well formed and
groups are nested within the limit. -/
theorem Filter.parse_text {f : Filter} {limit : Nat} (hf : f.Obtained) (hw : f.WellFormed)
    (hd : f.depth ≤ limit) : Filter.parse limit f.text = .ok f :=
  parse_of_writable hf.writable hw hd

/-- A path and a string with quotes, brackets and commas in them, in a group. -/
theorem Filter.parse_text_quotes :
    ∃ f : Filter, f.Obtained ∧ f.WellFormed ∧ f.depth = 1 ∧
      f.text = "(/a\",] in [\"say \"x\"y\",-7]) or /a\",] neq true" ∧
      Filter.parse 1 f.text = .ok f := by
  let p : FieldPath := .ofKey "a\",]" (by decide +kernel)
  let vs : List Scalar := [.string "say \"x\"y", .int (-7)]
  let c : Clause := ⟨.field p, .isIn, .array (.literals vs), rfl⟩
  let d : Clause := ⟨.field p, .neq, .operand (.literal (.bool true)), rfl⟩
  have hisIn : (Operand.field p).Builds ((Operand.field p).isIn vs) := .isIn vs
  have hneq : (Operand.field p).Builds ((Operand.field p).neq (.literal (.bool true))) := .neq _
  have hc : c.Obtained := .built hisIn (by decide +kernel)
  have hd : d.Obtained := .built hneq rfl
  have hf : ((Filter.ofGroup (.ofClause c)).or d).Obtained := .or (.ofGroup (.ofClause hc)) hd
  refine ⟨_, hf, by decide, rfl, by decide +kernel, ?_⟩
  exact parse_text hf (by decide) (by decide)

/-! ## Filters that were read -/

/-- **A filter that is read from a text is one that construction could have made**: every clause, at any
depth, is what its parts make and every path what its segments make, every row of statements is well formed
and groups are nested within the limit. Its own text, which may be another one, reads back as the filter
within the same limit. -/
theorem Filter.checked_of_parse {limit : Nat} {text : String} {f : Filter}
    (h : Filter.parse limit text = .ok f) :
    (∀ c ∈ f.clauses, c.Checked) ∧ (∀ p ∈ f.paths, FieldPath.ofSegments p.segments = .ok p) ∧
      f.WellFormed ∧ f.depth ≤ limit ∧ Filter.parse limit f.text = .ok f := by
  have hw := writable_of_parse h
  have hrows := wellFormed_of_parse h
  have hdepth := depth_le_of_parse h
  refine ⟨?_, ?_, hrows, hdepth, parse_of_writable hw hrows hdepth⟩
  · intro c hc
    exact (hw c hc).checked
  · intro p _
    exact p.ofSegments_segments

/-- A text with more blanks, digits and quotes than the filter's own. -/
theorem Filter.checked_of_parse_quotes :
    ∃ f : Filter, Filter.parse 1 "(/a~1\"/007/7 in [ \"x\"y\" , 1e3]) or\t/n between -1,2.50" = .ok f ∧
      f.text = "(/a~1\"/007/7 in [\"x\"y\",1000.0]) or /n between -1,2.5" ∧
      (∀ c ∈ f.clauses, c.Checked) ∧ f.WellFormed ∧ f.depth ≤ 1 ∧ Filter.parse 1 f.text = .ok f := by
  have htext : ((Filter.parse 1 "(/a~1\"/007/7 in [ \"x\"y\" , 1e3]) or\t/n between -1,2.50").toOption.map
      Filter.text) = some "(/a~1\"/007/7 in [\"x\"y\",1000.0]) or /n between -1,2.5" := by
    decide +kernel
  cases hf : Filter.parse 1 "(/a~1\"/007/7 in [ \"x\"y\" , 1e3]) or\t/n between -1,2.50" with
  | error e =>
    rw [hf] at htext
    cases htext
  | ok f =>
    rw [hf] at htext
    obtain ⟨hclauses, -, hrows, hdepth, hback⟩ := checked_of_parse hf
    exact ⟨f, rfl, Option.some.inj htext, hclauses, hrows, hdepth, hback⟩

end RecordFilter
