import Mathlib
import RecordFilter.Proofs.Expression.ErrorPlace

/-!
# Spacing — what stands between tokens does not matter

A token is cut off in the same way wherever a separator or the end follows it, so the texts of tokens, with any
separators between them, are cut into tokens of the same kinds and texts; only the places differ. The grammar looks
at places for nothing but its errors: a reading of moved tokens is the reading moved.

* `Token.spaced`, `CutInto.spaced`: texts of tokens with separators around them.
* `ParseError.placedAt`: the same error somewhere else.
* `Token.moved`, `Reading.moved`, `Reading.step_moved`, `Filter.ofTokens_moved`: reading with the places changed.
* `Token.exists_moved`: tokens of the same kinds and texts differ by such a change.
* `Filter.parse_respaced`: a text with other separators between its tokens.
-/

namespace RecordFilter

open Text

/-! ## Cutting up -/

/-- The texts of the tokens, each behind its gap, and what stands behind the last one. -/
def Token.spaced (gaps : List (List Char)) (ts : List Token) (last : List Char) : List Char :=
  (List.zipWith (fun gap t => gap ++ t.text.toList) gaps ts).flatten ++ last

@[simp] theorem Token.spaced_nil (gaps : List (List Char)) (last : List Char) : spaced gaps [] last = last := by
  simp [spaced]

@[simp] theorem Token.spaced_cons (gap : List Char) (gaps : List (List Char)) (t : Token) (ts : List Token)
    (last : List Char) :
    spaced (gap :: gaps) (t :: ts) last = gap ++ (t.text.toList ++ spaced gaps ts last) := by
  simp [spaced]

/-- A separator or the end may follow every token. -/
theorem Token.Kind.mayPrecede_of_isSpace {s : List Char} (h : ∀ c ∈ s.head?, isSpace c = true) (k : Token.Kind) :
    k.MayPrecede s := by
  have hends : endsLiteral s = true := by
    cases s with
    | nil => rfl
    | cons c s => exact isDelimiter_of_isSpace (h c rfl)
  cases k with
  | field =>
    intro c hc
    simp [breaksPath, h c hc]
  | string | number => exact hends
  | operator | joiner | boolean => exact Lexeme.not_isWordChar_of_endsLiteral hends
  | _ => trivial

/-- Behind a token stands a separator or the end. -/
theorem Token.head?_spaced {gaps : List (List Char)} {ts : List Token} {last : List Char}
    (hlength : gaps.length = ts.length) (hspace : ∀ gap ∈ last :: gaps, ∀ c ∈ gap, isSpace c = true)
    (hne : ∀ gap ∈ gaps, gap ≠ []) : ∀ c ∈ (spaced gaps ts last).head?, isSpace c = true := by
  intro c hc
  cases ts with
  | nil =>
    rw [spaced_nil] at hc
    exact hspace last List.mem_cons_self c (List.mem_of_mem_head? hc)
  | cons t ts =>
    obtain ⟨gap, gaps, rfl⟩ := List.exists_cons_of_length_eq_add_one hlength
    obtain ⟨d, gap, rfl⟩ := List.exists_cons_of_ne_nil (hne gap List.mem_cons_self)
    obtain rfl : d = c := by simpa using hc
    exact hspace (d :: gap) (by simp) d List.mem_cons_self

theorem CutInto.append_space {gap s : List Char} {ts : List Token} (hgap : ∀ c ∈ gap, isSpace c = true)
    {position : Nat} (h : CutInto (position + gap.length) s ts) : CutInto position (gap ++ s) ts := by
  induction gap generalizing position with
  | nil => exact h
  | cons c gap ih =>
    rw [List.forall_mem_cons] at hgap
    refine .space hgap.1 (ih hgap.2 ?_)
    rwa [List.length_cons, Nat.add_comm gap.length, ← Nat.add_assoc] at h

/-- **Texts of tokens with separators between them are cut into tokens of these kinds and texts.** -/
theorem CutInto.spaced {gaps : List (List Char)} {ts : List Token} {last : List Char}
    (hts : ∀ t ∈ ts, t.kind.IsText t.text.toList) (hlength : gaps.length = ts.length)
    (hspace : ∀ gap ∈ last :: gaps, ∀ c ∈ gap, isSpace c = true) (hgaps : ∀ gap ∈ gaps.tail, gap ≠ [])
    (position : Nat) : ∃ us, CutInto position (Token.spaced gaps ts last) us ∧
      us.map (·.kind) = ts.map (·.kind) ∧ us.map (·.text) = ts.map (·.text) := by
  induction ts generalizing gaps position with
  | nil =>
    refine ⟨[], ?_, rfl, rfl⟩
    rw [Token.spaced_nil, ← List.append_nil last]
    exact .append_space (hspace last List.mem_cons_self) .nil
  | cons t ts ih =>
    obtain ⟨gap, gaps, rfl⟩ := List.exists_cons_of_length_eq_add_one hlength
    rw [List.tail_cons] at hgaps
    rw [List.forall_mem_cons] at hts
    have hlength : gaps.length = ts.length := by simpa using hlength
    have hrest : ∀ gap ∈ last :: gaps, ∀ c ∈ gap, isSpace c = true :=
      fun gap' hgap' => hspace gap' (by simp only [List.mem_cons] at hgap' ⊢; tauto)
    obtain ⟨us, hus, hkinds, htexts⟩ := ih hts.2 hlength hrest
      (fun gap hgap => hgaps gap (List.mem_of_mem_tail hgap)) (position + gap.length + t.text.toList.length)
    have hafter := t.kind.mayPrecede_of_isSpace (Token.head?_spaced hlength hrest hgaps)
    refine ⟨⟨t.kind, String.ofList t.text.toList, position + gap.length⟩ :: us, ?_, ?_, ?_⟩
    · rw [Token.spaced_cons]
      exact .append_space (hspace gap (by simp)) (.token hts.1 hafter hus)
    · rw [List.map_cons, List.map_cons, hkinds]
    · rw [List.map_cons, List.map_cons, htexts, String.ofList_toList]

/-! ## Reading -/

/-- The same error somewhere else. -/
def ParseError.placedAt (position : Nat) : ParseError → ParseError
  | emptyInput => emptyInput
  | unexpectedCharacter found _ => unexpectedCharacter found position
  | unterminatedString _ => unterminatedString position
  | invalidNumber number _ => invalidNumber number position
  | unknownKeyword word _ => unknownKeyword word position
  | invalidPointer fault _ => invalidPointer fault position
  | unexpectedToken found expected _ => unexpectedToken found expected position
  | unexpectedEnd expected _ => unexpectedEnd expected position
  | unmatchedGroupClose _ => unmatchedGroupClose position
  | unclosedGroup _ => unclosedGroup position
  | nestingTooDeep limit _ => nestingTooDeep limit position
  | invalidRange fault _ => invalidRange fault position
  | invalidEncoding fault => invalidEncoding fault

/-- The error with its place changed. -/
def ParseError.moved (φ : Nat → Nat) (e : ParseError) : ParseError := e.placedAt (φ e.position)

/-- The token with its place changed. -/
def Token.moved (φ : Nat → Nat) (t : Token) : Token := { t with position := φ t.position }

/-- The open group with its place changed. -/
def OpenGroup.moved (φ : Nat → Nat) (g : OpenGroup) : OpenGroup := { g with position := φ g.position }

namespace Reading

variable {limit : Nat} (φ : Nat → Nat)

/-- The reading with the places of its open groups changed. -/
def moved (r : Reading) : Reading := { r with groups := r.groups.map (·.moved φ) }

/-- The outcome with its places changed. -/
def movedOutcome (outcome : Except ParseError Reading) : Except ParseError Reading :=
  (outcome.map (moved φ)).mapError (·.moved φ)

/-- A reading expects the same wherever its groups have been opened. -/
theorem unexpected_moved (r : Reading) (t : Token) :
    .error ((r.moved φ).unexpected (t.moved φ)) = movedOutcome φ (.error (r.unexpected t)) := by
  obtain ⟨gs, row, j, phase⟩ := r
  cases gs <;> rfl

theorem openGroup_moved (r : Reading) (t : Token) :
    (r.moved φ).openGroup limit (t.moved φ) = movedOutcome φ (r.openGroup limit t) := by
  unfold openGroup
  rw [moved, List.length_map]
  split <;> rfl

theorem closeGroup_moved (r : Reading) (t : Token) :
    (r.moved φ).closeGroup (t.moved φ) = movedOutcome φ (r.closeGroup t) := by
  obtain ⟨gs, row, j, phase⟩ := r
  cases gs <;> rfl

/-- **A token has the same effect somewhere else**, but that errors and groups stand where it does. -/
theorem step_moved (r : Reading) (t : Token) :
    (r.moved φ).step limit (t.moved φ) = movedOutcome φ (r.step limit t) := by
  have hrefused := unexpected_moved φ r t
  obtain ⟨gs, row, j, phase⟩ := r
  obtain ⟨kind, text, position⟩ := t
  cases phase with
  | term =>
    cases kind with
    | groupOpen => exact openGroup_moved φ _ _
    | field | string | number | boolean => rfl
    | _ => exact hrefused
  | operator =>
    cases kind with
    | operator => rfl
    | _ => exact hrefused
  | operand =>
    cases kind with
    | field | string | number | boolean => rfl
    | _ => exact hrefused
  | array =>
    cases kind with
    | field | arrayOpen => rfl
    | _ => exact hrefused
  | firstItem =>
    cases kind with
    | arrayClose | string | number | boolean => rfl
    | _ => exact hrefused
  | item =>
    cases kind with
    | string | number | boolean => rfl
    | _ => exact hrefused
  | afterItem =>
    cases kind with
    | comma | arrayClose => rfl
    | _ => exact hrefused
  | lower =>
    cases kind with
    | string | number | boolean =>
      simp only [step, moved, Token.moved, Token.literal?]
      split <;> rfl
    | _ => exact hrefused
  | betweenBounds =>
    cases kind with
    | comma => rfl
    | _ => exact hrefused
  | upper =>
    cases kind with
    | string | number | boolean =>
      simp only [step, moved, Token.moved, Token.literal?]
      split <;> rfl
    | _ => exact hrefused
  | pattern =>
    cases kind with
    | string => rfl
    | _ => exact hrefused
  | next =>
    cases kind with
    | joiner => rfl
    | groupClose => exact closeGroup_moved φ _ _
    | _ => exact hrefused

theorem run_moved (r : Reading) (ts : List Token) :
    (r.moved φ).run limit (ts.map (·.moved φ)) = movedOutcome φ (r.run limit ts) := by
  induction ts generalizing r with
  | nil => rfl
  | cons t ts ih =>
    rw [List.map_cons, run, List.foldlM_cons, step_moved, run, List.foldlM_cons]
    cases r.step limit t with
    | error e => rfl
    | ok q => exact ih q

theorem finish_moved (r : Reading) (length : Nat) :
    (r.moved φ).finish (φ length) = (r.finish length).mapError (·.moved φ) := by
  obtain ⟨gs, row, j, phase⟩ := r
  cases phase <;> cases gs <;> rfl

end Reading

/-- **Tokens in other places are read as the same filter**, or with the same error in the place changed. -/
theorem Filter.ofTokens_moved (limit length : Nat) (φ : Nat → Nat) (ts : List Token) :
    ofTokens limit (φ length) (ts.map (·.moved φ)) = (ofTokens limit length ts).mapError (·.moved φ) := by
  have hrun : Reading.run limit .start (ts.map (·.moved φ)) = Reading.movedOutcome φ (Reading.run limit .start ts) :=
    Reading.run_moved φ .start ts
  rw [ofTokens, ofTokens, ← Reading.run, ← Reading.run, hrun]
  cases Reading.run limit .start ts with
  | error e => rfl
  | ok r => exact Reading.finish_moved φ r length

/-! ## Tokens of the same kinds and texts -/

/-- Tokens one after another and an end behind them can be moved to any other places. -/
theorem Token.exists_moved {ts us : List Token} (hkinds : us.map (·.kind) = ts.map (·.kind))
    (htexts : us.map (·.text) = ts.map (·.text)) (hts : ts.Pairwise fun t u => t.position < u.position)
    {length : Nat} (hlength : ∀ t ∈ ts, t.position < length) (length' : Nat) :
    ∃ φ : Nat → Nat, us = ts.map (·.moved φ) ∧ φ length = length' := by
  induction ts generalizing us with
  | nil => exact ⟨fun _ => length', by simpa using hkinds, rfl⟩
  | cons t ts ih =>
    obtain ⟨u, us, rfl, hkind, hkinds⟩ := List.map_eq_cons_iff.mp hkinds
    rw [List.map_cons, List.map_cons, List.cons.injEq] at htexts
    rw [List.pairwise_cons] at hts
    rw [List.forall_mem_cons] at hlength
    obtain ⟨φ, rfl, hend⟩ := ih hkinds htexts.2 hts.2 hlength.2
    -- no place further on is that of the first token
    refine ⟨Function.update φ t.position u.position, ?_, ?_⟩
    · rw [List.map_cons]
      congr 1
      · obtain ⟨kind, text, position⟩ := u
        obtain rfl : kind = t.kind := hkind
        obtain rfl : text = t.text := htexts.1
        simp [moved]
      · refine List.map_congr_left fun v hv => ?_
        simp [moved, Function.update_of_ne (hts.1 v hv).ne']
    · rw [Function.update_of_ne hlength.1.ne', hend]

/-! ## Texts -/

namespace Filter

variable {text text' : String} {ts : List Token}

/-- **Separators matter only where they set tokens apart.** The texts of the tokens of a text, with any separators
before, between and behind them, and some between any two, are cut into tokens of the same kinds and texts, and read
as the same filter or with the same error: at the end, if more has to follow there, and otherwise at the token in
the same row. -/
theorem parse_respaced {gaps : List (List Char)} {last : List Char} (ht : tokenize text = .ok ts) (hne : ts ≠ [])
    (hlength : gaps.length = ts.length) (hspace : ∀ gap ∈ last :: gaps, ∀ c ∈ gap, isSpace c = true)
    (hgaps : ∀ gap ∈ gaps.tail, gap ≠ []) (htext : text'.toList = Token.spaced gaps ts last) :
    ∃ us, tokenize text' = .ok us ∧ us.map (·.kind) = ts.map (·.kind) ∧ us.map (·.text) = ts.map (·.text) ∧
      ∀ limit,
        (∀ f, Filter.parse limit text' = .ok f ↔ Filter.parse limit text = .ok f) ∧
        (∀ expected position, Filter.parse limit text = .error (.unexpectedEnd expected position) →
          position = text.length ∧ Filter.parse limit text' = .error (.unexpectedEnd expected text'.length)) ∧
        ∀ e, Filter.parse limit text = .error e →
          (∀ expected position, e ≠ .unexpectedEnd expected position) →
          ∃ (k : Nat) (t u : Token), ts[k]? = some t ∧ us[k]? = some u ∧ e.position = t.position ∧
            Filter.parse limit text' = .error (e.placedAt u.position) := by
  have hcut := tokenize_eq_ok_iff.mp ht
  obtain ⟨us, hus, hkinds, htexts⟩ := CutInto.spaced (fun t hmem => hcut.isText hmem) hlength hspace hgaps 0
  rw [← htext, ← tokenize_eq_ok_iff] at hus
  refine ⟨us, hus, hkinds, htexts, fun limit => ?_⟩
  have hbefore : ∀ t ∈ ts, t.position < text.length := fun t hmem =>
    lt_length_of_prefix (hcut.isText hmem).ne_nil (Token.prefix_of_mem ht hmem).1
  obtain ⟨φ, rfl, hend⟩ :=
    Token.exists_moved hkinds htexts (Token.scan_increasing ht) hbefore text'.length
  have hread := ofTokens_moved limit text.length φ ts
  rw [hend, ← parse_of_tokenize hus (by simpa using hne), ← parse_of_tokenize ht hne] at hread
  rw [hread]
  refine ⟨fun f => ?_, fun expected position he => ?_, fun e he hmore => ?_⟩
  · cases Filter.parse limit text <;> simp [Except.mapError]
  · rw [he]
    rw [parse_of_tokenize ht hne] at he
    obtain rfl : position = text.length := pointsInto_of_ofTokens ht he
    refine ⟨rfl, ?_⟩
    rw [← hend]
    rfl
  · rw [he]
    rw [parse_of_tokenize ht hne] at he
    rcases place_of_ofTokens he with ⟨expected, rfl⟩ | ⟨t, hmem, hplace⟩
    · exact absurd rfl (hmore _ _)
    · have hposition : e.position = t.position := by
        rcases hplace with hrefused | ⟨-, rfl⟩
        · cases hrefused <;> rfl
        · rfl
      obtain ⟨k, hk⟩ := List.mem_iff_getElem?.mp hmem
      refine ⟨k, t, t.moved φ, hk, by simp [hk], hposition, ?_⟩
      rw [Token.moved, ← hposition]
      rfl

/-- Quotes, commas and brackets in a path and in a string, with other separators around them; a parenthesis that is
not open, and an end where an object is missing. -/
theorem parse_respaced_quotes :
    (∃ us f, tokenize "\t( /a\",[b\neq \"x\"y, \" )\r" = .ok us ∧
      us.map (·.text) = ["(", "/a\",[b", "eq", "\"x\"y, \"", ")"] ∧
      Filter.parse 1 "(/a\",[b eq \"x\"y, \")" = .ok f ∧
      Filter.parse 1 "\t( /a\",[b\neq \"x\"y, \" )\r" = .ok f) ∧
    Filter.parse 0 "1 eq 2)" = .error (.unmatchedGroupClose 6) ∧
    Filter.parse 0 "\t1 eq  2 )\n" = .error (.unmatchedGroupClose 9) ∧
    Filter.parse 0 "1 eq" = .error (.unexpectedEnd ["field reference", "literal"] 4) ∧
    Filter.parse 0 "1\teq\x0c " = .error (.unexpectedEnd ["field reference", "literal"] 6) := by
  refine ⟨?_, ?_⟩
  · let p : FieldPath := .ofKey "a\",[b" (by decide +kernel)
    let ts : List Token := [⟨.groupOpen, "(", 0⟩, ⟨.field p, "/a\",[b", 1⟩, ⟨.operator .eq, "eq", 8⟩,
      ⟨.string "x\"y, ", "\"x\"y, \"", 11⟩, ⟨.groupClose, ")", 18⟩]
    have ht : tokenize "(/a\",[b eq \"x\"y, \")" = .ok ts := by
      decide +kernel
    have hspaced : "\t( /a\",[b\neq \"x\"y, \" )\r".toList =
        Token.spaced [['\t'], [' '], ['\n'], [' '], [' ']] ts ['\r'] := by
      decide +kernel
    obtain ⟨us, hus, -, htexts, hread⟩ :=
      parse_respaced ht (by decide) (by rfl) (by simp [isSpace]) (by decide) hspaced
    have hf : ∃ f, Filter.parse 1 "(/a\",[b eq \"x\"y, \")" = .ok f := by
      rw [parse_of_tokenize ht (by decide)]
      exact ⟨_, rfl⟩
    obtain ⟨f, hf⟩ := hf
    exact ⟨us, f, hus, htexts, hf, ((hread 1).1 f).mpr hf⟩
  let ts : List Token := [⟨.number (.int 1), "1", 0⟩, ⟨.operator .eq, "eq", 2⟩, ⟨.number (.int 2), "2", 5⟩,
    ⟨.groupClose, ")", 6⟩]
  have ht : tokenize "1 eq 2)" = .ok ts := by
    decide +kernel
  have hu : tokenize "\t1 eq  2 )\n" = .ok [⟨.number (.int 1), "1", 1⟩, ⟨.operator .eq, "eq", 3⟩,
      ⟨.number (.int 2), "2", 7⟩, ⟨.groupClose, ")", 9⟩] := by
    decide +kernel
  have hunmatched : Filter.parse 0 "1 eq 2)" = .error (.unmatchedGroupClose 6) := by
    rw [parse_of_tokenize ht (by decide)]
    rfl
  have hend : tokenize "1 eq" = .ok (ts.take 2) := by
    decide +kernel
  have hmissing : Filter.parse 0 "1 eq" = .error (.unexpectedEnd ["field reference", "literal"] 4) := by
    rw [parse_of_tokenize hend (by decide)]
    rfl
  refine ⟨hunmatched, ?_, hmissing, ?_⟩
  · have hspaced : "\t1 eq  2 )\n".toList = Token.spaced [['\t'], [' '], [' ', ' '], [' ']] ts ['\n'] := by
      decide +kernel
    obtain ⟨us, hus, -, -, hread⟩ :=
      parse_respaced ht (by decide) (by rfl) (by simp [isSpace]) (by decide) hspaced
    obtain rfl := Except.ok.inj (hus.symm.trans hu)
    obtain ⟨k, t, u, hk, hu, hposition, herror⟩ := (hread 0).2.2 _ hunmatched (by simp)
    -- no token but the last one stands at the place of the error
    obtain ⟨hlt, rfl⟩ := List.getElem?_eq_some_iff.mp hk
    obtain rfl : 3 = k := (Token.position_eq_iff ht (by decide) hlt).mp hposition
    cases hu
    exact herror
  · have hspaced : "1\teq\x0c ".toList = Token.spaced [[], ['\t']] (ts.take 2) ['\x0c', ' '] := by
      decide +kernel
    obtain ⟨us, -, -, -, hread⟩ :=
      parse_respaced hend (by decide) (by rfl) (by simp [isSpace]) (by decide) hspaced
    exact ((hread 0).2.1 _ _ hmissing).2

end Filter

end RecordFilter
