import Mathlib
import RecordFilter.Proofs.Expression.ErrorPlace
import RecordFilter.Proofs.Expression.Reading
import RecordFilter.Proofs.Filter.Origin

/-!
# Nesting — what the limit of nested groups does

Two readings of the same tokens with different limits go side by side until the lower limit refuses a
parenthesis; nothing else depends on it. So a higher limit changes nothing but that refusal, which comes at the
first parenthesis that stands inside as many open groups as the lower limit allows.

* `ParseError.exceedsLimit`: the error of the limit.
* `Token.isLexical_of_scan`: cutting a text up has other errors.
* `Reading.step_limit`, `Reading.run_limit`: one token and a run of tokens, under two limits.
* `Reading.Step.balance`, `Reading.balance_of_run`: open groups are the parentheses that are not closed yet.
* `Filter.parse_limit`: a text under two limits.
-/

namespace RecordFilter

open Grammar

/-- The error says that groups are nested too deeply. -/
def ParseError.exceedsLimit : ParseError → Bool
  | nestingTooDeep .. => true
  | _ => false

/-! ## Cutting up -/

/-- The error says that a text cannot be cut up into tokens. -/
def ParseError.isLexical : ParseError → Bool
  | unexpectedCharacter .. | unterminatedString _ | invalidNumber .. | unknownKeyword .. | invalidPointer .. => true
  | _ => false

theorem Lexeme.isLexical_of_next {position : Nat} {c : Char} {rest : List Char} {e : ParseError}
    (h : next position c rest = .error e) : e.isLexical = true := by
  unfold next at h
  split at h
  case h_6 =>
    unfold string at h
    split at h <;> cases h
    rfl
  case h_7 =>
    unfold field at h
    dsimp only at h
    split at h <;> cases h
    rfl
  case h_8 =>
    split at h
    · unfold number at h
      dsimp only at h
      split at h
      · cases h
        rfl
      · split at h
        · cases h
          rfl
        · split at h <;> cases h
          rfl
    · split at h
      · unfold word at h
        dsimp only at h
        split at h <;> cases h
        rfl
      · cases h
        rfl
  all_goals cases h

/-- Cutting a text up has errors of its own. -/
theorem Token.isLexical_of_scan {position : Nat} {s : List Char} {e : ParseError}
    (h : scan position s = .error e) : e.isLexical = true := by
  fun_induction scan position s generalizing e with
  | case1 => cases h
  | case2 position c rest hspace ih => exact ih h
  | case3 position c rest hspace e' hnext =>
    cases h
    exact Lexeme.isLexical_of_next hnext
  | case4 position c rest hspace lexeme hnext e' hscan ih =>
    cases h
    exact ih hscan
  | case5 => cases h

/-! ## Parentheses -/

namespace Token

/-- How many tokens of a kind there are. -/
def tally (kind : Token.Kind) (ts : List Token) : Nat := (ts.map (·.kind)).count kind

theorem tally_of_ne {kind : Token.Kind} {t : Token} (h : t.kind ≠ kind) : tally kind [t] = 0 := by
  simp [tally, h]

theorem tally_cons (kind : Token.Kind) (t : Token) (ts : List Token) :
    tally kind (t :: ts) = tally kind [t] + tally kind ts := by
  simp [tally, List.count_cons, Nat.add_comm]

end Token

/-! ## Two limits -/

namespace Reading

variable {n m limit : Nat} {r r' : Reading} {t : Token} {ts : List Token}

/-- The limit matters to no token but a parenthesis that opens a group. -/
theorem step_congr (n m : Nat) (h : ¬(r.phase = .term ∧ t.kind = .groupOpen)) : r.step n t = r.step m t := by
  obtain ⟨gs, row, j, phase⟩ := r
  obtain ⟨kind, text, position⟩ := t
  cases phase with
  | term =>
    cases kind with
    | groupOpen => exact absurd ⟨rfl, rfl⟩ h
    | _ => rfl
  | _ => cases kind <;> rfl

/-- **Under two limits a token has the same effect**, unless the lower one refuses it. -/
theorem step_limit (hle : n ≤ m) (r : Reading) (t : Token) :
    r.step n t = r.step m t ∨ ∃ position, r.step n t = .error (.nestingTooDeep n position) := by
  by_cases hopen : r.phase = .term ∧ t.kind = .groupOpen
  · have hstep : ∀ limit, r.step limit t = r.openGroup limit t := by
      intro limit
      unfold step
      rw [hopen.1, hopen.2]
    rw [hstep, hstep, openGroup, openGroup]
    by_cases hlimit : r.groups.length < n
    · rw [if_pos hlimit, if_pos (hlimit.trans_le hle)]
      exact .inl rfl
    · rw [if_neg hlimit]
      exact .inr ⟨_, rfl⟩
  · exact .inl (step_congr n m hopen)

/-- **Under two limits a run is the same**, unless the lower one refuses a token of it. -/
theorem run_limit (hle : n ≤ m) (r : Reading) (ts : List Token) :
    r.run n ts = r.run m ts ∨ ∃ position, r.run n ts = .error (.nestingTooDeep n position) := by
  induction ts generalizing r with
  | nil => exact .inl rfl
  | cons t ts ih =>
    rw [run, run, List.foldlM_cons, List.foldlM_cons]
    rcases step_limit hle r t with heq | ⟨position, hdeep⟩
    · rw [← heq]
      cases r.step n t with
      | error e => exact .inl rfl
      | ok q => exact ih q
    · rw [hdeep]
      exact .inr ⟨position, rfl⟩

/-- The parenthesis that is refused stands inside as many open groups as the limit allows. -/
theorem tooDeep_of_step {limit' position : Nat}
    (h : r.step limit t = .error (.nestingTooDeep limit' position)) :
    limit' = limit ∧ t.kind = .groupOpen ∧ t.position = position ∧ limit ≤ r.groups.length := by
  unfold step at h
  split at h
  case h_1 hk =>
    unfold openGroup at h
    split at h
    · cases h
    · next hlimit =>
      cases h
      exact ⟨rfl, hk, rfl, not_lt.mp hlimit⟩
  case h_17 =>
    unfold closeGroup at h
    split at h <;> cases h
  case h_12 | h_14 =>
    split at h
    · split at h <;> cases h
    · cases h
  case h_2 | h_4 | h_8 | h_9 => split at h <;> cases h
  all_goals cases h

/-! ## Open groups -/

/-- A token opens a group if it is an opening parenthesis, and closes one if it is a closing one. -/
theorem Step.balance (h : Step limit r t r') :
    r'.groups.length + Token.tally .groupClose [t] = r.groups.length + Token.tally .groupOpen [t] := by
  cases h with
  | opened hk hl => simp [Token.tally, hk]
  | closed hk => simp [Token.tally, hk]
  | subject hk | operand hk =>
    rw [Token.tally_of_ne hk.ne_groupOpen, Token.tally_of_ne hk.ne_groupClose]
  | firstItem hk | item hk | lower hk ho | upper hk hr =>
    rw [Token.tally_of_ne (IsOperand.literal hk).ne_groupOpen, Token.tally_of_ne (IsOperand.literal hk).ne_groupClose]
  | _ hk => simp [Token.tally, hk]

/-- **The open groups of a run are its opening parentheses less its closing ones.** -/
theorem balance_of_run (h : r.run limit ts = .ok r') :
    r'.groups.length + Token.tally .groupClose ts = r.groups.length + Token.tally .groupOpen ts := by
  induction ts generalizing r with
  | nil =>
    cases h
    rfl
  | cons t ts ih =>
    obtain ⟨q, hq, hrun⟩ := run_cons_ok h
    have hstep := hq.balance
    have hrest := ih hrun
    rw [Token.tally_cons, Token.tally_cons .groupOpen]
    omega

/-- No more groups are open than the limit allows. -/
theorem groups_le_of_run (h : Reading.start.run limit ts = .ok r) : r.groups.length ≤ limit := by
  have hshallow : Shallow limit r.groups r.statements :=
    Shallow.run (by simp [Shallow, Reading.start, Filter.depthOf]) h
  exact (Nat.le_add_right _ _).trans hshallow.le

end Reading

namespace Filter

variable {n m limit position : Nat} {text : String} {f : Filter}

/-- A text that is read with one limit is read with any other that its groups are within. -/
theorem parse_of_depth_le (h : Filter.parse m text = .ok f) (hd : f.depth ≤ n) : Filter.parse n text = .ok f := by
  obtain ⟨ts, ht, hf⟩ := exists_tokens_of_parse h
  have hne : ts ≠ [] := by
    rintro rfl
    cases hf
  rw [parse_of_tokenize ht hne]
  exact ofTokens_of_isFilter (isFilter_of_ofTokens hf).1 (Token.writable_of_scan ht) hd _

/-- Under two limits a text is read in the same way, unless the lower one refuses a parenthesis of it. -/
theorem parse_eq_or (hle : n ≤ m) (text : String) :
    Filter.parse n text = Filter.parse m text ∨
      ∃ position, Filter.parse n text = .error (.nestingTooDeep n position) := by
  unfold Filter.parse
  split
  · exact .inl rfl
  · cases tokenize text with
    | error e => exact .inl rfl
    | ok ts =>
      change ofTokens n text.length ts = ofTokens m text.length ts ∨
        ∃ position, ofTokens n text.length ts = .error (.nestingTooDeep n position)
      rw [ofTokens, ofTokens, ← Reading.run, ← Reading.run]
      rcases Reading.run_limit hle .start ts with heq | ⟨position, hdeep⟩
      · rw [heq]
        exact .inl rfl
      · rw [hdeep]
        exact .inr ⟨position, rfl⟩

/-- The refused parenthesis stands inside as many open groups as the limit allows. -/
theorem exists_token_of_tooDeep (h : Filter.parse n text = .error (.nestingTooDeep limit position)) :
    limit = n ∧ ∃ ts k, ∃ hk : k < ts.length, tokenize text = .ok ts ∧ ts[k].kind = .groupOpen ∧
      ts[k].position = position ∧
      Token.tally .groupOpen (ts.take k) = Token.tally .groupClose (ts.take k) + n := by
  unfold Filter.parse at h
  split at h
  · cases h
  · cases ht : tokenize text with
    | error e =>
      rw [ht] at h
      cases h
      cases Token.isLexical_of_scan ht
    | ok ts =>
      rw [ht] at h
      rcases ofTokens_error h with hrun | ⟨r, -, hfinish⟩
      · obtain ⟨k, hk, q, hq, hstep⟩ := Reading.run_error hrun
        obtain ⟨rfl, hkind, hposition, hle⟩ := Reading.tooDeep_of_step hstep
        have hbalance := Reading.balance_of_run hq
        have hopen := Reading.groups_le_of_run hq
        refine ⟨rfl, ts, k, hk, rfl, hkind, hposition, ?_⟩
        simp only [Reading.start, List.length_nil] at hbalance
        omega
      · cases Reading.finish_error hfinish

/-- **A higher limit changes nothing but that fewer groups are nested too deeply.** What is read with a limit is
read with any higher one as the same filter, and any other error than that of the limit stays the same. That error
stands at a parenthesis before which there are just as many more opening than closing ones as the limit says, and
whatever filter is read with another limit is nested more deeply than that. -/
theorem parse_limit (hle : n ≤ m) (text : String) :
    (∀ f, Filter.parse n text = .ok f → Filter.parse m text = .ok f) ∧
    (∀ e, Filter.parse n text = .error e → e.exceedsLimit = false → Filter.parse m text = .error e) ∧
    ∀ limit position, Filter.parse n text = .error (.nestingTooDeep limit position) →
      limit = n ∧
      (∃ ts k, ∃ hk : k < ts.length, tokenize text = .ok ts ∧ ts[k].kind = .groupOpen ∧
        ts[k].position = position ∧
        Token.tally .groupOpen (ts.take k) = Token.tally .groupClose (ts.take k) + n) ∧
      ∀ m f, Filter.parse m text = .ok f → n < f.depth := by
  refine ⟨fun f hf => ?_, fun e he hother => ?_, fun limit position hdeep => ?_⟩
  · rcases parse_eq_or hle text with heq | ⟨position, hdeep⟩
    · rwa [← heq]
    · cases hf.symm.trans hdeep
  · rcases parse_eq_or hle text with heq | ⟨position, hdeep⟩
    · rwa [← heq]
    · cases he.symm.trans hdeep
      cases hother
  · obtain ⟨hlimit, htoken⟩ := exists_token_of_tooDeep hdeep
    refine ⟨hlimit, htoken, fun m f hf => ?_⟩
    by_contra hshallow
    have hread := parse_of_depth_le hf (not_lt.mp hshallow)
    cases hdeep.symm.trans hread

/-- A group inside a group, behind one that is closed already, is too deep for one level and not for two. A group
that is not closed is the same error with either. -/
theorem parse_limit_nested :
    ∃ f, Filter.parse 1 "(1 eq 2) or ((1 eq 1))" = .error (.nestingTooDeep 1 13) ∧
      Filter.parse 2 "(1 eq 2) or ((1 eq 1))" = .ok f ∧ 1 < f.depth ∧
      Filter.parse 3 "(1 eq 2) or ((1 eq 1))" = .ok f ∧
      (∃ ts, tokenize "(1 eq 2) or ((1 eq 1))" = .ok ts ∧ ∃ k, ∃ hk : k < ts.length, ts[k].position = 13 ∧
        Token.tally .groupOpen (ts.take k) = Token.tally .groupClose (ts.take k) + 1) ∧
      Filter.parse 1 "1 eq 1 and (2 eq 2" = .error (.unclosedGroup 11) ∧
      Filter.parse 2 "1 eq 1 and (2 eq 2" = .error (.unclosedGroup 11) := by
  have ht : tokenize "(1 eq 2) or ((1 eq 1))" = .ok
      [⟨.groupOpen, "(", 0⟩, ⟨.number (.int 1), "1", 1⟩, ⟨.operator .eq, "eq", 3⟩,
        ⟨.number (.int 2), "2", 6⟩, ⟨.groupClose, ")", 7⟩, ⟨.joiner .or, "or", 9⟩,
        ⟨.groupOpen, "(", 12⟩, ⟨.groupOpen, "(", 13⟩, ⟨.number (.int 1), "1", 14⟩, ⟨.operator .eq, "eq", 16⟩,
        ⟨.number (.int 1), "1", 19⟩, ⟨.groupClose, ")", 20⟩, ⟨.groupClose, ")", 21⟩] := by
    decide +kernel
  have hu : tokenize "1 eq 1 and (2 eq 2" = .ok
      [⟨.number (.int 1), "1", 0⟩, ⟨.operator .eq, "eq", 2⟩, ⟨.number (.int 1), "1", 5⟩,
        ⟨.joiner .and, "and", 7⟩, ⟨.groupOpen, "(", 11⟩, ⟨.number (.int 2), "2", 12⟩,
        ⟨.operator .eq, "eq", 14⟩, ⟨.number (.int 2), "2", 17⟩] := by
    decide +kernel
  have hdeep : Filter.parse 1 "(1 eq 2) or ((1 eq 1))" = .error (.nestingTooDeep 1 13) := by
    rw [parse_of_tokenize ht (by decide)]
    rfl
  have hopen : Filter.parse 1 "1 eq 1 and (2 eq 2" = .error (.unclosedGroup 11) := by
    rw [parse_of_tokenize hu (by decide)]
    rfl
  have hread : ∃ f, Filter.parse 2 "(1 eq 2) or ((1 eq 1))" = .ok f := by
    rw [parse_of_tokenize ht (by decide)]
    exact ⟨_, rfl⟩
  obtain ⟨f, hf⟩ := hread
  obtain ⟨-, hother, -⟩ := parse_limit (n := 1) (m := 2) (by decide) "1 eq 1 and (2 eq 2"
  obtain ⟨-, ⟨ts, k, hk, hts, -, hposition, htally⟩, hdepth⟩ :=
    (parse_limit (n := 1) (m := 2) (by decide) "(1 eq 2) or ((1 eq 1))").2.2 1 13 hdeep
  exact ⟨f, hdeep, hf, hdepth 2 f hf, (parse_limit (m := 3) (by decide) _).1 f hf,
    ⟨ts, hts, k, hk, hposition, htally⟩, hopen, hother _ hopen rfl⟩

end Filter

end RecordFilter
