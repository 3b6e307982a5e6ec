import Mathlib
import RecordFilter.Expression.Parse
import RecordFilter.Proofs.Expression.Cutting
import RecordFilter.Proofs.Expression.Transition

/-!
# Viable prefixes — an error names the first token that no filter can continue with

From every reading that tokens of a text lead to, a few more tokens lead to a filter: the clause
that has been begun can be ended, and every open group can be closed. So as long as tokens are
accepted they can be continued, and the one that is refused cannot.

* `Reading.Bounded`: a lower bound that has been read bounds a range.
* `Reading.viable_of_bounded`: such a reading can be continued to a filter.
* `Token.Refused`, `Reading.refused_of_step`, `Reading.missing_of_finish`: the errors of a token and of the
  end.
* `Filter.parse_error_viable`: the tokens before the refused one can be continued, with it they cannot.
-/

namespace RecordFilter

open Grammar

/-- The error refuses a token. -/
def ParseError.refuses : ParseError → Bool
  | unexpectedToken .. | unmatchedGroupClose _ | nestingTooDeep .. | invalidRange .. => true
  | _ => false

/-- The error says that something is missing at the end. -/
def ParseError.missesEnd : ParseError → Bool
  | unexpectedEnd .. | unclosedGroup _ => true
  | _ => false

/-- The errors that refuse a token, and the token that they refuse. -/
inductive Token.Refused (t : Token) : ParseError → Prop
  | unexpected (expected : List String) : Refused t (.unexpectedToken t.text expected t.position)
  | unmatched (hk : t.kind = .groupClose) : Refused t (.unmatchedGroupClose t.position)
  | tooDeep (limit : Nat) (hk : t.kind = .groupOpen) : Refused t (.nestingTooDeep limit t.position)
  | range {v : Scalar} (fault : BoundFault) (hv : IsLiteral t.kind v) :
      Refused t (.invalidRange fault t.position)

theorem ParseError.missesEnd_of_refuses {e : ParseError} (h : e.refuses = true) :
    e.missesEnd = false := by
  cases e with
  | unexpectedEnd | unclosedGroup => cases h
  | _ => rfl

namespace Reading

/-! ## The pending bound -/

/-- A lower bound that has been read bounds a range. -/
def Bounded : Phase → Prop
  | .betweenBounds _ _ _ bound | .upper _ _ _ bound =>
    bound.isOrderable = true ∧ bound.check = .ok ()
  | _ => True

theorem bounded_object (s : Operand) (o : Operator) : Bounded (.object s o) := by
  unfold Phase.object
  split <;> trivial

theorem Bounded.step {limit : Nat} {r r' : Reading} {t : Token} (hr : Bounded r.phase)
    (hw : t.kind.Writable) (h : Step limit r t r') : Bounded r'.phase := by
  cases h with
  | operator hk => exact bounded_object _ _
  | lower hk ho => exact ⟨ho, hw _ hk⟩
  | betweenBounds hk => exact hr
  | _ => trivial

theorem Bounded.run {limit : Nat} {r r' : Reading} {ts : List Token} (hr : Bounded r.phase)
    (hw : ∀ t ∈ ts, t.kind.Writable) (h : r.run limit ts = .ok r') : Bounded r'.phase := by
  induction ts generalizing r with
  | nil => cases h; exact hr
  | cons t ts ih =>
    obtain ⟨q, hq, h⟩ := run_cons_ok h
    rw [List.forall_mem_cons] at hw
    exact ih (hr.step hw.1 hq) hw.2 h

/-! ## Continuations -/

/-- Some tokens lead to a filter. -/
def Viable (limit : Nat) (r : Reading) : Prop :=
  ∃ ts r' f, r.run limit ts = .ok r' ∧ ∀ length, r'.finish length = .ok f

/-- A token that means this. -/
def tokenOf (kind : Token.Kind) : Token := ⟨kind, "", 0⟩

variable {limit : Nat} {r r' : Reading} {gs : List OpenGroup} {row : List Statement}
  {j : Option Joiner} {s : Operand} {o : Operator}

theorem Viable.of_step {t : Token} (h : Step limit r t r') (hv : Viable limit r') :
    Viable limit r := by
  obtain ⟨ts, q, f, hrun, hf⟩ := hv
  exact ⟨t :: ts, q, f, by rw [h.run_cons, hrun], hf⟩

/-- Every open group can be closed. -/
theorem viable_next : Viable limit ⟨gs, row, j, .next⟩ := by
  induction gs generalizing row j with
  | nil => exact ⟨[], _, _, rfl, fun _ => rfl⟩
  | cons g gs ih => exact .of_step (t := tokenOf .groupClose) (.closed rfl) ih

theorem viable_afterItem {fits : o.shape = .array} {vs : List Scalar} :
    Viable limit ⟨gs, row, j, .afterItem s o fits vs⟩ :=
  .of_step (t := tokenOf .arrayClose) (.arrayClose rfl) viable_next

theorem viable_firstItem {fits : o.shape = .array} :
    Viable limit ⟨gs, row, j, .firstItem s o fits⟩ :=
  .of_step (t := tokenOf .arrayClose) (.noItems rfl) viable_next

theorem isAlike_self {v : Scalar} (h : v.isOrderable = true) : v.isAlike v = true := by
  simp [Scalar.isAlike, h]

/-- A bound that has been read is an upper bound too. -/
theorem viable_upper {fits : o.shape = .range} {v : Scalar} (ho : v.isOrderable = true)
    (hc : v.check = .ok ()) : Viable limit ⟨gs, row, j, .upper s o fits v⟩ := by
  have hr : Range.make v v = .ok ⟨v, v, isAlike_self ho⟩ :=
    Range.make_eq_ok_iff.mpr ⟨hc, hc, rfl, rfl⟩
  cases v with
  | string p => exact .of_step (t := tokenOf (.string p)) (.upper (.string p) hr) viable_next
  | bool b => cases ho
  | int i => exact .of_step (t := tokenOf (.number (.int i))) (.upper (.number _) hr) viable_next
  | float x => exact .of_step (t := tokenOf (.number (.float x))) (.upper (.number _) hr) viable_next

theorem viable_betweenBounds {fits : o.shape = .range} {v : Scalar} (ho : v.isOrderable = true)
    (hc : v.check = .ok ()) : Viable limit ⟨gs, row, j, .betweenBounds s o fits v⟩ :=
  .of_step (t := tokenOf .comma) (.betweenBounds rfl) (viable_upper ho hc)

theorem viable_operator : Viable limit ⟨gs, row, j, .operator s⟩ := by
  refine .of_step (t := tokenOf (.operator .eq)) (.operator rfl) ?_
  exact .of_step (t := tokenOf (.boolean true)) (.operand (.literal (.boolean true))) viable_next

/-- **Whatever has been read can be continued to a filter.** -/
theorem viable_of_bounded (h : Bounded r.phase) : Viable limit r := by
  obtain ⟨gs, row, j, phase⟩ := r
  cases phase with
  | term =>
    exact .of_step (t := tokenOf (.boolean true)) (.subject (.literal (.boolean true))) viable_operator
  | operator s => exact viable_operator
  | operand s o fits =>
    exact .of_step (t := tokenOf (.boolean true)) (.operand (.literal (.boolean true))) viable_next
  | array s o fits => exact .of_step (t := tokenOf .arrayOpen) (.arrayOpen rfl) viable_firstItem
  | firstItem s o fits => exact viable_firstItem
  | item s o fits vs =>
    exact .of_step (t := tokenOf (.boolean true)) (.item (.boolean true)) viable_afterItem
  | afterItem s o fits vs => exact viable_afterItem
  | lower s o fits =>
    exact .of_step (t := tokenOf (.string "")) (.lower (.string "") rfl) (viable_betweenBounds rfl rfl)
  | betweenBounds s o fits v => exact viable_betweenBounds h.1 h.2
  | upper s o fits v => exact viable_upper h.1 h.2
  | pattern s o fits => exact .of_step (t := tokenOf (.string "")) (.pattern rfl) viable_next
  | next => exact viable_next

/-! ## Errors -/

/-- An error at a token refuses it. -/
theorem refused_of_step {t : Token} {e : ParseError} (h : r.step limit t = .error e) : t.Refused e := by
  unfold step at h
  split at h
  case h_1 hk =>
    unfold openGroup at h
    split at h <;> cases h
    exact .tooDeep limit hk
  case h_17 hk =>
    unfold closeGroup at h
    split at h <;> cases h
    exact .unmatched hk
  case h_12 | h_14 =>
    split at h
    · next hv =>
      split at h <;> cases h
      exact .range _ (Token.literal?_eq_some_iff.mp hv)
    · cases h
      exact .unexpected _
  case h_2 | h_4 | h_8 | h_9 =>
    split at h <;> cases h
    exact .unexpected _
  case h_18 =>
    cases h
    exact .unexpected _
  all_goals cases h

theorem step_error {t : Token} {e : ParseError} (h : r.step limit t = .error e) :
    e.refuses = true ∧ e.position = t.position := by
  cases refused_of_step h <;> exact ⟨rfl, rfl⟩

/-- An error at the end says that more has to follow or that a group is open. -/
theorem missing_of_finish {length : Nat} {e : ParseError} (h : r.finish length = .error e) :
    (∃ expected, e = .unexpectedEnd expected length) ∨ ∃ g ∈ r.groups, e = .unclosedGroup g.position := by
  unfold finish at h
  split at h
  · cases h
  · next hgroups =>
    cases h
    exact .inr ⟨_, by rw [hgroups]; exact List.mem_cons_self, rfl⟩
  · cases h
    exact .inl ⟨_, rfl⟩

theorem finish_error {length : Nat} {e : ParseError} (h : r.finish length = .error e) :
    e.missesEnd = true := by
  rcases missing_of_finish h with ⟨_, rfl⟩ | ⟨_, _, rfl⟩ <;> rfl

theorem run_error {ts : List Token} {e : ParseError} (h : r.run limit ts = .error e) :
    ∃ k, ∃ hk : k < ts.length, ∃ q, r.run limit (ts.take k) = .ok q ∧
      q.step limit ts[k] = .error e := by
  induction ts generalizing r with
  | nil => cases h
  | cons t ts ih =>
    cases hq : r.step limit t with
    | error e' =>
      rw [run, List.foldlM_cons, hq] at h
      cases h
      exact ⟨0, by simp, r, rfl, hq⟩
    | ok q =>
      have hs := Step.of_step hq
      rw [hs.run_cons] at h
      obtain ⟨k, hk, q', hrun, hstep⟩ := ih h
      exact ⟨k + 1, by simpa using hk, q', by rw [List.take_succ_cons, hs.run_cons, hrun], hstep⟩

/-- With a token that is refused, no continuation helps. -/
theorem run_append_refused {ts us : List Token} {t : Token} {q : Reading} {e : ParseError}
    (hrun : r.run limit ts = .ok q) (hstep : q.step limit t = .error e) :
    r.run limit (ts ++ t :: us) = .error e := by
  rw [run_append_of_ok hrun, run, List.foldlM_cons, hstep]
  rfl

end Reading

/-! ## The first token that is refused -/

theorem Filter.ofTokens_of_viable {limit : Nat} {ts : List Token} {r : Reading}
    (hrun : Reading.start.run limit ts = .ok r) (hv : r.Viable limit) :
    ∃ more f, ∀ length, ofTokens limit length (ts ++ more) = .ok f := by
  obtain ⟨more, q, f, hmore, hf⟩ := hv
  refine ⟨more, f, fun length => ofTokens_eq_ok_iff.mpr ⟨q, ?_, hf length⟩⟩
  rw [Reading.run_append_of_ok hrun, hmore]

theorem Filter.ofTokens_of_run_error {limit : Nat} {ts : List Token} {e : ParseError}
    (h : Reading.start.run limit ts = .error e) (length : Nat) :
    ofTokens limit length ts = .error e := by
  rw [ofTokens, ← Reading.run, h]
  rfl

/-- The tokens of a text that are read can be continued to a filter. -/
theorem Filter.viable_of_tokenize {limit : Nat} {ts us : List Token} {text : String} {r : Reading}
    (ht : tokenize text = .ok ts) (hus : us ⊆ ts) (hrun : Reading.start.run limit us = .ok r) :
    r.Viable limit := by
  have hw := Token.writable_of_scan ht
  have hb : Reading.Bounded Reading.start.phase := trivial
  exact Reading.viable_of_bounded (hb.run (fun t hmem => hw t (hus hmem)) hrun)

theorem Token.position_eq_iff {text : String} {ts : List Token} (ht : tokenize text = .ok ts)
    {j k : Nat} (hj : j < ts.length) (hk : k < ts.length) :
    ts[j].position = ts[k].position ↔ j = k := by
  have hpair := List.pairwise_iff_getElem.mp (scan_increasing ht)
  constructor
  · intro h
    rcases Nat.lt_trichotomy j k with hlt | rfl | hlt
    · have := hpair j k hj hk hlt
      omega
    · rfl
    · have := hpair k j hk hj hlt
      omega
  · rintro rfl
    rfl

/-- An error comes from a token or from the end. -/
theorem Filter.ofTokens_error {limit length : Nat} {ts : List Token} {e : ParseError}
    (h : ofTokens limit length ts = .error e) :
    Reading.start.run limit ts = .error e ∨
      ∃ r, Reading.start.run limit ts = .ok r ∧ r.finish length = .error e := by
  rw [ofTokens, ← Reading.run] at h
  cases hrun : Reading.start.run limit ts with
  | error e' => rw [hrun] at h; cases h; exact .inl rfl
  | ok r => rw [hrun] at h; exact .inr ⟨r, rfl, h⟩

/-- **An error names the first token that no filter can continue with.** If a token is refused, the
tokens before it can be continued to a filter, and with it every continuation ends in the same error;
if something is missing at the end, all the tokens can be continued to a filter. -/
theorem Filter.parse_error_viable {limit : Nat} {text : String} {ts : List Token} {e : ParseError}
    (ht : tokenize text = .ok ts) (he : Filter.parse limit text = .error e) :
    (e.refuses = true → ∃ k, k < ts.length ∧
      (∀ j (hj : j < ts.length), ts[j].position = e.position ↔ j = k) ∧
      (∃ more f, ∀ length, ofTokens limit length (ts.take k ++ more) = .ok f) ∧
      ∀ more length, ofTokens limit length (ts.take (k + 1) ++ more) = .error e) ∧
    (e.missesEnd = true → ∃ more f, ∀ length, ofTokens limit length (ts ++ more) = .ok f) ∧
    (e = .emptyInput ∨ e.refuses = true ∨ e.missesEnd = true) := by
  unfold Filter.parse at he
  split at he
  · cases he
    exact ⟨by simp [ParseError.refuses], by simp [ParseError.missesEnd], .inl rfl⟩
  rw [ht] at he
  rcases ofTokens_error he with hrun | ⟨r, hrun, hfinish⟩
  · -- a token is refused
    obtain ⟨k, hk, q, hq, hstep⟩ := Reading.run_error hrun
    obtain ⟨hrefuses, hposition⟩ := Reading.step_error hstep
    refine ⟨fun _ => ⟨k, hk, fun j hj => ?_, ?_, fun more length => ?_⟩, ?_, .inr (.inl hrefuses)⟩
    · rw [hposition]
      exact Token.position_eq_iff ht hj hk
    · exact ofTokens_of_viable hq (viable_of_tokenize ht (List.take_subset k ts) hq)
    · refine ofTokens_of_run_error ?_ length
      rw [← List.take_append_getElem hk, List.append_assoc]
      exact Reading.run_append_refused hq hstep
    · intro hend
      rw [ParseError.missesEnd_of_refuses hrefuses] at hend
      cases hend
  · -- the tokens are read, and the text ends too early
    have hend := Reading.finish_error hfinish
    refine ⟨?_, fun _ => ?_, .inr (.inr hend)⟩
    · intro hrefuses
      rw [ParseError.missesEnd_of_refuses hrefuses] at hend
      cases hend
    · exact ofTokens_of_viable hrun (viable_of_tokenize ht (List.Subset.refl ts) hrun)

/-- A bound of another type is refused where it stands, and not the comma before it; where the text
ends before the bound, it can be continued. -/
theorem Filter.parse_error_viable_bound :
    (∃ ts e, tokenize "1 between 2,true and" = .ok ts ∧
      Filter.parse 0 "1 between 2,true and" = .error e ∧ e.refuses = true ∧ e.position = 12 ∧
      (∃ more f, ∀ length, ofTokens 0 length (ts.take 4 ++ more) = .ok f) ∧
      ∀ more length, ofTokens 0 length (ts.take 5 ++ more) = .error e) ∧
    ∃ ts e, tokenize "1 between 2," = .ok ts ∧ Filter.parse 0 "1 between 2," = .error e ∧
      e.missesEnd = true ∧ ∃ more f, ∀ length, ofTokens 0 length (ts ++ more) = .ok f := by
  constructor
  · have ht : tokenize "1 between 2,true and" = .ok
        [⟨.number (.int 1), "1", 0⟩, ⟨.operator .between, "between", 2⟩,
          ⟨.number (.int 2), "2", 10⟩, ⟨.comma, ",", 11⟩, ⟨.boolean true, "true", 12⟩,
          ⟨.joiner .and, "and", 17⟩] := by
      decide +kernel
    have he : Filter.parse 0 "1 between 2,true and" =
        .error (.invalidRange (.mismatch (.rangeBounds "number" "boolean")) 12) := by
      rw [Filter.parse, ht, if_neg (by decide +kernel)]
      rfl
    obtain ⟨k, hk, hposition, hbefore, hafter⟩ := (parse_error_viable ht he).1 rfl
    obtain rfl : 4 = k := (hposition 4 (by decide)).mp rfl
    exact ⟨_, _, ht, he, rfl, rfl, hbefore, hafter⟩
  · have ht : tokenize "1 between 2," = .ok
        [⟨.number (.int 1), "1", 0⟩, ⟨.operator .between, "between", 2⟩,
          ⟨.number (.int 2), "2", 10⟩, ⟨.comma, ",", 11⟩] := by
      decide +kernel
    have he : Filter.parse 0 "1 between 2," =
        .error (.unexpectedEnd ["string", "number", "boolean"] 12) := by
      rw [Filter.parse, ht, if_neg (by decide +kernel)]
      rfl
    exact ⟨_, _, ht, he, rfl, (parse_error_viable ht he).2.1 rfl⟩

end RecordFilter
