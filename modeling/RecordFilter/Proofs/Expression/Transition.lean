import Mathlib
import RecordFilter.Expression.Grammar
import RecordFilter.Proofs.Expression.Derivation
import RecordFilter.Proofs.Filter.Writable

/-!
# Transition — what one token and what a run of tokens does to a reading

* `Reading.Step`: the transitions of a reading.
* `Reading.Step.of_term` … `Reading.Step.of_next`: what a token that is accepted does in each phase.
* `Reading.step_eq_ok_iff`: the transitions, one by one.
* `Reading.run`, `Reading.run_append_of_ok`: a run goes on from where it stands.
* `Reading.finish_eq_ok_iff`: where a text may end.
-/

namespace RecordFilter

open Grammar

/-! ## Literals and operands -/

theorem Token.literal?_eq_some_iff {t : Token} {v : Scalar} :
    t.literal? = some v ↔ IsLiteral t.kind v := by
  obtain ⟨kind, text, position⟩ := t
  constructor
  · intro h
    cases kind <;> simp only [literal?, reduceCtorEq, Option.some.injEq] at h <;> subst h
    · exact .string _
    · exact .number _
    · exact .boolean _
  · intro h
    cases h <;> rfl

theorem Token.operand?_eq_some_iff {t : Token} {o : Operand} :
    t.operand? = some o ↔ IsOperand t.kind o := by
  constructor
  · intro h
    unfold operand? at h
    split at h
    · rename_i path hk
      rw [hk, ← Option.some.inj h]
      exact .field path
    · obtain ⟨v, hv, rfl⟩ := Option.map_eq_some_iff.mp h
      exact .literal (literal?_eq_some_iff.mp hv)
  · intro h
    obtain ⟨kind, text, position⟩ := t
    cases h with
    | field path => rfl
    | literal hl => cases hl <;> rfl

/-- A kind of token whose literal, if it is one, can be written. -/
def Token.Kind.Writable (k : Token.Kind) : Prop := ∀ v, IsLiteral k v → v.check = .ok ()

/-! ## One token -/

/-- The transitions of a reading. -/
inductive Reading.Step (limit : Nat) : Reading → Token → Reading → Prop
  | opened {gs row j t} (hk : t.kind = .groupOpen) (hl : gs.length < limit) :
      Step limit ⟨gs, row, j, .term⟩ t ⟨⟨t.position, row, j⟩ :: gs, [], none, .term⟩
  | subject {gs row j t s} (hk : IsOperand t.kind s) :
      Step limit ⟨gs, row, j, .term⟩ t ⟨gs, row, j, .operator s⟩
  | operator {gs row j s t o} (hk : t.kind = .operator o) :
      Step limit ⟨gs, row, j, .operator s⟩ t ⟨gs, row, j, .object s o⟩
  | operand {gs row j s o fits t a} (hk : IsOperand t.kind a) :
      Step limit ⟨gs, row, j, .operand s o fits⟩ t
        ⟨gs, ⟨j, .clause ⟨s, o, .operand a, fits.symm⟩⟩ :: row, j, .next⟩
  | arrayField {gs row j s o fits t p} (hk : t.kind = .field p) :
      Step limit ⟨gs, row, j, .array s o fits⟩ t
        ⟨gs, ⟨j, .clause ⟨s, o, .array (.field p), fits.symm⟩⟩ :: row, j, .next⟩
  | arrayOpen {gs row j s o fits t} (hk : t.kind = .arrayOpen) :
      Step limit ⟨gs, row, j, .array s o fits⟩ t ⟨gs, row, j, .firstItem s o fits⟩
  | noItems {gs row j s o fits t} (hk : t.kind = .arrayClose) :
      Step limit ⟨gs, row, j, .firstItem s o fits⟩ t
        ⟨gs, ⟨j, .clause ⟨s, o, .array (.literals []), fits.symm⟩⟩ :: row, j, .next⟩
  | firstItem {gs row j s o fits t v} (hk : IsLiteral t.kind v) :
      Step limit ⟨gs, row, j, .firstItem s o fits⟩ t ⟨gs, row, j, .afterItem s o fits [v]⟩
  | item {gs row j s o fits vs t v} (hk : IsLiteral t.kind v) :
      Step limit ⟨gs, row, j, .item s o fits vs⟩ t ⟨gs, row, j, .afterItem s o fits (v :: vs)⟩
  | comma {gs row j s o fits vs t} (hk : t.kind = .comma) :
      Step limit ⟨gs, row, j, .afterItem s o fits vs⟩ t ⟨gs, row, j, .item s o fits vs⟩
  | arrayClose {gs row j s o fits vs t} (hk : t.kind = .arrayClose) :
      Step limit ⟨gs, row, j, .afterItem s o fits vs⟩ t
        ⟨gs, ⟨j, .clause ⟨s, o, .array (.literals vs.reverse), fits.symm⟩⟩ :: row, j, .next⟩
  | lower {gs row j s o fits t v} (hk : IsLiteral t.kind v) (ho : v.isOrderable = true) :
      Step limit ⟨gs, row, j, .lower s o fits⟩ t ⟨gs, row, j, .betweenBounds s o fits v⟩
  | betweenBounds {gs row j s o fits v t} (hk : t.kind = .comma) :
      Step limit ⟨gs, row, j, .betweenBounds s o fits v⟩ t ⟨gs, row, j, .upper s o fits v⟩
  | upper {gs row j s o fits v t w r} (hk : IsLiteral t.kind w) (hr : Range.make v w = .ok r) :
      Step limit ⟨gs, row, j, .upper s o fits v⟩ t
        ⟨gs, ⟨j, .clause ⟨s, o, .range r, fits.symm⟩⟩ :: row, j, .next⟩
  | pattern {gs row j s o fits t p} (hk : t.kind = .string p) :
      Step limit ⟨gs, row, j, .pattern s o fits⟩ t
        ⟨gs, ⟨j, .clause ⟨s, o, .like ⟨p⟩, fits.symm⟩⟩ :: row, j, .next⟩
  | joined {gs row j t i} (hk : t.kind = .joiner i) :
      Step limit ⟨gs, row, j, .next⟩ t ⟨gs, row, some i, .term⟩
  | closed {g gs row j t} (hk : t.kind = .groupClose) :
      Step limit ⟨g :: gs, row, j, .next⟩ t
        ⟨gs, ⟨g.joiner, .group ⟨row.reverse⟩⟩ :: g.before, none, .next⟩

namespace Reading.Step

/-! ### The phases one by one -/

section Phases

variable {limit : Nat} {gs : List OpenGroup} {row : List Statement} {j : Option Joiner} {t : Token} {r' : Reading}
  {s : Operand} {o : Operator}

theorem of_term (h : Reading.step limit ⟨gs, row, j, .term⟩ t = .ok r') : Step limit ⟨gs, row, j, .term⟩ t r' := by
  obtain ⟨kind, text, position⟩ := t
  cases kind with
  | groupOpen =>
    by_cases hl : gs.length < limit
    · cases (if_pos hl).symm.trans h
      exact .opened rfl hl
    · cases (if_neg hl).symm.trans h
  | _ =>
    simp only [Reading.step] at h
    split at h
    · next s hs =>
      cases h
      exact .subject (Token.operand?_eq_some_iff.mp hs)
    · cases h

theorem of_operator (h : Reading.step limit ⟨gs, row, j, .operator s⟩ t = .ok r') :
    Step limit ⟨gs, row, j, .operator s⟩ t r' := by
  obtain ⟨kind, text, position⟩ := t
  cases kind with
  | operator o =>
    cases h
    exact .operator rfl
  | _ => cases h

theorem of_operand {fits : o.shape = .compare} (h : Reading.step limit ⟨gs, row, j, .operand s o fits⟩ t = .ok r') :
    Step limit ⟨gs, row, j, .operand s o fits⟩ t r' := by
  simp only [Reading.step] at h
  split at h
  · next a ha =>
    cases h
    exact .operand (Token.operand?_eq_some_iff.mp ha)
  · cases h

theorem of_array {fits : o.shape = .array} (h : Reading.step limit ⟨gs, row, j, .array s o fits⟩ t = .ok r') :
    Step limit ⟨gs, row, j, .array s o fits⟩ t r' := by
  obtain ⟨kind, text, position⟩ := t
  cases kind with
  | field p =>
    cases h
    exact .arrayField rfl
  | arrayOpen =>
    cases h
    exact .arrayOpen rfl
  | _ => cases h

theorem of_firstItem {fits : o.shape = .array} (h : Reading.step limit ⟨gs, row, j, .firstItem s o fits⟩ t = .ok r') :
    Step limit ⟨gs, row, j, .firstItem s o fits⟩ t r' := by
  obtain ⟨kind, text, position⟩ := t
  cases kind with
  | arrayClose =>
    cases h
    exact .noItems rfl
  | _ =>
    simp only [Reading.step] at h
    split at h
    · next v hv =>
      cases h
      exact .firstItem (Token.literal?_eq_some_iff.mp hv)
    · cases h

theorem of_item {fits : o.shape = .array} {vs : List Scalar}
    (h : Reading.step limit ⟨gs, row, j, .item s o fits vs⟩ t = .ok r') :
    Step limit ⟨gs, row, j, .item s o fits vs⟩ t r' := by
  simp only [Reading.step] at h
  split at h
  · next v hv =>
    cases h
    exact .item (Token.literal?_eq_some_iff.mp hv)
  · cases h

theorem of_afterItem {fits : o.shape = .array} {vs : List Scalar}
    (h : Reading.step limit ⟨gs, row, j, .afterItem s o fits vs⟩ t = .ok r') :
    Step limit ⟨gs, row, j, .afterItem s o fits vs⟩ t r' := by
  obtain ⟨kind, text, position⟩ := t
  cases kind with
  | comma =>
    cases h
    exact .comma rfl
  | arrayClose =>
    cases h
    exact .arrayClose rfl
  | _ => cases h

theorem of_lower {fits : o.shape = .range} (h : Reading.step limit ⟨gs, row, j, .lower s o fits⟩ t = .ok r') :
    Step limit ⟨gs, row, j, .lower s o fits⟩ t r' := by
  simp only [Reading.step] at h
  split at h
  · next v hv =>
    split at h
    · next ho =>
      cases h
      exact .lower (Token.literal?_eq_some_iff.mp hv) ho
    · cases h
  · cases h

theorem of_betweenBounds {fits : o.shape = .range} {v : Scalar}
    (h : Reading.step limit ⟨gs, row, j, .betweenBounds s o fits v⟩ t = .ok r') :
    Step limit ⟨gs, row, j, .betweenBounds s o fits v⟩ t r' := by
  obtain ⟨kind, text, position⟩ := t
  cases kind with
  | comma =>
    cases h
    exact .betweenBounds rfl
  | _ => cases h

theorem of_upper {fits : o.shape = .range} {v : Scalar}
    (h : Reading.step limit ⟨gs, row, j, .upper s o fits v⟩ t = .ok r') :
    Step limit ⟨gs, row, j, .upper s o fits v⟩ t r' := by
  simp only [Reading.step] at h
  split at h
  · next w hw =>
    split at h
    · next hr =>
      cases h
      exact .upper (Token.literal?_eq_some_iff.mp hw) hr
    · cases h
  · cases h

theorem of_pattern {fits : o.shape = .search} (h : Reading.step limit ⟨gs, row, j, .pattern s o fits⟩ t = .ok r') :
    Step limit ⟨gs, row, j, .pattern s o fits⟩ t r' := by
  obtain ⟨kind, text, position⟩ := t
  cases kind with
  | string p =>
    cases h
    exact .pattern rfl
  | _ => cases h

theorem of_next (h : Reading.step limit ⟨gs, row, j, .next⟩ t = .ok r') : Step limit ⟨gs, row, j, .next⟩ t r' := by
  obtain ⟨kind, text, position⟩ := t
  cases kind with
  | joiner i =>
    cases h
    exact .joined rfl
  | groupClose =>
    cases gs with
    | nil => cases h
    | cons g outer =>
      cases h
      exact .closed rfl
  | _ => cases h

end Phases

theorem of_step {limit : Nat} {r r' : Reading} {t : Token} (h : r.step limit t = .ok r') : Step limit r t r' := by
  obtain ⟨gs, row, j, phase⟩ := r
  cases phase with
  | term => exact of_term h
  | operator s => exact of_operator h
  | operand s o fits => exact of_operand h
  | array s o fits => exact of_array h
  | firstItem s o fits => exact of_firstItem h
  | item s o fits vs => exact of_item h
  | afterItem s o fits vs => exact of_afterItem h
  | lower s o fits => exact of_lower h
  | betweenBounds s o fits v => exact of_betweenBounds h
  | upper s o fits v => exact of_upper h
  | pattern s o fits => exact of_pattern h
  | next => exact of_next h

end Reading.Step

theorem Reading.Step.step {limit : Nat} {r r' : Reading} {t : Token} (h : Step limit r t r') :
    r.step limit t = .ok r' := by
  obtain ⟨kind, text, position⟩ := t
  cases h with
  | opened hk hl =>
    obtain rfl : kind = _ := hk
    exact if_pos hl
  | subject hk =>
    cases hk with
    | field p => rfl
    | literal hl => cases hl <;> rfl
  | operator hk => obtain rfl : kind = _ := hk; rfl
  | operand hk => simp [Reading.step, Token.operand?_eq_some_iff.mpr hk, clause, complete]
  | arrayField hk => obtain rfl : kind = _ := hk; rfl
  | arrayOpen hk => obtain rfl : kind = _ := hk; rfl
  | noItems hk => obtain rfl : kind = _ := hk; rfl
  | firstItem hk => cases hk <;> rfl
  | item hk => simp [Reading.step, Token.literal?_eq_some_iff.mpr hk, await]
  | comma hk => obtain rfl : kind = _ := hk; rfl
  | arrayClose hk => obtain rfl : kind = _ := hk; rfl
  | lower hk ho => simp [Reading.step, Token.literal?_eq_some_iff.mpr hk, ho, await]
  | betweenBounds hk => obtain rfl : kind = _ := hk; rfl
  | upper hk hr => simp [Reading.step, Token.literal?_eq_some_iff.mpr hk, hr, clause, complete]
  | pattern hk => obtain rfl : kind = _ := hk; rfl
  | joined hk => obtain rfl : kind = _ := hk; rfl
  | closed hk => obtain rfl : kind = _ := hk; rfl

theorem Reading.step_eq_ok_iff {limit : Nat} {r r' : Reading} {t : Token} :
    r.step limit t = .ok r' ↔ Step limit r t r' :=
  ⟨Step.of_step, Step.step⟩

namespace Reading

/-! ## Runs -/

/-- The reading after a list of tokens. -/
def run (limit : Nat) (r : Reading) (ts : List Token) : Except ParseError Reading :=
  ts.foldlM (Reading.step limit) r

variable {limit : Nat} {r r' : Reading} {t : Token} {ts us : List Token}

theorem run_append_of_ok (h : r.run limit ts = .ok r') :
    r.run limit (ts ++ us) = r'.run limit us := by
  rw [run, List.foldlM_append]
  rw [run] at h
  rw [h]
  rfl

theorem Step.run_cons (h : Step limit r t r') : r.run limit (t :: ts) = r'.run limit ts := by
  rw [run, List.foldlM_cons, h.step]
  rfl

theorem run_cons_ok (h : r.run limit (t :: ts) = .ok r') :
    ∃ q, Step limit r t q ∧ q.run limit ts = .ok r' := by
  rw [run, List.foldlM_cons] at h
  cases hq : r.step limit t with
  | error e => rw [hq] at h; cases h
  | ok q => rw [hq] at h; exact ⟨q, step_eq_ok_iff.mp hq, h⟩

theorem finish_eq_ok_iff {length : Nat} {f : Filter} :
    r.finish length = .ok f ↔ r.phase = .next ∧ r.groups = [] ∧ f = ⟨r.statements.reverse⟩ := by
  obtain ⟨gs, row, j, phase⟩ := r
  cases phase with
  | next =>
    cases gs with
    | nil => simp [finish, eq_comm]
    | cons g gs => simp [finish]
  | _ => simp [finish]

end Reading

theorem Filter.ofTokens_eq_ok_iff {limit length : Nat} {ts : List Token} {f : Filter} :
    ofTokens limit length ts = .ok f ↔
      ∃ r, Reading.start.run limit ts = .ok r ∧ r.finish length = .ok f := by
  unfold ofTokens
  rw [← Reading.run]
  cases Reading.start.run limit ts with
  | error e => simp [bind, Except.bind]
  | ok r => simp [bind, Except.bind]

end RecordFilter
