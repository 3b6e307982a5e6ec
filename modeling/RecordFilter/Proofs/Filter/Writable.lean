import Mathlib
import RecordFilter.Filter.Build
import RecordFilter.Proofs.Filter.Graph

/-!
# Writable — construction lets in only what can be written

* `Range.make_eq_ok_iff`: which bounds make a range.
* `Clause.Writable`, `Filter.Writable`: every literal can be written.
* `Clause.writable_of_make`: a clause that is made can be written.
* `Operand.Builds`, `Operand.Builds.make`: the steps of building are ways to make a clause.
-/

namespace RecordFilter

variable {ε ε' α β : Type}

theorem ok_of_bind {x : Except ε α} {f : α → Except ε β} {b : β} (h : x >>= f = .ok b) :
    ∃ a, x = .ok a ∧ f a = .ok b := by
  cases x with
  | error e => cases h
  | ok a => exact ⟨a, rfl, h⟩

theorem ok_of_map {x : Except ε α} {f : α → β} {b : β} (h : x.map f = .ok b) :
    ∃ a, x = .ok a ∧ f a = b := by
  cases x with
  | error e => cases h
  | ok a => cases h; exact ⟨a, rfl, rfl⟩

theorem ok_of_mapError {x : Except ε α} {f : ε → ε'} {a : α} (h : x.mapError f = .ok a) :
    x = .ok a := by
  cases x with
  | error e => cases h
  | ok a => cases h; rfl

theorem Scalar.forM_check_iff {vs : List Scalar} :
    vs.forM check = .ok () ↔ ∀ v ∈ vs, v.check = .ok () := by
  induction vs with
  | nil => simp [pure, Except.pure]
  | cons v vs ih =>
    rw [List.forall_mem_cons, ← ih]
    constructor
    · intro h
      obtain ⟨_, hv, hvs⟩ := ok_of_bind h
      exact ⟨hv, hvs⟩
    · rintro ⟨hv, hvs⟩
      simp only [List.forM_eq_forM] at hvs ⊢
      rw [List.forM_cons, hv]
      exact hvs

theorem Text.fitsQuotes_of_not_mem {s : List Char} (h : '"' ∉ s) : fitsQuotes s = true := by
  induction s with
  | nil => rfl
  | cons c s ih =>
    rw [List.mem_cons, not_or] at h
    have hquote : (c == '"') = false := beq_eq_false_iff_ne.mpr (Ne.symm h.1)
    rw [fitsQuotes, hquote, ih h.2]
    rfl

theorem fitsQuotes_of_checkString {s : String} (h : checkString s = .ok ()) :
    Text.fitsQuotes s.toList = true := by
  by_contra hs
  rw [checkString, if_neg hs] at h
  cases h

theorem checkString_of_fitsQuotes {s : String} (h : Text.fitsQuotes s.toList = true) : checkString s = .ok () :=
  if_pos h

theorem Object.check_operand (o : Operand) : (operand o).check = o.check := by
  cases o <;> rfl

theorem Object.check_range_iff {r : Range} :
    (range r).check = .ok () ↔ r.lower.check = .ok () ∧ r.upper.check = .ok () := by
  constructor
  · intro h
    obtain ⟨_, hlower, hupper⟩ := ok_of_bind h
    exact ⟨hlower, hupper⟩
  · rintro ⟨hlower, hupper⟩
    rw [check, hlower]
    exact hupper

/-- Two bounds make a range if both can be written and they are alike. -/
theorem Range.make_eq_ok_iff {lower upper : Scalar} {r : Range} :
    Range.make lower upper = .ok r ↔
      lower.check = .ok () ∧ upper.check = .ok () ∧ r.lower = lower ∧ r.upper = upper := by
  constructor
  · intro h
    obtain ⟨_, hl, h⟩ := ok_of_bind h
    obtain ⟨_, hu, h⟩ := ok_of_bind h
    split at h <;> cases h
    exact ⟨hl, hu, rfl, rfl⟩
  · rintro ⟨hl, hu, rfl, rfl⟩
    simp [make, hl, hu, bind, Except.bind, r.alike, pure, Except.pure]

/-- Every literal of the clause can be written. -/
def Clause.Writable (c : Clause) : Prop := c.subject.check = .ok () ∧ c.object.check = .ok ()

/-- Every literal of the filter can be written. -/
def Filter.Writable (f : Filter) : Prop := ∀ c ∈ f.clauses, c.Writable

theorem Filter.writable_mk {row : List Statement} :
    Writable ⟨row⟩ ↔ ∀ s ∈ row, ∀ c ∈ s.node.clauses, c.Writable := by
  simp only [Writable, clauses, mem_clausesOf]
  constructor
  · intro h s hs c hc
    exact h c ⟨s, hs, hc⟩
  · rintro h c ⟨s, hs, hc⟩
    exact h s hs c hc

/-- A clause that is made can be written. -/
theorem Clause.writable_of_make {subject : Operand} {operator : Operator} {object : Object}
    {c : Clause} (h : make subject operator object = .ok c) : c.Writable := by
  unfold make at h
  dsimp only at h
  split at h
  · obtain ⟨_, hs, h⟩ := ok_of_bind h
    obtain ⟨_, ho, h⟩ := ok_of_bind h
    cases h
    exact ⟨hs, ho⟩
  · cases h

/-- What the steps of building give, for a subject. -/
inductive Operand.Builds (subject : Operand) : Except ConstructionError Clause → Prop
  | eq (object : Operand) : Builds subject (subject.eq object)
  | neq (object : Operand) : Builds subject (subject.neq object)
  | gt (object : Operand) : Builds subject (subject.gt object)
  | gte (object : Operand) : Builds subject (subject.gte object)
  | lt (object : Operand) : Builds subject (subject.lt object)
  | lte (object : Operand) : Builds subject (subject.lte object)
  | isIn (values : List Scalar) : Builds subject (subject.isIn values)
  | notIn (values : List Scalar) : Builds subject (subject.notIn values)
  | inField (path : FieldPath) : Builds subject (subject.inField path)
  | between (lower upper : Scalar) : Builds subject (subject.between lower upper)
  | notBetween (lower upper : Scalar) : Builds subject (subject.notBetween lower upper)
  | like (pattern : String) : Builds subject (subject.like pattern)
  | notLike (pattern : String) : Builds subject (subject.notLike pattern)
  | object (operator : Operator) (object : Object) :
    Builds subject (Pending.object ⟨subject, operator⟩ object)

/-- Every step of building makes a clause of its parts. -/
theorem Operand.Builds.make {subject : Operand} {x : Except ConstructionError Clause} {c : Clause}
    (h : subject.Builds x) (hx : x = .ok c) :
    ∃ operator object, Clause.make subject operator object = .ok c := by
  cases h with
  | between lower upper | notBetween lower upper =>
    obtain ⟨r, -, h⟩ := ok_of_bind hx
    exact ⟨_, _, h⟩
  | _ => exact ⟨_, _, hx⟩

end RecordFilter
