import Mathlib
import RecordFilter.Proofs.Filter.Writable

/-!
# Checked — what every check of construction lets through

A clause can be written if all its literals can. Construction then gives the same clause for its parts, as
it gives the same range for its bounds and the same path for its segments: a clause that came about in
another way is one that construction could have made.

* `Clause.literals`: the literals of a clause.
* `Clause.Checked`: construction gives the clause back; what the checks have looked at, one by one.
* `Clause.Writable.checked`: a clause that can be written is such a clause.
* `FieldPath.ofSegments_segments`: a path is what its segments make.
-/

namespace RecordFilter

open Text

/-! ## Paths -/

theorem Segment.isBroken_of_isCanonical {s : Segment} (h : s.IsCanonical) : s.isBroken = false := by
  cases s with
  | key name =>
    have hchars := h.2
    rw [isBroken, List.any_eq_false]
    intro c hc
    simp [hchars c hc]
  | index position => rfl

theorem Segment.normalize_of_isCanonical {s : Segment} (h : s.IsCanonical) : s.normalize = s := by
  cases s with
  | key name => exact h.1
  | index position => rfl

/-- A path is what its segments make. -/
theorem FieldPath.ofSegments_segments (p : FieldPath) : ofSegments p.segments = .ok p := by
  obtain ⟨segments, hne, hcanonical⟩ := p
  have hfind : segments.find? Segment.isBroken = none := by
    rw [List.find?_eq_none]
    intro s hs
    simp [Segment.isBroken_of_isCanonical (hcanonical s hs)]
  have hmap : segments.map Segment.normalize = segments := by
    rw [List.map_congr_left fun s hs => Segment.normalize_of_isCanonical (hcanonical s hs)]
    exact List.map_id' segments
  rw [ofSegments, dif_neg hne]
  split
  · next s hs =>
    rw [hfind] at hs
    cases hs
  · simp only [hmap]

/-! ## Clauses -/

def Operand.literals : Operand → List Scalar
  | .field _ => []
  | .literal v => [v]

def Object.literals : Object → List Scalar
  | .operand o => o.literals
  | .array (.literals vs) => vs
  | .range r => [r.lower, r.upper]
  | .array (.field _) | .like _ => []

/-- The literals of a clause, the subject's first. -/
def Clause.literals (c : Clause) : List Scalar := c.subject.literals ++ c.object.literals

/-- Construction gives the clause back from its parts, and its range from its bounds. The object has the
shape that the operator takes, strings and patterns can stand between quotes, and numbers are finite. -/
structure Clause.Checked (c : Clause) : Prop where
  make : Clause.make c.subject c.operator c.object = .ok c
  range : ∀ r, c.object = .range r → Range.make r.lower r.upper = .ok r
  shape : c.object.shape = c.operator.shape
  strings : ∀ s, .string s ∈ c.literals → fitsQuotes s.toList = true
  pattern : ∀ w, c.object = .like w → fitsQuotes w.pattern.toList = true
  numbers : ∀ x, .float x ∈ c.literals → x.isFinite = true

theorem Number.Binary64.isFinite_of_check {x : Number.Binary64} (h : (Scalar.float x).check = .ok ()) :
    x.isFinite = true := by
  by_contra hx
  rw [Scalar.check, if_neg hx] at h
  cases h

theorem Operand.check_of_mem_literals {o : Operand} (h : o.check = .ok ()) {v : Scalar}
    (hv : v ∈ o.literals) : v.check = .ok () := by
  cases o with
  | field p => cases hv
  | literal w =>
    rw [literals, List.mem_singleton] at hv
    rw [hv]
    exact h

theorem Object.check_of_mem_literals {object : Object} (h : object.check = .ok ()) {v : Scalar}
    (hv : v ∈ object.literals) : v.check = .ok () := by
  cases object with
  | operand o =>
    rw [check_operand] at h
    exact Operand.check_of_mem_literals h hv
  | array a =>
    cases a with
    | literals vs => exact Scalar.forM_check_iff.mp h v hv
    | field p => cases hv
  | range r =>
    obtain ⟨hlower, hupper⟩ := check_range_iff.mp h
    rw [literals, List.mem_pair] at hv
    rcases hv with rfl | rfl
    · exact hlower
    · exact hupper
  | like w => cases hv

/-- An object that has the shape already stays as it is. -/
theorem Object.forShape_of_shape {object : Object} {shape : Shape} (h : object.shape = shape) :
    object.forShape shape = object := by
  subst h
  cases object with
  | operand o => cases o <;> rfl
  | _ => rfl

namespace Clause

variable {c : Clause}

theorem Writable.check_of_mem_literals (h : c.Writable) {v : Scalar} (hv : v ∈ c.literals) :
    v.check = .ok () := by
  rcases List.mem_append.mp hv with hv | hv
  · exact Operand.check_of_mem_literals h.1 hv
  · exact Object.check_of_mem_literals h.2 hv

/-- Construction gives a clause that can be written back from its parts. -/
theorem Writable.make (h : c.Writable) : Clause.make c.subject c.operator c.object = .ok c := by
  obtain ⟨subject, operator, object, fits⟩ := c
  have hobject : object.forShape operator.shape = object := Object.forShape_of_shape fits
  have hsubject : subject.check = .ok () := h.1
  have hcheck : object.check = .ok () := h.2
  simp [Clause.make, hobject, fits, hsubject, hcheck, bind, Except.bind, pure, Except.pure]

/-- A clause that can be written is one that construction could have made. -/
theorem Writable.checked (h : c.Writable) : c.Checked where
  make := h.make
  range := by
    intro r hr
    have hobject : (Object.range r).check = .ok () := hr ▸ h.2
    obtain ⟨hlower, hupper⟩ := Object.check_range_iff.mp hobject
    exact Range.make_eq_ok_iff.mpr ⟨hlower, hupper, rfl, rfl⟩
  shape := c.fits
  strings := by
    intro s hs
    exact fitsQuotes_of_checkString (h.check_of_mem_literals hs)
  pattern := by
    intro w hw
    have hobject : (Object.like w).check = .ok () := hw ▸ h.2
    exact fitsQuotes_of_checkString hobject
  numbers := by
    intro x hx
    exact Number.Binary64.isFinite_of_check (h.check_of_mem_literals hx)

end Clause

end RecordFilter
