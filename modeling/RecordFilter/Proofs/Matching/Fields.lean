import Mathlib
import RecordFilter.Matching.Test
import RecordFilter.Proofs.Filter.FieldPath
import RecordFilter.Proofs.Filter.Graph
import RecordFilter.Proofs.Matching.Same

/-!
# Fields — a filter reads its fields and nothing else

The fields of a filter are the beginnings of its paths, up to the first position. Where two records have
the same values at the fields, they have the same values at the paths, so every clause has one outcome for
both; and as statements are passed over by outcomes alone, so has the filter, whatever faults its rows have.

* `FieldPath.ofText_field`, `FieldPath.exists_stem`: a field that is not empty spells the beginning of its path.
* `Json.AgreeOn`: two records have the same values at some fields.
* `Clause.test_congr`, `Filter.test_congr`: outcomes hang on the values at the paths.
* `Filter.test_eq_of_agreeOn`: the outcome of a filter hangs on the values at its fields.
-/

namespace RecordFilter

/-! ## Fields and paths -/

/-- A field that is not empty spells the names that its path begins with. -/
theorem FieldPath.ofText_field {p : FieldPath} (h : p.field ≠ "") :
    ∃ q, ofText p.field = .ok q ∧ q.segments = p.segments.takeWhile Segment.isKey := by
  have hne : p.segments.takeWhile Segment.isKey ≠ [] := by
    intro hnil
    rw [field, hnil] at h
    exact h rfl
  have hcanonical : ∀ s ∈ p.segments.takeWhile Segment.isKey, s.IsCanonical := by
    intro s hs
    exact p.canonical s (List.takeWhile_subset _ hs)
  let q : FieldPath := ⟨p.segments.takeWhile Segment.isKey, hne, hcanonical⟩
  have hq : parse p.field.toList = .ok q := by
    rw [field, String.toList_ofList]
    exact q.parse_chars
  exact ⟨q, by rw [ofText, hq], rfl⟩

theorem FieldPath.exists_stem {p : FieldPath} (h : p.field ≠ "") :
    ∃ q rest, ofText p.field = .ok q ∧ p.segments = q.segments ++ rest := by
  obtain ⟨q, hq, hsegments⟩ := ofText_field h
  refine ⟨q, p.segments.dropWhile Segment.isKey, hq, ?_⟩
  rw [hsegments]
  exact List.takeWhile_append_dropWhile.symm

theorem Filter.mem_pathsOf {p : FieldPath} {row : List Statement} :
    p ∈ pathsOf row ↔ ∃ s ∈ row, p ∈ s.node.paths := by
  induction row with
  | nil => simp [pathsOf]
  | cons s row ih =>
    obtain ⟨joiner, node⟩ := s
    simp [pathsOf, ih, Statement.paths]

theorem Filter.mem_fields {f : Filter} {name : String} :
    name ∈ f.fields ↔ ∃ p ∈ f.paths, p.field = name := by
  rw [fields, List.mem_eraseDups, List.mem_map]

/-- The records have the same value, or none, at every path that one of the names spells. The empty name
stands for the whole record. -/
structure Json.AgreeOn (names : List String) (v w : Json) : Prop where
  named : ∀ name ∈ names, name ≠ "" → ∀ p, FieldPath.ofText name = .ok p →
    Option.Rel Json.Same (v.resolve? p) (w.resolve? p)
  whole : "" ∈ names → v.Same w

/-- Records that agree on a field agree on every path that begins with it. -/
theorem Json.AgreeOn.resolve? {names : List String} {v w : Json} (h : AgreeOn names v w)
    {p : FieldPath} (hp : p.field ∈ names) : Option.Rel Same (v.resolve? p) (w.resolve? p) := by
  by_cases hempty : p.field = ""
  · exact (h.whole (hempty ▸ hp)).resolve? p
  · obtain ⟨q, rest, hq, hsegments⟩ := FieldPath.exists_stem hempty
    have hstem := h.named _ hp hempty q hq
    by_cases hrest : rest = []
    · have hpq : p.segments = q.segments := by rw [hsegments, hrest, List.append_nil]
      rw [Json.resolve?, Json.resolve?, hpq]
      exact hstem
    · rw [resolve?_append hsegments hrest, resolve?_append hsegments hrest]
      exact rel_found (rel_bind hstem fun _ _ hvalues => hvalues.follow? rest)

/-! ## Clauses -/

section Clauses

variable {compiler : Wildcard.Compiler} {v w : Json} {a b : Scalar}

theorem Operand.value?_rel {o : Operand}
    (h : ∀ p ∈ Clause.operandPaths o, Option.Rel Json.Same (v.resolve? p) (w.resolve? p)) :
    Option.Rel Scalar.Same (o.value? v) (o.value? w) := by
  cases o with
  | field p => exact rel_bind (h p (by simp [Clause.operandPaths])) fun _ _ hvalues => hvalues.scalar?
  | literal a => exact .some (.refl a)

theorem ArrayObject.contains_congr (hab : a.Same b) {array : ArrayObject}
    (h : ∀ p ∈ Clause.objectPaths (.array array),
      Option.Rel Json.Same (v.resolve? p) (w.resolve? p)) :
    array.contains v a = array.contains w b := by
  cases array with
  | literals values =>
    have hequals : a.equals = b.equals := funext fun c => hab.equals (.refl c)
    rw [contains, contains, hequals]
  | field p =>
    have hp := h p (by simp [Clause.objectPaths])
    rw [contains, contains]
    generalize v.resolve? p = x at hp ⊢
    generalize w.resolve? p = y at hp ⊢
    cases hp with
    | none => rfl
    | some hvalues =>
      cases hvalues with
      | array hitems =>
        have hscalars := List.rel_filterMap (fun _ _ hitem => Json.Same.scalar? hitem) hitems
        exact Scalar.any_equals_congr hab hscalars
      | _ => rfl

theorem Object.admits_congr (hab : a.Same b) (operator : Operator) {object : Object}
    (h : ∀ p ∈ Clause.objectPaths object, Option.Rel Json.Same (v.resolve? p) (w.resolve? p)) :
    object.admits v operator a = object.admits w operator b := by
  cases object with
  | operand o =>
    exact any_congr_of_rel (Operand.value?_rel h) fun _ _ hcd => operator.relates_congr hab hcd
  | array array => exact ArrayObject.contains_congr hab h
  | range r => exact r.contains_congr hab
  | like wildcard => exact wildcard.covers_congr hab

theorem Clause.holdsPositively_congr {c : Clause}
    (h : ∀ p ∈ c.paths, Option.Rel Json.Same (v.resolve? p) (w.resolve? p)) :
    c.holdsPositively v = c.holdsPositively w := by
  have hsubject : Option.Rel Scalar.Same (c.subject.value? v) (c.subject.value? w) :=
    Operand.value?_rel fun p hp => h p (List.mem_append_left _ hp)
  exact any_congr_of_rel hsubject fun _ _ hab =>
    Object.admits_congr hab _ fun p hp => h p (List.mem_append_right _ hp)

/-- The fault of a clause hangs on the values at its paths: only the kind of its subject matters. -/
theorem Clause.fault?_congr {c : Clause}
    (h : ∀ p ∈ c.paths, Option.Rel Json.Same (v.resolve? p) (w.resolve? p)) :
    c.fault? compiler v = c.fault? compiler w := by
  have hsubject : Option.Rel Scalar.Same (c.subject.value? v) (c.subject.value? w) :=
    Operand.value?_rel fun p hp => h p (List.mem_append_left _ hp)
  unfold fault?
  cases c.object with
  | like wildcard => exact wildcard.fault?_congr hsubject
  | _ => rfl

/-- The outcome of a clause hangs on the values at its paths. -/
theorem Clause.test_congr {c : Clause}
    (h : ∀ p ∈ c.paths, Option.Rel Json.Same (v.resolve? p) (w.resolve? p)) :
    c.test compiler v = c.test compiler w := by
  rw [test_eq, test_eq, fault?_congr h, holds, holds, holdsPositively_congr h]

end Clauses

/-! ## Filters -/

namespace Filter

variable {compiler : Wildcard.Compiler} {v w : Json}

theorem testFrom_congr {row : List Statement} (h : ∀ s ∈ row, s.node.test compiler v = s.node.test compiler w)
    (outcome : Bool) : testFrom compiler v outcome row = testFrom compiler w outcome row := by
  induction row generalizing outcome with
  | nil => rfl
  | cons s row ih =>
    obtain ⟨joiner, node⟩ := s
    rw [List.forall_mem_cons] at h
    have hnode : node.test compiler v = node.test compiler w := h.1
    rw [testFrom, testFrom, hnode, ih h.2]
    cases node.test compiler w with
    | ok next => simp only [ih h.2]
    | error fault => rfl

/-- The outcome of a filter, a fault included, hangs on the values at its paths. -/
theorem test_congr {f : Filter}
    (h : ∀ p ∈ f.paths, Option.Rel Json.Same (v.resolve? p) (w.resolve? p)) :
    f.test compiler v = f.test compiler w := by
  induction f using Filter.induction with
  | h row ih =>
    have hnodes : ∀ s ∈ row, s.node.test compiler v = s.node.test compiler w := by
      rintro ⟨joiner, node⟩ hs
      have hpaths : ∀ p ∈ node.paths, Option.Rel Json.Same (v.resolve? p) (w.resolve? p) := by
        intro p hp
        exact h p (mem_pathsOf.mpr ⟨_, hs, hp⟩)
      cases node with
      | clause c => exact Clause.test_congr hpaths
      | group g => exact ih _ hs g rfl hpaths
    -- the row's own fault does not look at the record
    rw [test, test, testFrom_congr hnodes]

/-- **A filter reads its fields and nothing else.** Every field with a name spells a path, and records that
agree on the fields have the same outcome or the same fault. -/
theorem test_eq_of_agreeOn (compiler : Wildcard.Compiler) (f : Filter) (v w : Json) :
    (∀ name ∈ f.fields, name ≠ "" → ∃ p, FieldPath.ofText name = .ok p) ∧
      (Json.AgreeOn f.fields v w → f.test compiler v = f.test compiler w) := by
  constructor
  · intro name hname hne
    obtain ⟨p, -, rfl⟩ := mem_fields.mp hname
    obtain ⟨q, rest, hq, -⟩ := FieldPath.exists_stem hne
    exact ⟨q, hq⟩
  · intro h
    exact test_congr fun p hp => h.resolve? (mem_fields.mpr ⟨p, hp, rfl⟩)

/-- Zeros of either sign below a field, and a member that is no field, in front of an empty group. -/
theorem test_eq_of_agreeOn_zeros :
    ∃ (f : Filter) (v w : Json), f.fields = ["/a", "/b"] ∧ v.member? "z" ≠ w.member? "z" ∧
      Json.AgreeOn f.fields v w ∧ f.test .standard v = .error .empty ∧ f.test .standard w = .error .empty := by
  let a : FieldPath := .ofKey "a" (by decide +kernel)
  let b : FieldPath := .ofKey "b" (by decide +kernel)
  let item : FieldPath := ⟨[.key "a", .index 0], by simp, by
    rw [List.forall_mem_cons, List.forall_mem_singleton]
    exact ⟨a.canonical _ List.mem_cons_self, trivial⟩⟩
  let c : Clause := ⟨.field item, .eq, .operand (.field b), rfl⟩
  let f : Filter := ⟨[⟨none, .clause c⟩, ⟨some .and, .group ⟨[]⟩⟩]⟩
  let record (negative : Bool) : Json :=
    .object [("a", .array [.number (.real (.zero negative))]), ("b", .number (.int 0)),
      ("z", .bool negative)]
  have hfields : f.fields = ["/a", "/b"] := by decide +kernel
  have hagree : Json.AgreeOn f.fields (record false) (record true) := by
    refine ⟨?_, ?_⟩
    · intro name hname _ p hp
      rw [hfields, List.mem_pair] at hname
      rcases hname with rfl | rfl
      · have ha : FieldPath.ofText "/a" = .ok a := by decide +kernel
        rw [ha] at hp
        cases hp
        exact .some (.array (.cons (.number (.real (by simp))) .nil))
      · have hb : FieldPath.ofText "/b" = .ok b := by decide +kernel
        rw [hb] at hp
        cases hp
        exact .some (.refl (.number (.int 0)))
    · intro hempty
      rw [hfields] at hempty
      simp at hempty
  have hfirst : f.test .standard (record false) = .error .empty := by decide +kernel
  refine ⟨f, record false, record true, hfields, ?_, hagree, hfirst, ?_⟩
  · intro h
    cases h
  · rw [← (test_eq_of_agreeOn .standard f _ _).2 hagree]
    exact hfirst

end Filter

end RecordFilter
