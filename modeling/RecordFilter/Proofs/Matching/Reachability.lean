import Mathlib
import RecordFilter.Matching.Resolve
import RecordFilter.Proofs.Expression.Representable

/-!
# Reachability — paths lead to the nodes of a record and nowhere else

A row of names and positions leads through the objects and arrays of a record to one of its nodes. A path
takes a name that reads as a position for one, and following a path takes a position in an object for a name:
the two cancel at every level, since what a name reads as has that name. Only at the end of a path is `null`
taken for nothing; there is no node below it to be lost.

* `Json.Child`, `Json.NodeAt`: the nodes of a record, by names and positions.
* `Json.step?_eq_some_iff`, `Json.follow?_eq_some_iff`: segments are followed to just these nodes.
* `Json.follow?_normalize`: names that are read as positions lead to the same node.
* `Json.resolve?_eq_some_iff`: the values at paths are the nodes that are not `null`.
* `Json.resolve?_exact`: every node that can be named is reached by a path, and paths reach nothing else.
-/

namespace RecordFilter

namespace Json

/-! ## The nodes of a record -/

/-- The members hold a value under a name: it is in the first member of that name. -/
def HeldUnder (members : List (String × Json)) (name : String) (v : Json) : Prop :=
  ∃ before after, members = before ++ (name, v) :: after ∧ ∀ m ∈ before, m.1 ≠ name

/-- A value directly inside another one: the member of an object by its name, the item of an array by its
position. A position also stands for the member of an object that has its digits as a name. -/
inductive Child : Json → Segment → Json → Prop
  | member {members : List (String × Json)} {name : String} {v : Json} (h : HeldUnder members name v) :
      Child (object members) (.key name) v
  | item {items : List Json} {position : UInt64} {v : Json} (h : items[position.toNat]? = some v) :
      Child (array items) (.index position) v
  | numbered {members : List (String × Json)} {position : UInt64} {v : Json}
      (h : HeldUnder members (Nat.repr position.toNat) v) : Child (object members) (.index position) v

/-- The node of a record that segments lead to, from one value to the next one inside it. -/
inductive NodeAt : Json → List Segment → Json → Prop
  | here (v : Json) : NodeAt v [] v
  | inside {v w u : Json} {s : Segment} {rest : List Segment} (h : v.Child s w) (hrest : NodeAt w rest u) :
      NodeAt v (s :: rest) u

variable {v w : Json}

/-! ## Following segments -/

theorem member?_eq_some_iff {name : String} :
    v.member? name = some w ↔ ∃ members, v = .object members ∧ HeldUnder members name w := by
  cases v with
  | object members =>
    have hbefore : ∀ before : List (String × Json),
        (∀ m ∈ before, (name != m.1) = true) ↔ ∀ m ∈ before, m.1 ≠ name := fun before =>
      forall₂_congr fun m _ => by rw [bne_iff_ne, ne_comm]
    simp only [member?, List.lookup_eq_some_iff, hbefore, object.injEq, exists_eq_left', HeldUnder]
  | _ => simp [member?]

theorem item?_eq_some_iff {position : Nat} :
    v.item? position = some w ↔ ∃ items, v = .array items ∧ items[position]? = some w := by
  cases v with
  | array items => simp [item?]
  | _ => simp [item?]

/-- A segment leads to the member of an object that has the segment's name. -/
theorem step?_of_member? {s : Segment} (h : v.member? s.name = some w) : v.step? s = some w := by
  cases s with
  | key name => exact h
  | index position =>
    obtain ⟨members, rfl, -⟩ := member?_eq_some_iff.mp h
    have hitem : (object members).item? position.toNat = none := rfl
    rw [step?, hitem, Option.none_or, h]

/-- A segment is followed just to the value inside that it stands for. -/
theorem step?_eq_some_iff {s : Segment} : v.step? s = some w ↔ v.Child s w := by
  constructor
  · intro h
    cases s with
    | key name =>
      obtain ⟨members, rfl, hheld⟩ := member?_eq_some_iff.mp h
      exact .member hheld
    | index position =>
      rcases Option.or_eq_some_iff.mp h with hitem | ⟨-, hmember⟩
      · obtain ⟨items, rfl, hat⟩ := item?_eq_some_iff.mp hitem
        exact .item hat
      · obtain ⟨members, rfl, hheld⟩ := member?_eq_some_iff.mp hmember
        exact .numbered hheld
  · intro h
    cases h with
    | member h => exact member?_eq_some_iff.mpr ⟨_, rfl, h⟩
    | item h => rw [step?, item?, h, Option.some_or]
    | numbered h => exact step?_of_member? (member?_eq_some_iff.mpr ⟨_, rfl, h⟩)

/-- **Segments are followed just to the node that they lead to.** -/
theorem follow?_eq_some_iff {path : List Segment} : v.follow? path = some w ↔ v.NodeAt path w := by
  induction path generalizing v with
  | nil =>
    rw [follow?, Option.some.injEq]
    constructor
    · rintro rfl
      exact .here v
    · rintro ⟨⟩
      rfl
  | cons s rest ih =>
    rw [follow?, Option.bind_eq_some_iff]
    constructor
    · rintro ⟨u, hu, hrest⟩
      exact .inside (step?_eq_some_iff.mp hu) (ih.mp hrest)
    · rintro (_ | ⟨hu, hrest⟩)
      exact ⟨_, step?_eq_some_iff.mpr hu, ih.mpr hrest⟩

/-! ## Names that read as positions -/

/-- What a name reads as leads where the name leads: where that is a member, it is so by its name. -/
theorem step?_normalize {s : Segment} (h : v.step? s = some w) : v.step? s.normalize = some w := by
  cases s with
  | key name =>
    refine step?_of_member? ?_
    rw [Segment.normalize, Segment.name_ofName]
    exact h
  | index position => exact h

theorem follow?_normalize {path : List Segment} (h : v.follow? path = some w) :
    v.follow? (path.map Segment.normalize) = some w := by
  induction path generalizing v with
  | nil => exact h
  | cons s rest ih =>
    rw [follow?, Option.bind_eq_some_iff] at h
    obtain ⟨u, hu, hrest⟩ := h
    rw [List.map_cons, follow?, step?_normalize hu]
    exact ih hrest

/-! ## The values at paths -/

theorem isNull_eq_false_iff : v.isNull = false ↔ v ≠ .null := by
  cases v <;> simp [isNull]

/-- The value at a path is the node that its segments lead to, unless that is `null`. -/
theorem resolve?_eq_some_iff {p : FieldPath} :
    v.resolve? p = some w ↔ v.NodeAt p.segments w ∧ w ≠ .null := by
  rw [resolve?, Option.filter_eq_some_iff, follow?_eq_some_iff, Bool.not_eq_true', isNull_eq_false_iff]

/-- **Paths lead to every node that can be named, and to nothing else.** Names and positions that lead to a node
other than `null` make a path if no name holds a blank or a parenthesis, and that node is the value at the path.
The value at any path is a node of the record other than `null`, the one that the segments of the path lead to,
a position in an object standing for the member with its digits as a name; and each such node is the value. -/
theorem resolve?_exact (record : Json) :
    (∀ path v, path ≠ [] → record.NodeAt path v → v ≠ .null →
      (∀ name, .key name ∈ path → ∀ c ∈ name.toList, breaksPath c = false) →
      ∃ p, FieldPath.ofSegments path = .ok p ∧ record.resolve? p = some v) ∧
    ∀ p v, record.resolve? p = some v ↔ record.NodeAt p.segments v ∧ v ≠ .null := by
  refine ⟨fun path v hne hnode hnull hnames => ?_, fun p v => resolve?_eq_some_iff⟩
  have hunbroken : ∀ s ∈ path, s.isBroken = false := by
    intro s hs
    cases s with
    | key name =>
      rw [Segment.isBroken, List.any_eq_false]
      exact fun c hc => by simp [hnames name hs c hc]
    | index position => rfl
  obtain ⟨p, hp⟩ := FieldPath.exists_ofSegments_iff.mpr ⟨hne, hunbroken⟩
  refine ⟨p, hp, resolve?_eq_some_iff.mpr ⟨?_, hnull⟩⟩
  rw [FieldPath.segments_ofSegments hp, ← follow?_eq_some_iff]
  exact follow?_normalize (follow?_eq_some_iff.mpr hnode)

/-- On the way through objects and an array: an empty name, names with both escapes, one that reads as a
position, and two of digits that do not. -/
theorem resolve?_exact_names :
    ∃ (record : Json) (path : List Segment) (p : FieldPath),
      path = [.key "a/b", .key "", .index 1, .key "0", .key "18446744073709551616", .key "~1", .key "007"] ∧
      record.NodeAt path (.bool true) ∧ FieldPath.ofSegments path = .ok p ∧
      p.text = "/a~1b//1/0/18446744073709551616/~01/007" ∧ .index 0 ∈ p.segments ∧
      record.resolve? p = some (.bool true) ∧ record.NodeAt p.segments (.bool true) := by
  let path : List Segment :=
    [.key "a/b", .key "", .index 1, .key "0", .key "18446744073709551616", .key "~1", .key "007"]
  let digits : Json := .object [("18446744073709551616", .object [("~1", .object [("007", .bool true)])])]
  let record : Json := .object [("a/b", .object [("", .array [.null, .object [("", .null), ("0", digits)]])])]
  have hdigits : digits.NodeAt [.key "18446744073709551616", .key "~1", .key "007"] (.bool true) :=
    .inside (.member ⟨[], [], rfl, by simp⟩) (.inside (.member ⟨[], [], rfl, by simp⟩)
      (.inside (.member ⟨[], [], rfl, by simp⟩) (.here _)))
  have hnode : record.NodeAt path (.bool true) :=
    .inside (.member ⟨[], [], rfl, by simp⟩) (.inside (.member ⟨[], [], rfl, by simp⟩)
      (.inside (.item rfl) (.inside (.member ⟨[("", .null)], [], rfl, by simp⟩) hdigits)))
  have hnames : ∀ name, .key name ∈ path → ∀ c ∈ name.toList, breaksPath c = false := by
    intro name hname
    simp only [path, List.mem_cons, Segment.key.injEq, reduceCtorEq, List.not_mem_nil, or_false,
      false_or] at hname
    rcases hname with rfl | rfl | rfl | rfl | rfl | rfl <;> simp [breaksPath, Text.isSpace]
  obtain ⟨hreach, hvalues⟩ := resolve?_exact record
  obtain ⟨p, hp, hvalue⟩ := hreach path (.bool true) (by simp [path]) hnode (by simp) hnames
  have hsegments := FieldPath.segments_ofSegments hp
  refine ⟨record, path, p, rfl, hnode, hp, ?_, ?_, hvalue, ((hvalues p _).mp hvalue).1⟩
  · rw [FieldPath.text, FieldPath.chars, hsegments]
    decide +kernel
  · rw [hsegments]
    decide +kernel

end Json

end RecordFilter
