import Mathlib
import RecordFilter.Matching.Condition

/-!
# Same — values that no filter tells apart

Two values of a record are the same if they are equal but for the sign of their zeros. Paths lead to the
same places in the same values, and every comparison has the same outcome for them.

* `Json.Same`, `Scalar.Same`: the relations; `Json.Same.refl`: equal values are the same.
* `Json.Same.follow?`, `Json.Same.resolve?`: where paths lead.
* `Json.resolve?_append`: a path is followed from where its beginning leads.
* `Scalar.Same.compare?`, `Operator.relates_congr`: comparisons.
-/

namespace RecordFilter

open Number

/-- The same number: `0.0` and `-0.0` are one number, any other is itself alone. -/
inductive JsonNumber.Same : JsonNumber → JsonNumber → Prop
  | refl (n : JsonNumber) : Same n n
  | real {x y : Dyadic64} (h : x.units = y.units) : Same (.real x) (.real y)

/-- The same value, whatever the sign of the zeros in it. -/
inductive Json.Same : Json → Json → Prop
  | null : Same .null .null
  | bool (b : Bool) : Same (.bool b) (.bool b)
  | number {m n : JsonNumber} (h : m.Same n) : Same (.number m) (.number n)
  | string (s : String) : Same (.string s) (.string s)
  | array {vs ws : List Json} (h : List.Forall₂ Same vs ws) : Same (.array vs) (.array ws)
  | object {ms ns : List (String × Json)} (names : ms.map Prod.fst = ns.map Prod.fst)
      (values : List.Forall₂ Same (ms.map Prod.snd) (ns.map Prod.snd)) : Same (.object ms) (.object ns)

/-- The same scalar, whatever the sign of a zero. -/
inductive Scalar.Same : Scalar → Scalar → Prop
  | refl (a : Scalar) : Same a a
  | float {x y : Dyadic64} (h : x.units = y.units) : Same (.float (.finite x)) (.float (.finite y))

mutual

/-- A value is the same as itself. -/
theorem Json.Same.refl : ∀ v : Json, v.Same v
  | .null => .null
  | .bool b => .bool b
  | .number n => .number (.refl n)
  | .string s => .string s
  | .array items => .array (Json.Same.refl_items items)
  | .object members => .object rfl (Json.Same.refl_members members)

theorem Json.Same.refl_items : ∀ items : List Json, List.Forall₂ Json.Same items items
  | [] => .nil
  | v :: rest => .cons (Json.Same.refl v) (Json.Same.refl_items rest)

theorem Json.Same.refl_members : ∀ members : List (String × Json),
    List.Forall₂ Json.Same (members.map Prod.snd) (members.map Prod.snd)
  | [] => .nil
  | (_, v) :: rest => .cons (Json.Same.refl v) (Json.Same.refl_members rest)

end

/-! ## Related options and lists -/

section Relation

variable {α β : Type} {R : α → α → Prop} {S : β → β → Prop} {x y : Option α}

theorem rel_bind {f g : α → Option β} (h : Option.Rel R x y)
    (hfg : ∀ a b, R a b → Option.Rel S (f a) (g b)) : Option.Rel S (x.bind f) (y.bind g) := by
  cases h with
  | some hab => exact hfg _ _ hab
  | none => exact .none

theorem rel_filter {p : α → Bool} (h : Option.Rel R x y) (hp : ∀ a b, R a b → p a = p b) :
    Option.Rel R (x.filter p) (y.filter p) := by
  cases h with
  | none => exact .none
  | @some a b hab =>
    have hpab := hp a b hab
    by_cases ha : p a = true
    · rw [Option.filter_some_pos ha, Option.filter_some_pos (hpab ▸ ha)]
      exact .some hab
    · rw [Bool.not_eq_true] at ha
      rw [Option.filter_some_neg ha, Option.filter_some_neg (hpab ▸ ha)]
      exact .none

theorem rel_or {x' y' : Option α} (h : Option.Rel R x y) (h' : Option.Rel R x' y') :
    Option.Rel R (x.or x') (y.or y') := by
  cases h with
  | some hab => exact .some hab
  | none => exact h'

theorem any_congr_of_rel {f g : α → Bool} (h : Option.Rel R x y) (hfg : ∀ a b, R a b → f a = g b) :
    x.any f = y.any g := by
  cases h with
  | some hab => exact hfg _ _ hab
  | none => rfl

theorem rel_getElem? {as bs : List α} (h : List.Forall₂ R as bs) (i : Nat) :
    Option.Rel R as[i]? bs[i]? := by
  induction h generalizing i with
  | nil => exact .none
  | cons hab h ih =>
    cases i with
    | zero => exact .some hab
    | succ i => exact ih i

theorem rel_lookup {ms ns : List (String × α)} (names : ms.map Prod.fst = ns.map Prod.fst)
    (values : List.Forall₂ R (ms.map Prod.snd) (ns.map Prod.snd)) (name : String) :
    Option.Rel R (ms.lookup name) (ns.lookup name) := by
  induction ms generalizing ns with
  | nil =>
    cases ns with
    | nil => exact .none
    | cons n ns => simp at names
  | cons m ms ih =>
    cases ns with
    | nil => simp at names
    | cons n ns =>
      obtain ⟨key, a⟩ := m
      obtain ⟨key', b⟩ := n
      simp only [List.map_cons, List.cons.injEq, List.forall₂_cons] at names values
      obtain ⟨rfl, hnames⟩ := names
      rw [List.lookup_cons, List.lookup_cons]
      split
      · exact .some values.1
      · exact ih hnames values.2

end Relation

/-! ## Where paths lead -/

namespace Json

variable {v w : Json}

theorem Same.isNull (h : v.Same w) : v.isNull = w.isNull := by
  cases h <;> rfl

theorem Same.scalar? (h : v.Same w) : Option.Rel Scalar.Same v.scalar? w.scalar? := by
  cases h with
  | number h =>
    cases h with
    | refl n => exact .some (.refl _)
    | real h => exact .some (.float h)
  | bool b => exact .some (.refl _)
  | string s => exact .some (.refl _)
  | null | array h | object names values => exact .none

theorem Same.member? (h : v.Same w) (name : String) :
    Option.Rel Same (v.member? name) (w.member? name) := by
  cases h with
  | object names values => exact rel_lookup names values name
  | _ => exact .none

theorem Same.item? (h : v.Same w) (position : Nat) :
    Option.Rel Same (v.item? position) (w.item? position) := by
  cases h with
  | array h => exact rel_getElem? h position
  | _ => exact .none

theorem Same.step? (h : v.Same w) (s : Segment) : Option.Rel Same (v.step? s) (w.step? s) := by
  cases s with
  | key name => exact h.member? name
  | index position => exact rel_or (h.item? position.toNat) (h.member? _)

/-- Segments lead to the same place in the same values, or nowhere in both. -/
theorem Same.follow? (h : v.Same w) (segments : List Segment) :
    Option.Rel Same (v.follow? segments) (w.follow? segments) := by
  induction segments generalizing v w with
  | nil => exact .some h
  | cons s rest ih => exact rel_bind (h.step? s) fun _ _ h' => ih h'

/-- The end of a path has a value unless it is `null`. -/
theorem rel_found {x y : Option Json} (h : Option.Rel Same x y) :
    Option.Rel Same (x.filter fun u => !u.isNull) (y.filter fun u => !u.isNull) :=
  rel_filter h fun _ _ h' => by rw [h'.isNull]

theorem Same.resolve? (h : v.Same w) (p : FieldPath) :
    Option.Rel Same (v.resolve? p) (w.resolve? p) :=
  rel_found (h.follow? p.segments)

/-- Nothing stands below a `null`, so a path can be followed from the value of its beginning. -/
theorem resolve?_append {p q : FieldPath} {rest : List Segment}
    (hp : p.segments = q.segments ++ rest) (hne : rest ≠ []) :
    v.resolve? p = ((v.resolve? q).bind fun u => u.follow? rest).filter fun u => !u.isNull := by
  rw [Json.resolve?, Json.resolve?, hp, follow?_append]
  cases v.follow? q.segments with
  | none => rfl
  | some u =>
    obtain ⟨s, more, rfl⟩ := List.exists_cons_of_ne_nil hne
    cases u with
    | null => cases s <;> rfl
    | _ => rfl

end Json

/-! ## Comparisons -/

namespace Scalar

variable {a b c d : Scalar}

theorem Same.compare? (h : a.Same b) (h' : c.Same d) : compare? a c = compare? b d := by
  cases h with
  | refl =>
    cases h' with
    | refl => rfl
    | float h' =>
      cases a with
      | int i => simp only [compare?, Binary64.compareInt64?, Dyadic64.whole, Dyadic64.fraction, h']
      | float z => cases z <;> simp only [compare?, Binary64.compare?, h']
      | _ => rfl
  | float h =>
    cases h' with
    | refl =>
      cases c with
      | int i => simp only [compare?, Binary64.compareInt64?, Dyadic64.whole, Dyadic64.fraction, h]
      | float z => cases z <;> simp only [compare?, Binary64.compare?, h]
      | _ => rfl
    | float h' => simp only [compare?, Binary64.compare?, h, h']

theorem Same.equals (h : a.Same b) (h' : c.Same d) : equals a c = equals b d := by
  have horder := h.compare? h'
  cases h with
  | refl =>
    cases h' with
    | refl => rfl
    | float h => cases a <;> simp only [Scalar.equals, horder]
  | float h => cases h' <;> simp only [Scalar.equals, horder]

theorem any_equals_congr (h : a.Same b) {as bs : List Scalar} (hs : List.Forall₂ Same as bs) :
    as.any a.equals = bs.any b.equals := by
  induction hs with
  | nil => rfl
  | cons hcd hs ih => rw [List.any_cons, List.any_cons, ih, h.equals hcd]

end Scalar

variable {a b c d : Scalar}

theorem Operator.relates_congr (o : Operator) (h : a.Same b) (h' : c.Same d) :
    o.relates a c = o.relates b d := by
  cases o with
  | eq => exact h.equals h'
  | gt | gte | lt | lte =>
    simp only [relates, Scalar.isGreater, Scalar.isAtLeast, Scalar.isLess, Scalar.isAtMost,
      h.compare? h']
  | _ => rfl

theorem Range.contains_congr (r : Range) (h : a.Same b) : r.contains a = r.contains b := by
  have hlower := h.compare? (.refl r.lower)
  have hupper := h.compare? (.refl r.upper)
  simp only [contains, Scalar.isAtLeast, Scalar.isAtMost, hlower, hupper]

theorem Wildcard.covers_congr (w : Wildcard) (h : a.Same b) : w.covers a = w.covers b := by
  cases h <;> rfl

/-- Values that are the same are both strings or both none. -/
theorem Wildcard.fault?_congr {compiler : Compiler} (w : Wildcard) {x y : Option Scalar}
    (h : Option.Rel Scalar.Same x y) : w.fault? compiler x = w.fault? compiler y := by
  cases h with
  | none => rfl
  | some h => cases h <;> rfl

end RecordFilter
