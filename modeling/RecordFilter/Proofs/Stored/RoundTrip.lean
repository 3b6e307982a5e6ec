import Mathlib
import RecordFilter.Proofs.Expression.FieldText
import RecordFilter.Proofs.Filter.Checked
import RecordFilter.Proofs.Filter.Origin
import RecordFilter.Stored.Write

/-!
# Round trip of stored filters — a stored filter is read back

Every part of a filter is stored in a form that tells what it is, so reading it leads back to the part: the
type of a literal is that of its value, a choice is the name of its one member, and fixed members are found
by name, whatever their order. Rows of statements are stored as they are, with all their faults.

* `Json.arranged`: a value as a reader keeps it, with the members of every object in the order of names.
* `Object.ofJson_toJson`, `Clause.ofJson_of_lookup`, …: the parts are read back.
* `Filter.ofJson_of_statements`: a filter is read back if its statements are.
* `Filter.ofJson_toJson_of_obtained`: filters are read back, and reading checks what it lets in.
-/

namespace RecordFilter

/-! ## The order of members -/

mutual

/-- The value with the members of every object in the order of their names. -/
def Json.arranged : Json → Json
  | .array items => .array (Json.arrangedItems items)
  | .object members => .object (Json.arrangedMembers members)
  | v => v

def Json.arrangedItems : List Json → List Json
  | [] => []
  | v :: rest => v.arranged :: Json.arrangedItems rest

def Json.arrangedMembers : List (String × Json) → List (String × Json)
  | [] => []
  | (name, v) :: rest => Json.insertMember name v.arranged (Json.arrangedMembers rest)

end

theorem Json.arrangedItems_eq (items : List Json) : arrangedItems items = items.map arranged := by
  induction items with
  | nil => rfl
  | cons v items ih => rw [arrangedItems, ih, List.map_cons]

theorem Json.arranged_tagged (tag : String) (v : Json) :
    (Json.tagged tag v).arranged = Json.tagged tag v.arranged := rfl

theorem Scalar.arranged_toJson (v : Scalar) : v.toJson.arranged = v.toJson := by
  cases v with
  | float x => cases x <;> rfl
  | _ => rfl

theorem Operand.arranged_toJson (o : Operand) : o.toJson.arranged = o.toJson := by
  cases o with
  | field p => rfl
  | literal v => rw [toJson, Json.arranged_tagged, v.arranged_toJson]

theorem Range.arranged_toJson (r : Range) : r.toJson.arranged = r.toJson := by
  have horder : "lower" < "upper" := by decide
  simp [toJson, Json.arranged, Json.arrangedMembers, Json.insertMember, Scalar.arranged_toJson, horder]

theorem Object.arranged_toJson (object : Object) : object.toJson.arranged = object.toJson := by
  cases object with
  | operand o => rw [toJson, Json.arranged_tagged, o.arranged_toJson]
  | array a =>
    cases a with
    | literals vs =>
      have hitems : (vs.map Scalar.toJson).map Json.arranged = vs.map Scalar.toJson := by
        rw [List.map_map]
        exact List.map_congr_left fun v _ => v.arranged_toJson
      simp only [toJson, ArrayObject.toJson, Json.arranged_tagged, Json.arranged,
        Json.arrangedItems_eq, hitems]
    | field p => rfl
  | range r => rw [toJson, Json.arranged_tagged, r.arranged_toJson]
  | like w => rfl

/-- The parts of a clause are the only ones that are stored in another order than that of their names. -/
theorem Clause.arranged_toJson (c : Clause) :
    c.toJson.arranged = .object [("object", c.object.toJson), ("operator", c.operator.toJson),
      ("subject", c.subject.toJson)] := by
  have hoperator : ¬ "operator" < "object" := by decide
  have hsubject : ¬ "subject" < "object" ∧ ¬ "subject" < "operator" := by decide
  have hword : c.operator.toJson.arranged = c.operator.toJson := rfl
  simp [toJson, Json.arranged, Json.arrangedMembers, Json.insertMember, Object.arranged_toJson,
    Operand.arranged_toJson, hoperator, hsubject, hword]

theorem Statement.arranged_toJson (joiner : Option Joiner) (node : Node) :
    (Statement.toJson ⟨joiner, node⟩).arranged =
      .object [("conjunctive", joinerToJson joiner), ("node", node.toJson.arranged)] := by
  have horder : "conjunctive" < "node" := by decide
  have hjoiner : (joinerToJson joiner).arranged = joinerToJson joiner := by cases joiner <;> rfl
  simp [Statement.toJson, Json.arranged, Json.arrangedMembers, Json.insertMember, horder, hjoiner]

theorem Filter.itemsToJson_eq (row : List Statement) : itemsToJson row = row.map Statement.toJson := by
  induction row with
  | nil => rfl
  | cons s row ih => rw [itemsToJson, ih, List.map_cons]

theorem Filter.arranged_toJson (row : List Statement) :
    (Filter.toJson ⟨row⟩).arranged =
      .object [("statements", .array (row.map fun s => s.toJson.arranged))] := by
  have hitems : Json.arrangedItems (row.map Statement.toJson) = row.map fun s => s.toJson.arranged := by
    rw [Json.arrangedItems_eq, List.map_map]
    rfl
  rw [toJson, itemsToJson_eq, ← hitems]
  rfl

/-! ## Literals, paths and words -/

theorem Scalar.ofJson_toJson {v : Scalar} (h : v.check = .ok ()) : ofJson v.toJson = .ok v := by
  cases v with
  | float x =>
    have hfinite := Number.Binary64.isFinite_of_check h
    cases x with
    | finite x => rfl
    | _ => cases hfinite
  | _ => rfl

theorem FieldPath.ofJson_toJson (p : FieldPath) : ofJson p.toJson = .ok p := by
  rw [toJson, ofJson, ofText_text]
  rfl

theorem Operator.ofJson_toJson (o : Operator) : ofJson o.toJson = .ok o := by
  have hword := Keyword.find?_text (.operator o)
  rw [Keyword.text] at hword
  simp only [toJson, ofJson, Json.bareTag?, Option.bind_some, hword]

theorem Joiner.ofJson_toJson (j : Joiner) : ofJson j.toJson = .ok j := by
  have hword := Keyword.find?_text (.joiner j)
  rw [Keyword.text] at hword
  simp only [toJson, ofJson, Json.bareTag?, Option.bind_some, hword]

theorem joinerOfJson_toJson (joiner : Option Joiner) :
    joinerOfJson (joinerToJson joiner) = .ok joiner := by
  cases joiner with
  | none => rfl
  | some j =>
    have hj : Joiner.ofJson (.string j.keyword) = .ok j := j.ofJson_toJson
    show (Joiner.ofJson (.string j.keyword)).map some = .ok (some j)
    rw [hj]
    rfl

/-! ## Objects and clauses -/

theorem Operand.ofJson_toJson {o : Operand} (h : o.check = .ok ()) : ofJson o.toJson = .ok o := by
  cases o with
  | field p =>
    rw [toJson, Json.tagged, ofJson, p.ofJson_toJson]
    rfl
  | literal v =>
    have hv : v.check = .ok () := h
    rw [toJson, Json.tagged, ofJson, Scalar.ofJson_toJson hv]
    rfl

theorem Range.ofJson_toJson {r : Range} (hlower : r.lower.check = .ok ())
    (hupper : r.upper.check = .ok ()) : ofJson r.toJson = .ok r := by
  have hmake : Range.make r.lower r.upper = .ok r := make_eq_ok_iff.mpr ⟨hlower, hupper, rfl, rfl⟩
  simp [toJson, ofJson, readPart, Scalar.ofJson_toJson hlower, Scalar.ofJson_toJson hupper, ofParts,
    required, hmake, Except.mapError, bind, Except.bind, Except.map, List.lookup]

theorem Scalar.mapM_ofJson_toJson {vs : List Scalar} (h : ∀ v ∈ vs, v.check = .ok ()) :
    (vs.map toJson).mapM ofJson = .ok vs := by
  induction vs with
  | nil => rfl
  | cons v vs ih =>
    rw [List.forall_mem_cons] at h
    rw [List.map_cons, List.mapM_cons, ofJson_toJson h.1, ih h.2]
    rfl

theorem ArrayObject.ofJson_toJson {a : ArrayObject} (h : (Object.array a).check = .ok ()) :
    ofJson a.toJson = .ok a := by
  cases a with
  | literals vs =>
    rw [toJson, Json.tagged, ofJson, Scalar.mapM_ofJson_toJson (Scalar.forM_check_iff.mp h)]
    rfl
  | field p =>
    rw [toJson, Json.tagged, ofJson, p.ofJson_toJson]
    rfl

theorem Object.ofJson_toJson {object : Object} (h : object.check = .ok ()) :
    ofJson object.toJson = .ok object := by
  cases object with
  | operand o =>
    rw [check_operand] at h
    rw [toJson, Json.tagged, ofJson, Operand.ofJson_toJson h]
    rfl
  | array a =>
    rw [toJson, Json.tagged, ofJson, ArrayObject.ofJson_toJson h]
    rfl
  | range r =>
    obtain ⟨hlower, hupper⟩ := check_range_iff.mp h
    rw [toJson, Json.tagged, ofJson, Range.ofJson_toJson hlower hupper]
    rfl
  | like w => rfl

/-- The parts of a clause are found by their names, in whatever order they stand. -/
theorem Clause.ofJson_of_lookup {c : Clause} (h : c.Writable) {members : List (String × Json)}
    (hsubject : members.lookup "subject" = some c.subject.toJson)
    (hoperator : members.lookup "operator" = some c.operator.toJson)
    (hobject : members.lookup "object" = some c.object.toJson) :
    Clause.ofJson (.object members) = .ok c := by
  have hmake := h.make
  simp [Clause.ofJson, hsubject, hoperator, hobject, readPart, Operand.ofJson_toJson h.1,
    Operator.ofJson_toJson, Object.ofJson_toJson h.2, ofParts, required, hmake, bind, Except.bind,
    Except.map, Except.mapError]

theorem Clause.ofJson_toJson {c : Clause} (h : c.Writable) :
    Clause.ofJson c.toJson = .ok c ∧ Clause.ofJson c.toJson.arranged = .ok c := by
  constructor
  · exact ofJson_of_lookup h rfl rfl rfl
  · rw [arranged_toJson]
    exact ofJson_of_lookup h rfl rfl rfl

/-! ## Rows of statements -/

theorem Node.ofJson_clause {c : Clause} {v : Json} (h : Clause.ofJson v = .ok c) :
    Node.ofJson (.tagged "clause" v) = .ok (.clause c) := by
  rw [Json.tagged, Node.ofJson, if_pos rfl, h]
  rfl

theorem Node.ofJson_group {f : Filter} {v : Json} (h : Filter.ofJson v = .ok f) :
    Node.ofJson (.tagged "group" v) = .ok (.group f) := by
  rw [Json.tagged, Node.ofJson, if_neg (by decide), if_pos rfl, h]
  rfl

theorem Statement.ofJson_of_node {joiner : Option Joiner} {node : Node} {v : Json}
    (h : Node.ofJson v = .ok node) :
    Statement.ofJson (.object [("conjunctive", joinerToJson joiner), ("node", v)]) =
      .ok ⟨joiner, node⟩ := by
  have hjoiner := joinerOfJson_toJson joiner
  simp [Statement.ofJson, Statement.nodeOfMembers, readPart, List.lookup, hjoiner, h, bind, Except.bind,
    Except.map, pure, Except.pure]

/-- A filter is read back if its statements are, in whatever form they were stored. -/
theorem Filter.ofJson_of_statements {row : List Statement} {stored : Statement → Json}
    (h : ∀ s ∈ row, Statement.ofJson (stored s) = .ok s) :
    Filter.ofJson (.object [("statements", .array (row.map stored))]) = .ok ⟨row⟩ := by
  have hitems : statementsOfItems (row.map stored) = .ok row := by
    induction row with
    | nil => rfl
    | cons s row ih =>
      rw [List.forall_mem_cons] at h
      rw [List.map_cons, statementsOfItems, h.1, ih h.2]
      rfl
  rw [Filter.ofJson, statementsOfMembers, if_pos rfl, statementsOfJson, hitems]
  rfl

/-- A filter whose literals can be written is read back, as it was stored and with its members arranged. -/
theorem Filter.ofJson_toJson {f : Filter} (h : f.Writable) :
    Filter.ofJson f.toJson = .ok f ∧ Filter.ofJson f.toJson.arranged = .ok f := by
  induction f using Filter.induction with
  | h row ih =>
    have hnodes : ∀ s ∈ row, Node.ofJson s.node.toJson = .ok s.node ∧
        Node.ofJson s.node.toJson.arranged = .ok s.node := by
      rintro ⟨joiner, node⟩ hs
      have hclauses := writable_mk.mp h _ hs
      cases node with
      | clause c =>
        obtain ⟨hstored, harranged⟩ := Clause.ofJson_toJson (hclauses c (by simp [Node.clauses]))
        exact ⟨Node.ofJson_clause hstored, Node.ofJson_clause harranged⟩
      | group g =>
        obtain ⟨hstored, harranged⟩ := ih _ hs g rfl hclauses
        exact ⟨Node.ofJson_group hstored, Node.ofJson_group harranged⟩
    constructor
    · rw [toJson, itemsToJson_eq]
      refine ofJson_of_statements ?_
      rintro ⟨joiner, node⟩ hs
      exact Statement.ofJson_of_node (hnodes _ hs).1
    · rw [arranged_toJson]
      refine ofJson_of_statements ?_
      rintro ⟨joiner, node⟩ hs
      rw [Statement.arranged_toJson]
      exact Statement.ofJson_of_node (hnodes _ hs).2

/-- **A stored filter is read back as the filter**, however it came about and whatever faults its rows have.
Reading lets in only clauses and ranges that construction could have made, and paths that their texts
spell. -/
theorem Filter.ofJson_toJson_of_obtained :
    (∀ f : Filter, f.Obtained →
      Filter.ofJson f.toJson = .ok f ∧ Filter.ofJson f.toJson.arranged = .ok f) ∧
    ∀ (v : Json) (f : Filter), Filter.ofJson v = .ok f →
      (∀ c ∈ f.clauses, c.Checked) ∧ ∀ p ∈ f.paths, FieldPath.ofText p.text = .ok p := by
  refine ⟨?_, ?_⟩
  · intro f hf
    exact ofJson_toJson hf.writable
  · intro v f hf
    have hw := writable_of_ofJson hf
    refine ⟨?_, ?_⟩
    · intro c hc
      exact (hw c hc).checked
    · intro p _
      exact p.ofText_text

/-- A row that begins with a joiner and holds an empty group, stored partly with names and partly without. -/
theorem Filter.ofJson_toJson_of_obtained_malformed :
    ∃ f : Filter, f.Obtained ∧ f.text = " and /a~1b/0 nbetween -1,9.223372036854776e18()" ∧
      f.malformed? = some .leadingJoiner ∧ Filter.ofJson f.toJson = .ok f ∧
      Filter.ofJson f.toJson.arranged = .ok f ∧ ∀ c ∈ f.clauses, c.Checked := by
  let bounds : Json := .array [.number (.int (-1)), .number (.large 0x8000000000000000 (by decide))]
  let clause : Json := .object [
    ("object", .object [("range", bounds)]),
    ("operator", .object [("nbetween", .null)]),
    ("subject", .object [("target", .string "/a~1b/0")])]
  let v : Json := .object [("statements", .array [
    .object [("conjunctive", .string "and"), ("node", .object [("clause", clause)])],
    .array [.null, .object [("group", .array [.array []])]]])]
  have hread : ((Filter.ofJson v).toOption.map fun f => (f.text, f.malformed?)) =
      some (" and /a~1b/0 nbetween -1,9.223372036854776e18()", some .leadingJoiner) := by
    decide +kernel
  cases hf : Filter.ofJson v with
  | error e =>
    rw [hf] at hread
    cases hread
  | ok f =>
    rw [hf] at hread
    obtain ⟨htext, hfault⟩ := Prod.mk.inj (Option.some.inj hread)
    have hobtained : f.Obtained := .stored hf
    obtain ⟨hstored, harranged⟩ := ofJson_toJson_of_obtained.1 f hobtained
    exact ⟨f, hobtained, htext, hfault, hstored, harranged, (ofJson_toJson_of_obtained.2 v f hf).1⟩

end RecordFilter
