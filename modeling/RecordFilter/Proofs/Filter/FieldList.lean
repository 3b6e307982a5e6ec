import Mathlib
import RecordFilter.Command.Run
import RecordFilter.Proofs.Command.Lines
import RecordFilter.Proofs.Expression.FieldText
import RecordFilter.Proofs.Matching.Fields

/-!
# Field list — every field once, where it is read first

A filter reads a path at a place: the statement, in groups the statements inside it, and at last the subject or
the object of a clause. Places are ordered as they are read. The fields of a filter are those of the paths that it
reads anywhere, each once, in the order of their first places; each of them that is not empty spells the names
that its paths begin with, and stands on one line.

* `Node.ReadsAt`, `Filter.ReadsAt`: the places where paths are read.
* `Filter.located`: the paths of a filter with their places, in reading order.
* `pairwise_eraseDups`: distinct values stand in the order of their first places.
* `FieldPath.IsStem`: the names that a path begins with.
* `Filter.fields_eq_firsts`: what the fields of a filter are.
-/

namespace RecordFilter

/-! ## Places -/

/-- A path is read at a place of a node: 0 is the subject and 1 the object of a clause; in a group the number of
the statement comes first. -/
inductive Node.ReadsAt : Node → List Nat → FieldPath → Prop
  | subject {c : Clause} {p : FieldPath} (h : c.subject = .field p) : ReadsAt (.clause c) [0] p
  | operand {c : Clause} {p : FieldPath} (h : c.object = .operand (.field p)) : ReadsAt (.clause c) [1] p
  | array {c : Clause} {p : FieldPath} (h : c.object = .array (.field p)) : ReadsAt (.clause c) [1] p
  | group {f : Filter} {i : Nat} {s : Statement} {place : List Nat} {p : FieldPath} (hs : f.statements[i]? = some s)
      (h : ReadsAt s.node place p) : ReadsAt (.group f) (i :: place) p

/-- A path is read at a place of a filter. -/
def Filter.ReadsAt (f : Filter) (place : List Nat) (p : FieldPath) : Prop := (Node.group f).ReadsAt place p

/-- The paths of a clause with their places. -/
def Clause.located (c : Clause) : List (List Nat × FieldPath) :=
  (operandPaths c.subject).map ([0], ·) ++ (objectPaths c.object).map ([1], ·)

mutual

/-- The paths of a node with their places, in reading order. -/
def Node.located : Node → List (List Nat × FieldPath)
  | .clause c => c.located
  | .group f => f.located

def Statement.located : Statement → List (List Nat × FieldPath)
  | ⟨_, node⟩ => node.located

/-- The paths of a filter with their places, in reading order. -/
def Filter.located : Filter → List (List Nat × FieldPath)
  | ⟨row⟩ => Filter.locatedFrom 0 row

/-- The paths of statements, the first of which has the number `i`. -/
def Filter.locatedFrom (i : Nat) : List Statement → List (List Nat × FieldPath)
  | [] => []
  | s :: rest => s.located.map (fun x => (i :: x.1, x.2)) ++ Filter.locatedFrom (i + 1) rest

end

theorem Statement.located_eq (s : Statement) : s.located = s.node.located := by
  cases s; rfl

theorem Statement.paths_eq (s : Statement) : s.paths = s.node.paths := by
  cases s; rfl

/-! ### The places of a clause -/

namespace Clause

theorem mem_operandPaths {o : Operand} {p : FieldPath} : p ∈ operandPaths o ↔ o = .field p := by
  cases o <;> simp [operandPaths, eq_comm]

theorem mem_objectPaths {o : Object} {p : FieldPath} :
    p ∈ objectPaths o ↔ o = .operand (.field p) ∨ o = .array (.field p) := by
  cases o with
  | operand o => simp [objectPaths, mem_operandPaths]
  | array a => cases a <;> simp [objectPaths, eq_comm]
  | range r => simp [objectPaths]
  | like w => simp [objectPaths]

theorem map_snd_located (c : Clause) : c.located.map Prod.snd = c.paths := by
  simp [located, paths]

theorem mem_located {c : Clause} {place : List Nat} {p : FieldPath} :
    (place, p) ∈ c.located ↔ (Node.clause c).ReadsAt place p := by
  rw [located, List.mem_append, List.mem_map, List.mem_map]
  constructor
  · rintro (⟨q, hq, heq⟩ | ⟨q, hq, heq⟩)
    · cases heq
      exact .subject (mem_operandPaths.mp hq)
    · cases heq
      exact (mem_objectPaths.mp hq).elim .operand .array
  · intro h
    cases h with
    | subject h => exact .inl ⟨p, mem_operandPaths.mpr h, rfl⟩
    | operand h => exact .inr ⟨p, mem_objectPaths.mpr (.inl h), rfl⟩
    | array h => exact .inr ⟨p, mem_objectPaths.mpr (.inr h), rfl⟩

/-- A clause reads at most one path on either side, the subject's first. -/
theorem pairwise_located (c : Clause) : c.located.Pairwise fun x y => x.1 < y.1 := by
  have hsubject : (operandPaths c.subject).length ≤ 1 := by cases c.subject <;> simp [operandPaths]
  have hobject : (objectPaths c.object).length ≤ 1 := by
    cases c.object with
    | operand o => cases o <;> simp [objectPaths, operandPaths]
    | array a => cases a <;> simp [objectPaths]
    | range r => simp [objectPaths]
    | like w => simp [objectPaths]
  have hsingle {place : List Nat} {l : List FieldPath} (h : l.length ≤ 1) :
      (l.map (place, ·)).Pairwise fun x y => x.1 < y.1 := by
    rcases l with _ | ⟨p, _ | ⟨q, l⟩⟩
    · exact .nil
    · exact List.pairwise_singleton ..
    · rw [List.length_cons, List.length_cons] at h
      omega
  rw [located, List.pairwise_append]
  refine ⟨hsingle hsubject, hsingle hobject, ?_⟩
  intro x hx y hy
  obtain ⟨p, -, rfl⟩ := List.mem_map.mp hx
  obtain ⟨q, -, rfl⟩ := List.mem_map.mp hy
  exact List.cons_lt_cons_iff.mpr (.inl Nat.zero_lt_one)

end Clause

/-! ### The places of a filter -/

namespace Filter

theorem mem_locatedFrom {row : List Statement} {n : Nat} {place : List Nat} {p : FieldPath} :
    (place, p) ∈ locatedFrom n row ↔
      ∃ i s rest, row[i]? = some s ∧ (rest, p) ∈ s.node.located ∧ place = (n + i) :: rest := by
  induction row generalizing n with
  | nil => simp [locatedFrom]
  | cons s row ih =>
    rw [locatedFrom, List.mem_append, List.mem_map, ih, Statement.located_eq]
    constructor
    · rintro (⟨⟨rest, q⟩, hmem, heq⟩ | ⟨i, t, rest, ht, hmem, rfl⟩)
      · cases heq
        exact ⟨0, s, rest, rfl, hmem, rfl⟩
      · exact ⟨i + 1, t, rest, ht, hmem, by rw [Nat.add_right_comm, Nat.add_assoc]⟩
    · rintro ⟨i, t, rest, ht, hmem, rfl⟩
      cases i with
      | zero =>
        cases ht
        exact .inl ⟨_, hmem, rfl⟩
      | succ i => exact .inr ⟨i, t, rest, ht, hmem, by rw [Nat.add_right_comm, Nat.add_assoc]⟩

/-- The places of a filter are those of its statements, with their numbers. -/
theorem mem_located {f : Filter} {place : List Nat} {p : FieldPath} :
    (place, p) ∈ f.located ↔ f.ReadsAt place p := by
  induction f using Filter.induction generalizing place with
  | h row ih =>
    have hnode : ∀ s ∈ row, ∀ rest, (rest, p) ∈ s.node.located ↔ s.node.ReadsAt rest p := by
      rintro ⟨joiner, node⟩ hs rest
      cases node with
      | clause c => exact Clause.mem_located
      | group g => exact ih _ hs g rfl
    rw [located, mem_locatedFrom]
    constructor
    · rintro ⟨i, s, rest, hs, hmem, rfl⟩
      rw [Nat.zero_add]
      exact .group hs ((hnode s (List.mem_of_getElem? hs) rest).mp hmem)
    · rintro ⟨⟩
      case group i s rest hs h =>
        exact ⟨i, s, rest, hs, (hnode s (List.mem_of_getElem? hs) rest).mpr h, by rw [Nat.zero_add]⟩

theorem map_snd_locatedFrom {row : List Statement}
    (h : ∀ s ∈ row, s.node.located.map Prod.snd = s.node.paths) (n : Nat) :
    (locatedFrom n row).map Prod.snd = pathsOf row := by
  induction row generalizing n with
  | nil => rfl
  | cons s row ih =>
    rw [List.forall_mem_cons] at h
    rw [locatedFrom, pathsOf, List.map_append, ih h.2, List.map_map, Statement.located_eq, Statement.paths_eq, ← h.1]
    rfl

theorem map_snd_located (f : Filter) : f.located.map Prod.snd = f.paths := by
  induction f using Filter.induction with
  | h row ih =>
    refine map_snd_locatedFrom ?_ 0
    rintro ⟨joiner, node⟩ hs
    cases node with
    | clause c => exact c.map_snd_located
    | group g => exact ih _ hs g rfl

theorem pairwise_locatedFrom {row : List Statement}
    (h : ∀ s ∈ row, s.node.located.Pairwise fun x y => x.1 < y.1) (n : Nat) :
    (locatedFrom n row).Pairwise fun x y => x.1 < y.1 := by
  induction row generalizing n with
  | nil => exact .nil
  | cons s row ih =>
    rw [List.forall_mem_cons] at h
    rw [locatedFrom, Statement.located_eq, List.pairwise_append, List.pairwise_map]
    refine ⟨h.1.imp fun hlt => List.cons_lt_cons_iff.mpr (.inr ⟨rfl, hlt⟩), ih h.2 (n + 1), ?_⟩
    -- a later statement has a greater number
    rintro x hx ⟨place, p⟩ hy
    obtain ⟨⟨rest, q⟩, -, rfl⟩ := List.mem_map.mp hx
    obtain ⟨i, t, rest, -, -, rfl⟩ := mem_locatedFrom.mp hy
    exact List.cons_lt_cons_iff.mpr (.inl (by omega))

/-- **The paths of a filter stand in the order of their places.** -/
theorem pairwise_located (f : Filter) : f.located.Pairwise fun x y => x.1 < y.1 := by
  induction f using Filter.induction with
  | h row ih =>
    refine pairwise_locatedFrom ?_ 0
    rintro ⟨joiner, node⟩ hs
    cases node with
    | clause c => exact c.pairwise_located
    | group g => exact ih _ hs g rfl

end Filter

/-! ## Each value once -/

section EraseDups

variable {α : Type} [DecidableEq α]

/-- A further value is kept if it is not there yet. -/
theorem eraseDups_concat (l : List α) (x : α) :
    (l ++ [x]).eraseDups = if x ∈ l then l.eraseDups else l.eraseDups ++ [x] := by
  rw [List.eraseDups_append]
  by_cases hx : x ∈ l
  · simp [List.removeAll, hx]
  · simp [List.removeAll, hx, List.eraseDups_cons]

theorem nodup_eraseDups (l : List α) : l.eraseDups.Nodup := by
  induction l using List.reverseRecOn with
  | nil => exact .nil
  | append_singleton l x ih =>
    rw [eraseDups_concat]
    split
    · exact ih
    · next hx =>
      refine List.nodup_append.mpr ⟨ih, List.nodup_singleton x, ?_⟩
      intro a ha b hb hab
      rw [List.mem_eraseDups] at ha
      rw [List.mem_singleton] at hb
      exact hx (hb ▸ hab ▸ ha)

theorem eraseDups_filter (keep : α → Bool) (l : List α) :
    (l.filter keep).eraseDups = l.eraseDups.filter keep := by
  induction l using List.reverseRecOn with
  | nil => rfl
  | append_singleton l x ih =>
    rw [List.filter_append, eraseDups_concat]
    by_cases hkeep : keep x = true
    · rw [List.filter_cons_of_pos hkeep, List.filter_nil, eraseDups_concat, ih]
      by_cases hx : x ∈ l <;> simp [List.mem_filter, hx, hkeep]
    · rw [List.filter_cons_of_neg hkeep, List.filter_nil, List.append_nil, ih]
      by_cases hx : x ∈ l <;> simp [hx, hkeep]

/-- **A row with more values at its end has the new ones among them in addition.** -/
theorem eraseDups_append_eq (l m : List α) :
    (l ++ m).eraseDups = l.eraseDups ++ m.eraseDups.filter (· ∉ l.eraseDups) := by
  have hnew : m.removeAll l = m.filter (· ∉ l.eraseDups) := by
    simp [List.removeAll]
  rw [List.eraseDups_append, hnew, eraseDups_filter]

/-- **Distinct values stand in the order of their first places**, if the row is in the order of its places. -/
theorem pairwise_eraseDups {β γ : Type} [Preorder β] (value : γ → α) {l : List (β × γ)}
    (h : l.Pairwise fun x y => x.1 < y.1) :
    (l.map fun x => value x.2).eraseDups.Pairwise
      fun a b => ∀ y ∈ l, value y.2 = b → ∃ x ∈ l, value x.2 = a ∧ x.1 < y.1 := by
  induction l using List.reverseRecOn with
  | nil => exact .nil
  | append_singleton l z ih =>
    obtain ⟨hl, -, hlast⟩ := List.pairwise_append.mp h
    have hbefore : ∀ a ∈ (l.map fun x => value x.2).eraseDups, ∃ x ∈ l, value x.2 = a ∧ x.1 < z.1 := by
      intro a ha
      obtain ⟨x, hx, rfl⟩ := List.mem_map.mp (List.mem_eraseDups.mp ha)
      exact ⟨x, hx, rfl, hlast x hx z (List.mem_singleton_self z)⟩
    -- the new place comes after all others, so nothing changes for the values that are there
    have hstay : (l.map fun x => value x.2).eraseDups.Pairwise
        fun a b => ∀ y ∈ l ++ [z], value y.2 = b → ∃ x ∈ l ++ [z], value x.2 = a ∧ x.1 < y.1 := by
      refine (ih hl).imp_of_mem ?_
      intro a b ha hb hab y hy hvalue
      rcases List.mem_append.mp hy with hy | hy
      · obtain ⟨x, hx, hxa, hlt⟩ := hab y hy hvalue
        exact ⟨x, List.mem_append_left _ hx, hxa, hlt⟩
      · obtain rfl := List.mem_singleton.mp hy
        obtain ⟨x, hx, hxa, hlt⟩ := hbefore a ha
        exact ⟨x, List.mem_append_left _ hx, hxa, hlt⟩
    rw [List.map_append, List.map_singleton, eraseDups_concat]
    split
    · exact hstay
    · next hnew =>
      refine List.pairwise_append.mpr ⟨hstay, List.pairwise_singleton .., ?_⟩
      intro a ha b hb y hy hvalue
      obtain rfl := List.mem_singleton.mp hb
      rcases List.mem_append.mp hy with hy | hy
      · exact absurd (List.mem_map.mpr ⟨y, hy, hvalue⟩) hnew
      · obtain rfl := List.mem_singleton.mp hy
        obtain ⟨x, hx, hxa, hlt⟩ := hbefore a ha
        exact ⟨x, List.mem_append_left _ hx, hxa, hlt⟩

end EraseDups

/-! ## Names at the beginning of a path -/

namespace FieldPath

/-- The names that a row of segments begins with, as many as there are. -/
structure IsStem (stem segments : List Segment) : Prop where
  begins : stem <+: segments
  keys : ∀ s ∈ stem, s.isKey = true
  longest : ∀ other, other <+: segments → (∀ s ∈ other, s.isKey = true) → other <+: stem

theorem isStem_takeWhile (segments : List Segment) : IsStem (segments.takeWhile Segment.isKey) segments where
  begins := List.takeWhile_prefix _
  keys := fun _ hs => List.mem_takeWhile_imp hs
  longest := by
    rintro other ⟨rest, rfl⟩ hkeys
    rw [List.takeWhile_append_of_pos hkeys]
    exact List.prefix_append ..

/-- No character of a field ends a path. -/
theorem breaksPath_of_mem_field {p : FieldPath} {c : Char} (hc : c ∈ p.field.toList) : breaksPath c = false := by
  by_cases hempty : p.field = ""
  · rw [hempty] at hc
    cases hc
  · obtain ⟨q, hq, -⟩ := ofText_field hempty
    rw [← ofText_eq_ok_iff.mp hq, text, String.toList_ofList] at hc
    exact breaksPath_of_mem_chars hc

end FieldPath

/-! ## Fields -/

namespace Filter

variable (f : Filter)

theorem mem_paths_iff {p : FieldPath} : p ∈ f.paths ↔ ∃ place, f.ReadsAt place p := by
  rw [← map_snd_located, List.mem_map]
  constructor
  · rintro ⟨⟨place, q⟩, hmem, rfl⟩
    exact ⟨place, mem_located.mp hmem⟩
  · rintro ⟨place, h⟩
    exact ⟨(place, p), mem_located.mpr h, rfl⟩

theorem mem_fields_iff_readsAt {name : String} :
    name ∈ f.fields ↔ ∃ place p, f.ReadsAt place p ∧ p.field = name := by
  rw [mem_fields]
  simp only [mem_paths_iff]
  constructor
  · rintro ⟨p, ⟨place, h⟩, hname⟩
    exact ⟨place, p, h, hname⟩
  · rintro ⟨place, p, h, hname⟩
    exact ⟨p, ⟨place, h⟩, hname⟩

/-- A field stands before another one if it is read before the other one is read anywhere. -/
theorem pairwise_fields : f.fields.Pairwise fun a b => ∀ place p, f.ReadsAt place p → p.field = b →
    ∃ earlier q, f.ReadsAt earlier q ∧ q.field = a ∧ earlier < place := by
  have hfields : f.fields = (f.located.map fun x => x.2.field).eraseDups := by
    rw [fields, ← map_snd_located, List.map_map]
    rfl
  rw [hfields]
  refine (pairwise_eraseDups FieldPath.field f.pairwise_located).imp ?_
  intro a b hab place p h hname
  obtain ⟨⟨earlier, q⟩, hq, hqname, hlt⟩ := hab (place, p) (mem_located.mpr h) hname
  exact ⟨earlier, q, mem_located.mp hq, hqname, hlt⟩

theorem pathsOf_append (row rest : List Statement) : pathsOf (row ++ rest) = pathsOf row ++ pathsOf rest := by
  induction row with
  | nil => rfl
  | cons s row ih => rw [List.cons_append, pathsOf, pathsOf, ih, List.append_assoc]

/-- **A further statement adds the fields that are new.** -/
theorem fields_push (joiner : Joiner) (node : Node) :
    (f.push joiner node).fields = f.fields ++ (ofNode node).fields.filter (· ∉ f.fields) := by
  have hpaths : (f.push joiner node).paths = f.paths ++ (ofNode node).paths := by
    obtain ⟨row⟩ := f
    exact pathsOf_append row _
  rw [fields, hpaths, List.map_append, eraseDups_append_eq]
  rfl

theorem fields_ofGroup (g : Filter) : (ofGroup g).fields = g.fields := by
  have hpaths : (ofGroup g).paths = g.paths ++ [] := rfl
  rw [fields, hpaths, List.append_nil, fields]

theorem ofText_of_mem_fields {name : String} (hname : name ∈ f.fields) (hne : name ≠ "") :
    ∃ stem, FieldPath.ofText name = .ok stem ∧
      ∀ place p, f.ReadsAt place p → p.field = name → FieldPath.IsStem stem.segments p.segments := by
  obtain ⟨p, -, rfl⟩ := mem_fields.mp hname
  obtain ⟨stem, hstem, -⟩ := FieldPath.ofText_field hne
  refine ⟨stem, hstem, fun place q _ hq => ?_⟩
  obtain ⟨other, hother, hsegments⟩ := FieldPath.ofText_field (hq ▸ hne)
  rw [hq, hstem] at hother
  cases hother
  rw [hsegments]
  exact FieldPath.isStem_takeWhile _

theorem not_mem_of_mem_fields {name : String} (hname : name ∈ f.fields) :
    '\n' ∉ name.toList ∧ '\r' ∉ name.toList := by
  obtain ⟨p, -, rfl⟩ := mem_fields.mp hname
  constructor
  · intro hc
    exact absurd (FieldPath.breaksPath_of_mem_field hc) (by decide)
  · intro hc
    exact absurd (FieldPath.breaksPath_of_mem_field hc) (by decide)

variable {f}

/-- **The fields of an expression are written line by line.** -/
theorem run_fields {compiler : Wildcard.Compiler} {s : Settings} {w : Surroundings} {text : String} {encoded : Bool}
    (h : Command.readExpression s text encoded = .ok f) :
    ∃ output, Command.Task.run compiler s w (.fields text encoded) = ⟨output, w.directory, .ok 0⟩ ∧
      Text.Lines output.toList (f.fields.map String.toList) := by
  refine ⟨String.join (f.fields.map Command.outputLine), ?_, ?_⟩
  · rw [Command.Task.run, Command.runFields, h]
    rfl
  · exact Command.lines_outputLine fun name hname => f.not_mem_of_mem_fields hname

/-- **The fields of a filter are the names that its paths begin with, each once, in the order in which they are
first read**, from left to right and the subject of a clause before its object. A further clause or group adds its
own fields at the end, those that are there already left out. A field that is not empty spells the names that the
paths begin with that it stands for, as many as there are. No field breaks its line, so the lines written for an
expression are its fields. -/
theorem fields_eq_firsts (f : Filter) :
    f.fields.Nodup ∧
      (∀ name, name ∈ f.fields ↔ ∃ place p, f.ReadsAt place p ∧ p.field = name) ∧
      (f.fields.Pairwise fun a b => ∀ place p, f.ReadsAt place p → p.field = b →
        ∃ earlier q, f.ReadsAt earlier q ∧ q.field = a ∧ earlier < place) ∧
      (∀ joiner c, (f.push joiner (.clause c)).fields = f.fields ++ (ofClause c).fields.filter (· ∉ f.fields)) ∧
      (∀ joiner g, (f.push joiner (.group g)).fields = f.fields ++ g.fields.filter (· ∉ f.fields)) ∧
      (∀ name ∈ f.fields, name ≠ "" → ∃ stem, FieldPath.ofText name = .ok stem ∧
        ∀ place p, f.ReadsAt place p → p.field = name → FieldPath.IsStem stem.segments p.segments) ∧
      (∀ name ∈ f.fields, '\n' ∉ name.toList ∧ '\r' ∉ name.toList) ∧
      ∀ compiler s w text encoded, Command.readExpression s text encoded = .ok f →
        ∃ output, Command.Task.run compiler s w (.fields text encoded) = ⟨output, w.directory, .ok 0⟩ ∧
          Text.Lines output.toList (f.fields.map String.toList) := by
  refine ⟨nodup_eraseDups _, fun _ => f.mem_fields_iff_readsAt, f.pairwise_fields, fun joiner c => ?_,
    fun joiner g => ?_, fun _ => f.ofText_of_mem_fields, fun _ => f.not_mem_of_mem_fields,
    fun _ _ _ _ _ => run_fields⟩
  · exact f.fields_push joiner (.clause c)
  · rw [← fields_ofGroup g]
    exact f.fields_push joiner (.group g)

/-- Six paths and four fields: two paths have a field that is there already, and the path that begins with a position
has the empty one. -/
theorem fields_eq_firsts_groups :
    let text := "/b/0/x eq /a and (/a/k gt /a or /0/z in /b)"
    let w : Surroundings := ⟨⟨[], []⟩, [], none, []⟩
    ∃ f, Command.readExpression {} text false = .ok f ∧ f.fields = ["/b", "/a", "/a/k", ""] ∧
      (∃ stem place p, FieldPath.ofText "/b" = .ok stem ∧ f.ReadsAt place p ∧ p.field = "/b" ∧
        FieldPath.IsStem stem.segments p.segments) ∧
      ∃ output, Command.Task.run .standard {} w (.fields text false) = ⟨output, w.directory, .ok 0⟩ ∧
        Text.Lines output.toList (["/b", "/a", "/a/k", ""].map String.toList) := by
  intro text w
  have hfields : (Command.readExpression {} text false).toOption.map fields = some ["/b", "/a", "/a/k", ""] := by
    decide +kernel
  cases h : Command.readExpression {} text false with
  | error e =>
    rw [h] at hfields
    cases hfields
  | ok f =>
    rw [h] at hfields
    have hf : f.fields = ["/b", "/a", "/a/k", ""] := Option.some.inj hfields
    obtain ⟨-, hmem, -, -, -, hstem, -, hrun⟩ := fields_eq_firsts f
    have hb : "/b" ∈ f.fields := by simp [hf]
    obtain ⟨place, p, hp, hname⟩ := (hmem "/b").mp hb
    obtain ⟨stem, hofText, hstem⟩ := hstem "/b" hb (by decide)
    obtain ⟨output, houtput, hlines⟩ := hrun .standard {} w text false h
    rw [hf] at hlines
    exact ⟨f, rfl, hf, ⟨stem, place, p, hofText, hp, hname, hstem place p hp hname⟩, output, houtput, hlines⟩

end Filter

end RecordFilter
