import Mathlib
import RecordFilter.Filter.Basic

/-!
# Graph — what holds at every level of a filter

* `Filter.induction`: a property of filters holds if it passes from groups to the row they are in.
* `Filter.clauses`, `Filter.levels`: the clauses at any depth, the filter and its groups at any depth.
* `Filter.WellFormed`: every row of statements is well formed.
* `Filter.malformed?_eq_none_iff`: what a well-formed row looks like.
-/

namespace RecordFilter

/-! ## Induction -/

section Induction

variable {motive : Filter → Prop}
  (h : ∀ row : List Statement, (∀ s ∈ row, ∀ g, s.node = .group g → motive g) → motive ⟨row⟩)

include h

-- the linter looks at each theorem of the block alone, and only one names the hypothesis
set_option linter.unusedSectionVars false in
mutual

theorem Node.induction : ∀ n : Node, ∀ g, n = .group g → motive g
  | .clause _ => by simp
  | .group f => by simpa using Filter.induction f

theorem Statement.induction : ∀ s : Statement, ∀ g, s.node = .group g → motive g
  | ⟨_, n⟩ => Node.induction n

/-- A property of filters that passes from groups to the row they are in holds of every filter. -/
theorem Filter.induction : ∀ f : Filter, motive f
  | ⟨row⟩ => h row (Filter.inductionOf row)

theorem Filter.inductionOf : ∀ row : List Statement, ∀ s ∈ row, ∀ g, s.node = .group g → motive g
  | [] => by simp
  | s :: rest => List.forall_mem_cons.mpr ⟨Statement.induction s, Filter.inductionOf rest⟩

end

end Induction

/-! ## Depth -/

theorem Filter.depthOf_append (row rest : List Statement) :
    depthOf (row ++ rest) = max (depthOf row) (depthOf rest) := by
  induction row with
  | nil => simp [depthOf]
  | cons s row ih => simp [depthOf, ih, Nat.max_assoc]

theorem Filter.depthOf_reverse (row : List Statement) : depthOf row.reverse = depthOf row := by
  induction row with
  | nil => rfl
  | cons s row ih => simp [depthOf_append, depthOf, ih, Nat.max_comm]

/-! ## Clauses and levels -/

mutual

/-- The clauses of a node, in reading order. -/
def Node.clauses : Node → List Clause
  | .clause c => [c]
  | .group f => f.clauses

def Statement.clauses : Statement → List Clause
  | ⟨_, node⟩ => node.clauses

/-- The clauses of a filter at any depth, in reading order. -/
def Filter.clauses : Filter → List Clause
  | ⟨row⟩ => Filter.clausesOf row

def Filter.clausesOf : List Statement → List Clause
  | [] => []
  | s :: rest => s.clauses ++ Filter.clausesOf rest

end

mutual

/-- The groups of a node at any depth. -/
def Node.levels : Node → List Filter
  | .clause _ => []
  | .group f => f.levels

def Statement.levels : Statement → List Filter
  | ⟨_, node⟩ => node.levels

/-- The filter itself and its groups at any depth. -/
def Filter.levels : Filter → List Filter
  | ⟨row⟩ => ⟨row⟩ :: Filter.levelsOf row

def Filter.levelsOf : List Statement → List Filter
  | [] => []
  | s :: rest => s.levels ++ Filter.levelsOf rest

end

theorem Statement.clauses_eq (s : Statement) : s.clauses = s.node.clauses := by
  cases s; rfl

theorem Statement.levels_eq (s : Statement) : s.levels = s.node.levels := by
  cases s; rfl

theorem Filter.mem_clausesOf {c : Clause} {row : List Statement} :
    c ∈ clausesOf row ↔ ∃ s ∈ row, c ∈ s.node.clauses := by
  induction row with
  | nil => simp [clausesOf]
  | cons s row ih => simp [clausesOf, ih, Statement.clauses_eq]

theorem Filter.mem_levelsOf {f : Filter} {row : List Statement} :
    f ∈ levelsOf row ↔ ∃ s ∈ row, f ∈ s.node.levels := by
  induction row with
  | nil => simp [levelsOf]
  | cons s row ih => simp [levelsOf, ih, Statement.levels_eq]

theorem Filter.mem_levels_self (f : Filter) : f ∈ f.levels := by
  cases f; simp [levels]

/-- The clauses of a group are clauses of the filter. -/
theorem Filter.clauses_subset_of_mem_levels {f g : Filter} (hg : g ∈ f.levels) :
    g.clauses ⊆ f.clauses := by
  induction f using Filter.induction with
  | h row ih =>
    rw [levels, List.mem_cons] at hg
    rcases hg with rfl | hg
    · exact fun c hc => hc
    · obtain ⟨⟨joiner, node⟩, hs, hn⟩ := mem_levelsOf.mp hg
      cases node with
      | clause c => simp [Node.levels] at hn
      | group f' =>
        have hsub := ih _ hs f' rfl (by simpa [Node.levels] using hn)
        intro c hc
        rw [clauses, mem_clausesOf]
        exact ⟨_, hs, by simpa [Node.clauses] using hsub hc⟩

/-! ## Well-formed rows -/

/-- Every row of statements, at any depth, is well formed. -/
def Filter.WellFormed (f : Filter) : Prop := ∀ g ∈ f.levels, g.malformed? = none

instance (f : Filter) : Decidable f.WellFormed :=
  inferInstanceAs (Decidable (∀ g ∈ f.levels, g.malformed? = none))

/-- A well-formed row has a first statement without joiner and a joiner in every later one. -/
theorem Filter.malformed?_eq_none_iff {row : List Statement} :
    malformed? ⟨row⟩ = none ↔
      ∃ node rest, row = ⟨none, node⟩ :: rest ∧ ∀ s ∈ rest, ∃ j, s.joiner = some j := by
  unfold malformed?
  cases row with
  | nil => simp
  | cons first rest =>
    obtain ⟨joiner, node⟩ := first
    cases joiner with
    | some j => simp
    | none => simp [List.findIdx?_eq_none_iff, Option.isSome_iff_exists]

theorem Filter.malformed?_push {f : Filter} (h : f.malformed? = none) (j : Joiner) (node : Node) :
    (f.push j node).malformed? = none := by
  obtain ⟨row⟩ := f
  obtain ⟨first, rest, rfl, hrest⟩ := malformed?_eq_none_iff.mp h
  refine malformed?_eq_none_iff.mpr ⟨first, rest ++ [⟨some j, node⟩], rfl, ?_⟩
  rw [List.forall_mem_append]
  exact ⟨hrest, by simp⟩

theorem Filter.wellFormed_mk {row : List Statement} :
    WellFormed ⟨row⟩ ↔ malformed? ⟨row⟩ = none ∧
      ∀ s ∈ row, ∀ g, s.node = .group g → g.WellFormed := by
  simp only [WellFormed, levels, List.forall_mem_cons, mem_levelsOf]
  refine and_congr_right fun _ => ⟨?_, ?_⟩
  · intro h s hs g hg f hf
    exact h f ⟨s, hs, by simpa [hg, Node.levels] using hf⟩
  · rintro h f ⟨⟨joiner, node⟩, hs, hn⟩
    cases node with
    | clause c => simp [Node.levels] at hn
    | group g => exact h _ hs g rfl f (by simpa [Node.levels] using hn)

end RecordFilter
