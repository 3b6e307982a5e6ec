import Mathlib
import RecordFilter.Proofs.Expression.Reading
import RecordFilter.Proofs.Filter.Writable
import RecordFilter.Stored.Read

/-!
# Origin — where clauses and filters come from

A filter is put together step by step, read from a text or from a stored value, or is a part of
another one. In whatever order these are combined, every literal in the filter can be written.

* `Filter.writable_of_parse`: a filter that is read from a text can be written.
* `Filter.writable_of_ofJson`: a filter that is read from a stored value can be written.
* `Clause.Obtained`, `Filter.Obtained`: all the ways to a clause and to a filter.
* `Filter.Obtained.writable`: whatever is obtained can be written.
* `Filter.Built.wellFormed`: what is put together or read from a text is well formed at every level.
-/

namespace RecordFilter

open Grammar

/-! ## Texts -/

namespace Grammar

variable {ks : List Token.Kind}

theorem IsOperand.check {k : Token.Kind} {o : Operand} (h : IsOperand k o) (hw : k.Writable) :
    o.check = .ok () := by
  cases h with
  | field p => rfl
  | literal hl => exact hw _ hl

theorem IsLiterals.check {vs : List Scalar} (h : IsLiterals ks vs) (hw : ∀ k ∈ ks, k.Writable) :
    ∀ v ∈ vs, v.check = .ok () := by
  induction h with
  | one hl =>
    rw [List.forall_mem_singleton]
    exact hw _ (by simp) _ hl
  | more hl hs ih =>
    refine List.forall_mem_cons.mpr ⟨hw _ (by simp) _ hl, ih fun k hk => hw k (by simp [hk])⟩

theorem IsObject.check {shape : Shape} {object : Object} (h : IsObject shape ks object)
    (hw : ∀ k ∈ ks, k.Writable) : object.check = .ok () := by
  cases h with
  | operand hk =>
    cases hk with
    | field p => rfl
    | literal hl => exact hw _ (by simp) _ hl
  | noLiterals => rfl
  | literals hvs => exact Scalar.forM_check_iff.mpr (hvs.check fun k hk => hw k (by simp [hk]))
  | field p => rfl
  | range hl hu =>
    have hlower := hw _ (by simp) _ hl
    have hupper := hw _ (by simp) _ hu
    exact Object.check_range_iff.mpr ⟨hlower, hupper⟩
  | pattern s => exact hw _ (by simp) _ (.string s)

theorem IsClause.writable {c : Clause} (h : IsClause ks c) (hw : ∀ k ∈ ks, k.Writable) :
    c.Writable := by
  cases h with
  | mk hs ho =>
    exact ⟨hs.check (hw _ (by simp)), ho.check fun k hk => hw k (by simp [hk])⟩

mutual

theorem IsTerm.writable {ks : List Token.Kind} {n : Node} (h : IsTerm ks n)
    (hw : ∀ k ∈ ks, k.Writable) : ∀ c ∈ n.clauses, c.Writable := by
  match h with
  | .clause hc =>
    simp only [Node.clauses, List.mem_singleton, forall_eq]
    exact hc.writable hw
  | .group hf => exact hf.writable fun k hk => hw k (by simp [hk])

theorem IsFilter.writable {ks : List Token.Kind} {f : Filter} (h : IsFilter ks f)
    (hw : ∀ k ∈ ks, k.Writable) : f.Writable := by
  match h with
  | .mk hn ht =>
    refine Filter.writable_mk.mpr (List.forall_mem_cons.mpr ⟨?_, ?_⟩)
    · exact hn.writable fun k hk => hw k (by simp [hk])
    · exact ht.writable fun k hk => hw k (by simp [hk])

theorem IsTail.writable {ks : List Token.Kind} {row : List Statement} (h : IsTail ks row)
    (hw : ∀ k ∈ ks, k.Writable) : ∀ s ∈ row, ∀ c ∈ s.node.clauses, c.Writable := by
  match h with
  | .nil => simp
  | .cons hn ht =>
    refine List.forall_mem_cons.mpr ⟨?_, ?_⟩
    · exact hn.writable fun k hk => hw k (by simp [hk])
    · exact ht.writable fun k hk => hw k (by simp [hk])

end

end Grammar

theorem Filter.exists_tokens_of_parse {limit : Nat} {text : String} {f : Filter}
    (h : Filter.parse limit text = .ok f) :
    ∃ ts, tokenize text = .ok ts ∧ ofTokens limit text.length ts = .ok f := by
  unfold Filter.parse at h
  split at h
  · cases h
  · exact ok_of_bind h

/-- A filter that is read from a text can be written. -/
theorem Filter.writable_of_parse {limit : Nat} {text : String} {f : Filter}
    (h : Filter.parse limit text = .ok f) : f.Writable := by
  obtain ⟨ts, ht, h⟩ := exists_tokens_of_parse h
  have hw := Token.writable_of_scan ht
  exact (isFilter_of_ofTokens h).1.writable (by simpa using hw)

/-! ## Stored values -/

theorem Clause.writable_of_ofParts {subject : Option Operand} {operator : Option Operator}
    {object : Option Object} {c : Clause} (h : ofParts subject operator object = .ok c) :
    c.Writable := by
  obtain ⟨s, -, h⟩ := ok_of_bind h
  obtain ⟨o, -, h⟩ := ok_of_bind h
  obtain ⟨x, -, h⟩ := ok_of_bind h
  exact writable_of_make (ok_of_mapError h)

theorem Clause.writable_of_ofJson {v : Json} {c : Clause} (h : Clause.ofJson v = .ok c) :
    c.Writable := by
  unfold Clause.ofJson at h
  split at h
  · obtain ⟨x, -, h⟩ := ok_of_bind h
    obtain ⟨o, -, h⟩ := ok_of_bind h
    obtain ⟨s, -, h⟩ := ok_of_bind h
    exact writable_of_ofParts h
  · obtain ⟨s, -, h⟩ := ok_of_bind h
    obtain ⟨o, -, h⟩ := ok_of_bind h
    obtain ⟨x, -, h⟩ := ok_of_bind h
    split at h
    · exact writable_of_ofParts h
    · cases h
  · cases h

mutual

theorem Node.writable_of_ofJson {v : Json} {n : Node} (h : Node.ofJson v = .ok n) :
    ∀ c ∈ n.clauses, c.Writable := by
  match v with
  | .object [(tag, w)] =>
    rw [Node.ofJson] at h
    split at h
    · obtain ⟨c, hc, rfl⟩ := ok_of_map h
      simp only [Node.clauses, List.mem_singleton, forall_eq]
      exact Clause.writable_of_ofJson hc
    · split at h
      · obtain ⟨f, hf, rfl⟩ := ok_of_map h
        exact Filter.writable_of_ofJson hf
      · cases h
  | .object [] | .object (_ :: _ :: _) | .null | .bool _ | .number _ | .string _ | .array _ => cases h

theorem Statement.writable_of_ofJson {v : Json} {s : Statement} (h : Statement.ofJson v = .ok s) :
    ∀ c ∈ s.node.clauses, c.Writable := by
  match v with
  | .object members =>
    rw [Statement.ofJson] at h
    obtain ⟨j, -, h⟩ := ok_of_bind h
    obtain ⟨n, hn, h⟩ := ok_of_bind h
    cases h
    exact Statement.writable_of_members hn
  | .array (j :: w :: rest) =>
    rw [Statement.ofJson] at h
    obtain ⟨j, -, h⟩ := ok_of_bind h
    obtain ⟨n, hn, h⟩ := ok_of_bind h
    split at h <;> cases h
    exact Node.writable_of_ofJson hn
  | .array [] | .array [_] | .null | .bool _ | .number _ | .string _ => cases h

theorem Statement.writable_of_members {members : List (String × Json)} {n : Node}
    (h : Statement.nodeOfMembers members = .ok n) : ∀ c ∈ n.clauses, c.Writable := by
  match members with
  | [] => cases h
  | (name, v) :: rest =>
    rw [Statement.nodeOfMembers] at h
    split at h
    · exact Node.writable_of_ofJson h
    · exact Statement.writable_of_members h

/-- A filter that is read from a stored value can be written. -/
theorem Filter.writable_of_ofJson {v : Json} {f : Filter} (h : Filter.ofJson v = .ok f) :
    f.Writable := by
  match v with
  | .object members =>
    rw [Filter.ofJson] at h
    obtain ⟨row, hrow, rfl⟩ := ok_of_map h
    exact Filter.writable_mk.mpr (Filter.writable_of_members hrow)
  | .array (v :: rest) =>
    rw [Filter.ofJson] at h
    obtain ⟨row, hrow, h⟩ := ok_of_bind h
    split at h <;> cases h
    exact Filter.writable_mk.mpr (Filter.writable_of_statements hrow)
  | .array [] | .null | .bool _ | .number _ | .string _ => cases h

theorem Filter.writable_of_members {members : List (String × Json)} {row : List Statement}
    (h : Filter.statementsOfMembers members = .ok row) :
    ∀ s ∈ row, ∀ c ∈ s.node.clauses, c.Writable := by
  match members with
  | [] => cases h
  | (name, v) :: rest =>
    rw [Filter.statementsOfMembers] at h
    split at h
    · exact Filter.writable_of_statements h
    · exact Filter.writable_of_members h

theorem Filter.writable_of_statements {v : Json} {row : List Statement}
    (h : Filter.statementsOfJson v = .ok row) : ∀ s ∈ row, ∀ c ∈ s.node.clauses, c.Writable := by
  match v with
  | .array items =>
    rw [Filter.statementsOfJson] at h
    exact Filter.writable_of_items h
  | .object _ | .null | .bool _ | .number _ | .string _ => cases h

theorem Filter.writable_of_items {items : List Json} {row : List Statement}
    (h : Filter.statementsOfItems items = .ok row) :
    ∀ s ∈ row, ∀ c ∈ s.node.clauses, c.Writable := by
  match items with
  | [] => cases h; simp
  | v :: rest =>
    rw [Filter.statementsOfItems] at h
    obtain ⟨first, hfirst, h⟩ := ok_of_bind h
    obtain ⟨others, hothers, h⟩ := ok_of_bind h
    cases h
    exact List.forall_mem_cons.mpr
      ⟨Statement.writable_of_ofJson hfirst, Filter.writable_of_items hothers⟩

end

/-! ## Every way to a filter -/

mutual

/-- The ways to a clause: made of its parts, built step by step, read from a stored value, or taken
out of a filter. -/
inductive Clause.Obtained : Clause → Prop
  | made {subject : Operand} {operator : Operator} {object : Object} {c : Clause}
      (h : Clause.make subject operator object = .ok c) : Clause.Obtained c
  | built {subject : Operand} {x : Except ConstructionError Clause} {c : Clause}
      (h : subject.Builds x) (hx : x = .ok c) : Clause.Obtained c
  | stored {v : Json} {c : Clause} (h : Clause.ofJson v = .ok c) : Clause.Obtained c
  | part {f : Filter} {c : Clause} (h : Filter.Obtained f) (hc : c ∈ f.clauses) : Clause.Obtained c

/-- The ways to a filter: put together step by step, read from a text or from a stored value, or
taken out of another filter. -/
inductive Filter.Obtained : Filter → Prop
  | ofClause {c : Clause} (h : Clause.Obtained c) : Filter.Obtained (.ofClause c)
  | ofGroup {f : Filter} (h : Filter.Obtained f) : Filter.Obtained (.ofGroup f)
  | and {f : Filter} {c : Clause} (h : Filter.Obtained f) (hc : Clause.Obtained c) :
      Filter.Obtained (f.and c)
  | or {f : Filter} {c : Clause} (h : Filter.Obtained f) (hc : Clause.Obtained c) :
      Filter.Obtained (f.or c)
  | andGroup {f g : Filter} (h : Filter.Obtained f) (hg : Filter.Obtained g) :
      Filter.Obtained (f.andGroup g)
  | orGroup {f g : Filter} (h : Filter.Obtained f) (hg : Filter.Obtained g) :
      Filter.Obtained (f.orGroup g)
  | parsed {limit : Nat} {text : String} {f : Filter} (h : Filter.parse limit text = .ok f) :
      Filter.Obtained f
  | decoded {limit : Nat} {text : String} {f : Filter} (h : Filter.parseEncoded limit text = .ok f) :
      Filter.Obtained f
  | stored {v : Json} {f : Filter} (h : Filter.ofJson v = .ok f) : Filter.Obtained f
  | part {f g : Filter} (h : Filter.Obtained f) (hg : g ∈ f.levels) : Filter.Obtained g

end

theorem Filter.writable_push {f : Filter} {j : Joiner} {n : Node} (hf : f.Writable)
    (hn : ∀ c ∈ n.clauses, c.Writable) : (f.push j n).Writable := by
  obtain ⟨row⟩ := f
  rw [push, writable_mk, List.forall_mem_append]
  exact ⟨writable_mk.mp hf, by simpa using hn⟩

theorem Filter.writable_ofNode {n : Node} (hn : ∀ c ∈ n.clauses, c.Writable) :
    (ofNode n).Writable := by
  rw [ofNode, writable_mk]
  simpa using hn

theorem Clause.Writable.node {c : Clause} (h : c.Writable) :
    ∀ d ∈ (Node.clause c).clauses, d.Writable := by
  simpa [Node.clauses] using h

mutual

theorem Clause.Obtained.writable {c : Clause} (h : c.Obtained) : c.Writable := by
  match h with
  | .made h => exact Clause.writable_of_make h
  | .built h hx =>
    obtain ⟨operator, object, hmake⟩ := h.make hx
    exact Clause.writable_of_make hmake
  | .stored h => exact Clause.writable_of_ofJson h
  | .part h hc => exact h.writable _ hc

/-- **Every literal of a filter that is obtained can be written.** -/
theorem Filter.Obtained.writable {f : Filter} (h : f.Obtained) : f.Writable := by
  match h with
  | .ofClause h => exact Filter.writable_ofNode h.writable.node
  | .ofGroup h => exact Filter.writable_ofNode h.writable
  | .and h hc | .or h hc => exact Filter.writable_push h.writable hc.writable.node
  | .andGroup h hg | .orGroup h hg => exact Filter.writable_push h.writable hg.writable
  | .parsed h => exact Filter.writable_of_parse h
  | .decoded h =>
    unfold Filter.parseEncoded at h
    split at h
    · exact Filter.writable_of_parse h
    · cases h
  | .stored h => exact Filter.writable_of_ofJson h
  | .part h hg => exact fun c hc => h.writable c (Filter.clauses_subset_of_mem_levels hg hc)

end

/-! ## Filters that are well formed by the way they came about -/

/-- The ways to a filter that do not go through a stored value. -/
inductive Filter.Built : Filter → Prop
  | ofClause (c : Clause) : Built (.ofClause c)
  | ofGroup {f : Filter} (h : Built f) : Built (.ofGroup f)
  | and {f : Filter} (h : Built f) (c : Clause) : Built (f.and c)
  | or {f : Filter} (h : Built f) (c : Clause) : Built (f.or c)
  | andGroup {f g : Filter} (h : Built f) (hg : Built g) : Built (f.andGroup g)
  | orGroup {f g : Filter} (h : Built f) (hg : Built g) : Built (f.orGroup g)
  | parsed {limit : Nat} {text : String} {f : Filter} (h : Filter.parse limit text = .ok f) : Built f
  | decoded {limit : Nat} {text : String} {f : Filter} (h : Filter.parseEncoded limit text = .ok f) :
      Built f

theorem Filter.wellFormed_ofNode {n : Node} (hn : ∀ g, n = .group g → g.WellFormed) :
    (ofNode n).WellFormed := by
  rw [ofNode, wellFormed_mk]
  exact ⟨rfl, by simpa using hn⟩

theorem Filter.wellFormed_push {f : Filter} {j : Joiner} {n : Node} (hf : f.WellFormed)
    (hn : ∀ g, n = .group g → g.WellFormed) : (f.push j n).WellFormed := by
  obtain ⟨row⟩ := f
  obtain ⟨hnone, hgroups⟩ := wellFormed_mk.mp hf
  rw [push, wellFormed_mk, List.forall_mem_append]
  exact ⟨malformed?_push hnone j n, hgroups, by simpa using hn⟩

namespace Grammar

mutual

theorem IsTerm.wellFormed {ks : List Token.Kind} {n : Node} (h : IsTerm ks n) :
    ∀ g, n = .group g → g.WellFormed := by
  match h with
  | .clause hc => simp
  | .group hf => simpa using hf.wellFormed

/-- A derived filter is well formed at every level. -/
theorem IsFilter.wellFormed {ks : List Token.Kind} {f : Filter} (h : IsFilter ks f) :
    f.WellFormed := by
  match h with
  | .mk hn ht =>
    obtain ⟨hj, hgroups⟩ := ht.wellFormed
    refine Filter.wellFormed_mk.mpr ⟨?_, List.forall_mem_cons.mpr ⟨hn.wellFormed, hgroups⟩⟩
    exact Filter.malformed?_eq_none_iff.mpr ⟨_, _, rfl, hj⟩

theorem IsTail.wellFormed {ks : List Token.Kind} {row : List Statement} (h : IsTail ks row) :
    (∀ s ∈ row, ∃ j, s.joiner = some j) ∧ ∀ s ∈ row, ∀ g, s.node = .group g → g.WellFormed := by
  match h with
  | .nil => simp
  | .cons hn ht =>
    obtain ⟨hj, hgroups⟩ := ht.wellFormed
    exact ⟨List.forall_mem_cons.mpr ⟨⟨_, rfl⟩, hj⟩, List.forall_mem_cons.mpr ⟨hn.wellFormed, hgroups⟩⟩

end

end Grammar

theorem Filter.wellFormed_of_parse {limit : Nat} {text : String} {f : Filter}
    (h : Filter.parse limit text = .ok f) : f.WellFormed := by
  obtain ⟨ts, -, h⟩ := exists_tokens_of_parse h
  exact (isFilter_of_ofTokens h).1.wellFormed

theorem Filter.depth_le_of_parse {limit : Nat} {text : String} {f : Filter}
    (h : Filter.parse limit text = .ok f) : f.depth ≤ limit := by
  obtain ⟨ts, -, h⟩ := exists_tokens_of_parse h
  exact (isFilter_of_ofTokens h).2

/-- **What is put together or read from a text is well formed at every level.** -/
theorem Filter.Built.wellFormed {f : Filter} (h : f.Built) : f.WellFormed := by
  induction h with
  | ofClause c => exact wellFormed_ofNode (by simp)
  | ofGroup h ih => exact wellFormed_ofNode (by simpa using ih)
  | and h c ih | or h c ih => exact wellFormed_push ih (by simp)
  | andGroup h hg ih ihg | orGroup h hg ih ihg => exact wellFormed_push ih (by simpa using ihg)
  | parsed h => exact wellFormed_of_parse h
  | decoded h =>
    unfold Filter.parseEncoded at h
    split at h
    · exact wellFormed_of_parse h
    · cases h

end RecordFilter
