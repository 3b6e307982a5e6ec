import Mathlib
import RecordFilter.Proofs.Expression.Cutting
import RecordFilter.Proofs.Expression.Transition
import RecordFilter.Proofs.Filter.Graph

/-!
# Reading — the tokens that are accepted are those that derive a filter

A reading holds open groups, a row of statements and a clause that has been begun. What it has read
is spelled out from these three parts, and every token adds one kind to it; conversely a derived row
of kinds is read to its end from any reading that awaits a term.

* `Reading.Spelled`, `Reading.Shallow`: what has been read, and how deeply it is nested.
* `Grammar.IsTerm.run`, `Grammar.IsFilter.run`: a derived row is read to its end.
* `Filter.ofTokens_iff_derives`: the tokens of a text are read as a filter exactly if they derive it
  and it is within the limit, and they derive no other.
-/

namespace RecordFilter

open Grammar

/-! ## What has been read -/

namespace Reading

/-- The kinds of a clause that has been begun. -/
inductive Begun : Phase → List Token.Kind → Prop
  | term : Begun .term []
  | operator {k s} (hs : IsOperand k s) : Begun (.operator s) [k]
  | operand {k s o fits} (hs : IsOperand k s) : Begun (.operand s o fits) [k, .operator o]
  | array {k s o fits} (hs : IsOperand k s) : Begun (.array s o fits) [k, .operator o]
  | firstItem {k s o fits} (hs : IsOperand k s) :
      Begun (.firstItem s o fits) [k, .operator o, .arrayOpen]
  | item {k s o fits ls vs} (hs : IsOperand k s) (hv : IsLiterals ls vs.reverse) :
      Begun (.item s o fits vs) (k :: .operator o :: .arrayOpen :: (ls ++ [.comma]))
  | afterItem {k s o fits ls vs} (hs : IsOperand k s) (hv : IsLiterals ls vs.reverse) :
      Begun (.afterItem s o fits vs) (k :: .operator o :: .arrayOpen :: ls)
  | lower {k s o fits} (hs : IsOperand k s) : Begun (.lower s o fits) [k, .operator o]
  | betweenBounds {k s o fits l v} (hs : IsOperand k s) (hl : IsLiteral l v)
      (hv : v.isOrderable = true) : Begun (.betweenBounds s o fits v) [k, .operator o, l]
  | upper {k s o fits l v} (hs : IsOperand k s) (hl : IsLiteral l v)
      (hv : v.isOrderable = true) : Begun (.upper s o fits v) [k, .operator o, l, .comma]
  | pattern {k s o fits} (hs : IsOperand k s) : Begun (.pattern s o fits) [k, .operator o]

/-- The kinds of the statements before a term and of the term's joiner. -/
inductive Before : List Statement → Option Joiner → List Token.Kind → Prop
  | nothing : Before [] none []
  | row {row j ks} (hf : IsFilter ks ⟨row.reverse⟩) : Before row (some j) (ks ++ [.joiner j])

/-- The kinds up to the innermost open parenthesis. -/
inductive Opened : List OpenGroup → List Token.Kind → Prop
  | nothing : Opened [] []
  | group {g gs os bs} (ho : Opened gs os) (hb : Before g.before g.joiner bs) :
      Opened (g :: gs) (os ++ bs ++ [.groupOpen])

/-- The kinds that a reading has read. -/
inductive Spelled : Reading → List Token.Kind → Prop
  | within {gs row j phase os bs cs} (ho : Opened gs os) (hb : Before row j bs)
      (hc : Begun phase cs) : Spelled ⟨gs, row, j, phase⟩ (os ++ bs ++ cs)
  | after {gs row j os ks} (ho : Opened gs os) (hf : IsFilter ks ⟨row.reverse⟩) :
      Spelled ⟨gs, row, j, .next⟩ (os ++ ks)

theorem Spelled.start : Spelled .start [] :=
  .within .nothing .nothing .term

theorem Before.append_term {row : List Statement} {j : Option Joiner} {bs ks : List Token.Kind}
    {n : Node} (hb : Before row j bs) (h : IsTerm ks n) :
    IsFilter (bs ++ ks) ⟨(⟨j, n⟩ :: row).reverse⟩ := by
  cases hb with
  | nothing => simpa using h.filter
  | row hf => simpa using hf.append_term h

theorem Begun.object {k : Token.Kind} {s : Operand} (o : Operator) (hs : IsOperand k s) :
    Begun (.object s o) [k, .operator o] := by
  unfold Phase.object
  split
  · exact .operand hs
  · exact .array hs
  · exact .lower hs
  · exact .pattern hs

/-- A clause that is read to its end joins the row before it. -/
theorem Spelled.clause {gs : List OpenGroup} {row : List Statement} {i j : Option Joiner}
    {os bs cs ls : List Token.Kind} {k : Token.Kind} {s : Operand} {o : Operator} {object : Object}
    {shape : Shape} (ho : Opened gs os) (hb : Before row j bs) (hs : IsOperand k s)
    (hobject : IsObject shape ls object) (hshape : o.shape = shape) {fits : object.shape = o.shape}
    (he : cs = k :: .operator o :: ls) :
    Spelled ⟨gs, ⟨j, .clause ⟨s, o, object, fits⟩⟩ :: row, i, .next⟩ (os ++ bs ++ cs) := by
  subst hshape
  have hc : IsClause cs ⟨s, o, object, fits⟩ := by
    rw [he]
    exact .mk (c := ⟨s, o, object, fits⟩) hs hobject
  rw [List.append_assoc]
  exact .after ho (hb.append_term (.clause hc))

/-- Every token adds its kind to what has been read. -/
theorem Spelled.step {limit : Nat} {r r' : Reading} {t : Token} {ks : List Token.Kind}
    (hr : Spelled r ks) (h : Step limit r t r') : Spelled r' (ks ++ [t.kind]) := by
  cases hr with
  | within ho hb hc =>
    -- the token goes on with the clause that has been begun
    rw [List.append_assoc]
    cases h with
    | opened hk hl =>
      cases hc
      rw [hk]
      simpa using Spelled.within (.group ho hb) .nothing .term
    | subject hk =>
      cases hc
      exact .within ho hb (.operator hk)
    | operator hk =>
      cases hc with
      | operator hs =>
        rw [hk]
        exact .within ho hb (Begun.object _ hs)
    | operand hk =>
      cases hc with
      | operand hs => exact .clause ho hb hs (.operand hk) ‹_› rfl
    | arrayField hk =>
      cases hc with
      | array hs => exact .clause ho hb hs (.field _) ‹_› (by rw [hk]; rfl)
    | arrayOpen hk =>
      cases hc with
      | array hs =>
        rw [hk]
        exact .within ho hb (.firstItem hs)
    | noItems hk =>
      cases hc with
      | firstItem hs => exact .clause ho hb hs .noLiterals ‹_› (by rw [hk]; rfl)
    | firstItem hk =>
      cases hc with
      | firstItem hs => exact .within ho hb (.afterItem hs (.one hk))
    | item hk =>
      cases hc with
      | item hs hv =>
        have hvs := hv.append_literal hk
        rw [← List.reverse_cons] at hvs
        simpa using Spelled.within ho hb (.afterItem hs hvs)
    | comma hk =>
      cases hc with
      | afterItem hs hv =>
        rw [hk]
        exact .within ho hb (.item hs hv)
    | arrayClose hk =>
      cases hc with
      | afterItem hs hv => exact .clause ho hb hs (.literals hv) ‹_› (by rw [hk]; rfl)
    | lower hk hv =>
      cases hc with
      | lower hs => exact .within ho hb (.betweenBounds hs hk hv)
    | betweenBounds hk =>
      cases hc with
      | betweenBounds hs hl hv =>
        rw [hk]
        exact .within ho hb (.upper hs hl hv)
    | upper hk hr =>
      cases hc with
      | upper hs hl hv =>
        obtain ⟨-, -, rfl, rfl⟩ := Range.make_eq_ok_iff.mp hr
        exact .clause ho hb hs (.range hl hk) ‹_› rfl
    | pattern hk =>
      cases hc with
      | pattern hs => exact .clause ho hb hs (.pattern _) ‹_› (by rw [hk]; rfl)
    | joined hk => cases hc
    | closed hk => cases hc
  | after ho hf =>
    -- the row is joined to a further term, or it is the whole of its group
    cases h with
    | joined hk =>
      rw [hk]
      simpa using Spelled.within ho (.row hf) .term
    | closed hk =>
      rw [hk]
      cases ho with
      | group ho hb =>
        simpa using Spelled.after ho (hb.append_term (.group hf))

/-! ## Depth -/

/-- With `gs` open around the row, no group is nested deeper than `limit`. -/
def Shallow (limit : Nat) : List OpenGroup → List Statement → Prop
  | [], row => Filter.depthOf row ≤ limit
  | g :: gs, row => gs.length + 1 + Filter.depthOf row ≤ limit ∧ Shallow limit gs g.before

theorem Shallow.le {limit : Nat} {gs : List OpenGroup} {row : List Statement}
    (h : Shallow limit gs row) : gs.length + Filter.depthOf row ≤ limit := by
  cases gs with
  | nil => simpa [Shallow] using h
  | cons g gs => exact h.1

/-- Only the depth of the innermost row matters to it. -/
theorem Shallow.change {limit : Nat} {gs : List OpenGroup} {row row' : List Statement}
    (h : Shallow limit gs row) (hle : gs.length + Filter.depthOf row' ≤ limit) :
    Shallow limit gs row' := by
  cases gs with
  | nil => simpa [Shallow] using hle
  | cons g gs => exact ⟨hle, h.2⟩

theorem Shallow.clause {limit : Nat} {gs : List OpenGroup} {row : List Statement}
    {j : Option Joiner} {c : Clause} (h : Shallow limit gs row) :
    Shallow limit gs (⟨j, .clause c⟩ :: row) := by
  refine h.change ?_
  simpa [Filter.depthOf, Statement.depth, Node.depth] using h.le

theorem Shallow.step {limit : Nat} {r r' : Reading} {t : Token}
    (hr : Shallow limit r.groups r.statements) (h : Step limit r t r') :
    Shallow limit r'.groups r'.statements := by
  cases h with
  | opened hk hl => exact ⟨by simpa [Filter.depthOf] using hl, hr⟩
  | closed hk =>
    obtain ⟨hrow, hg⟩ := hr
    refine hg.change ?_
    have hbefore := hg.le
    dsimp only at hrow
    simp only [Filter.depthOf, Statement.depth, Node.depth, Filter.depth, Filter.depthOf_reverse]
    omega
  | operand | arrayField | noItems | arrayClose | upper | pattern => exact hr.clause
  | _ => exact hr

/-! ## Along a run -/

variable {limit : Nat} {r r' : Reading} {ts : List Token}

theorem Spelled.run {ks : List Token.Kind} (hr : Spelled r ks) (h : r.run limit ts = .ok r') :
    Spelled r' (ks ++ ts.map (·.kind)) := by
  induction ts generalizing r ks with
  | nil => cases h; simpa using hr
  | cons t ts ih =>
    obtain ⟨q, hq, h⟩ := run_cons_ok h
    simpa using ih (hr.step hq) h

theorem Shallow.run (hr : Shallow limit r.groups r.statements) (h : r.run limit ts = .ok r') :
    Shallow limit r'.groups r'.statements := by
  induction ts generalizing r with
  | nil => cases h; exact hr
  | cons t ts ih =>
    obtain ⟨q, hq, h⟩ := run_cons_ok h
    exact ih (hr.step hq) h

end Reading

/-! ## Derived rows are read -/

/-- The tokens have these kinds, and their literals can be written. -/
def Token.OfKinds (ks : List Token.Kind) (ts : List Token) : Prop :=
  ts.map (·.kind) = ks ∧ ∀ k ∈ ks, k.Writable

namespace Token.OfKinds

variable {k : Token.Kind} {ks ls : List Token.Kind} {ts : List Token}

theorem eq_nil (h : OfKinds [] ts) : ts = [] := List.map_eq_nil_iff.mp h.1

theorem cons (h : OfKinds (k :: ks) ts) :
    ∃ t us, ts = t :: us ∧ t.kind = k ∧ k.Writable ∧ OfKinds ks us := by
  obtain ⟨hts, hw⟩ := h
  obtain ⟨t, us, rfl, hk, hus⟩ := List.map_eq_cons_iff.mp hts
  rw [List.forall_mem_cons] at hw
  exact ⟨t, us, rfl, hk, hw.1, hus, hw.2⟩

theorem append (h : OfKinds (ks ++ ls) ts) :
    ∃ us vs, ts = us ++ vs ∧ OfKinds ks us ∧ OfKinds ls vs := by
  obtain ⟨hts, hw⟩ := h
  obtain ⟨us, vs, rfl, hus, hvs⟩ := List.map_eq_append_iff.mp hts
  rw [List.forall_mem_append] at hw
  exact ⟨us, vs, rfl, ⟨hus, hw.1⟩, hvs, hw.2⟩

end Token.OfKinds

namespace Grammar

open Reading

variable {limit : Nat} {ts : List Token} {gs : List OpenGroup} {row : List Statement}
  {i j : Option Joiner} {s : Operand} {o : Operator}

theorem IsLiterals.run {ks : List Token.Kind} {vs items : List Scalar}
    {fits : o.shape = .array} (h : IsLiterals ks vs) (hts : Token.OfKinds ks ts) :
    Reading.run limit ⟨gs, row, j, .item s o fits items⟩ ts
      = .ok ⟨gs, row, j, .afterItem s o fits (vs.reverse ++ items)⟩ := by
  induction h generalizing ts items with
  | one hv =>
    obtain ⟨t, us, rfl, rfl, -, hus⟩ := hts.cons
    rw [hus.eq_nil, (Step.item hv).run_cons]
    rfl
  | more hv hvs ih =>
    obtain ⟨t, us, rfl, rfl, -, hus⟩ := hts.cons
    obtain ⟨t', ws, rfl, hk', -, hws⟩ := hus.cons
    rw [(Step.item hv).run_cons, (Step.comma hk').run_cons, ih hws]
    simp

/-- A list is read to its last literal. -/
theorem IsLiterals.run_first {ks : List Token.Kind} {vs : List Scalar} {fits : o.shape = .array}
    (h : IsLiterals ks vs) (hts : Token.OfKinds ks ts) :
    Reading.run limit ⟨gs, row, j, .firstItem s o fits⟩ ts
      = .ok ⟨gs, row, j, .afterItem s o fits vs.reverse⟩ := by
  cases h with
  | one hv =>
    obtain ⟨t, us, rfl, rfl, -, hus⟩ := hts.cons
    rw [hus.eq_nil, (Step.firstItem hv).run_cons]
    rfl
  | more hv hvs =>
    obtain ⟨t, us, rfl, rfl, -, hus⟩ := hts.cons
    obtain ⟨t', ws, rfl, hk', -, hws⟩ := hus.cons
    rw [(Step.firstItem hv).run_cons, (Step.comma hk').run_cons, hvs.run hws]
    simp

theorem isOrderable_of_isAlike {a b : Scalar} (h : a.isAlike b = true) : a.isOrderable = true := by
  simp only [Scalar.isAlike, Bool.and_eq_true] at h
  exact h.1.1

theorem IsObject.run {ks : List Token.Kind} {object : Object} {fits : object.shape = o.shape}
    (h : IsObject o.shape ks object) (hts : Token.OfKinds ks ts) :
    Reading.run limit ⟨gs, row, j, .object s o⟩ ts
      = .ok ⟨gs, ⟨j, .clause ⟨s, o, object, fits⟩⟩ :: row, j, .next⟩ := by
  unfold Phase.object
  split
  case h_1 hshape =>
    rw [hshape] at h
    cases h with
    | operand hk =>
      obtain ⟨t, us, rfl, rfl, -, hus⟩ := hts.cons
      rw [hus.eq_nil, (Step.operand hk).run_cons]
      rfl
  case h_2 hshape =>
    rw [hshape] at h
    cases h with
    | noLiterals =>
      obtain ⟨t, us, rfl, hk, -, hus⟩ := hts.cons
      obtain ⟨t', ws, rfl, hk', -, hws⟩ := hus.cons
      rw [hws.eq_nil, (Step.arrayOpen hk).run_cons, (Step.noItems hk').run_cons]
      rfl
    | literals hvs =>
      obtain ⟨t, us, rfl, hk, -, hus⟩ := hts.cons
      obtain ⟨vs, ws, rfl, hitems, hws⟩ := hus.append
      obtain ⟨t', ws, rfl, hk', -, hws⟩ := hws.cons
      rw [(Step.arrayOpen hk).run_cons, run_append_of_ok (hvs.run_first hitems),
        (Step.arrayClose hk').run_cons, hws.eq_nil]
      simp [Reading.run, pure, Except.pure]
    | field p =>
      obtain ⟨t, us, rfl, hk, -, hus⟩ := hts.cons
      rw [hus.eq_nil, (Step.arrayField hk).run_cons]
      rfl
  case h_3 hshape =>
    rw [hshape] at h
    cases h with
    | range hl hu =>
      rename_i range
      obtain ⟨t, us, rfl, rfl, hlw, hus⟩ := hts.cons
      obtain ⟨t', ws, rfl, hk', -, hws⟩ := hus.cons
      obtain ⟨t'', ws, rfl, rfl, huw, hws⟩ := hws.cons
      have hr := Range.make_eq_ok_iff.mpr ⟨hlw _ hl, huw _ hu, rfl, rfl⟩
      rw [(Step.lower hl (isOrderable_of_isAlike range.alike)).run_cons,
        (Step.betweenBounds hk').run_cons, (Step.upper hu hr).run_cons, hws.eq_nil]
      rfl
  case h_4 hshape =>
    rw [hshape] at h
    cases h with
    | pattern p =>
      obtain ⟨t, us, rfl, hk, -, hus⟩ := hts.cons
      rw [hus.eq_nil, (Step.pattern hk).run_cons]
      rfl

theorem IsClause.run {ks : List Token.Kind} {c : Clause} (h : IsClause ks c)
    (hts : Token.OfKinds ks ts) :
    Reading.run limit ⟨gs, row, j, .term⟩ ts = .ok ⟨gs, ⟨j, .clause c⟩ :: row, j, .next⟩ := by
  cases h with
  | mk hs ho =>
    obtain ⟨t, us, rfl, rfl, -, hus⟩ := hts.cons
    obtain ⟨t', ws, rfl, hk', -, hws⟩ := hus.cons
    rw [(Step.subject hs).run_cons, (Step.operator hk').run_cons, ho.run hws]

mutual

/-- A derived term is read to its end. -/
theorem IsTerm.run {ks : List Token.Kind} {n : Node} {ts : List Token} (h : IsTerm ks n)
    (hts : Token.OfKinds ks ts) (gs : List OpenGroup) (row : List Statement) (j : Option Joiner)
    (hd : gs.length + n.depth ≤ limit) :
    ∃ i, Reading.run limit ⟨gs, row, j, .term⟩ ts = .ok ⟨gs, ⟨j, n⟩ :: row, i, .next⟩ := by
  match h with
  | .clause hc => exact ⟨j, hc.run hts⟩
  | .group (f := ⟨inner⟩) hf =>
    obtain ⟨t, us, rfl, hk, -, hus⟩ := hts.cons
    obtain ⟨vs, ws, rfl, hvs, hws⟩ := hus.append
    obtain ⟨t', ws, rfl, hk', -, hws⟩ := hws.cons
    rw [Node.depth] at hd
    have hopen : gs.length < limit := by omega
    -- while the row of the group is read, its frame lies on the stack
    obtain ⟨i, hi⟩ := hf.run hvs (⟨t.position, row, j⟩ :: gs) (by simp only [List.length_cons]; omega)
    refine ⟨none, ?_⟩
    rw [(Step.opened hk hopen).run_cons, run_append_of_ok hi, (Step.closed hk').run_cons, hws.eq_nil,
      List.reverse_reverse]
    rfl

/-- A derived filter is read to its end from the start of a row. -/
theorem IsFilter.run {ks : List Token.Kind} {f : Filter} {ts : List Token} (h : IsFilter ks f)
    (hts : Token.OfKinds ks ts) (gs : List OpenGroup) (hd : gs.length + f.depth ≤ limit) :
    ∃ i, Reading.run limit ⟨gs, [], none, .term⟩ ts = .ok ⟨gs, f.statements.reverse, i, .next⟩ := by
  match h with
  | .mk (n := n) hn ht =>
    obtain ⟨us, vs, rfl, hus, hvs⟩ := hts.append
    simp only [Filter.depth, Filter.depthOf, Statement.depth] at hd
    obtain ⟨i, hi⟩ := hn.run hus gs [] none (by omega)
    obtain ⟨i', hi'⟩ := ht.run hvs gs [⟨none, n⟩] i (by omega)
    refine ⟨i', ?_⟩
    rw [run_append_of_ok hi, hi', List.reverse_cons]

theorem IsTail.run {ks : List Token.Kind} {rest : List Statement} {ts : List Token}
    (h : IsTail ks rest) (hts : Token.OfKinds ks ts) (gs : List OpenGroup) (row : List Statement)
    (i : Option Joiner) (hd : gs.length + Filter.depthOf rest ≤ limit) :
    ∃ i', Reading.run limit ⟨gs, row, i, .next⟩ ts
      = .ok ⟨gs, rest.reverse ++ row, i', .next⟩ := by
  match h with
  | .nil => exact ⟨i, by rw [hts.eq_nil]; rfl⟩
  | .cons (j := j) (n := n) hn ht =>
    obtain ⟨t, us, rfl, hk, -, hus⟩ := hts.cons
    obtain ⟨vs, ws, rfl, hvs, hws⟩ := hus.append
    simp only [Filter.depthOf, Statement.depth] at hd
    obtain ⟨i₁, h₁⟩ := hn.run hvs gs row (some j) (by omega)
    obtain ⟨i₂, h₂⟩ := ht.run hws gs (⟨some j, n⟩ :: row) i₁ (by omega)
    refine ⟨i₂, ?_⟩
    rw [(Step.joined hk).run_cons, run_append_of_ok h₁, h₂]
    simp

end

end Grammar

/-! ## What is read in full -/

/-- What is read in full derives its filter, which is within the limit. -/
theorem Filter.isFilter_of_ofTokens {limit length : Nat} {ts : List Token} {f : Filter}
    (h : ofTokens limit length ts = .ok f) :
    IsFilter (ts.map (·.kind)) f ∧ f.depth ≤ limit := by
  obtain ⟨r, hr, hf⟩ := ofTokens_eq_ok_iff.mp h
  have hspelled := Reading.Spelled.start.run hr
  have hshallow := Reading.Shallow.run (by simp [Reading.Shallow, Reading.start, depthOf]) hr
  obtain ⟨gs, row, j, phase⟩ := r
  obtain ⟨rfl, rfl, rfl⟩ := Reading.finish_eq_ok_iff.mp hf
  constructor
  · rw [List.nil_append] at hspelled
    generalize ts.map (·.kind) = ks at hspelled
    cases hspelled with
    | within ho hb hc => cases hc
    | after ho hf =>
      cases ho
      exact hf
  · rw [depth, depthOf_reverse]
    exact hshallow

/-- A derived filter within the limit is read in full. -/
theorem Filter.ofTokens_of_isFilter {limit : Nat} {ts : List Token} {f : Filter}
    (h : IsFilter (ts.map (·.kind)) f) (hw : ∀ t ∈ ts, t.kind.Writable) (hd : f.depth ≤ limit)
    (length : Nat) : ofTokens limit length ts = .ok f := by
  have hts : Token.OfKinds (ts.map (·.kind)) ts := ⟨rfl, by simpa using hw⟩
  obtain ⟨i, hi⟩ := h.run hts [] (by simpa using hd)
  refine ofTokens_eq_ok_iff.mpr ⟨_, hi, ?_⟩
  rw [Reading.finish_eq_ok_iff, List.reverse_reverse]
  cases f
  exact ⟨rfl, rfl, rfl⟩

/-- **The tokens of a text are read as a filter exactly if they derive it and its groups are nested
within the limit**; and no row of kinds derives two filters. -/
theorem Filter.ofTokens_iff_derives {text : String} {ts : List Token} (h : tokenize text = .ok ts)
    (limit length : Nat) :
    (∀ f, ofTokens limit length ts = .ok f ↔ IsFilter (ts.map (·.kind)) f ∧ f.depth ≤ limit) ∧
      ∀ (ks : List Token.Kind) (f g : Filter), IsFilter ks f → IsFilter ks g → f = g := by
  refine ⟨fun f => ⟨isFilter_of_ofTokens, ?_⟩, fun ks f g hf hg => hf.unique hg⟩
  rintro ⟨hf, hd⟩
  exact ofTokens_of_isFilter hf (Token.writable_of_scan h) hd length

/-- One group: its row derives a filter, which is read with one level and not with none. -/
theorem Filter.ofTokens_iff_derives_group :
    ∃ ts f, tokenize "true eq true or (1 eq 2)" = .ok ts ∧ IsFilter (ts.map (·.kind)) f ∧
      f.depth = 1 ∧ ofTokens 1 24 ts = .ok f ∧ ofTokens 0 24 ts ≠ .ok f := by
  let clause (v w : Scalar) : Clause := ⟨.literal v, .eq, .operand (.literal w), rfl⟩
  let f : Filter := ⟨[⟨none, .clause (clause (.bool true) (.bool true))⟩,
    ⟨some .or, .group ⟨[⟨none, .clause (clause (.int 1) (.int 2))⟩]⟩⟩]⟩
  have ht : tokenize "true eq true or (1 eq 2)" = .ok
      [⟨.boolean true, "true", 0⟩, ⟨.operator .eq, "eq", 5⟩, ⟨.boolean true, "true", 8⟩,
        ⟨.joiner .or, "or", 13⟩, ⟨.groupOpen, "(", 16⟩, ⟨.number (.int 1), "1", 17⟩,
        ⟨.operator .eq, "eq", 19⟩, ⟨.number (.int 2), "2", 22⟩, ⟨.groupClose, ")", 23⟩] := by
    decide +kernel
  have hread := (ofTokens_iff_derives ht 1 24).1 f
  have hshallow := (ofTokens_iff_derives ht 0 24).1 f
  refine ⟨_, f, ht, (hread.mp rfl).1, rfl, rfl, fun h => ?_⟩
  exact absurd (hshallow.mp h).2 (by decide)

end RecordFilter
