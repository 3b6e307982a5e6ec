import Mathlib
import RecordFilter.Expression.Token
import RecordFilter.Filter.Basic

/-!
# Derivation — the grammar of filter text over kinds of tokens

    filter := term (joiner term)*
    term   := '(' filter ')' | clause
    clause := operand operator object

The object is of the operator's shape: an operand, a list or a field, two bounds, or a pattern.

* `Grammar.IsFilter`: a row of kinds derives a filter.
* `Grammar.IsTail.append_term`: a derived row can be continued by one more term.
* `Grammar.IsFilter.unique`: no row of kinds derives two filters.
-/

namespace RecordFilter.Grammar

/-- A kind of token that is a literal. -/
inductive IsLiteral : Token.Kind → Scalar → Prop
  | string (s : String) : IsLiteral (.string s) (.string s)
  | number (v : Scalar) : IsLiteral (.number v) v
  | boolean (b : Bool) : IsLiteral (.boolean b) (.bool b)

/-- `operand := field | literal` -/
inductive IsOperand : Token.Kind → Operand → Prop
  | field (p : FieldPath) : IsOperand (.field p) (.field p)
  | literal {k : Token.Kind} {v : Scalar} (h : IsLiteral k v) : IsOperand k (.literal v)

/-- `literals := literal (',' literal)*` -/
inductive IsLiterals : List Token.Kind → List Scalar → Prop
  | one {k : Token.Kind} {v : Scalar} (h : IsLiteral k v) : IsLiterals [k] [v]
  | more {k : Token.Kind} {v : Scalar} {ks : List Token.Kind} {vs : List Scalar}
      (h : IsLiteral k v) (hs : IsLiterals ks vs) : IsLiterals (k :: .comma :: ks) (v :: vs)

/-- The objects of each shape. The bounds of a range are both strings or both numbers. -/
inductive IsObject : Shape → List Token.Kind → Object → Prop
  | operand {k : Token.Kind} {o : Operand} (h : IsOperand k o) :
      IsObject .compare [k] (.operand o)
  | noLiterals : IsObject .array [.arrayOpen, .arrayClose] (.array (.literals []))
  | literals {ks : List Token.Kind} {vs : List Scalar} (h : IsLiterals ks vs) :
      IsObject .array (.arrayOpen :: (ks ++ [.arrayClose])) (.array (.literals vs))
  | field (p : FieldPath) : IsObject .array [.field p] (.array (.field p))
  | range {k l : Token.Kind} {r : Range} (hl : IsLiteral k r.lower) (hu : IsLiteral l r.upper) :
      IsObject .range [k, .comma, l] (.range r)
  | pattern (s : String) : IsObject .search [.string s] (.like ⟨s⟩)

/-- `clause := operand operator object` -/
inductive IsClause : List Token.Kind → Clause → Prop
  | mk {k : Token.Kind} {ks : List Token.Kind} {c : Clause} (hs : IsOperand k c.subject)
      (ho : IsObject c.operator.shape ks c.object) : IsClause (k :: .operator c.operator :: ks) c

mutual

/-- `term := '(' filter ')' | clause` -/
inductive IsTerm : List Token.Kind → Node → Prop
  | clause {ks : List Token.Kind} {c : Clause} (h : IsClause ks c) : IsTerm ks (.clause c)
  | group {ks : List Token.Kind} {f : Filter} (h : IsFilter ks f) :
      IsTerm (.groupOpen :: (ks ++ [.groupClose])) (.group f)

/-- `filter := term (joiner term)*` -/
inductive IsFilter : List Token.Kind → Filter → Prop
  | mk {ks ls : List Token.Kind} {n : Node} {rest : List Statement} (h : IsTerm ks n)
      (ht : IsTail ls rest) : IsFilter (ks ++ ls) ⟨⟨none, n⟩ :: rest⟩

/-- `(joiner term)*` -/
inductive IsTail : List Token.Kind → List Statement → Prop
  | nil : IsTail [] []
  | cons {j : Joiner} {ks ls : List Token.Kind} {n : Node} {rest : List Statement}
      (h : IsTerm ks n) (ht : IsTail ls rest) :
      IsTail (.joiner j :: (ks ++ ls)) (⟨some j, n⟩ :: rest)

end

/-! ## One more literal, one more term -/

theorem IsLiterals.append_literal {ks : List Token.Kind} {vs : List Scalar} {k : Token.Kind}
    {v : Scalar} (hs : IsLiterals ks vs) (h : IsLiteral k v) :
    IsLiterals (ks ++ [.comma, k]) (vs ++ [v]) := by
  induction hs with
  | one h' => exact .more h' (.one h)
  | more h' hs ih => exact .more h' ih

theorem IsTail.append {ls ms : List Token.Kind} {row rest : List Statement} (h : IsTail ls row)
    (ht : IsTail ms rest) : IsTail (ls ++ ms) (row ++ rest) :=
  match h with
  | .nil => ht
  | .cons h' ht' => by simpa using IsTail.cons h' (ht'.append ht)

theorem IsTail.append_term {ls : List Token.Kind} {rest : List Statement} {j : Joiner}
    {ks : List Token.Kind} {n : Node} (ht : IsTail ls rest) (h : IsTerm ks n) :
    IsTail (ls ++ .joiner j :: ks) (rest ++ [⟨some j, n⟩]) := by
  simpa using ht.append (.cons h .nil)

/-- A derived filter can be continued by a joiner and a term. -/
theorem IsFilter.append_term {ls : List Token.Kind} {row : List Statement} {j : Joiner}
    {ks : List Token.Kind} {n : Node} (hf : IsFilter ls ⟨row⟩) (h : IsTerm ks n) :
    IsFilter (ls ++ .joiner j :: ks) ⟨row ++ [⟨some j, n⟩]⟩ := by
  cases hf with
  | mk h' ht => simpa using IsFilter.mk h' (ht.append_term h)

theorem IsTerm.filter {ks : List Token.Kind} {n : Node} (h : IsTerm ks n) :
    IsFilter ks ⟨[⟨none, n⟩]⟩ := by
  simpa using IsFilter.mk h .nil

/-! ## Parts of a clause -/

theorem IsLiteral.unique {k : Token.Kind} {v w : Scalar} (h : IsLiteral k v) (h' : IsLiteral k w) :
    v = w := by
  cases h <;> cases h' <;> rfl

theorem IsOperand.unique {k : Token.Kind} {o p : Operand} (h : IsOperand k o) (h' : IsOperand k p) :
    o = p := by
  cases h with
  | field path =>
    cases h' with
    | field => rfl
    | literal hl => cases hl
  | literal hl =>
    cases h' with
    | field => cases hl
    | literal hl' => rw [hl.unique hl']

/-- What precedes the closing bracket fixes the literals. -/
theorem IsLiterals.unique {ks ls rest rest' : List Token.Kind} {vs ws : List Scalar}
    (h : IsLiterals ks vs) (h' : IsLiterals ls ws)
    (he : ks ++ .arrayClose :: rest = ls ++ .arrayClose :: rest') : ks = ls ∧ vs = ws := by
  induction h generalizing ls ws with
  | one hk =>
    cases h' with
    | one hl =>
      obtain ⟨rfl, -⟩ := List.cons_eq_cons.mp he
      exact ⟨rfl, by rw [hk.unique hl]⟩
    | more hl hs => simp at he
  | more hk hs ih =>
    cases h' with
    | one hl => simp at he
    | more hl hs' =>
      simp only [List.cons_append, List.cons.injEq, true_and] at he
      obtain ⟨rfl, he⟩ := he
      obtain ⟨rfl, rfl⟩ := ih hs' he
      exact ⟨rfl, by rw [hk.unique hl]⟩

theorem IsObject.unique {shape : Shape} {ks ls rest rest' : List Token.Kind} {o p : Object}
    (h : IsObject shape ks o) (h' : IsObject shape ls p) (he : ks ++ rest = ls ++ rest') :
    ks = ls ∧ o = p := by
  cases h with
  | operand hk =>
    cases h' with
    | operand hl =>
      obtain ⟨rfl, -⟩ := List.cons_eq_cons.mp he
      exact ⟨rfl, by rw [hk.unique hl]⟩
  | noLiterals =>
    cases h' with
    | noLiterals => exact ⟨rfl, rfl⟩
    | literals hl =>
      cases hl with
      | one hk => cases hk <;> simp at he
      | more hk hs => cases hk <;> simp at he
    | field p => simp at he
  | literals hk =>
    cases h' with
    | noLiterals =>
      cases hk with
      | one hk => cases hk <;> simp at he
      | more hk hs => cases hk <;> simp at he
    | literals hl =>
      simp only [List.cons_append, List.append_assoc, List.nil_append, List.cons.injEq,
        true_and] at he
      obtain ⟨rfl, rfl⟩ := hk.unique hl he
      exact ⟨rfl, rfl⟩
    | field p => simp at he
  | field p =>
    cases h' with
    | noLiterals => simp at he
    | literals hl => simp at he
    | field q =>
      obtain ⟨hpq, -⟩ := List.cons_eq_cons.mp he
      cases hpq
      exact ⟨rfl, rfl⟩
  | @range k l r hl hu =>
    cases h' with
    | @range k' l' r' hl' hu' =>
      simp only [List.cons_append, List.nil_append, List.cons.injEq, true_and] at he
      obtain ⟨rfl, rfl, -⟩ := he
      obtain ⟨lower, upper, alike⟩ := r
      obtain ⟨lower', upper', alike'⟩ := r'
      obtain rfl : lower = lower' := hl.unique hl'
      obtain rfl : upper = upper' := hu.unique hu'
      exact ⟨rfl, rfl⟩
  | pattern s =>
    cases h' with
    | pattern t =>
      obtain ⟨hst, -⟩ := List.cons_eq_cons.mp he
      cases hst
      exact ⟨rfl, rfl⟩

/-- Where a clause ends does not depend on what follows it. -/
theorem IsClause.unique {ks ls rest rest' : List Token.Kind} {c d : Clause} (h : IsClause ks c)
    (h' : IsClause ls d) (he : ks ++ rest = ls ++ rest') : ks = ls ∧ c = d := by
  cases h with
  | mk hs ho =>
    cases h' with
    | mk hs' ho' =>
      obtain ⟨subject, operator, object, fits⟩ := c
      obtain ⟨subject', operator', object', fits'⟩ := d
      simp only [List.cons_append, List.cons.injEq, Token.Kind.operator.injEq] at he
      obtain ⟨rfl, rfl, he⟩ := he
      obtain rfl : subject = subject' := hs.unique hs'
      obtain ⟨rfl, rfl⟩ := ho.unique ho' he
      exact ⟨rfl, rfl⟩

/-! ## Terms and filters -/

/-- The row does not begin with a joiner. -/
def NoJoiner (ks : List Token.Kind) : Prop := ∀ j, ks.head? ≠ some (.joiner j)

theorem IsOperand.ne_groupOpen {k : Token.Kind} {o : Operand} (h : IsOperand k o) :
    k ≠ .groupOpen := by
  rintro rfl
  cases h with
  | literal hl => cases hl

theorem IsOperand.ne_groupClose {k : Token.Kind} {o : Operand} (h : IsOperand k o) :
    k ≠ .groupClose := by
  rintro rfl
  cases h with
  | literal hl => cases hl

theorem IsClause.ne_group {ks ls rest rest' : List Token.Kind} {c : Clause} (h : IsClause ks c) :
    ks ++ rest ≠ .groupOpen :: (ls ++ rest') := by
  intro he
  cases h with
  | mk hs ho =>
    obtain ⟨hk, -⟩ := List.cons_eq_cons.mp he
    exact hs.ne_groupOpen hk

mutual

theorem IsTerm.unique {ks ls rest rest' : List Token.Kind} {n m : Node} (h : IsTerm ks n)
    (h' : IsTerm ls m) (he : ks ++ rest = ls ++ rest') : ks = ls ∧ n = m :=
  match h, h' with
  | .clause hc, .clause hd => by
    obtain ⟨rfl, rfl⟩ := hc.unique hd he
    exact ⟨rfl, rfl⟩
  | .clause hc, .group hg => (hc.ne_group (by simpa using he)).elim
  | .group hf, .clause hd => (hd.ne_group (by simpa using he.symm)).elim
  | .group hf, .group hg => by
    simp only [List.cons_append, List.append_assoc, List.nil_append, List.cons.injEq,
      true_and] at he
    obtain ⟨rfl, rfl⟩ := hf.unique_append hg he (by simp [NoJoiner]) (by simp [NoJoiner])
    exact ⟨rfl, rfl⟩

theorem IsFilter.unique_append {ks ls rest rest' : List Token.Kind} {f g : Filter}
    (h : IsFilter ks f) (h' : IsFilter ls g) (he : ks ++ rest = ls ++ rest')
    (hr : NoJoiner rest) (hr' : NoJoiner rest') : ks = ls ∧ f = g :=
  match h, h' with
  | .mk hn ht, .mk hm hu => by
    rw [List.append_assoc, List.append_assoc] at he
    obtain ⟨rfl, rfl⟩ := hn.unique hm he
    obtain ⟨rfl, rfl⟩ := ht.unique hu (List.append_cancel_left he) hr hr'
    exact ⟨rfl, rfl⟩

theorem IsTail.unique {ks ls rest rest' : List Token.Kind} {row row' : List Statement}
    (h : IsTail ks row) (h' : IsTail ls row') (he : ks ++ rest = ls ++ rest')
    (hr : NoJoiner rest) (hr' : NoJoiner rest') : ks = ls ∧ row = row' :=
  match h, h' with
  | .nil, .nil => ⟨rfl, rfl⟩
  | .nil, .cons (j := j) hm hu => absurd (by rw [← List.nil_append rest, he]; rfl) (hr j)
  | .cons (j := j) hn ht, .nil => absurd (by rw [← List.nil_append rest', ← he]; rfl) (hr' j)
  | .cons hn ht, .cons hm hu => by
    simp only [List.cons_append, List.append_assoc, List.cons.injEq, Token.Kind.joiner.injEq] at he
    obtain ⟨rfl, he⟩ := he
    obtain ⟨rfl, rfl⟩ := hn.unique hm he
    obtain ⟨rfl, rfl⟩ := ht.unique hu (List.append_cancel_left he) hr hr'
    exact ⟨rfl, rfl⟩

end

/-- **No row of kinds derives two filters.** -/
theorem IsFilter.unique {ks : List Token.Kind} {f g : Filter} (h : IsFilter ks f)
    (h' : IsFilter ks g) : f = g := by
  have he : ks ++ [] = ks ++ [] := rfl
  exact (h.unique_append h' he (by simp [NoJoiner]) (by simp [NoJoiner])).2

end RecordFilter.Grammar
