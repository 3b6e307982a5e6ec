import Mathlib
import RecordFilter.Proofs.Expression.Cutting
import RecordFilter.Proofs.Filter.RoundTrip

/-!
# Composition — texts put together

A text that is read as a filter may be set before a blank or a closing parenthesis: its last token ends
where it ended before, as each of the two may follow any token. So what a caller writes around such texts
is read as what it looks like, and a text cannot leave the parentheses that it was put into.

* `CutInto.readsAs`: the tokens of a text stay the same in front of a blank or a closing parenthesis.
* `Grammar.IsFilter.joined`: two derived filters with a joiner between them.
* `Filter.parse_composed`: texts joined, in parentheses, and joined in parentheses.
-/

namespace RecordFilter

open Text Grammar

/-! ## Tokens in front of more text -/

theorem Token.Kind.mayPrecede_of_endsTerm {rest : List Char} (h : EndsTerm rest) (k : Token.Kind) :
    k.MayPrecede rest := by
  cases k with
  | field p => exact h.breaksPath
  | string s | number v => exact h.endsLiteral
  | operator o | joiner j | boolean b => exact h.not_isWordChar
  | _ => trivial

/-- Only the first character after a token matters to it. -/
theorem Token.Kind.MayPrecede.append {k : Token.Kind} {rest more : List Char}
    (h : k.MayPrecede rest) (hm : EndsTerm more) : k.MayPrecede (rest ++ more) := by
  cases rest with
  | nil => exact mayPrecede_of_endsTerm hm k
  | cons c rest => cases k <;> exact h

/-- **A text keeps its tokens in front of a blank or a closing parenthesis**, wherever it stands. -/
theorem CutInto.readsAs {position : Nat} {s : List Char} {ts : List Token}
    (h : CutInto position s ts) : ReadsAs s (ts.map (·.kind)) := by
  intro rest ls hr hs
  induction h with
  | nil => exact hs
  | space hc h ih => exact ih.of_isSpace hc
  | token ht hm h ih =>
    rw [List.append_assoc]
    exact (ht.cutsOff (hm.append hr)).spells ih

theorem ReadsAs.append {cs ds : List Char} {ks ls : List Token.Kind} (h : ReadsAs cs ks)
    (ht : ReadsAs ds ls) (hd : ∀ rest, EndsTerm rest → EndsTerm (ds ++ rest)) :
    ReadsAs (cs ++ ds) (ks ++ ls) := by
  intro rest ms hr hs
  rw [List.append_assoc, List.append_assoc]
  exact h _ _ (hd rest hr) (ht rest ms hr hs)

/-- A text, a joiner with blanks around it, and a text. -/
theorem ReadsAs.append_joined {j : Joiner} {cs ds : List Char} {ks ls : List Token.Kind}
    (h : ReadsAs cs ks) (ht : ReadsAs ds ls) :
    ReadsAs (cs ++ (joinerChars (some j) ++ ds)) (ks ++ .joiner j :: ls) := by
  have hnil : ReadsAs [] [] := fun rest ls _ hs => hs
  have hjoined : ReadsAs (joinerChars (some j) ++ ds) (.joiner j :: ls) := by
    simpa using ht.joined (j := j) hnil fun rest hr => hr
  exact h.append hjoined fun rest _ => EndsTerm.space _

theorem Filter.exists_readsAs_of_parse {limit : Nat} {text : String} {f : Filter}
    (h : Filter.parse limit text = .ok f) :
    ∃ ks, IsFilter ks f ∧ ReadsAs text.toList ks ∧ f.depth ≤ limit := by
  obtain ⟨ts, ht, hf⟩ := exists_tokens_of_parse h
  obtain ⟨hks, hd⟩ := isFilter_of_ofTokens hf
  exact ⟨_, hks, (tokenize_eq_ok_iff.mp ht).readsAs, hd⟩

/-! ## Filters joined -/

/-- The statements of both filters, the second row joined to the first. -/
def Filter.joined (f : Filter) (j : Joiner) (g : Filter) : Filter :=
  ⟨f.statements ++ g.statements.modifyHead fun s => ⟨some j, s.node⟩⟩

/-- Two derived filters with a joiner between them derive their statements in one row. -/
theorem Grammar.IsFilter.joined {j : Joiner} {ks ls : List Token.Kind} {f g : Filter}
    (hf : IsFilter ks f) (hg : IsFilter ls g) : IsFilter (ks ++ .joiner j :: ls) (f.joined j g) := by
  cases hf with
  | mk hn ht =>
    cases hg with
    | mk hm hu => simpa [Filter.joined] using IsFilter.mk hn (ht.append (.cons hm hu))

theorem Grammar.IsFilter.push {j : Joiner} {ks ls : List Token.Kind} {f : Filter} {n : Node}
    (hf : IsFilter ls f) (h : IsTerm ks n) : IsFilter (ls ++ .joiner j :: ks) (f.push j n) := by
  cases f
  exact hf.append_term h

theorem Statement.depth_mk (joiner : Option Joiner) (s : Statement) :
    Statement.depth ⟨joiner, s.node⟩ = s.depth := by
  cases s; rfl

theorem Filter.depth_joined {j : Joiner} (f g : Filter) :
    (f.joined j g).depth = max f.depth g.depth := by
  obtain ⟨row⟩ := f
  obtain ⟨row'⟩ := g
  rw [joined, depth, depth, depth, depthOf_append]
  cases row' with
  | nil => rfl
  | cons s row' => simp [depthOf, Statement.depth_mk]

theorem Filter.depth_ofNode (n : Node) : (ofNode n).depth = n.depth := by
  simp [ofNode, depth, depthOf, Statement.depth]

theorem Filter.depth_push {j : Joiner} {n : Node} (f : Filter) :
    (f.push j n).depth = max f.depth n.depth := by
  obtain ⟨row⟩ := f
  simp [push, depth, depthOf_append, depthOf, Statement.depth]

/-! ## Composed texts -/

namespace Filter

variable {limit : Nat} {a b : String} {f g : Filter}

theorem parse_joined (ha : Filter.parse limit a = .ok f) (hb : Filter.parse limit b = .ok g)
    (j : Joiner) {text : String} (htext : text.toList = a.toList ++ (joinerChars (some j) ++ b.toList)) :
    Filter.parse limit text = .ok (f.joined j g) := by
  obtain ⟨ks, hks, hreads, hd⟩ := exists_readsAs_of_parse ha
  obtain ⟨ls, hls, hreads', hd'⟩ := exists_readsAs_of_parse hb
  refine parse_of_readsAs (hks.joined hls) ?_ ?_
  · rw [htext]
    exact hreads.append_joined hreads'
  · rw [depth_joined]
    exact Nat.max_le.mpr ⟨hd, hd'⟩

theorem parse_inParentheses (ha : Filter.parse limit a = .ok f) {text : String}
    (htext : text.toList = '(' :: a.toList ++ [')']) :
    Filter.parse (limit + 1) text = .ok (ofGroup f) := by
  obtain ⟨ks, hks, hreads, hd⟩ := exists_readsAs_of_parse ha
  refine parse_of_readsAs (f := ofGroup f) (IsTerm.group hks).filter ?_ ?_
  · rw [htext]
    exact hreads.group
  · rw [ofGroup, depth_ofNode, Node.depth]
    omega

theorem parse_joinedInParentheses (ha : Filter.parse limit a = .ok f)
    (hb : Filter.parse limit b = .ok g) (j : Joiner) {text : String}
    (htext : text.toList = a.toList ++ (joinerChars (some j) ++ ('(' :: b.toList ++ [')']))) :
    Filter.parse (limit + 1) text = .ok (f.push j (.group g)) := by
  obtain ⟨ks, hks, hreads, hd⟩ := exists_readsAs_of_parse ha
  obtain ⟨ls, hls, hreads', hd'⟩ := exists_readsAs_of_parse hb
  refine parse_of_readsAs (hks.push (.group hls)) ?_ ?_
  · rw [htext]
    exact hreads.append_joined hreads'.group
  · rw [depth_push, Node.depth]
    omega

/-- **Texts that are read as filters are composed like the filters.** A joiner between two of them puts the
second row of statements after the first, parentheses make a group, and a joiner before parentheses adds
the group to the row. -/
theorem parse_composed (ha : Filter.parse limit a = .ok f) (hb : Filter.parse limit b = .ok g) :
    Filter.parse limit (a ++ " and " ++ b) = .ok (f.joined .and g) ∧
    Filter.parse limit (a ++ " or " ++ b) = .ok (f.joined .or g) ∧
    Filter.parse (limit + 1) ("(" ++ a ++ ")") = .ok (ofGroup f) ∧
    Filter.parse (limit + 1) (a ++ " and (" ++ b ++ ")") = .ok (f.andGroup g) ∧
    Filter.parse (limit + 1) (a ++ " or (" ++ b ++ ")") = .ok (f.orGroup g) := by
  refine ⟨parse_joined ha hb .and ?_, parse_joined ha hb .or ?_, parse_inParentheses ha ?_,
    parse_joinedInParentheses ha hb .and ?_, parse_joinedInParentheses ha hb .or ?_⟩
  all_goals simp [joinerChars, Joiner.keyword]

/-- The first text ends in a string whose last quotes are content, the second one in a path that quotes
and brackets belong to and in separators. -/
theorem parse_composed_quotes :
    ∃ f g : Filter, Filter.parse 0 "/a eq \"x\"\"" = .ok f ∧ Filter.parse 0 "\t1 in /b\"],\n" = .ok g ∧
      Filter.parse 0 "/a eq \"x\"\" and \t1 in /b\"],\n" = .ok (f.joined .and g) ∧
      Filter.parse 1 "(/a eq \"x\"\")" = .ok (ofGroup f) ∧
      Filter.parse 1 "/a eq \"x\"\" or (\t1 in /b\"],\n)" = .ok (f.orGroup g) := by
  cases hf : Filter.parse 0 "/a eq \"x\"\"" with
  | error e =>
    have hok : (Filter.parse 0 "/a eq \"x\"\"").toOption.isSome = true := by decide +kernel
    rw [hf] at hok
    cases hok
  | ok f =>
    cases hg : Filter.parse 0 "\t1 in /b\"],\n" with
    | error e =>
      have hok : (Filter.parse 0 "\t1 in /b\"],\n").toOption.isSome = true := by decide +kernel
      rw [hg] at hok
      cases hok
    | ok g =>
      obtain ⟨hand, -, hgroup, -, horGroup⟩ := parse_composed hf hg
      exact ⟨f, g, rfl, rfl, hand, hgroup, horGroup⟩

end Filter

end RecordFilter
