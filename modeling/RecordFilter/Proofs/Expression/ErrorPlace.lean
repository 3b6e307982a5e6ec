import Mathlib
import RecordFilter.Proofs.Expression.Cutting
import RecordFilter.Proofs.Expression.ViablePrefix

/-!
# Error places — an error points at the characters that it is about

Cutting a text up fails at a character of the text, reading its tokens at one of the tokens or at the end. So
the place of an error is a place in the text, and what stands there is what the error names.

* `ParseError.PointsInto`: what stands at the place of an error.
* `Lexeme.pointsInto_of_next`, `Token.pointsInto_of_scan`: where cutting up fails.
* `Reading.Step.groups`, `Reading.groups_of_run`: an open group has been opened by a token.
* `Filter.place_of_ofTokens`: where reading tokens fails.
* `Filter.parse_error_pointsInto`: every error but that of an empty text.
-/

namespace RecordFilter

open Grammar Number Text

/-- At the place of the error stands what the error is about. -/
def ParseError.PointsInto (text : String) : ParseError → Prop
  | unexpectedCharacter found position => text.toList[position]? = some found
  | unterminatedString position => text.toList[position]? = some '"'
  | invalidNumber word position | unknownKeyword word position | unexpectedToken word _ position =>
    word ≠ "" ∧ word.toList <+: text.toList.drop position
  | invalidPointer _ position =>
    text.toList[position]? = some '~' ∧ text.toList[position + 1]? ≠ some '0' ∧
      text.toList[position + 1]? ≠ some '1'
  | unmatchedGroupClose position => text.toList[position]? = some ')'
  | unclosedGroup position | nestingTooDeep _ position => text.toList[position]? = some '('
  | unexpectedEnd _ position => position = text.length
  | invalidRange _ position =>
    ∃ ts, tokenize text = .ok ts ∧ ∃ t ∈ ts, t.position = position ∧ ∃ v, IsLiteral t.kind v
  | emptyInput | invalidEncoding _ => False

/-! ## Places -/

theorem getElem?_add_of_drop {s rest : List Char} {n : Nat} (h : s.drop n = rest) (i : Nat) :
    s[n + i]? = rest[i]? := by
  rw [← h, List.getElem?_drop]

theorem getElem?_of_drop {s rest : List Char} {n : Nat} {c : Char} (h : s.drop n = c :: rest) :
    s[n]? = some c := by
  have hat := getElem?_add_of_drop h 0
  simpa using hat

/-- The text of a token stands where the token says. -/
theorem Token.prefix_of_mem {text : String} {ts : List Token} (ht : tokenize text = .ok ts) {t : Token}
    (hmem : t ∈ ts) :
    t.text.toList <+: text.toList.drop t.position ∧ t.kind.IsText t.text.toList := by
  obtain ⟨before, after, htext, hposition, hkind, -⟩ := (tokenize_eq_ok_iff.mp ht).stands t hmem
  refine ⟨?_, hkind⟩
  rw [htext, hposition, Nat.zero_add, List.drop_left]
  exact List.prefix_append _ _

theorem lt_length_of_getElem? {text : String} {n : Nat} {c : Char} (h : text.toList[n]? = some c) :
    n < text.length := by
  rw [← String.length_toList]
  exact (List.getElem?_eq_some_iff.mp h).1

theorem lt_length_of_prefix {text : String} {n : Nat} {word : List Char} (hne : word ≠ [])
    (h : word <+: text.toList.drop n) : n < text.length := by
  have hdrop : text.toList.drop n ≠ [] := by
    intro hnil
    rw [hnil, List.prefix_nil] at h
    exact hne h
  rw [← String.length_toList]
  simpa using hdrop

/-- Something stands at every place but that of a missing end. -/
theorem ParseError.PointsInto.position_lt {text : String} {e : ParseError} (h : e.PointsInto text)
    (hend : ∀ expected position, e ≠ .unexpectedEnd expected position) : e.position < text.length := by
  cases e with
  | emptyInput | invalidEncoding => exact h.elim
  | unexpectedEnd expected position => exact absurd rfl (hend expected position)
  | unexpectedCharacter | unterminatedString | unmatchedGroupClose | unclosedGroup | nestingTooDeep =>
    exact lt_length_of_getElem? h
  | invalidNumber | unknownKeyword | unexpectedToken =>
    obtain ⟨hne, hstands⟩ := h
    exact lt_length_of_prefix (by simpa using hne) hstands
  | invalidPointer => exact lt_length_of_getElem? h.1
  | invalidRange fault position =>
    obtain ⟨ts, ht, t, hmem, rfl, -⟩ := h
    obtain ⟨hstands, hkind⟩ := Token.prefix_of_mem ht hmem
    exact lt_length_of_prefix hkind.ne_nil hstands

/-! ## Cutting up -/

/-- A character that ends no path and stands no further than right behind a path belongs to the path. -/
theorem getElem?_of_unbroken {path after : List Char} {i : Nat} {c : Char}
    (hafter : ∀ d ∈ after.head?, breaksPath d = true) (hi : i ≤ path.length)
    (hc : (path ++ after)[i]? = some c) (hunbroken : breaksPath c = false) : path[i]? = some c := by
  rcases Nat.lt_or_eq_of_le hi with hlt | rfl
  · rwa [List.getElem?_append_left hlt] at hc
  · rw [List.getElem?_append_right (le_refl _), Nat.sub_self, ← List.head?_eq_getElem?] at hc
    rw [hafter c hc] at hunbroken
    cases hunbroken

namespace Lexeme

variable {text : String} {position : Nat} {c : Char} {rest : List Char} {e : ParseError}

theorem pointsInto_of_string (hs : text.toList.drop position = '"' :: rest)
    (h : string position rest = .error e) : e.PointsInto text := by
  unfold string at h
  split at h
  · cases h
  · cases h
    exact getElem?_of_drop hs

theorem pointsInto_of_field (hs : text.toList.drop position = '/' :: rest)
    (h : field position ('/' :: rest) = .error e) : e.PointsInto text := by
  let unbroken : Char → Bool := fun c => !breaksPath c
  have hspan : ('/' :: rest).takeWhile unbroken = '/' :: rest.takeWhile unbroken :=
    List.takeWhile_cons_of_pos (by decide)
  have hafter : ∀ d ∈ (('/' :: rest).dropWhile unbroken).head?, breaksPath d = true := by
    intro d hd
    simpa [unbroken] using not_of_head?_dropWhile d hd
  rw [← List.takeWhile_append_dropWhile (p := unbroken) (l := '/' :: rest)] at hs
  unfold field at h
  dsimp only at h
  split at h
  · cases h
  · next offset fault hparse =>
    cases h
    -- what is cut off begins with a slash and no character in it ends a path, so the fault is a tilde
    rcases (FieldPath.faultyAt_of_parse hparse).1 with ⟨-, hslash⟩ | ⟨d, hd, hbreaks⟩ | ⟨htilde, h0, h1⟩
    · exact absurd (by rw [hspan]; rfl) hslash
    · have hd := List.mem_takeWhile_imp (List.mem_of_getElem? hd)
      rw [hbreaks] at hd
      cases hd
    · have hlt : offset < (('/' :: rest).takeWhile unbroken).length :=
        (List.getElem?_eq_some_iff.mp htilde).1
      have hnext : ∀ c, breaksPath c = false → text.toList[position + offset + 1]? = some c →
          (('/' :: rest).takeWhile unbroken)[offset + 1]? = some c := by
        intro c hc hat
        rw [Nat.add_assoc, getElem?_add_of_drop hs] at hat
        exact getElem?_of_unbroken hafter hlt hat hc
      refine ⟨?_, fun hat => h0 (hnext '0' (by decide) hat), fun hat => h1 (hnext '1' (by decide) hat)⟩
      rw [getElem?_add_of_drop hs, List.getElem?_append_left hlt]
      exact htilde

theorem pointsInto_of_number (hc : c = '-' ∨ c.isDigit = true)
    (hs : text.toList.drop position = c :: rest) (h : number position (c :: rest) = .error e) :
    e.PointsInto text := by
  unfold number at h
  split at h
  · next hnone =>
    cases h
    -- a digit would begin a numeral
    rcases hc with rfl | hc
    · exact getElem?_of_drop hs
    · exact absurd hnone (Numeral.split?_ne_none hc rest)
  · next numeral after hsplit =>
    obtain ⟨hwell, hchars⟩ := Numeral.of_split? hsplit
    rw [← hchars] at hs
    dsimp only at h
    split at h
    · next found hfound =>
      cases h
      have hhead : after.head? = some found := by
        split at hfound
        · cases hfound
        · exact hfound
      show text.toList[position + numeral.chars.length]? = some found
      rw [getElem?_add_of_drop hs, List.getElem?_append_right (le_refl _), Nat.sub_self,
        ← List.head?_eq_getElem?, hhead]
    · split at h
      · cases h
      · cases h
        refine ⟨?_, ?_⟩
        · simpa using Numeral.chars_ne_nil hwell
        · rw [String.toList_ofList, hs]
          exact List.prefix_append _ _

theorem pointsInto_of_word (hc : c.isAlpha = true) (hs : text.toList.drop position = c :: rest)
    (h : word position (c :: rest) = .error e) : e.PointsInto text := by
  have hword : isWordChar c = true := by simp [isWordChar, Char.isAlphanum, hc]
  unfold word at h
  dsimp only at h
  split at h <;> cases h
  refine ⟨?_, ?_⟩
  · rw [List.takeWhile_cons_of_pos hword]
    simp
  · rw [String.toList_ofList, hs]
    exact List.takeWhile_prefix _

theorem pointsInto_of_next (hs : text.toList.drop position = c :: rest)
    (h : next position c rest = .error e) : e.PointsInto text := by
  unfold next at h
  split at h
  case h_6 => exact pointsInto_of_string hs h
  case h_7 => exact pointsInto_of_field hs h
  case h_8 =>
    split at h
    · next hc => exact pointsInto_of_number (by simpa using hc) hs h
    · split at h
      · next hc => exact pointsInto_of_word hc hs h
      · cases h
        exact getElem?_of_drop hs
  all_goals cases h

end Lexeme

/-- **Cutting a text up fails at one of its characters.** -/
theorem Token.pointsInto_of_scan {text : String} {position : Nat} {s : List Char} {e : ParseError}
    (hs : text.toList.drop position = s) (h : scan position s = .error e) : e.PointsInto text := by
  fun_induction scan position s generalizing e with
  | case1 => cases h
  | case2 position c rest hspace ih =>
    refine ih ?_ h
    rw [← List.drop_drop, hs]
    rfl
  | case3 position c rest hspace e' hnext =>
    cases h
    exact Lexeme.pointsInto_of_next hs hnext
  | case4 position c rest hspace lexeme hnext e' hscan ih =>
    cases h
    refine ih ?_ hscan
    rw [← List.drop_drop, hs]
    rfl
  | case5 => cases h

/-! ## Reading -/

namespace Reading

variable {limit : Nat} {r r' : Reading} {t : Token} {ts : List Token}

/-- A token opens no group but the one that it begins. -/
theorem Step.groups (h : Step limit r t r') :
    ∀ g ∈ r'.groups, g ∈ r.groups ∨ t.kind = .groupOpen ∧ g.position = t.position := by
  intro g hg
  cases h with
  | opened hk hl =>
    rcases List.mem_cons.mp hg with rfl | hg
    · exact .inr ⟨hk, rfl⟩
    · exact .inl hg
  | closed hk => exact .inl (List.mem_cons_of_mem _ hg)
  | _ => exact .inl hg

/-- A group that is open has been opened by one of the tokens. -/
theorem groups_of_run (h : r.run limit ts = .ok r') :
    ∀ g ∈ r'.groups, g ∈ r.groups ∨ ∃ t ∈ ts, t.kind = .groupOpen ∧ g.position = t.position := by
  induction ts generalizing r with
  | nil =>
    cases h
    exact fun g hg => .inl hg
  | cons t ts ih =>
    obtain ⟨q, hq, h⟩ := run_cons_ok h
    intro g hg
    rcases ih h g hg with hg | ⟨u, hu, hkind⟩
    · rcases hq.groups g hg with hg | hopened
      · exact .inl hg
      · exact .inr ⟨t, List.mem_cons_self, hopened⟩
    · exact .inr ⟨u, List.mem_cons_of_mem t hu, hkind⟩

end Reading

namespace Token

variable {text : String} {ts : List Token} {t : Token}

/-- A token that has no text but one character stands where this character is. -/
theorem getElem?_of_mem (ht : tokenize text = .ok ts) (hmem : t ∈ ts) {c : Char}
    (hc : ∀ cs, t.kind.IsText cs → cs = [c]) : text.toList[t.position]? = some c := by
  obtain ⟨⟨after, hafter⟩, hkind⟩ := prefix_of_mem ht hmem
  rw [hc _ hkind] at hafter
  exact getElem?_of_drop hafter.symm

theorem getElem?_of_groupOpen (ht : tokenize text = .ok ts) (hmem : t ∈ ts) (hk : t.kind = .groupOpen) :
    text.toList[t.position]? = some '(' := by
  refine getElem?_of_mem ht hmem fun cs hcs => ?_
  rw [hk] at hcs
  cases hcs
  rfl

theorem getElem?_of_groupClose (ht : tokenize text = .ok ts) (hmem : t ∈ ts)
    (hk : t.kind = .groupClose) : text.toList[t.position]? = some ')' := by
  refine getElem?_of_mem ht hmem fun cs hcs => ?_
  rw [hk] at hcs
  cases hcs
  rfl

/-- The error that refuses a token points at it. -/
theorem Refused.pointsInto {e : ParseError} (h : t.Refused e) (ht : tokenize text = .ok ts)
    (hmem : t ∈ ts) : e.PointsInto text := by
  cases h with
  | unexpected expected =>
    obtain ⟨hstands, hkind⟩ := prefix_of_mem ht hmem
    exact ⟨fun hempty => hkind.ne_nil (by rw [hempty]; rfl), hstands⟩
  | unmatched hk => exact getElem?_of_groupClose ht hmem hk
  | tooDeep limit hk => exact getElem?_of_groupOpen ht hmem hk
  | range fault hv => exact ⟨ts, ht, t, hmem, rfl, _, hv⟩

end Token

namespace Filter

/-- An error is at the end, where more has to follow, at a token that it refuses, or at the parenthesis of a group
that is not closed. -/
theorem place_of_ofTokens {limit length : Nat} {ts : List Token} {e : ParseError}
    (h : ofTokens limit length ts = .error e) :
    (∃ expected, e = .unexpectedEnd expected length) ∨
      ∃ t ∈ ts, t.Refused e ∨ t.kind = .groupOpen ∧ e = .unclosedGroup t.position := by
  rcases ofTokens_error h with hrun | ⟨r, hrun, hfinish⟩
  · obtain ⟨k, hk, q, -, hstep⟩ := Reading.run_error hrun
    exact .inr ⟨ts[k], List.getElem_mem hk, .inl (Reading.refused_of_step hstep)⟩
  · rcases Reading.missing_of_finish hfinish with hend | ⟨g, hg, rfl⟩
    · exact .inl hend
    · rcases Reading.groups_of_run hrun g hg with hstart | ⟨t, hmem, hk, hposition⟩
      · cases hstart
      · exact .inr ⟨t, hmem, .inr ⟨hk, by rw [hposition]⟩⟩

theorem pointsInto_of_ofTokens {limit : Nat} {text : String} {ts : List Token} {e : ParseError}
    (ht : tokenize text = .ok ts) (h : ofTokens limit text.length ts = .error e) :
    e.PointsInto text := by
  rcases place_of_ofTokens h with ⟨expected, rfl⟩ | ⟨t, hmem, hrefused | ⟨hk, rfl⟩⟩
  · rfl
  · exact hrefused.pointsInto ht hmem
  · exact Token.getElem?_of_groupOpen ht hmem hk

theorem pointsInto_of_parse {limit : Nat} {text : String} {e : ParseError}
    (h : Filter.parse limit text = .error e) (hne : e ≠ .emptyInput) : e.PointsInto text := by
  unfold Filter.parse at h
  split at h
  · cases h
    exact absurd rfl hne
  · cases ht : tokenize text with
    | error e' =>
      rw [ht] at h
      cases h
      exact Token.pointsInto_of_scan rfl ht
    | ok ts =>
      rw [ht] at h
      exact pointsInto_of_ofTokens ht h

/-- **An error points into the text that it is about.** Unless the text is blank, the place of an error is a
place in the text, or its end if more has to follow and only then; and what stands there is what the error
names: the character, the token, the word or the numeral that it quotes, the parenthesis, the opening quote, the
tilde that begins no escape, or a literal that bounds no range. -/
theorem parse_error_pointsInto {limit : Nat} {text : String} {e : ParseError}
    (h : Filter.parse limit text = .error e) (hne : e ≠ .emptyInput) :
    e.position ≤ text.length ∧
    (e.position = text.length ↔ ∃ expected position, e = .unexpectedEnd expected position) ∧
    e.PointsInto text := by
  have hpoints := pointsInto_of_parse h hne
  by_cases hend : ∃ expected position, e = .unexpectedEnd expected position
  · obtain ⟨expected, position, rfl⟩ := hend
    obtain rfl : position = text.length := hpoints
    exact ⟨le_refl _, ⟨fun _ => ⟨_, _, rfl⟩, fun _ => rfl⟩, rfl⟩
  · have hlt := hpoints.position_lt fun expected position he => hend ⟨expected, position, he⟩
    exact ⟨hlt.le, ⟨fun heq => absurd heq hlt.ne, fun h => absurd h hend⟩, hpoints⟩

/-- A tilde behind characters of two and three bytes, a bound of another type behind them, and an end where an
object is missing. -/
theorem parse_error_pointsInto_wide :
    (Filter.parse 0 "/é eq \"€\" and (/ü~2 eq 1" = .error (.invalidPointer .badEscape 17) ∧
      17 ≤ "/é eq \"€\" and (/ü~2 eq 1".length ∧
      (ParseError.invalidPointer .badEscape 17).PointsInto "/é eq \"€\" and (/ü~2 eq 1") ∧
    (Filter.parse 0 "\"é\" between \"ü\", 1" =
        .error (.invalidRange (.mismatch (.rangeBounds "string" "number")) 17) ∧
      (ParseError.invalidRange (.mismatch (.rangeBounds "string" "number")) 17).PointsInto
        "\"é\" between \"ü\", 1") ∧
    Filter.parse 0 "\"€\" eq" = .error (.unexpectedEnd ["field reference", "literal"] 6) ∧
    6 = "\"€\" eq".length := by
  refine ⟨?_, ?_, ?_⟩
  · have ht : tokenize "/é eq \"€\" and (/ü~2 eq 1" = .error (.invalidPointer .badEscape 17) := by
      decide +kernel
    have he : Filter.parse 0 "/é eq \"€\" and (/ü~2 eq 1" = .error (.invalidPointer .badEscape 17) := by
      rw [Filter.parse, ht, if_neg (by decide +kernel)]
      rfl
    obtain ⟨hle, -, hpoints⟩ := parse_error_pointsInto he (by decide)
    exact ⟨he, hle, hpoints⟩
  · have ht : tokenize "\"é\" between \"ü\", 1" = .ok
        [⟨.string "é", "\"é\"", 0⟩, ⟨.operator .between, "between", 4⟩, ⟨.string "ü", "\"ü\"", 12⟩,
          ⟨.comma, ",", 15⟩, ⟨.number (.int 1), "1", 17⟩] := by
      decide +kernel
    have he : Filter.parse 0 "\"é\" between \"ü\", 1" =
        .error (.invalidRange (.mismatch (.rangeBounds "string" "number")) 17) := by
      rw [Filter.parse, ht, if_neg (by decide +kernel)]
      rfl
    exact ⟨he, (parse_error_pointsInto he (by decide)).2.2⟩
  · have ht : tokenize "\"€\" eq" = .ok
        [⟨.string "€", "\"€\"", 0⟩, ⟨.operator .eq, "eq", 4⟩] := by
      decide +kernel
    have he : Filter.parse 0 "\"€\" eq" = .error (.unexpectedEnd ["field reference", "literal"] 6) := by
      rw [Filter.parse, ht, if_neg (by decide +kernel)]
      rfl
    exact ⟨he, (parse_error_pointsInto he (by decide)).2.1.mpr ⟨_, _, rfl⟩⟩

end Filter

end RecordFilter
