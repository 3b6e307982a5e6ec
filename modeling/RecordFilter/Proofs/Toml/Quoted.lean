import Mathlib
import RecordFilter.Toml.Quoted

/-!
# Quoted text read back — a text between quotes is one token with the text as its content

Between double quotes each character stands for itself or is escaped, so the reader is at the beginning of what
stands for the next character whenever it looks. Between tripled quotes it also looks for the closing ones: it finds
them where nothing is left of the text but quotes in ones and twos, and nowhere before.

* `StandsFor`, `standsFor_escapeChar`: what stands for one character.
* `basicBody?_standsFor`, `basicLines?_standsFor`: what stands for a character is read as the character.
* `basicBody?_flatMap`, `literalBody?_append`: the text between quotes on one line.
* `closeTriple?_of_quotes`, `closeTriple?_eq_none`: where tripled quotes close.
* `basicLines?_escapeLines`, `literalLines?_append`: the text between tripled quotes.
* `QuoteStyle.Holds`, `QuoteStyle.holds_ofText`: what a way to quote can hold, and that the way in which a text is
  written holds it.
* `next?_quotedChars`: a quoted text is one token.
-/

namespace RecordFilter.Toml

open Text

/-! ## Characters -/

/-- What stands for a character between double quotes: the character itself, or a backslash and an escape. -/
inductive StandsFor (c : Char) : List Char → Prop
  | self (hcontrol : isControl c = false) (hquote : c ≠ '"') (hslash : c ≠ '\\') : StandsFor c [c]
  | escape {e : Char} {body : List Char} (hblank : isLineBlank e = false) (hfeed : e ≠ '\n') (hreturn : e ≠ '\r')
      (hread : ∀ rest, escape? (e :: body ++ rest) = some (c, rest)) : StandsFor c ('\\' :: e :: body)

/-- What stands for a character begins neither with a double quote nor with a line end. -/
theorem StandsFor.head {c : Char} {w : List Char} (h : StandsFor c w) :
    ∃ d w', w = d :: w' ∧ d ≠ '"' ∧ d ≠ '\n' ∧ d ≠ '\r' := by
  cases h with
  | self hcontrol hquote hslash =>
    refine ⟨c, [], rfl, hquote, ?_, ?_⟩ <;> rintro rfl <;> exact absurd hcontrol (by decide)
  | escape => exact ⟨'\\', _, rfl, by decide, by decide, by decide⟩

theorem StandsFor.length_pos {c : Char} {w : List Char} (h : StandsFor c w) : 0 < w.length := by
  cases h <;> simp

/-- A control is escaped by the four digits of its code point. -/
theorem codePoint?_of_isControl {c : Char} (hc : isControl c = true) :
    ('0' :: '0' :: escapeChar.twoDigits c.toNat).length = 4 ∧
      codePoint? ('0' :: '0' :: escapeChar.twoDigits c.toNat) = some c := by
  have hall : ∀ n < 0x80, n < 0x20 ∨ n = 0x7F →
      ('0' :: '0' :: escapeChar.twoDigits n).length = 4 ∧
        codePoint? ('0' :: '0' :: escapeChar.twoDigits n) = some (Char.ofNat n) := by
    decide +kernel
  have hcode : c.toNat < 0x20 ∨ c.toNat = 0x7F := by
    simp only [isControl, Bool.or_eq_true, Bool.and_eq_true, decide_eq_true_eq, beq_iff_eq] at hc
    exact hc.imp And.left id
  have h := hall c.toNat (by omega) hcode
  rwa [Char.ofNat_toNat] at h

/-- **What is written for a character between double quotes stands for it.** -/
theorem standsFor_escapeChar (c : Char) : StandsFor c (escapeChar c) := by
  unfold escapeChar
  split
  case h_8 hquote hslash _ _ _ _ _ =>
    split
    · next hc =>
      obtain ⟨hlength, hread⟩ := codePoint?_of_isControl hc
      refine .escape (by decide) (by decide) (by decide) fun rest => ?_
      have htake : ('0' :: '0' :: escapeChar.twoDigits c.toNat ++ rest).take 4 =
          '0' :: '0' :: escapeChar.twoDigits c.toNat := List.take_left' hlength
      have hdrop : ('0' :: '0' :: escapeChar.twoDigits c.toNat ++ rest).drop 4 = rest := List.drop_left' hlength
      show (codePoint? (('0' :: '0' :: escapeChar.twoDigits c.toNat ++ rest).take 4)).map
        (·, ('0' :: '0' :: escapeChar.twoDigits c.toNat ++ rest).drop 4) = some (c, rest)
      rw [htake, hdrop, hread]
      rfl
    · next hc => exact .self (by simpa using hc) hquote hslash
  all_goals exact .escape (by decide) (by decide) (by decide) fun _ => rfl

/-! ## One line -/

variable {content s rest : List Char} {room : Nat}

/-- What stands for a character is read as the character. -/
theorem basicBody?_standsFor {c : Char} {w : List Char} (h : StandsFor c w) :
    basicBody? content (room + 1) (w ++ rest) = basicBody? (c :: content) room rest := by
  cases h with
  | self hcontrol hquote hslash =>
    rw [List.singleton_append, basicBody?.eq_def]
    split
    · next heq => exact absurd (List.cons_eq_cons.mp heq).1 hquote
    · next heq => exact absurd (List.cons_eq_cons.mp heq).1 hslash
    · next hroom heq =>
      obtain ⟨rfl, rfl⟩ := List.cons_eq_cons.mp heq
      obtain rfl := Nat.succ_inj.mp hroom
      rw [hcontrol]
      rfl
    · next hnone => exact absurd rfl (hnone _ _ _ rfl)
  | @escape e body hblank hfeed hreturn hread =>
    rw [List.cons_append, basicBody?, hread]
    rfl

/-- **A text that is escaped character by character is read up to the quote behind it.** -/
theorem basicBody?_flatMap (hroom : (s.flatMap escapeChar).length ≤ room) :
    basicBody? content room (s.flatMap escapeChar ++ '"' :: rest) =
      some (String.ofList (content.reverse ++ s), rest) := by
  induction s generalizing content room with
  | nil =>
    rw [List.flatMap_nil, List.append_nil]
    cases room <;> rfl
  | cons c s ih =>
    have hstands := standsFor_escapeChar c
    have hpos := hstands.length_pos
    rw [List.flatMap_cons, List.length_append] at hroom
    obtain ⟨room, rfl⟩ : ∃ m, room = m + 1 := Nat.exists_eq_add_one.mpr (by omega)
    rw [List.flatMap_cons, List.append_assoc, basicBody?_standsFor hstands, ih (by omega)]
    simp

/-- A text without single quotes and controls is read up to the quote behind it. -/
theorem literalBody?_append (h : ∀ c ∈ s, isControl c = false ∧ c ≠ '\'') :
    literalBody? content (s ++ '\'' :: rest) = some (String.ofList (content.reverse ++ s), rest) := by
  induction s generalizing content with
  | nil =>
    rw [List.append_nil]
    rfl
  | cons c s ih =>
    obtain ⟨⟨hcontrol, hquote⟩, hs⟩ := List.forall_mem_cons.mp h
    have hstep : literalBody? content (c :: (s ++ '\'' :: rest)) =
        literalBody? (c :: content) (s ++ '\'' :: rest) := by
      rw [literalBody?.eq_def]
      split
      · next heq => exact absurd (List.cons_eq_cons.mp heq).1 hquote
      · next heq =>
        obtain ⟨rfl, rfl⟩ := List.cons_eq_cons.mp heq
        rw [hcontrol]
        rfl
      · next heq => cases heq
    rw [List.cons_append, hstep, ih hs]
    simp

/-! ## Closing quotes -/

/-- Up to two quotes and three more close: the first ones are content. -/
theorem closeTriple?_of_quotes {q : Char} {k : Nat} (hk : k ≤ 2) (hrest : rest.head? ≠ some q) :
    closeTriple? q content (List.replicate k q ++ q :: q :: q :: rest) =
      some (String.ofList (content.reverse ++ List.replicate k q), rest) := by
  rcases rest with _ | ⟨d, rest⟩
  · interval_cases k <;> simp [closeTriple?, List.replicate]
  · have hd : d ≠ q := fun h => hrest (by rw [h]; rfl)
    rcases rest with _ | ⟨e, rest⟩ <;> interval_cases k <;> simp [closeTriple?, List.replicate, hd]

/-- Fewer than three quotes do not close. -/
theorem closeTriple?_eq_none {q : Char} {k : Nat} (hk : k ≤ 2) (hrest : rest.head? ≠ some q) :
    closeTriple? q content (List.replicate k q ++ rest) = none := by
  rcases rest with _ | ⟨d, rest⟩
  · interval_cases k <;> simp [closeTriple?, List.replicate]
  · have hd : d ≠ q := fun h => hrest (by rw [h]; rfl)
    interval_cases k
    · rcases rest with _ | ⟨b, _ | ⟨c, rest⟩⟩ <;> simp [closeTriple?, hd]
    · rcases rest with _ | ⟨b, rest⟩ <;> simp [closeTriple?, List.replicate, hd]
    · simp [closeTriple?, List.replicate, hd]

/-! ## Several lines, without escapes -/

/-- Quotes at the beginning of a text, and what follows them. -/
theorem exists_quotes (q : Char) (s : List Char) :
    ∃ k after, s = List.replicate k q ++ after ∧ after.head? ≠ some q := by
  induction s with
  | nil => exact ⟨0, [], rfl, by simp⟩
  | cons c s ih =>
    by_cases hc : c = q
    · obtain ⟨k, after, rfl, hafter⟩ := ih
      exact ⟨k + 1, after, by rw [hc, List.replicate_succ]; rfl, hafter⟩
    · exact ⟨0, c :: s, rfl, by simpa using hc⟩

theorem le_two_of_tripled {q : Char} {k : Nat} (h : tripled q (List.replicate k q ++ s) = false) : k ≤ 2 := by
  by_contra hk
  obtain ⟨m, rfl⟩ : ∃ m, k = m + 3 := ⟨k - 3, by omega⟩
  simp [List.replicate_succ, tripled] at h

theorem tripled_tail {q c : Char} (h : tripled q (c :: s) = false) : tripled q s = false := by
  rcases s with _ | ⟨a, _ | ⟨b, s⟩⟩
  · rfl
  · rfl
  · exact (Bool.or_eq_false_iff.mp h).2

theorem literalLines?_closed {closed : String × List Char} (h : closeTriple? '\'' content s = some closed) :
    literalLines? content (room + 1) s = some closed := by
  rw [literalLines?.eq_def]
  simp only [h]

theorem literalLines?_char {c : Char} (hclose : closeTriple? '\'' content (c :: rest) = none)
    (hc : isControl c = true → c = '\n') :
    literalLines? content (room + 1) (c :: rest) = literalLines? (c :: content) room rest := by
  rw [literalLines?.eq_def]
  simp only [hclose]
  split
  · next h =>
    obtain ⟨rfl, rfl⟩ := List.cons_eq_cons.mp h
    rfl
  · next h =>
    obtain ⟨rfl, rfl⟩ := List.cons_eq_cons.mp h
    exact absurd (hc (by decide)) (by decide)
  · next hfeed _ h =>
    obtain ⟨rfl, rfl⟩ := List.cons_eq_cons.mp h
    rw [if_neg fun hcontrol => hfeed (hc hcontrol)]
  · next h => cases h

/-- **A text in which no three single quotes stand in a row, and no control but the line feed, is read up to the
tripled quotes behind it.** -/
theorem literalLines?_append (hcontrols : ∀ c ∈ s, isControl c = true → c = '\n') (htripled : tripled '\'' s = false)
    (hrest : rest.head? ≠ some '\'') (hroom : s.length < room) :
    literalLines? content room (s ++ '\'' :: '\'' :: '\'' :: rest) =
      some (String.ofList (content.reverse ++ s), rest) := by
  induction s generalizing content room with
  | nil =>
    obtain ⟨room, rfl⟩ := Nat.exists_eq_add_one.mpr hroom
    exact literalLines?_closed (closeTriple?_of_quotes (k := 0) (by omega) hrest)
  | cons c s ih =>
    rw [List.length_cons] at hroom
    obtain ⟨room, rfl⟩ : ∃ m, room = m + 1 := Nat.exists_eq_add_one.mpr (by omega)
    obtain ⟨k, after, hs, hafter⟩ := exists_quotes '\'' (c :: s)
    have hk : k ≤ 2 := le_two_of_tripled (hs ▸ htripled)
    rcases after with _ | ⟨d, after⟩
    · -- quotes in ones and twos are all that is left: they close together with the three behind them
      rw [hs, List.append_nil]
      exact literalLines?_closed (closeTriple?_of_quotes hk hrest)
    · have hclose : closeTriple? '\'' content (c :: s ++ '\'' :: '\'' :: '\'' :: rest) = none := by
        rw [hs, List.append_assoc]
        exact closeTriple?_eq_none hk (by simpa using hafter)
      obtain ⟨hc, hcontrols⟩ := List.forall_mem_cons.mp hcontrols
      rw [List.cons_append] at hclose ⊢
      rw [literalLines?_char hclose hc, ih hcontrols (tripled_tail htripled) (by omega)]
      simp

/-! ## Several lines, with escapes -/

theorem basicLines?_closed {closed : String × List Char} (h : closeTriple? '"' content s = some closed) :
    basicLines? content (room + 1) s = some closed := by
  rw [basicLines?.eq_def]
  simp only [h]

theorem basicLines?_char {c : Char} (hclose : closeTriple? '"' content (c :: rest) = none)
    (hc : isControl c = true → c = '\n') (hslash : c ≠ '\\') :
    basicLines? content (room + 1) (c :: rest) = basicLines? (c :: content) room rest := by
  rw [basicLines?.eq_def]
  simp only [hclose]
  split
  · next h =>
    obtain ⟨rfl, rfl⟩ := List.cons_eq_cons.mp h
    rfl
  · next h =>
    obtain ⟨rfl, rfl⟩ := List.cons_eq_cons.mp h
    exact absurd (hc (by decide)) (by decide)
  · next h => exact absurd (List.cons_eq_cons.mp h).1 hslash
  · next hfeed _ _ h =>
    obtain ⟨rfl, rfl⟩ := List.cons_eq_cons.mp h
    rw [if_neg fun hcontrol => hfeed (hc hcontrol)]
  · next h => cases h

/-- What follows the backslash of an escape is no end of a line. -/
theorem joinLines?_eq_none {e : Char} (hblank : isLineBlank e = false) (hfeed : e ≠ '\n') (hreturn : e ≠ '\r') :
    joinLines? (e :: rest) = none := by
  rw [joinLines?, List.dropWhile_cons_of_neg (by simp [hblank])]
  unfold afterLineEnd?
  split
  · next h => exact absurd (List.cons_eq_cons.mp h).1 hfeed
  · next h => exact absurd (List.cons_eq_cons.mp h).1 hreturn
  · rfl

/-- What stands for a character is read as the character where the quotes do not close. -/
theorem basicLines?_standsFor {c : Char} {w : List Char} (h : StandsFor c w)
    (hclose : closeTriple? '"' content (w ++ rest) = none) :
    basicLines? content (room + 1) (w ++ rest) = basicLines? (c :: content) room rest := by
  cases h with
  | self hcontrol hquote hslash =>
    exact basicLines?_char hclose (fun h => absurd hcontrol (by rw [h]; decide)) hslash
  | @escape e body hblank hfeed hreturn hread =>
    rw [List.cons_append] at hclose ⊢
    rw [basicLines?.eq_def]
    simp only [hclose]
    rw [List.cons_append, joinLines?_eq_none hblank hfeed hreturn, ← List.cons_append, hread]
    rfl

theorem escapeLines_cons (run : Nat) (c : Char) (s : List Char) :
    c = '\n' ∧ escapeLines run (c :: s) = c :: escapeLines 0 s ∨
      c = '"' ∧ run < 2 ∧ escapeLines run (c :: s) = c :: escapeLines (run + 1) s ∨
        escapeLines run (c :: s) = escapeChar c ++ escapeLines 0 s := by
  rw [escapeLines]
  split
  · next hfeed => exact .inl ⟨by simpa using hfeed, rfl⟩
  · split
    · next hquote => exact .inr (.inl ⟨by simp_all, by simp_all, rfl⟩)
    · exact .inr (.inr rfl)

/-- What is written for a text begins with fewer than three quotes, those just before it counted. If nothing follows
them, the text is these quotes. -/
theorem escapeLines_quotes {run : Nat} (hrun : run ≤ 2) (s : List Char) :
    ∃ k after, run + k ≤ 2 ∧ escapeLines run s = List.replicate k '"' ++ after ∧ after.head? ≠ some '"' ∧
      (after = [] → s = List.replicate k '"') := by
  induction s generalizing run with
  | nil => exact ⟨0, [], hrun, rfl, by simp, fun _ => rfl⟩
  | cons c s ih =>
    rcases escapeLines_cons run c s with ⟨rfl, heq⟩ | ⟨rfl, hlt, heq⟩ | heq <;> rw [heq]
    · exact ⟨0, _, hrun, rfl, by simp, fun h => by cases h⟩
    · obtain ⟨k, after, hk, hs, hafter, hall⟩ := ih (show run + 1 ≤ 2 from hlt)
      refine ⟨k + 1, after, by omega, by rw [hs]; rfl, hafter, fun h => ?_⟩
      rw [hall h]
      rfl
    · obtain ⟨d, w, hw, hquote, -⟩ := (standsFor_escapeChar c).head
      rw [hw]
      exact ⟨0, _, hrun, rfl, by simpa using hquote, fun h => by cases h⟩

/-- **A text that is escaped for several lines is read up to the tripled quotes behind it.** -/
theorem basicLines?_escapeLines {run : Nat} (hrun : run ≤ 2) (hrest : rest.head? ≠ some '"')
    (hroom : (escapeLines run s).length < room) :
    basicLines? content room (escapeLines run s ++ '"' :: '"' :: '"' :: rest) =
      some (String.ofList (content.reverse ++ s), rest) := by
  induction s generalizing run content room with
  | nil =>
    obtain ⟨room, rfl⟩ := Nat.exists_eq_add_one.mpr (Nat.zero_lt_of_lt hroom)
    exact basicLines?_closed (closeTriple?_of_quotes (k := 0) (by omega) hrest)
  | cons c s ih =>
    obtain ⟨room, rfl⟩ := Nat.exists_eq_add_one.mpr (Nat.zero_lt_of_lt hroom)
    -- the `run` quotes just read and the `k` that follow are at most two, so no three of them close
    obtain ⟨k, after, hk, hs, hafter, hall⟩ := escapeLines_quotes hrun (c :: s)
    rcases after with _ | ⟨d, after⟩
    · rw [hs, hall rfl, List.append_nil]
      exact basicLines?_closed (closeTriple?_of_quotes (by omega) hrest)
    · have hclose : closeTriple? '"' content (escapeLines run (c :: s) ++ '"' :: '"' :: '"' :: rest) = none := by
        rw [hs, List.append_assoc]
        exact closeTriple?_eq_none (by omega) (by simpa using hafter)
      have hgo {run : Nat} (hrun : run ≤ 2) (hlength : (escapeLines run s).length < room) :
          basicLines? (c :: content) room (escapeLines run s ++ '"' :: '"' :: '"' :: rest) =
            some (String.ofList (content.reverse ++ c :: s), rest) := by
        rw [ih hrun hlength]
        simp
      -- one step of the reader for what has been written for one character
      rcases escapeLines_cons run c s with ⟨rfl, heq⟩ | ⟨rfl, hlt, heq⟩ | heq
      · rw [heq, List.cons_append] at hclose ⊢
        rw [heq, List.length_cons] at hroom
        rw [basicLines?_char hclose (fun _ => rfl) (by decide), hgo (by omega) (by omega)]
      · rw [heq, List.cons_append] at hclose ⊢
        rw [heq, List.length_cons] at hroom
        rw [basicLines?_char hclose (fun h => absurd h (by decide)) (by decide),
          hgo (show run + 1 ≤ 2 from hlt) (by omega)]
      · have hstands := standsFor_escapeChar c
        have hpos := hstands.length_pos
        rw [heq, List.append_assoc] at hclose ⊢
        rw [heq, List.length_append] at hroom
        rw [basicLines?_standsFor hstands hclose, hgo (by omega) (by omega)]

/-! ## Ways to quote -/

/-- What can stand between quotes of the given kind. Where there are escapes, everything can. -/
def QuoteStyle.Holds (s : List Char) : QuoteStyle → Prop
  | basic | basicLines => True
  | literal => ∀ c ∈ s, isControl c = false ∧ c ≠ '\''
  | literalLines => (∀ c ∈ s, isControl c = true → c = '\n') ∧ tripled '\'' s = false

/-- The way in which a text is written holds it. -/
theorem QuoteStyle.holds_ofText (s : List Char) : (ofText s).Holds s := by
  unfold ofText
  dsimp only
  split
  · split <;> trivial
  · next hcontrols =>
    have hfeed : ∀ c ∈ s, isControl c = true → c = '\n' := by simpa using hcontrols
    split
    · trivial
    · split
      · next hliteral =>
        simp only [Bool.and_eq_true, Bool.not_eq_true', List.contains_eq_mem, decide_eq_false_iff_not] at hliteral
        obtain ⟨hspread, hquote⟩ := hliteral
        refine fun c hc => ⟨?_, fun h => hquote (h ▸ hc)⟩
        by_contra hcontrol
        exact hspread (hfeed c hc (by simpa using hcontrol) ▸ hc)
      · split
        · trivial
        · split
          · next htripled => exact ⟨hfeed, by simpa using htripled⟩
          · split <;> trivial

theorem Token.quoted?_single {q : Char} (h : ∀ after, rest ≠ q :: q :: after) :
    quoted? q rest = quoted?.single q rest := by
  unfold quoted?
  split
  · next a b after =>
    rw [if_neg fun hquotes => ?_]
    simp only [Bool.and_eq_true, beq_iff_eq] at hquotes
    exact h after (by rw [hquotes.1, hquotes.2])
  · rfl

/-- The line end that is put behind the opening quotes is no part of the text, and nothing else is taken for it. -/
theorem dropLineEnd_leadingLineEnd {body : List Char}
    (h : '\n' ∉ s → ∀ c ∈ body.head?, c ≠ '\n' ∧ c ≠ '\r') : dropLineEnd (leadingLineEnd s ++ body) = body := by
  unfold leadingLineEnd
  split
  · rfl
  · next hs =>
    have hhead := h (by simpa using hs)
    rw [List.nil_append, dropLineEnd]
    unfold afterLineEnd?
    split
    · exact absurd rfl (hhead '\n' rfl).1
    · exact absurd rfl (hhead '\r' rfl).2
    · rfl

/-- The text does not begin with a quote. -/
def NoQuote (s : List Char) : Prop := ∀ c ∈ s.head?, c ≠ '"' ∧ c ≠ '\''

namespace QuoteStyle

section

variable (hrest : NoQuote rest)

include hrest

theorem quoted?_basic : Token.quoted? '"' (s.flatMap escapeChar ++ '"' :: rest) =
    some (.quoted (String.ofList s) false, rest) := by
  rw [Token.quoted?_single]
  · rw [Token.quoted?.single, if_pos (by decide), basicBody?_flatMap (by simp)]
    rfl
  · intro after heq
    rcases s with _ | ⟨c, s⟩
    · obtain ⟨-, rfl⟩ := List.cons_eq_cons.mp heq
      exact (hrest '"' rfl).1 rfl
    · obtain ⟨d, w, hw, hquote, -⟩ := (standsFor_escapeChar c).head
      rw [List.flatMap_cons, hw] at heq
      exact hquote (List.cons_eq_cons.mp heq).1

theorem quoted?_literal (h : literal.Holds s) :
    Token.quoted? '\'' (s ++ '\'' :: rest) = some (.quoted (String.ofList s) false, rest) := by
  rw [Token.quoted?_single]
  · rw [Token.quoted?.single, if_neg (by decide), literalBody?_append h]
    rfl
  · intro after heq
    rcases s with _ | ⟨c, s⟩
    · obtain ⟨-, rfl⟩ := List.cons_eq_cons.mp heq
      exact (hrest '\'' rfl).2 rfl
    · exact (h c List.mem_cons_self).2 (List.cons_eq_cons.mp heq).1

theorem quoted?_basicLines :
    Token.quoted? '"' ('"' :: '"' :: (leadingLineEnd s ++ (escapeLines 0 s ++ '"' :: '"' :: '"' :: rest))) =
      some (.quoted (String.ofList s) true, rest) := by
  have hbody : dropLineEnd (leadingLineEnd s ++ (escapeLines 0 s ++ '"' :: '"' :: '"' :: rest)) =
      escapeLines 0 s ++ '"' :: '"' :: '"' :: rest := by
    refine dropLineEnd_leadingLineEnd fun hs => ?_
    rcases s with _ | ⟨c, s⟩
    · simp [escapeLines]
    · rcases escapeLines_cons 0 c s with ⟨rfl, -⟩ | ⟨rfl, -, heq⟩ | heq
      · exact absurd List.mem_cons_self hs
      · simp [heq]
      · obtain ⟨d, w, hw, -, hfeed, hreturn⟩ := (standsFor_escapeChar c).head
        simpa [heq, hw] using ⟨hfeed, hreturn⟩
  have hquote : rest.head? ≠ some '"' := fun h => (hrest _ h).1 rfl
  unfold Token.quoted?
  simp only [beq_self_eq_true, Bool.and_self, if_true, hbody]
  rw [basicLines?_escapeLines (Nat.zero_le 2) hquote (by simp; omega)]
  rfl

theorem quoted?_literalLines (h : literalLines.Holds s) :
    Token.quoted? '\'' ('\'' :: '\'' :: (leadingLineEnd s ++ (s ++ '\'' :: '\'' :: '\'' :: rest))) =
      some (.quoted (String.ofList s) true, rest) := by
  obtain ⟨hcontrols, htripled⟩ := h
  have hbody : dropLineEnd (leadingLineEnd s ++ (s ++ '\'' :: '\'' :: '\'' :: rest)) =
      s ++ '\'' :: '\'' :: '\'' :: rest := by
    refine dropLineEnd_leadingLineEnd fun hs => ?_
    rcases s with _ | ⟨c, s⟩
    · simp
    · have hfeed : c ≠ '\n' := fun h => hs (h ▸ List.mem_cons_self)
      have hreturn : c ≠ '\r' := fun h => hfeed (hcontrols c List.mem_cons_self (h ▸ by decide))
      simpa using ⟨hfeed, hreturn⟩
  have hquote : rest.head? ≠ some '\'' := fun h => (hrest _ h).2 rfl
  have hkind : ('\'' == '"') = false := by decide
  unfold Token.quoted?
  simp only [beq_self_eq_true, Bool.and_self, if_true, hkind, Bool.false_eq_true, if_false, hbody]
  rw [literalLines?_append hcontrols htripled hquote (by simp; omega)]
  rfl

end

/-- A text between quotes of any kind that holds it is one token, unless another quote follows. -/
theorem next?_quote {style : QuoteStyle} (h : style.Holds s) :
    ∃ q body spread, style.quote s = q :: body ∧ ∀ rest, NoQuote rest →
      Token.next? q (body ++ rest) = some (.quoted (String.ofList s) spread, rest) := by
  cases style with
  | basic =>
    refine ⟨'"', s.flatMap escapeChar ++ ['"'], false, rfl, fun rest hrest => ?_⟩
    rw [List.append_assoc]
    exact quoted?_basic hrest
  | literal =>
    refine ⟨'\'', s ++ ['\''], false, rfl, fun rest hrest => ?_⟩
    rw [List.append_assoc]
    exact quoted?_literal hrest h
  | basicLines =>
    refine ⟨'"', '"' :: '"' :: (leadingLineEnd s ++ (escapeLines 0 s ++ ['"', '"', '"'])), true, ?_,
      fun rest hrest => ?_⟩
    · simp [quote]
    · simp only [List.cons_append, List.append_assoc, List.nil_append]
      exact quoted?_basicLines hrest
  | literalLines =>
    refine ⟨'\'', '\'' :: '\'' :: (leadingLineEnd s ++ (s ++ ['\'', '\'', '\''])), true, ?_, fun rest hrest => ?_⟩
    · simp [quote]
    · simp only [List.cons_append, List.append_assoc, List.nil_append]
      exact quoted?_literalLines hrest h

end QuoteStyle

/-- **A quoted text is one token, and its content is the text**, whatever the text. -/
theorem next?_quotedChars (text : String) :
    ∃ q body spread, quotedChars text = q :: body ∧ ∀ rest, NoQuote rest →
      Token.next? q (body ++ rest) = some (.quoted text spread, rest) := by
  have h := QuoteStyle.next?_quote (QuoteStyle.holds_ofText text.toList)
  rwa [String.ofList_toList] at h

end RecordFilter.Toml
