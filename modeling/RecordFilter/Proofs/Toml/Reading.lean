import Mathlib
import RecordFilter.Toml.Reader
import RecordFilter.Proofs.Toml.Plain
import RecordFilter.Proofs.Toml.Quoted

/-!
# Reading line by line — the lines of a configuration file and what they add to its table

A line ends with a line feed, so where a line has been written its tokens do not depend on what follows it. The
reading of a file is then a chain of the readings of its lines.

* `Cuts`: the tokens of a text.
* `Takes`: the effect of whole lines on the reader, whatever follows them.
* `IsValue`: a text that is a value; `isValue_quotedChars`, `isValue_naturalChars`.
* `Takes.entry`, `Takes.header`, `Takes.empty`: the three kinds of lines.
* `parse?_of_takes`: the table of a text that is read line by line.
-/

namespace RecordFilter.Toml

open Number Text

/-! ## Tokens -/

/-- The text is cut into the tokens. -/
def Cuts (s : List Char) (ts : List Token) : Prop :=
  ∀ found room, s.length ≤ room → Token.scanFrom? found room s = some (found.reverse ++ ts)

/-- The text neither begins with a character of a bare run nor with the blank between a date and a time. -/
def EndsRun (s : List Char) : Prop :=
  (∀ c ∈ s.head?, isBare c = false) ∧ ∀ d after, s = ' ' :: d :: after → d.isDigit = false

namespace Cuts

variable {c : Char} {s rest : List Char} {t : Token} {ts : List Token}

theorem nil : Cuts [] [] := by
  intro found room _
  rw [List.append_nil]
  cases room <;> rfl

theorem cons (hnext : Token.next? c s = some (t, rest)) (hlength : rest.length ≤ s.length) (h : Cuts rest ts) :
    Cuts (c :: s) (t :: ts) := by
  intro found room hroom
  rw [List.length_cons] at hroom
  obtain ⟨room, rfl⟩ : ∃ m, room = m + 1 := Nat.exists_eq_add_one.mpr (by omega)
  rw [Token.scanFrom?, hnext]
  dsimp only
  rw [h (t :: found) room (by omega)]
  simp

/-- A byte order mark is no token. -/
theorem head?_ne_mark (h : Cuts s ts) : s.head? ≠ some '\uFEFF' := by
  intro hmark
  obtain ⟨rest, rfl⟩ := List.head?_eq_some_iff.mp hmark
  have hnext : Token.next? '\uFEFF' rest = none := rfl
  have hscan := h [] (rest.length + 1) le_rfl
  rw [Token.scanFrom?, hnext] at hscan
  cases hscan

theorem scan? (h : Cuts s ts) : Token.scan? s = some ts := h [] s.length le_rfl

end Cuts

theorem Token.bareRun_append {run rest : List Char} (hrun : ∀ c ∈ run, isBare c = true) (hrest : EndsRun rest) :
    bareRun (run ++ rest) = (run, rest) := by
  unfold bareRun
  dsimp only
  rw [takeWhile_stop hrun hrest.1, dropWhile_stop hrun hrest.1]
  split
  · next d after =>
    rw [if_neg]
    simp [hrest.2 d after rfl]
  · rfl

theorem Token.next?_of_isBare {c : Char} (hc : isBare c = true) (rest : List Char) :
    next? c rest = some (.bare (bareRun (c :: rest)).1, (bareRun (c :: rest)).2) := by
  unfold next?
  split
  case h_15 => rw [if_pos hc]
  all_goals exact absurd hc (by decide)

theorem endsRun_mark {c : Char} (hc : isBare c = false) (hblank : c ≠ ' ') (rest : List Char) :
    EndsRun (c :: rest) := by
  refine ⟨fun d hd => ?_, fun d after h => absurd (List.cons_eq_cons.mp h).1 hblank⟩
  obtain rfl : c = d := by simpa using hd
  exact hc

theorem endsRun_blank {c : Char} (hc : c.isDigit = false) (rest : List Char) : EndsRun (' ' :: c :: rest) := by
  refine ⟨fun d hd => ?_, fun d after h => ?_⟩
  · obtain rfl : ' ' = d := by simpa using hd
    decide
  · obtain ⟨rfl, -⟩ := List.cons_eq_cons.mp (List.cons_eq_cons.mp h).2
    exact hc

/-- A run of bare characters is one token. -/
theorem Cuts.bare {run rest : List Char} {ts : List Token} (hne : run ≠ []) (hrun : ∀ c ∈ run, isBare c = true)
    (hrest : EndsRun rest) (h : Cuts rest ts) : Cuts (run ++ rest) (.bare run :: ts) := by
  obtain ⟨c, cs, rfl⟩ := List.exists_cons_of_ne_nil hne
  have hnext := Token.next?_of_isBare (hrun c List.mem_cons_self) (cs ++ rest)
  rw [← List.cons_append, Token.bareRun_append hrun hrest] at hnext
  exact h.cons hnext (by simp)

/-! ## Values -/

/-- The token is a value. -/
inductive Spells : Token → Toml → Prop
  | quoted (text : String) (spread : Bool) : Spells (.quoted text spread) (.string text)
  | plain {text : List Char} {v : Toml} (h : plain? text = some v) : Spells (.bare text) v

/-- The text is a value and one token, if the line ends behind it. -/
def IsValue (s : List Char) (v : Toml) : Prop :=
  ∃ t, Spells t v ∧ ∀ rest ts, Cuts ('\n' :: rest) ts → Cuts (s ++ '\n' :: rest) (t :: ts)

/-- A quoted text is a value, whatever the text. -/
theorem isValue_quotedChars (text : String) : IsValue (quotedChars text) (.string text) := by
  obtain ⟨q, body, spread, hchars, hnext⟩ := next?_quotedChars text
  refine ⟨_, .quoted text spread, fun rest ts h => ?_⟩
  rw [hchars]
  exact h.cons (hnext _ (by simp [NoQuote])) (by simp)

theorem isValue_of_plain? {s : List Char} {v : Toml} (hne : s ≠ []) (hbare : ∀ c ∈ s, isBare c = true)
    (h : plain? s = some v) : IsValue s v :=
  ⟨_, .plain h, fun rest _ hcuts => hcuts.bare hne hbare (endsRun_mark (by decide) (by decide) rest)⟩

theorem isValue_naturalChars {n : Nat} (hn : n < 2 ^ 128) : IsValue (naturalChars n) (.integer n) := by
  refine isValue_of_plain? (naturalChars_ne_nil n) (fun c hc => ?_) (plain?_naturalChars hn)
  simp [isBare, Char.isAlphanum, isDigit_of_mem_naturalChars hc]

/-! ## Lines -/

/-- The text is one name of a key without quotes. -/
def IsName (name : String) : Prop :=
  name.toList ≠ [] ∧ (name.toList.all fun c => c.isAlphanum || c == '-' || c == '_') = true

instance (name : String) : Decidable (IsName name) := inferInstanceAs (Decidable (_ ∧ _))

theorem IsName.isBare {name : String} (h : IsName name) : ∀ c ∈ name.toList, isBare c = true := by
  intro c hc
  have hname := List.all_eq_true.mp h.2 c hc
  simp only [Toml.isBare, hname, Bool.true_or]

theorem IsName.name? {name : String} (h : IsName name) : Reader.name? (.bare name.toList) = some name := by
  rw [Reader.name?, if_pos h.2, String.ofList_toList]

/-- The reader before a line, with the table read so far and the header of the current table. -/
def Reader.atLine (entries : Entries) (place : List String) : Reader := ⟨entries, place, [], .line⟩

/-- The text takes the reader from one state to another one, whatever follows it. -/
def Takes (s : List Char) (r r' : Reader) : Prop :=
  ∃ ts, (∀ rest after, Cuts rest after → Cuts (s ++ rest) (ts ++ after)) ∧ ts.foldlM Reader.step? r = some r'

namespace Reader

variable {r r' : Reader} {t : Token} {ts : List Token}

theorem steps_cons (h : r.step? t = some r') : (t :: ts).foldlM step? r = ts.foldlM step? r' := by
  rw [List.foldlM_cons, h]
  rfl

variable {key : String} {v : Toml} {entries entries' : Entries} {place : List String}

/-- A key, and the sign behind it. -/
theorem steps_key (hkey : IsName key) :
    (.bare key.toList :: .blank :: .equals :: ts).foldlM step? (.atLine entries place) =
      ts.foldlM step? ⟨entries, place, [.entry [key]], .value⟩ := by
  have hname : (Reader.atLine entries place).step? (.bare key.toList) =
      some ⟨entries, place, [], .afterKey .entry [key]⟩ := by
    show (Reader.atLine entries place).name .entry [] (.bare key.toList) = _
    rw [name, if_pos (by decide), hkey.name?]
    rfl
  rw [steps_cons hname, steps_cons rfl, steps_cons rfl]
  rfl

/-- A value of a line, and its end. -/
theorem steps_value (hspells : Spells t v) (hassign : assign? place [key] v entries = some entries') :
    [.blank, t, .lineEnd].foldlM step? ⟨entries, place, [.entry [key]], .value⟩ =
      some (.atLine entries' place) := by
  have haccept (phase : Phase) : accept? ⟨entries, place, [.entry [key]], phase⟩ v =
      some ⟨entries', place, [], .lineEnd⟩ := by
    show (assign? place [key] v entries).map _ = _
    rw [hassign]
    rfl
  rw [steps_cons rfl]
  cases hspells with
  | quoted text spread =>
    have hread : step? ⟨entries, place, [.entry [key]], .value⟩ (.quoted text spread) =
        some ⟨entries', place, [], .lineEnd⟩ := haccept .value
    rw [steps_cons hread]
    rfl
  | @plain text v h =>
    have hend : step? ⟨entries, place, [.entry [key]], .plain text⟩ .lineEnd =
        some (.atLine entries' place) := by
      show ((plain? text).bind fun v => (accept? _ v).bind fun r => r.afterValue? .lineEnd) = _
      rw [h, Option.bind_some, haccept]
      rfl
    rw [steps_cons rfl]
    exact steps_cons hend

/-- The header of a table. -/
theorem steps_header {name : String} (hname : IsName name)
    (hopen : openTable? [name] entries = some entries') :
    [.openBracket, .bare name.toList, .closeBracket, .lineEnd].foldlM step? (.atLine entries place) =
      some (.atLine entries' [name]) := by
  have hfirst : step? ⟨entries, place, [], .opening⟩ (.bare name.toList) =
      some ⟨entries, place, [], .afterKey .table [name]⟩ := by
    show Reader.name _ .table [] (.bare name.toList) = _
    rw [Reader.name, if_pos (by decide), hname.name?]
    rfl
  have hclose : step? ⟨entries, place, [], .afterKey .table [name]⟩ .closeBracket =
      some ⟨entries', [name], [], .lineEnd⟩ := by
    show (openTable? [name] entries).map _ = _
    rw [hopen]
    rfl
  rw [steps_cons rfl]
  exact (steps_cons hfirst).trans (steps_cons hclose)

end Reader

namespace Takes

variable {s s' : List Char} {r r' r'' : Reader}

theorem append (h : Takes s r r') (h' : Takes s' r' r'') : Takes (s ++ s') r r'' := by
  obtain ⟨ts, hcuts, hsteps⟩ := h
  obtain ⟨ts', hcuts', hsteps'⟩ := h'
  refine ⟨ts ++ ts', fun rest after hrest => ?_, ?_⟩
  · rw [List.append_assoc, List.append_assoc]
    exact hcuts _ _ (hcuts' _ _ hrest)
  · rw [List.foldlM_append, hsteps]
    exact hsteps'

theorem empty (entries : Entries) (place : List String) :
    Takes ['\n'] (.atLine entries place) (.atLine entries place) :=
  ⟨[.lineEnd], fun _ _ hrest => hrest.cons rfl le_rfl, rfl⟩

/-- A key and its value. -/
theorem entry {key : String} {value : List Char} {v : Toml} {entries entries' : Entries} {place : List String}
    (hkey : IsName key) (hvalue : IsValue value v)
    (hassign : assign? place [key] v entries = some entries') :
    Takes (key.toList ++ " = ".toList ++ value ++ ['\n']) (.atLine entries place) (.atLine entries' place) := by
  obtain ⟨t, hspells, hcuts⟩ := hvalue
  have hsign : " = ".toList = [' ', '=', ' '] := by decide
  rw [hsign]
  refine ⟨[.bare key.toList, .blank, .equals, .blank, t, .lineEnd], fun rest after hrest => ?_, ?_⟩
  · have hend : Cuts (value ++ '\n' :: rest) (t :: .lineEnd :: after) := hcuts rest _ (hrest.cons rfl le_rfl)
    have hafter : Cuts (' ' :: '=' :: ' ' :: (value ++ '\n' :: rest))
        (.blank :: .equals :: .blank :: t :: .lineEnd :: after) :=
      ((hend.cons rfl le_rfl).cons rfl le_rfl).cons rfl le_rfl
    have hline := hafter.bare hkey.1 hkey.isBare (endsRun_blank (by decide) _)
    simpa using hline
  · rw [Reader.steps_key hkey]
    exact Reader.steps_value hspells hassign

/-- The header of a table. -/
theorem header {name : String} {entries entries' : Entries} {place : List String} (hname : IsName name)
    (hopen : openTable? [name] entries = some entries') :
    Takes ('[' :: name.toList ++ [']', '\n']) (.atLine entries place) (.atLine entries' [name]) := by
  refine ⟨[.openBracket, .bare name.toList, .closeBracket, .lineEnd], fun rest after hrest => ?_, ?_⟩
  · have hend : Cuts (']' :: '\n' :: rest) (.closeBracket :: .lineEnd :: after) :=
      (hrest.cons rfl le_rfl).cons rfl le_rfl
    have hafter := hend.bare hname.1 hname.isBare (endsRun_mark (by decide) (by decide) _)
    have hline : Cuts ('[' :: (name.toList ++ ']' :: '\n' :: rest)) (.openBracket :: _) := hafter.cons rfl le_rfl
    simpa using hline
  · exact Reader.steps_header hname hopen

end Takes

/-- **A text that is read line by line spells the table that its last line leaves.** -/
theorem parse?_of_takes {s : List Char} {entries : Entries} {place : List String}
    (h : Takes s .start (.atLine entries place)) : parse? (String.ofList s) = some entries := by
  obtain ⟨ts, hcuts, hsteps⟩ := h
  have hall : Cuts s ts := by simpa using hcuts [] [] .nil
  have htable : ofTokens? ts = some entries := by
    rw [ofTokens?, hsteps]
    rfl
  unfold parse?
  rw [String.toList_ofList]
  split
  · exact absurd rfl hall.head?_ne_mark
  · rw [hall.scan?]
    exact htable

end RecordFilter.Toml
