import RecordFilter.Number.Layout
import RecordFilter.Text.Space

/-!
# FieldPath — where in a record a value stands

A path is a non-empty row of names and array positions. Its text puts a slash before each segment
and writes `~0` and `~1` for a tilde and a slash inside a name. A segment that reads as a position
is one, so every path has one text and every text at most one path; a name may hold no character
that ends a path in filter text.

* `Segment`, `FieldPath` — segments and paths.
* `Segment.ofName` — the segment that a name reads as.
* `FieldPath.chars`, `FieldPath.field` — the text of a path, and of its part before the first
  position.
* `FieldPath.parse` — the path that a text spells, or the first fault of a text that is no path.
-/

namespace RecordFilter

open Number Text

/-- One step of a path. -/
inductive Segment where
  /-- The name of an object's member. -/
  | key (name : String)
  /-- A position in an array. -/
  | index (position : UInt64)
  deriving DecidableEq, Repr

/-- The characters that end a path in filter text. -/
def breaksPath (c : Char) : Bool := isSpace c || c == '(' || c == ')'

namespace Segment

/-- Digits without a superfluous leading zero. -/
def isPosition : List Char → Bool
  | [] => false
  | ['0'] => true
  | '0' :: _ => false
  | ds => ds.all Char.isDigit

/-- The segment that a name reads as: a position if it is one that 64 bits hold. -/
def ofName (name : String) : Segment :=
  if isPosition name.toList && digitsValue name.toList < UInt64.size then
    index (UInt64.ofNat (digitsValue name.toList))
  else key name

/-- The name that the segment stands for. -/
def name : Segment → String
  | key name => name
  | index position => String.ofList (naturalChars position.toNat)

/-- Whether the segment is a name. -/
def isKey : Segment → Bool
  | key _ => true
  | index _ => false

/-- Whether the segment is a name with a character that ends a path in filter text. -/
def isBroken : Segment → Bool
  | key name => name.toList.any breaksPath
  | index _ => false

/-- A segment as a path holds it: a name reads as itself and ends no path early. -/
def IsCanonical : Segment → Prop
  | key name => ofName name = key name ∧ ∀ c ∈ name.toList, breaksPath c = false
  | index _ => True

theorem isCanonical_ofName {name : String} (h : ∀ c ∈ name.toList, breaksPath c = false) :
    (ofName name).IsCanonical := by
  rw [ofName]
  split
  · exact True.intro
  · next hn => exact ⟨if_neg hn, h⟩

end Segment

/-- A non-empty row of segments, each as its name reads. -/
structure FieldPath where
  segments : List Segment
  nonempty : segments ≠ []
  canonical : ∀ s ∈ segments, s.IsCanonical
  deriving DecidableEq, Repr

namespace FieldPath

/-- What stands for a character of a name. -/
def escapeChar (c : Char) : List Char :=
  if c == '~' then ['~', '0'] else if c == '/' then ['~', '1'] else [c]

/-- The name that an escaped one stands for. -/
def unescape : List Char → List Char
  | '~' :: '0' :: rest => '~' :: unescape rest
  | '~' :: '1' :: rest => '/' :: unescape rest
  | c :: rest => c :: unescape rest
  | [] => []

/-- The text of one segment. -/
def segmentChars (s : Segment) : List Char := '/' :: s.name.toList.flatMap escapeChar

/-- The text of a path. -/
def chars (p : FieldPath) : List Char := p.segments.flatMap segmentChars

/-- The text of a path. -/
def text (p : FieldPath) : String := String.ofList p.chars

/-- The text of the path's names before the first position; empty if the path begins with one. -/
def field (p : FieldPath) : String :=
  String.ofList ((p.segments.takeWhile Segment.isKey).flatMap segmentChars)

/-! ## Reading -/

/-- Why a text is no path. -/
inductive Fault where
  /-- There is nothing. -/
  | empty
  /-- The text does not begin with a slash. -/
  | noSlash (found : Char)
  /-- A tilde is followed by neither `0` nor `1`. -/
  | badEscape
  /-- A character stands in the text that ends a path. -/
  | breaking (found : Char)
  deriving DecidableEq, Repr

/-- The wording of a fault. -/
def Fault.message : Fault → String
  | empty => "field reference is empty"
  | noSlash found => s!"expected '/' but found '{found}'"
  | badEscape => "'~' must be followed by '0' or '1'"
  | breaking found => s!"unexpected '{found}' in field reference"

/-- Whether the text begins with one of the two digits of an escape. -/
def beginsEscape : List Char → Bool
  | c :: _ => c == '0' || c == '1'
  | [] => false

/-- The first fault in a text after its leading slash; `position` counts the characters before
the text. -/
def bodyFault? (position : Nat) : List Char → Option (Nat × Fault)
  | [] => none
  | c :: rest =>
    if c == '~' && !beginsEscape rest then some (position, .badEscape)
    else if breaksPath c then some (position, .breaking c)
    else bodyFault? (position + 1) rest

/-- The pieces of a text between its slashes. -/
def pieces : List Char → List (List Char)
  | [] => [[]]
  | c :: rest =>
    if c == '/' then [] :: pieces rest
    else match pieces rest with
      | piece :: others => (c :: piece) :: others
      | [] => [[c]]

/-- The segments of a text after its leading slash. -/
def segmentsOf (body : List Char) : List Segment :=
  (pieces body).map fun piece => .ofName (String.ofList (unescape piece))

theorem pieces_ne_nil (s : List Char) : pieces s ≠ [] := by
  cases s with
  | nil => simp [pieces]
  | cons c rest =>
    simp only [pieces]
    split
    · simp
    · split <;> simp

theorem mem_of_mem_pieces {s piece : List Char} {c : Char} (hp : piece ∈ pieces s) (hc : c ∈ piece) :
    c ∈ s := by
  induction s generalizing piece with
  | nil => simp_all [pieces]
  | cons d rest ih =>
    simp only [pieces] at hp
    split at hp
    · rcases List.mem_cons.1 hp with rfl | hp
      · cases hc
      · exact List.mem_cons_of_mem _ (ih hp hc)
    · split at hp
      · next first others h =>
        rcases List.mem_cons.1 hp with rfl | hp
        · rcases List.mem_cons.1 hc with rfl | hc
          · simp
          · exact List.mem_cons_of_mem _ (ih (h ▸ List.mem_cons_self) hc)
        · exact List.mem_cons_of_mem _ (ih (h ▸ List.mem_cons_of_mem _ hp) hc)
      · next h => exact absurd h (pieces_ne_nil rest)

theorem breaksPath_unescape {s : List Char} (h : ∀ c ∈ s, breaksPath c = false) :
    ∀ c ∈ unescape s, breaksPath c = false := by
  fun_induction unescape s with
  | case1 rest ih =>
    intro c hc
    rcases List.mem_cons.1 hc with rfl | hc
    · decide
    · exact ih (fun d hd => h d (by simp [hd])) c hc
  | case2 rest ih =>
    intro c hc
    rcases List.mem_cons.1 hc with rfl | hc
    · decide
    · exact ih (fun d hd => h d (by simp [hd])) c hc
  | case3 d rest _ _ ih =>
    intro c hc
    rcases List.mem_cons.1 hc with rfl | hc
    · exact h _ (by simp)
    · exact ih (fun e he => h e (by simp [he])) c hc
  | case4 => simp

theorem breaksPath_of_bodyFault? {position : Nat} {s : List Char}
    (h : bodyFault? position s = none) : ∀ c ∈ s, breaksPath c = false := by
  induction s generalizing position with
  | nil => simp
  | cons d rest ih =>
    simp only [bodyFault?] at h
    split at h
    · cases h
    · split at h
      · cases h
      · next hd =>
        intro c hc
        rcases List.mem_cons.1 hc with rfl | hc
        · simpa using hd
        · exact ih h c hc

/-- The path of a text without fault after its leading slash. -/
def ofBody (body : List Char) (h : ∀ c ∈ body, breaksPath c = false) : FieldPath where
  segments := segmentsOf body
  nonempty := by simpa [segmentsOf] using pieces_ne_nil body
  canonical := by
    intro s hs
    obtain ⟨piece, hp, rfl⟩ := List.mem_map.1 hs
    refine Segment.isCanonical_ofName ?_
    simpa using breaksPath_unescape fun c hc => h c (mem_of_mem_pieces hp hc)

/-- The path that a text spells, or the first fault with the number of characters before it. -/
def parse (s : List Char) : Except (Nat × Fault) FieldPath :=
  match s with
  | [] => .error (0, .empty)
  | c :: body =>
    if c == '/' then
      match h : bodyFault? 1 body with
      | some fault => .error fault
      | none => .ok (ofBody body (breaksPath_of_bodyFault? h))
    else .error (0, .noSlash c)

end FieldPath

end RecordFilter
