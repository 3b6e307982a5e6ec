/-!
# Wildcard — patterns with a run and a single-character mark

In a pattern `*` stands for any run of characters, `_` for any one character, and a backslash
takes the next character as itself; a backslash at the very end stands for itself. A text matches
if the pattern covers it from its first character to its last. Before it is matched against
anything a pattern is compiled, and a compiler may refuse it, such as one whose automaton gets too
large.

* `Wildcard.Atom`, `Wildcard.atoms` — a pattern as a row of atoms.
* `Wildcard.suffixes` — which suffixes of a text a row of atoms covers.
* `Wildcard.isMatch` — whether the pattern covers the text.
* `Wildcard.Compiler` — which patterns are refused, and in which words.
* `Wildcard.Compiler.sized`, `Wildcard.Compiler.standard` — a compiler with a limit on its automata.
-/

namespace RecordFilter

/-- A wildcard pattern, as written. -/
structure Wildcard where
  pattern : String
  deriving DecidableEq, Repr

namespace Wildcard

/-- One piece of a pattern. -/
inductive Atom where
  /-- Any run of characters. -/
  | run
  /-- Any one character. -/
  | one
  /-- This character. -/
  | only (c : Char)
  deriving DecidableEq, Repr

/-- The atoms of a pattern. -/
def atomsOf : List Char → List Atom
  | [] => []
  | ['\\'] => [.only '\\']
  | '\\' :: c :: rest => .only c :: atomsOf rest
  | '*' :: rest => .run :: atomsOf rest
  | '_' :: rest => .one :: atomsOf rest
  | c :: rest => .only c :: atomsOf rest

/-- The atoms of a pattern. -/
def atoms (w : Wildcard) : List Atom := atomsOf w.pattern.toList

/-- Which suffixes of a text an atom and the atoms after it cover, the longest suffix first, given
which ones the atoms after it cover. -/
def extend (a : Atom) : List Char → List Bool → List Bool
  | c :: rest, here :: shorter =>
    let row := extend a rest shorter
    let covered :=
      match a with
      | .run => here || row.headD false
      | .one => shorter.headD false
      | .only d => c == d && shorter.headD false
    covered :: row
  | _, row => [a == .run && row.headD false]

/-- Which suffixes of a text the atoms cover, the longest suffix first and the empty one last. -/
def suffixes (text : List Char) : List Atom → List Bool
  | [] => text.map (fun _ => false) ++ [true]
  | a :: rest => extend a text (suffixes text rest)

/-- Whether the pattern covers the whole text. -/
def isMatch (w : Wildcard) (text : String) : Bool := (suffixes text.toList w.atoms).headD false

/-! ## Compilation -/

/-- What compiles patterns. -/
structure Compiler where
  /-- The words in which a row of atoms is refused, if it is. -/
  refusal? : List Atom → Option String

namespace Compiler

/-- The bytes that a state of an automaton takes. -/
def stateBytes : Nat := 32

/-- The bytes that the automaton of any one character takes. Characters are read byte by byte; there
are nine forms of them, which have 27 ranges of bytes together. -/
def characterBytes : Nat := (27 + 2) * stateBytes + 9 * 4

/-- The bytes that the automaton of an atom takes. -/
def atomBytes : Atom → Nat
  | .only c => c.utf8Size * stateBytes
  | .one => characterBytes
  | .run => stateBytes + 2 * 4 + characterBytes

/-- The bytes that the automaton of a row of atoms takes; it has six states for what stands around
the row. -/
def automatonBytes : List Atom → Nat
  | [] => 6 * stateBytes
  | a :: as => atomBytes a + automatonBytes as

/-- The compiler that refuses automata of more bytes than the limit. -/
def sized (limit : Nat) : Compiler where
  refusal? as :=
    if automatonBytes as ≤ limit then none
    else some s!"Compiled regex exceeds size limit of {limit} bytes."

/-- The compiler of the program: automata take ten mebibytes at most. -/
def standard : Compiler := sized 10485760

instance : Inhabited Compiler := ⟨standard⟩

end Compiler

end Wildcard

end RecordFilter
