import RecordFilter.Expression.ParseError

/-!
# Token — the pieces of filter text

A text is cut into tokens from left to right; between them stand only separators. How far a token
reaches depends on nothing but the text from its first character on.

* `Token.Kind`, `Token` — what a token means, and where it stands.
* `Lexeme` — a token as it is cut off: its kind and how many characters follow its first one.
* `Lexeme.next` — the token at the start of a text, or the fault at some distance from there.
* `Token.scan`, `tokenize` — the tokens of a text.
-/

namespace RecordFilter

open Number Text

/-- What a token means. -/
inductive Token.Kind where
  | groupOpen
  | groupClose
  | field (path : FieldPath)
  | string (content : String)
  | number (value : Scalar)
  | boolean (value : Bool)
  | operator (operator : Operator)
  | joiner (joiner : Joiner)
  | comma
  | arrayOpen
  | arrayClose
  deriving DecidableEq, Repr

/-- A token with its text and the number of characters before it. -/
structure Token where
  kind : Token.Kind
  text : String
  position : Nat
  deriving DecidableEq, Repr

/-- The kind of token at the start of a text, and the number of characters after the first one
that belong to it. -/
structure Lexeme where
  kind : Token.Kind
  tail : Nat
  deriving DecidableEq, Repr

namespace Lexeme

/-- A string literal; the text begins after its opening quote. The closing quote is the first that
the end or a delimiter follows. -/
def string (position : Nat) (rest : List Char) : Except ParseError Lexeme :=
  match closing? rest with
  | some n => .ok ⟨.string (String.ofList (rest.take n)), n + 1⟩
  | none => .error (.unterminatedString position)

/-- A field: everything up to a character that ends a path. -/
def field (position : Nat) (s : List Char) : Except ParseError Lexeme :=
  let span := s.takeWhile fun c => !breaksPath c
  match FieldPath.parse span with
  | .ok path => .ok ⟨.field path, span.length - 1⟩
  | .error (offset, fault) => .error (.invalidPointer fault (position + offset))

/-- The value of a numeral: an integer if it is written as one and 64 bits hold it, otherwise a
finite floating-point number. -/
def numeralValue? (n : Numeral) : Option Scalar :=
  match if n.isWhole then int64? n.integerValue else none with
  | some i => some (.int i)
  | none => if n.toBinary64.isFinite then some (.float n.toBinary64) else none

/-- A number: the longest numeral, with a delimiter or the end behind it. -/
def number (position : Nat) (s : List Char) : Except ParseError Lexeme :=
  match Numeral.split? s with
  | none => .error (.unexpectedCharacter '-' position)
  | some (numeral, rest) =>
    let length := numeral.chars.length
    match if endsLiteral rest then none else rest.head? with
    | some found => .error (.unexpectedCharacter found (position + length))
    | none =>
      match numeralValue? numeral with
      | some value => .ok ⟨.number value, length - 1⟩
      | none => .error (.invalidNumber (String.ofList numeral.chars) position)

/-- The characters of a word. -/
def isWordChar (c : Char) : Bool := c.isAlphanum || c == '_'

/-- A word with a meaning. -/
def word (position : Nat) (s : List Char) : Except ParseError Lexeme :=
  let letters := s.takeWhile isWordChar
  match Keyword.find? (String.ofList letters) with
  | some (.operator o) => .ok ⟨.operator o, letters.length - 1⟩
  | some (.joiner j) => .ok ⟨.joiner j, letters.length - 1⟩
  | some (.boolean b) => .ok ⟨.boolean b, letters.length - 1⟩
  | none => .error (.unknownKeyword (String.ofList letters) position)

/-- The token that begins with `c`; `position` characters stand before it. -/
def next (position : Nat) (c : Char) (rest : List Char) : Except ParseError Lexeme :=
  match c with
  | '(' => .ok ⟨.groupOpen, 0⟩
  | ')' => .ok ⟨.groupClose, 0⟩
  | '[' => .ok ⟨.arrayOpen, 0⟩
  | ']' => .ok ⟨.arrayClose, 0⟩
  | ',' => .ok ⟨.comma, 0⟩
  | '"' => string position rest
  | '/' => field position (c :: rest)
  | c =>
    if c == '-' || c.isDigit then number position (c :: rest)
    else if c.isAlpha then word position (c :: rest)
    else .error (.unexpectedCharacter c position)

end Lexeme

/-- The tokens of a text that `position` characters stand before. -/
def Token.scan (position : Nat) : List Char → Except ParseError (List Token)
  | [] => .ok []
  | c :: rest =>
    if isSpace c then scan (position + 1) rest
    else match Lexeme.next position c rest with
      | .error e => .error e
      | .ok lexeme =>
        match scan (position + (lexeme.tail + 1)) (rest.drop lexeme.tail) with
        | .error e => .error e
        | .ok tokens =>
          .ok (⟨lexeme.kind, String.ofList (c :: rest.take lexeme.tail), position⟩ :: tokens)
termination_by s => s.length
decreasing_by
  · simp
  · simp only [List.length_drop, List.length_cons]; omega

/-- The tokens of a text. -/
def tokenize (text : String) : Except ParseError (List Token) := Token.scan 0 text.toList

end RecordFilter
