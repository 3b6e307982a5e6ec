import RecordFilter.Text.Hexadecimal
import RecordFilter.Toml.Moment

/-!
# Toml tokens — the smallest pieces of a configuration file

A run of letters, digits and a few marks is one token whether it is a key or part of a value; a
point is a token of its own, so `1.5` is three tokens. Blanks are tokens, because some pieces have
to stand together; a comment counts as one blank.

* `Toml.Token` — the pieces.
* `Toml.basicBody?`, `Toml.literalBody?` and their forms for several lines — what stands between
  quotes.
* `Toml.Token.scan?` — the tokens of a text; none if something in it is no token.
-/

namespace RecordFilter.Toml

open Text

/-- A piece of a configuration file. -/
inductive Token where
  | bare (text : List Char)
  /-- A quoted text, and whether it may spread over several lines. -/
  | quoted (content : String) (spread : Bool)
  | dot
  | equals
  | comma
  | openBracket
  | closeBracket
  | openBrace
  | closeBrace
  | blank
  | lineEnd
  deriving DecidableEq, Repr

/-- The characters that no line of a configuration file may hold: controls other than the tab. -/
def isControl (c : Char) : Bool := (c.toNat < 0x20 && c != '\t') || c.toNat == 0x7F

/-- The characters of keys and plain values. -/
def isBare (c : Char) : Bool := c.isAlphanum || c == '-' || c == '_' || c == '+' || c == ':'

/-- The character with the code point that a row of hexadecimal digits names. -/
def codePoint? (ds : List Char) : Option Char :=
  (hexNumber? ds).bind fun n => if n.isValidChar then some (Char.ofNat n) else none

/-- What the letter after a backslash stands for. -/
def unescape? : Char → Option Char
  | 'b' => some '\x08'
  | 't' => some '\t'
  | 'n' => some '\n'
  | 'f' => some '\x0c'
  | 'r' => some '\r'
  | 'e' => some '\x1b'
  | '"' => some '"'
  | '\\' => some '\\'
  | _ => none

/-- The character that stands for an escape, which begins after its backslash, and the text behind
the escape. -/
def escape? : List Char → Option (Char × List Char)
  | 'x' :: rest => (codePoint? (rest.take 2)).map (·, rest.drop 2)
  | 'u' :: rest => (codePoint? (rest.take 4)).map (·, rest.drop 4)
  | 'U' :: rest => (codePoint? (rest.take 8)).map (·, rest.drop 8)
  | e :: rest => (unescape? e).map (·, rest)
  | [] => none

/-- The content of a text between double quotes and what follows, read with at most `room` steps.
`content` holds what has been read, the last character first. -/
def basicBody? (content : List Char) : Nat → List Char → Option (String × List Char)
  | _, '"' :: rest => some (String.ofList content.reverse, rest)
  | room + 1, '\\' :: rest => (escape? rest).bind fun (c, rest) => basicBody? (c :: content) room rest
  | room + 1, c :: rest => if isControl c then none else basicBody? (c :: content) room rest
  | _, _ => none

/-- The content of a text between single quotes, and what follows. -/
def literalBody? (content : List Char) : List Char → Option (String × List Char)
  | '\'' :: rest => some (String.ofList content.reverse, rest)
  | c :: rest => if isControl c then none else literalBody? (c :: content) rest
  | [] => none

/-- What follows a line's end at the start of a text. -/
def afterLineEnd? : List Char → Option (List Char)
  | '\n' :: rest => some rest
  | '\r' :: '\n' :: rest => some rest
  | _ => none

/-- The text without a line's end at its start. -/
def dropLineEnd (s : List Char) : List Char := (afterLineEnd? s).getD s

/-- What follows three quotes at the start of a text; up to two more before them are content. -/
def closeTriple? (q : Char) (content : List Char) : List Char → Option (String × List Char)
  | a :: b :: c :: rest =>
    if a == q && b == q && c == q then
      match rest with
      | d :: e :: after =>
        if d == q && e == q then some (String.ofList (q :: q :: content).reverse, after)
        else if d == q then some (String.ofList (q :: content).reverse, e :: after)
        else some (String.ofList content.reverse, rest)
      | [d] =>
        if d == q then some (String.ofList (q :: content).reverse, [])
        else some (String.ofList content.reverse, rest)
      | [] => some (String.ofList content.reverse, [])
    else none
  | _ => none

/-- The blanks of a line. -/
def isLineBlank (c : Char) : Bool := c == ' ' || c == '\t'

/-- The text without the blanks and line ends at its start. -/
def dropBlankLines : List Char → List Char
  | '\n' :: rest | '\r' :: '\n' :: rest => dropBlankLines rest
  | c :: rest => if isLineBlank c then dropBlankLines rest else c :: rest
  | [] => []

/-- The text after a backslash at the end of a line: the next character that is neither blank nor
a line's end begins it. -/
def joinLines? (s : List Char) : Option (List Char) :=
  (afterLineEnd? (s.dropWhile isLineBlank)).map dropBlankLines

/-- The content between triple double quotes and what follows, read with at most `room` steps. A
line's end is content as it stands. -/
def basicLines? (content : List Char) : Nat → List Char → Option (String × List Char)
  | 0, _ => none
  | room + 1, s =>
    match closeTriple? '"' content s with
    | some closed => some closed
    | none =>
      match s with
      | '\n' :: rest => basicLines? ('\n' :: content) room rest
      | '\r' :: '\n' :: rest => basicLines? ('\n' :: '\r' :: content) room rest
      | '\\' :: rest =>
        match joinLines? rest with
        | some rest => basicLines? content room rest
        | none => (escape? rest).bind fun (c, rest) => basicLines? (c :: content) room rest
      | c :: rest => if isControl c then none else basicLines? (c :: content) room rest
      | [] => none

/-- The content between triple single quotes and what follows, read with at most `room` steps. A
line's end is content as it stands. -/
def literalLines? (content : List Char) : Nat → List Char → Option (String × List Char)
  | 0, _ => none
  | room + 1, s =>
    match closeTriple? '\'' content s with
    | some closed => some closed
    | none =>
      match s with
      | '\n' :: rest => literalLines? ('\n' :: content) room rest
      | '\r' :: '\n' :: rest => literalLines? ('\n' :: '\r' :: content) room rest
      | c :: rest => if isControl c then none else literalLines? (c :: content) room rest
      | [] => none

namespace Token

/-- A quoted text; `rest` begins after its first quote. -/
def quoted? (q : Char) (rest : List Char) : Option (Token × List Char) :=
  match rest with
  | a :: b :: after =>
    if a == q && b == q then
      let lines := if q == '"' then basicLines? [] else literalLines? []
      (lines (after.length + 1) (dropLineEnd after)).map fun (s, rest) => (quoted s true, rest)
    else single q rest
  | rest => single q rest
where
  /-- A quoted text on one line. -/
  single (q : Char) (rest : List Char) : Option (Token × List Char) :=
    (if q == '"' then basicBody? [] rest.length rest else literalBody? [] rest).map
      fun (s, rest) => (quoted s false, rest)

/-- A run of bare characters; a date and the time behind it are one run. -/
def bareRun (s : List Char) : List Char × List Char :=
  let run := s.takeWhile isBare
  let rest := s.dropWhile isBare
  match rest with
  | ' ' :: d :: after =>
    if Moment.isDate run && d.isDigit then
      (run ++ ' ' :: (d :: after).takeWhile isBare, (d :: after).dropWhile isBare)
    else (run, rest)
  | _ => (run, rest)

/-- The token that begins with `c`, and the text after it. -/
def next? (c : Char) (rest : List Char) : Option (Token × List Char) :=
  match c with
  | '.' => some (dot, rest)
  | '=' => some (equals, rest)
  | ',' => some (comma, rest)
  | '[' => some (openBracket, rest)
  | ']' => some (closeBracket, rest)
  | '\x7b' => some (openBrace, rest)
  | '\x7d' => some (closeBrace, rest)
  | ' ' | '\t' => some (blank, rest)
  | '\n' => some (lineEnd, rest)
  | '\r' => (afterLineEnd? (c :: rest)).map (lineEnd, ·)
  | '#' =>
    let comment := rest.takeWhile fun c => c != '\n' && c != '\r'
    if comment.any isControl then none else some (blank, rest.drop comment.length)
  | '"' | '\'' => quoted? c rest
  | c =>
    if isBare c then
      let (run, rest) := bareRun (c :: rest)
      some (bare run, rest)
    else none

/-- The tokens of a text, read with at most `room` steps and put before those in `done`. -/
def scanFrom? (done : List Token) : Nat → List Char → Option (List Token)
  | _, [] => some done.reverse
  | 0, _ :: _ => none
  | room + 1, c :: rest =>
    match next? c rest with
    | some (token, rest) => scanFrom? (token :: done) room rest
    | none => none

/-- The tokens of a text. A step takes at least one character, so as many steps as there are
characters suffice. -/
def scan? (s : List Char) : Option (List Token) := scanFrom? [] s.length s

end Token

end RecordFilter.Toml
