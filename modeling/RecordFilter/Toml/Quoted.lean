import RecordFilter.Toml.Token

/-!
# Quoted text — a text as a configuration file holds it

There are four ways to put a text between quotes: double quotes know escapes and single ones do
not, and tripled quotes of either kind may hold line ends and quotes in ones and twos. A text is
written without escapes if one of the four allows it, on one line rather than several and between
double quotes rather than single ones; otherwise double quotes hold it, tripled if there is a line
end in it.

* `Toml.QuoteStyle`, `Toml.QuoteStyle.ofText` — the four ways, and the one that a text is written
  in.
* `Toml.quotedChars` — a text between quotes.
-/

namespace RecordFilter.Toml

open Text

/-- A way to put a text between quotes. -/
inductive QuoteStyle where
  /-- Double quotes: escapes, no line ends. -/
  | basic
  /-- Single quotes: neither escapes nor line ends. -/
  | literal
  /-- Tripled double quotes: escapes and line ends. -/
  | basicLines
  /-- Tripled single quotes: line ends, no escapes. -/
  | literalLines
  deriving DecidableEq, Repr

/-- Whether `q` stands three times in a row. -/
def tripled (q : Char) : List Char → Bool
  | a :: b :: c :: rest => (a == q && b == q && c == q) || tripled q (b :: c :: rest)
  | _ => false

/-- The way in which a text is written. -/
def QuoteStyle.ofText (s : List Char) : QuoteStyle :=
  let spread := s.contains '\n'
  if s.any fun c => isControl c && c != '\n' then if spread then basicLines else basic
  else if !spread && !s.contains '\\' && !s.contains '"' then basic
  else if !spread && !s.contains '\'' then literal
  else if !s.contains '\\' && !tripled '"' s then basicLines
  else if !tripled '\'' s then literalLines
  else if spread then basicLines else basic

/-- What stands for `c` between double quotes. -/
def escapeChar (c : Char) : List Char :=
  match c with
  | '"' => ['\\', '"']
  | '\\' => ['\\', '\\']
  | '\x08' => ['\\', 'b']
  | '\t' => ['\\', 't']
  | '\n' => ['\\', 'n']
  | '\x0c' => ['\\', 'f']
  | '\r' => ['\\', 'r']
  | c => if isControl c then ['\\', 'u', '0', '0'] ++ twoDigits c.toNat else [c]
where
  /-- Two hexadecimal digits in upper case. -/
  twoDigits (n : Nat) : List Char :=
    ((if n < 0x10 then ['0'] else []) ++ hexDigits n).map Char.toUpper

/-- What stands for a text between tripled double quotes: line ends stand for themselves, and so do
quotes but for the third in a row. `run` counts the quotes that stand just before the text. -/
def escapeLines (run : Nat) : List Char → List Char
  | [] => []
  | c :: rest =>
    if c == '\n' then c :: escapeLines 0 rest
    else if c == '"' && run < 2 then c :: escapeLines (run + 1) rest
    else escapeChar c ++ escapeLines 0 rest

/-- The line end that is no part of a text between tripled quotes; it is written if the text has
line ends of its own. -/
def leadingLineEnd (s : List Char) : List Char := if s.contains '\n' then ['\n'] else []

/-- A text between quotes of the given kind. -/
def QuoteStyle.quote (s : List Char) : QuoteStyle → List Char
  | basic => '"' :: s.flatMap escapeChar ++ ['"']
  | literal => '\'' :: s ++ ['\'']
  | basicLines => ['"', '"', '"'] ++ leadingLineEnd s ++ escapeLines 0 s ++ ['"', '"', '"']
  | literalLines => ['\'', '\'', '\''] ++ leadingLineEnd s ++ s ++ ['\'', '\'', '\'']

/-- A text between quotes. -/
def quotedChars (s : String) : List Char := (QuoteStyle.ofText s.toList).quote s.toList

end RecordFilter.Toml
