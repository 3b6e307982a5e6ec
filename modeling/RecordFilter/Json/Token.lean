import RecordFilter.Json.Basic
import RecordFilter.Text.Hexadecimal

/-!
# Json tokens — the smallest pieces of a JSON text

* `Json.Token` — punctuation, the three words, numbers and strings.
* `Json.Token.scan?` — the tokens of a text; none if something in it is no token.
-/

namespace RecordFilter.Json

open Number Text

/-- A piece of a JSON text. -/
inductive Token where
  | openArray
  | closeArray
  | openObject
  | closeObject
  | comma
  | colon
  | null
  | bool (value : Bool)
  | number (value : JsonNumber)
  | string (value : String)
  deriving Repr

namespace Token

/-- The separators of a JSON text. -/
def isSeparator (c : Char) : Bool := c == ' ' || c == '\t' || c == '\n' || c == '\r'

/-- What the letter after a backslash stands for. -/
def unescape? : Char → Option Char
  | '"' => some '"'
  | '\\' => some '\\'
  | '/' => some '/'
  | 'b' => some '\x08'
  | 'f' => some '\x0c'
  | 'n' => some '\n'
  | 'r' => some '\r'
  | 't' => some '\t'
  | _ => none

/-- The character that a high and a low surrogate name together. -/
def pair (high low : Nat) : Char := Char.ofNat (0x10000 + (high - 0xD800) * 0x400 + (low - 0xDC00))

/-- The content of a string up to its closing quote, and the text after that. `content` holds what
has been read, the last character first. -/
def stringBody? (content : List Char) : List Char → Option (String × List Char)
  | '"' :: rest => some (String.ofList content.reverse, rest)
  | '\\' :: 'u' :: a :: b :: c :: d :: rest =>
    match hexNumber? [a, b, c, d] with
    | none => none
    | some unit =>
      if 0xD800 ≤ unit && unit < 0xDC00 then
        match rest with
        | '\\' :: 'u' :: a :: b :: c :: d :: rest =>
          match hexNumber? [a, b, c, d] with
          | some low =>
            if 0xDC00 ≤ low && low < 0xE000 then stringBody? (pair unit low :: content) rest
            else none
          | none => none
        | _ => none
      else if 0xDC00 ≤ unit && unit < 0xE000 then none
      else stringBody? (Char.ofNat unit :: content) rest
  | '\\' :: e :: rest =>
    match unescape? e with
    | some c => stringBody? (c :: content) rest
    | none => none
  | c :: rest => if c.toNat < 0x20 || c == '\\' then none else stringBody? (c :: content) rest
  | [] => none

/-- The words of a JSON text. -/
def word? (letters : List Char) : Option Token :=
  match String.ofList letters with
  | "null" => some .null
  | "true" => some (.bool true)
  | "false" => some (.bool false)
  | _ => none

/-- The token that begins with `c`, and the text after it. -/
def next? (c : Char) (rest : List Char) : Option (Token × List Char) :=
  match c with
  | '[' => some (.openArray, rest)
  | ']' => some (.closeArray, rest)
  | '\x7b' => some (.openObject, rest)
  | '\x7d' => some (.closeObject, rest)
  | ',' => some (.comma, rest)
  | ':' => some (.colon, rest)
  | '"' => (stringBody? [] rest).map fun (s, rest) => (.string s, rest)
  | c =>
    if c == '-' || c.isDigit then do
      let (numeral, rest) ← Numeral.split? (c :: rest)
      return (.number (← JsonNumber.ofNumeral? numeral), rest)
    else do
      return (← word? (c :: rest.takeWhile Char.isAlpha), rest.dropWhile Char.isAlpha)

/-- The tokens of a text, read with at most `room` steps and put before those in `done`. -/
def scanFrom? (done : List Token) : Nat → List Char → Option (List Token)
  | _, [] => some done.reverse
  | 0, _ :: _ => none
  | room + 1, c :: rest =>
    if isSeparator c then scanFrom? done room rest
    else match next? c rest with
      | some (token, rest) => scanFrom? (token :: done) room rest
      | none => none

/-- The tokens of a text. A step takes at least one character, so as many steps as there are
characters suffice. -/
def scan? (s : List Char) : Option (List Token) := scanFrom? [] s.length s

end Token

end RecordFilter.Json
