import RecordFilter.Text.Hexadecimal
import RecordFilter.Text.Printable

/-!
# Quoted — a text as it appears inside an error message

The text stands in double quotes. A quote and a backslash get a backslash, four controls a letter,
and every other character that a reader could not see is written as its code point.

* `escapeChar` — what stands for one character.
* `quote` — the whole text.
-/

namespace RecordFilter.Text

/-- What stands for `c` between the quotes. -/
def escapeChar (c : Char) : List Char :=
  match c with
  | '"' => ['\\', '"']
  | '\\' => ['\\', '\\']
  | '\t' => ['\\', 't']
  | '\n' => ['\\', 'n']
  | '\r' => ['\\', 'r']
  | '\x00' => ['\\', '0']
  | c => if isPrintable c then [c] else ['\\', 'u', '\x7b'] ++ hexDigits c.toNat ++ ['\x7d']

/-- The text in double quotes, with everything escaped that a reader could not see. -/
def quote (s : String) : String :=
  String.ofList ('"' :: s.toList.flatMap escapeChar ++ ['"'])

end RecordFilter.Text
