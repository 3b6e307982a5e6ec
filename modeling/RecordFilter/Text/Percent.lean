import RecordFilter.Text.Hexadecimal
import RecordFilter.Text.Utf8

/-!
# Percent — text inside a query string

Letters, digits and four marks stand for themselves; every other byte of the text's encoding is
written as a percent sign and two upper-case hexadecimal digits. Reading replaces each such triple
by its byte and leaves everything else, a plus sign and a lone percent sign included.

* `Percent.encode` — the written form.
* `Percent.bytes` — the bytes that a written form stands for.
* `Percent.decode` — the text of those bytes, or where they stop being text.
-/

namespace RecordFilter.Text.Percent

/-- The characters that stand for themselves. -/
def isPlain (c : Char) : Bool :=
  c.isAlphanum || c == '-' || c == '_' || c == '.' || c == '~'

/-- The upper-case hexadecimal digit of a number below 16. -/
def hexDigit (n : Nat) : Char :=
  if n < 10 then Char.ofNat ('0'.toNat + n) else Char.ofNat ('A'.toNat + (n - 10))

/-- A byte as a percent sign and two digits. -/
def triple (b : UInt8) : List Char :=
  ['%', hexDigit (b.toNat / 16), hexDigit (b.toNat % 16)]

/-- The written form of one character. -/
def encodeChar (c : Char) : List Char :=
  if isPlain c then [c] else (String.utf8EncodeChar c).flatMap triple

/-- The written form of a text. -/
def encode (s : String) : String := String.ofList (s.toList.flatMap encodeChar)

/-- The byte that a percent sign followed by these two characters stands for. -/
def byte? (high low : Char) : Option UInt8 :=
  match hexValue? high, hexValue? low with
  | some h, some l => some (UInt8.ofNat (16 * h + l))
  | _, _ => none

/-- The bytes that a written form stands for. -/
def bytes : List Char → List UInt8
  | '%' :: high :: low :: rest =>
    match byte? high low with
    | some b => b :: bytes rest
    | none => String.utf8EncodeChar '%' ++ bytes (high :: low :: rest)
  | c :: rest => String.utf8EncodeChar c ++ bytes rest
  | [] => []

/-- The text that a written form stands for, or where its bytes stop being text. -/
def decode (s : String) : Except Utf8.Fault String := Utf8.decode (bytes s.toList)

end RecordFilter.Text.Percent
