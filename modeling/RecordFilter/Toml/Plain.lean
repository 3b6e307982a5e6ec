import RecordFilter.Text.Hexadecimal
import RecordFilter.Toml.Basic
import RecordFilter.Toml.Moment

/-!
# Plain values — what a configuration file writes without quotes

Booleans, integers to four bases, floating-point numbers and moments. Underscores may stand between
digits.

* `Toml.integer?` and its parts — the numbers.
* `Toml.plain?` — the value that a text without quotes spells.
-/

namespace RecordFilter.Toml

open Number Text

/-- Whether every underscore stands between two digits; `after` tells whether a digit precedes the
text. -/
def spacedDigits (isDigit : Char → Bool) (after : Bool) : List Char → Bool
  | [] => true
  | '_' :: rest => after && (rest.head?.any isDigit) && spacedDigits isDigit false rest
  | c :: rest => spacedDigits isDigit (isDigit c) rest

/-- The text without its underscores, if each of them stands between two digits. -/
def joinDigits? (isDigit : Char → Bool) (s : List Char) : Option (List Char) :=
  if spacedDigits isDigit false s then some (s.filter (· != '_')) else none

/-- The value of a digit to a base. -/
def basedDigit? (base : Nat) (c : Char) : Option Nat := (hexValue? c).filter (· < base)

/-- The value of digits to a base. -/
def basedValue? (base : Nat) (s : List Char) : Option Nat :=
  match joinDigits? (fun c => (basedDigit? base c).isSome) s with
  | none | some [] => none
  | some ds => ds.foldlM (fun n c => (basedDigit? base c).map (base * n + ·)) 0

/-- An integer that 128 bits hold. -/
def integerOf? (i : Int) : Option Toml :=
  if -(Nat.pow 2 127 : Int) ≤ i ∧ i < Nat.pow 2 128 then some (.integer i) else none

/-- A decimal number: an integer if it has neither fraction nor exponent. -/
def decimalNumber? (s : List Char) : Option Toml := do
  let (n, rest) ← Numeral.split? (← joinDigits? Char.isDigit s)
  match rest, n.whole with
  | _ :: _, _ => none
  | [], '0' :: _ :: _ => none
  | [], _ =>
    if n.isWhole then integerOf? n.integerValue
    else if n.toBinary64.isFinite then some (.float n.toBinary64) else none

/-- A number after its sign, if it has one. -/
def unsignedNumber? (negative : Bool) (s : List Char) : Option Toml :=
  match String.ofList s with
  | "inf" => some (.float (.infinite negative))
  | "nan" => some (.float .nan)
  | _ =>
    if s.head?.any Char.isDigit then decimalNumber? (if negative then '-' :: s else s) else none

/-- A number. -/
def number? : List Char → Option Toml
  | '0' :: 'x' :: ds => (basedValue? 16 ds).bind fun n => integerOf? n
  | '0' :: 'o' :: ds => (basedValue? 8 ds).bind fun n => integerOf? n
  | '0' :: 'b' :: ds => (basedValue? 2 ds).bind fun n => integerOf? n
  | '+' :: s => unsignedNumber? false s
  | '-' :: s => unsignedNumber? true s
  | s => unsignedNumber? false s

/-- The value that a text without quotes spells. -/
def plain? (s : List Char) : Option Toml :=
  match String.ofList s with
  | "true" => some (.boolean true)
  | "false" => some (.boolean false)
  | text => if Moment.isMoment s then some (.moment text) else number? s

end RecordFilter.Toml
