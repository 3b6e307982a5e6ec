import RecordFilter.Text.Space

/-!
# Delimited — string literals without escapes

A string literal of filter text stands between double quotes and knows no escapes. A quote closes
it only where the text ends or a delimiter follows, so most quotes may stand inside; the others
cannot be written at all.

* `closing?` — how many characters stand before the closing quote.
* `fitsQuotes` — the contents that can be written.
-/

namespace RecordFilter.Text

/-- Whether a literal may end before this text. -/
def endsLiteral : List Char → Bool
  | [] => true
  | c :: _ => isDelimiter c

/-- The number of characters before the closing quote; the opening one is already read. -/
def closing? : List Char → Option Nat
  | [] => none
  | c :: rest => if c == '"' && endsLiteral rest then some 0 else (closing? rest).map (· + 1)

/-- No quote in the content is followed by a delimiter, so none of them closes the literal. -/
def fitsQuotes : List Char → Bool
  | [] => true
  | c :: rest => !(c == '"' && !rest.isEmpty && endsLiteral rest) && fitsQuotes rest

end RecordFilter.Text
