/-!
# Space — the two classes of blank characters

Filter text is separated by five ASCII characters; whether a text or an input line is blank as a
whole is decided by the Unicode property White_Space.

* `isSpace` — the separators of filter text.
* `isDelimiter` — the characters that may follow a literal directly.
* `isBlank` — the Unicode property, 25 characters in ten ranges.
* `allBlank` — no character but blanks.
-/

namespace RecordFilter.Text

/-- The separators of filter text: space, tab, line feed, form feed, carriage return. -/
def isSpace (c : Char) : Bool :=
  c == ' ' || c == '\t' || c == '\n' || c == '\x0c' || c == '\r'

/-- The characters that may follow a literal without a separator. -/
def isDelimiter (c : Char) : Bool :=
  isSpace c || c == ')' || c == ']' || c == ','

/-- Whether `n` lies in one of the closed ranges. -/
def inRanges (ranges : List (Nat × Nat)) (n : Nat) : Bool :=
  ranges.any fun r => r.1 ≤ n && n ≤ r.2

/-- The closed ranges of the Unicode property White_Space. -/
def blankRanges : List (Nat × Nat) :=
  [(0x09, 0x0D), (0x20, 0x20), (0x85, 0x85), (0xA0, 0xA0), (0x1680, 0x1680), (0x2000, 0x200A),
   (0x2028, 0x2029), (0x202F, 0x202F), (0x205F, 0x205F), (0x3000, 0x3000)]

/-- A character with the Unicode property White_Space. -/
def isBlank (c : Char) : Bool := inRanges blankRanges c.toNat

/-- A text that holds nothing but blanks. -/
def allBlank (s : String) : Bool := s.toList.all isBlank

/-- A separator is a delimiter. -/
theorem isDelimiter_of_isSpace {c : Char} (h : isSpace c = true) : isDelimiter c = true := by
  simp [isDelimiter, h]

end RecordFilter.Text
