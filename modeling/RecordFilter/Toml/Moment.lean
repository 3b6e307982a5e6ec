import RecordFilter.Number.Numeral

/-!
# Moment — dates and times in a configuration file

A date, a time of day, or both with a letter or a blank between them and perhaps the distance from
universal time behind them.

* `Moment.isDate`, `Moment.isMoment` — whether a text is one.
-/

namespace RecordFilter.Toml.Moment

open Number

/-- The days of a month. -/
def daysOf (year month : Nat) : Nat :=
  if month == 2 then
    if year % 4 == 0 && (year % 100 != 0 || year % 400 == 0) then 29 else 28
  else if month == 4 || month == 6 || month == 9 || month == 11 then 30
  else 31

/-- The value of a row of digits of a fixed length. -/
def fixed? (length : Nat) (ds : List Char) : Option Nat :=
  if ds.length == length && ds.all Char.isDigit then some (digitsValue ds) else none

/-- A year, a month and a day of it. -/
def isDate (s : List Char) : Bool :=
  match fixed? 4 (s.take 4), s.drop 4 with
  | some year, ['-', a, b, '-', c, d] =>
    match fixed? 2 [a, b], fixed? 2 [c, d] with
    | some month, some day => 1 ≤ month && month ≤ 12 && 1 ≤ day && day ≤ daysOf year month
    | _, _ => false
  | _, _ => false

/-- An hour and a minute. -/
def isHourMinute (s : List Char) : Bool :=
  match s with
  | [a, b, ':', c, d] =>
    match fixed? 2 [a, b], fixed? 2 [c, d] with
    | some hour, some minute => hour ≤ 23 && minute ≤ 59
    | _, _ => false
  | _ => false

/-- Nothing, or seconds with an optional fraction. -/
def isSeconds (s : List Char) : Bool :=
  match s with
  | [] => true
  | ':' :: a :: b :: rest =>
    ((fixed? 2 [a, b]).any fun second => second ≤ 60) &&
      match rest with
      | [] => true
      | '.' :: ds => !ds.isEmpty && ds.all Char.isDigit
      | _ => false
  | _ => false

/-- A time of day. -/
def isTime (s : List Char) : Bool := isHourMinute (s.take 5) && isSeconds (s.drop 5)

/-- A time of day, perhaps with its distance from universal time. -/
def isOffsetTime (s : List Char) : Bool :=
  match s.reverse with
  | 'Z' :: time | 'z' :: time => isTime time.reverse
  | d :: c :: ':' :: b :: a :: sign :: time =>
    if sign == '+' || sign == '-' then isHourMinute [a, b, ':', c, d] && isTime time.reverse
    else isTime s
  | _ => isTime s

/-- Whether a text is a date, a time or both. -/
def isMoment (s : List Char) : Bool :=
  match s.drop 10 with
  | [] => isDate s || isTime s
  | c :: time =>
    if c == 'T' || c == 't' || c == ' ' then isDate (s.take 10) && isOffsetTime time
    else isTime s

end RecordFilter.Toml.Moment
