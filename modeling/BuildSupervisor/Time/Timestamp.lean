import BuildSupervisor.Text.CharClass
import BuildSupervisor.Text.Numeral
/-!
# Timestamps

A timestamp is a date of the Gregorian calendar and a time of day in UTC, to the nanosecond.  It is
written as RFC 3339 says, with as few digits behind the point as are exact: none, three, six or
nine.  Reading is more forgiving: the time may be given with an offset from UTC, blanks may stand
around the marks, and numbers may be shorter.
-/

namespace BuildSupervisor

/-- A point in time, in UTC.  A second of sixty is a leap second. -/
structure Timestamp where
  year : Int
  month : Nat
  day : Nat
  hour : Nat
  minute : Nat
  second : Nat
  nanos : Nat
  deriving DecidableEq, Repr

namespace Timestamp

def isLeapYear (year : Int) : Bool :=
  year % 4 = 0 && (year % 100 ≠ 0 || year % 400 = 0)

/-- The number of days of a month. -/
def daysInMonth (year : Int) (month : Nat) : Nat :=
  if month = 2 then (if isLeapYear year then 29 else 28)
  else if month = 4 || month = 6 || month = 9 || month = 11 then 30
  else 31

/-- The first year that can be told. -/
def minYear : Int := -262143

/-- The last year that can be told. -/
def maxYear : Int := 262142

/-- Whether the numbers are a date and a time of day. -/
def isValid (t : Timestamp) : Bool :=
  minYear ≤ t.year && t.year ≤ maxYear && 1 ≤ t.month && t.month ≤ 12 && 1 ≤ t.day
    && t.day ≤ daysInMonth t.year t.month && t.hour ≤ 23 && t.minute ≤ 59 && t.second ≤ 60
    && t.nanos < 1000000000

def nextDay (t : Timestamp) : Timestamp :=
  if t.day < daysInMonth t.year t.month then { t with day := t.day + 1 }
  else if t.month < 12 then { t with month := t.month + 1, day := 1 }
  else { t with year := t.year + 1, month := 1, day := 1 }

/-- The same time on the day before. -/
def previousDay (t : Timestamp) : Timestamp :=
  if 1 < t.day then { t with day := t.day - 1 }
  else if 1 < t.month then
    { t with month := t.month - 1, day := daysInMonth t.year (t.month - 1) }
  else { t with year := t.year - 1, month := 12, day := 31 }

/-- The time in UTC of a time that is `offset` minutes ahead of it, less than a day. -/
def toUtc (t : Timestamp) (offset : Int) : Timestamp :=
  let minutes := (t.hour * 60 + t.minute : Nat) - offset
  let shifted :=
    if minutes < 0 then t.previousDay else if 1440 ≤ minutes then t.nextDay else t
  let ofDay := (minutes % 1440).toNat
  { shifted with hour := ofDay / 60, minute := ofDay % 60 }

/-- A number with zeros before it, so that it has `width` digits. -/
def padded (width n : Nat) : List Char :=
  let digits := Nat.toDigits 10 n
  List.replicate (width - digits.length) '0' ++ digits

/-- A year: four digits, or five or more and a sign. -/
def yearChars (year : Int) : List Char :=
  if 0 ≤ year ∧ year ≤ 9999 then padded 4 year.toNat
  else if year < 0 then '-' :: padded 4 year.natAbs
  else '+' :: padded 4 year.natAbs

/-- The fraction of a second, in as few digits as are exact. -/
def fractionChars (nanos : Nat) : List Char :=
  if nanos = 0 then []
  else if nanos % 1000000 = 0 then '.' :: padded 3 (nanos / 1000000)
  else if nanos % 1000 = 0 then '.' :: padded 6 (nanos / 1000)
  else '.' :: padded 9 nanos

/-- The written form of a timestamp. -/
def chars (t : Timestamp) : List Char :=
  yearChars t.year ++ '-' :: padded 2 t.month ++ '-' :: padded 2 t.day ++ 'T' :: padded 2 t.hour
    ++ ':' :: padded 2 t.minute ++ ':' :: padded 2 t.second ++ fractionChars t.nanos ++ ['Z']

def render (t : Timestamp) : String :=
  String.ofList t.chars

/-- Reads a number of at most `width` digits, blanks before it left aside. -/
def readNumber? (width : Nat) (s : List Char) : Option (Nat × List Char) :=
  let s := Text.trimStart s
  match (s.take width).takeWhile isAsciiDigit with
  | [] => none
  | digits => (Text.readDigits 0 digits).map (·, s.drop digits.length)

/-- Reads the digits of a year behind its sign, however many there are. -/
def readSignedYear? (s : List Char) : Option (Nat × List Char) :=
  match s.takeWhile isAsciiDigit with
  | [] => none
  | digits => (Text.readDigits 0 digits).map (·, s.dropWhile isAsciiDigit)

/-- Reads a year: four digits at most, or any number of them behind a sign. -/
def readYear? (s : List Char) : Option (Int × List Char) :=
  match Text.trimStart s with
  | '-' :: rest => (readSignedYear? rest).map fun (n, rest) => (-(n : Int), rest)
  | '+' :: rest => (readSignedYear? rest).map fun (n, rest) => ((n : Int), rest)
  | rest => (readNumber? 4 rest).map fun (n, rest) => ((n : Int), rest)

/-- Reads a mark, blanks before it left aside. -/
def readMark? (mark : Char) (s : List Char) : Option (List Char) :=
  match Text.trimStart s with
  | c :: rest => if c = mark then some rest else none
  | [] => none

/-- Reads a fraction of a second, if one stands there; digits beyond the ninth are left aside. -/
def readFraction? : List Char → Option (Nat × List Char)
  | '.' :: s =>
    match s.takeWhile isAsciiDigit with
    | [] => none
    | digits =>
      let kept := digits.take 9
      (Text.readDigits 0 kept).map fun n =>
        (n * Nat.pow 10 (9 - kept.length), s.dropWhile isAsciiDigit)
  | s => some (0, s)

/-- Whether a character may stand between the hours and minutes of an offset. -/
def isOffsetMark (c : Char) : Bool :=
  c = ':' || isBlank c

/-- Reads the hours and minutes of an offset, as minutes. -/
def readOffsetDigits? : List Char → Option (Nat × List Char)
  | a :: b :: rest =>
    match Text.digitValue? a, Text.digitValue? b, rest.dropWhile isOffsetMark with
    | some h₁, some h₂, c :: d :: rest =>
      match Text.digitValue? c, Text.digitValue? d with
      | some m₁, some m₂ =>
        let minutes := (h₁ * 10 + h₂) * 60 + (m₁ * 10 + m₂)
        if m₁ ≤ 5 ∧ minutes < 1440 then some (minutes, rest) else none
      | _, _ => none
    | _, _, _ => none
  | _ => none

/-- Reads an offset from UTC, in minutes. -/
def readOffset? (s : List Char) : Option (Int × List Char) :=
  match s with
  | 'Z' :: rest | 'z' :: rest => some (0, rest)
  | '+' :: rest => (readOffsetDigits? rest).map fun (n, rest) => ((n : Int), rest)
  | '-' :: rest | '\u2212' :: rest =>
    (readOffsetDigits? rest).map fun (n, rest) => (-(n : Int), rest)
  | a :: b :: c :: rest =>
    if [a, b, c].map asciiLower = ['u', 't', 'c'] then some (0, rest) else none
  | _ => none

/-- Whether a character may stand between a date and a time. -/
def isDateEnd (c : Char) : Bool :=
  c = 'T' || c = 't' || c = ' '

/-- Reads a timestamp. -/
def ofChars? (s : List Char) : Option Timestamp := do
  let (year, s) ← readYear? s
  let (month, s) ← readMark? '-' s >>= readNumber? 2
  let (day, s) ← readMark? '-' s >>= readNumber? 2
  let s ← match s with
    | c :: rest => if isDateEnd c then some rest else none
    | [] => none
  let (hour, s) ← readNumber? 2 s
  let (minute, s) ← readMark? ':' s >>= readNumber? 2
  let (second, s) ← readMark? ':' s >>= readNumber? 2
  let (nanos, s) ← readFraction? s
  let (offset, s) ← readOffset? (Text.trimStart s)
  let local_ : Timestamp := ⟨year, month, day, hour, minute, second, nanos⟩
  if (Text.trimStart s).isEmpty && local_.isValid then
    let utc := local_.toUtc offset
    if utc.isValid then some utc else none
  else none

def ofText? (s : String) : Option Timestamp :=
  ofChars? s.toList

/-- The date of a day, counted from the first day of 1970.  Years are counted from the first of
    March, in eras of 400 years, so that a leap day is the last day of its year. -/
def dateOfDay (days : Nat) : Nat × Nat × Nat :=
  let day := days + 719468
  let ofEra := day % 146097
  let yearOfEra := (ofEra - ofEra / 1460 + ofEra / 36524 - ofEra / 146096) / 365
  let ofYear := ofEra - (365 * yearOfEra + yearOfEra / 4 - yearOfEra / 100)
  let march := (5 * ofYear + 2) / 153
  let year := yearOfEra + day / 146097 * 400
  let ofMonth := ofYear - (153 * march + 2) / 5 + 1
  if march < 10 then (year, march + 3, ofMonth) else (year + 1, march - 9, ofMonth)

/-- The point in time so many nanoseconds after the start of 1970. -/
def ofUnixNanos (nanos : Nat) : Timestamp :=
  let secs := nanos / 1000000000
  let (year, month, day) := dateOfDay (secs / 86400)
  ⟨year, month, day, secs / 3600 % 24, secs / 60 % 60, secs % 60, nanos % 1000000000⟩

end Timestamp

end BuildSupervisor
