import BuildSupervisor.Text.CharClass
import BuildSupervisor.Text.Numeral
import BuildSupervisor.Text.Scan
import BuildSupervisor.Time.Timestamp
/-!
# The words of a TOML document

Scanners for what stands between the punctuation of a document: blanks, comments, strings,
numbers, and dates with their times.
-/

namespace BuildSupervisor.Toml

open Scan

/-- A blank inside a line. -/
def isSpace (c : Char) : Bool :=
  c = ' ' || c = '\t'

/-- A character that may stand in a comment or string: no control character but the tab. -/
def isPlain (c : Char) : Bool :=
  c = '\t' || (32 ≤ c.toNat && c.toNat ≠ 127)

/-- Blanks inside a line. -/
def spaces : Scan Unit := do
  let _ ← run isSpace

/-- A line feed, with a carriage return before it or without. -/
def newline? : Scan Bool := do
  if ← skip? ['\n'] then return true
  skip? ['\r', '\n']

/-- A comment, if one comes next. -/
def comment? : Scan Bool := do
  if ← skip? ['#'] then
    let _ ← run isPlain
    return true
  return false

def lineEnd : Scan Unit := do
  unless ← newline? do
    if (← peek?).isSome then fail

/-- What may stand behind an entry up to the end of its line. -/
def lineRest : Scan Unit := do
  spaces
  let _ ← comment?
  lineEnd

def hexValue (digits : List Char) : Nat :=
  digits.foldl (fun n c =>
    n * 16 + (if isAsciiDigit c then c.toNat - 48 else (asciiLower c).toNat - 87)) 0

def isHexDigit (c : Char) : Bool :=
  isAsciiDigit c || (97 ≤ (asciiLower c).toNat && (asciiLower c).toNat ≤ 102)

/-- The character of a code point in hexadecimal digits. -/
def codePoint? (digits : List Char) : Option Char :=
  let n := hexValue digits
  if digits.all isHexDigit && (n < 0xD800 || (0xDFFF < n && n < 0x110000)) then some (Char.ofNat n)
  else none

/-- The character behind a backslash and what follows it. -/
def escape? : List Char → Option (Char × List Char)
  | 'b' :: rest => some (Char.ofNat 8, rest)
  | 't' :: rest => some ('\t', rest)
  | 'n' :: rest => some ('\n', rest)
  | 'f' :: rest => some (Char.ofNat 12, rest)
  | 'r' :: rest => some ('\r', rest)
  | '"' :: rest => some ('"', rest)
  | '\\' :: rest => some ('\\', rest)
  | 'u' :: a :: b :: c :: d :: rest => (codePoint? [a, b, c, d]).map (·, rest)
  | 'U' :: a :: b :: c :: d :: e :: f :: g :: h :: rest =>
    (codePoint? [a, b, c, d, e, f, g, h]).map (·, rest)
  | _ => none

/-- What is left of a text behind the blanks and line ends that a backslash at the end of a line
    takes with it; `none` where no line ends.  `ended` says whether a line has ended already. -/
def continueLine? (ended : Bool) : List Char → Option (List Char)
  | ' ' :: rest | '\t' :: rest => continueLine? ended rest
  | '\n' :: rest => continueLine? true rest
  | '\r' :: '\n' :: rest => continueLine? true rest
  | s => if ended then some s else none

/-- The kind of a quoted string: its mark, and whether it may go over several lines. -/
structure Quotes where
  mark : Char
  multiline : Bool
  deriving DecidableEq, Repr

/-- Whether a backslash means something in a string. -/
def Quotes.escapes (q : Quotes) : Bool :=
  q.mark = '"'

/-- The end of a string over several lines: three marks, and up to two more that belong to the
    string. -/
def closing? (mark : Char) (s : List Char) : Option (List Char × List Char) :=
  let marks := (s.takeWhile (· = mark)).take 5
  if 3 ≤ marks.length then some (marks.drop 3, s.drop marks.length) else none

/-- Reads a string up to its end; the second number bounds the characters that are left. -/
def stringBody (q : Quotes) : Nat → List Char → Option (List Char × List Char)
  | 0, _ => none
  | bound + 1, s =>
    let more (read : List Char) (rest : List Char) : Option (List Char × List Char) :=
      (stringBody q bound rest).map fun (body, rest) => (read ++ body, rest)
    match s with
    | [] => none
    | c :: rest =>
      if c = q.mark then
        if q.multiline then
          match closing? q.mark s with
          | some ending => some ending
          | none => more [c] rest
        else some ([], rest)
      else if c = '\\' && q.escapes then
        match escape? rest with
        | some (e, rest) => more [e] rest
        | none =>
          if q.multiline then
            match continueLine? false rest with
            | some rest => more [] rest
            | none => none
          else none
      else if isPlain c then more [c] rest
      else if q.multiline then
        match s with
        | '\n' :: rest => more ['\n'] rest
        | '\r' :: '\n' :: rest => more ['\n'] rest
        | _ => none
      else none

/-- The rest of a string behind its opening marks. -/
def stringRest (q : Quotes) : Scan String :=
  fun s => (stringBody q (s.length + 1) s).map fun (body, rest) => (String.ofList body, rest)

/-- A string in one line, in marks of one kind. -/
def lineString (mark : Char) : Scan String := do
  skip [mark]
  stringRest ⟨mark, false⟩

/-- A string; one over several lines does not hold the line end behind its opening marks. -/
def string (mark : Char) : Scan String := do
  if ← skip? [mark, mark, mark] then
    let _ ← newline?
    stringRest ⟨mark, true⟩
  else lineString mark

/-- Whether two underscores stand side by side. -/
def hasDouble : List Char → Bool
  | '_' :: '_' :: _ => true
  | _ :: rest => hasDouble rest
  | [] => false

/-- Digits of a class, with single underscores between them. -/
def digits (isDigit : Char → Bool) : Scan (List Char) := do
  let first ← one isDigit
  let rest ← run fun c => isDigit c || c = '_'
  let all := first :: rest
  if all.getLast? = some '_' || hasDouble all then fail
  return all.filter (· ≠ '_')

/-- A sign, or nothing; says whether it is a minus. -/
def sign : Scan Bool := do
  if ← skip? ['-'] then return true
  let _ ← skip? ['+']
  return false

/-- The decimal digits of a whole number: none of them a needless zero at the start. -/
def decimal : Scan (List Char) := do
  match ← peek? with
  | some '0' => return [← one isAsciiDigit]
  | _ => digits isAsciiDigit

def valueIn (base : Nat) (ds : List Char) : Nat :=
  ds.foldl (fun n c => n * base + hexValue [c]) 0

/-- Digits of a base, and their value. -/
def based (base : Nat) (isDigit : Char → Bool) : Scan Nat := do
  return valueIn base (← digits isDigit)

def isOctalDigit (c : Char) : Bool :=
  48 ≤ c.toNat && c.toNat ≤ 55

/-- A binary digit. -/
def isBinaryDigit (c : Char) : Bool :=
  c = '0' || c = '1'

/-- The value of a whole number, however large. -/
def wholeValue : Scan Int := do
  if ← skip? ['0', 'x'] then return ← based 16 isHexDigit
  if ← skip? ['0', 'o'] then return ← based 8 isOctalDigit
  if ← skip? ['0', 'b'] then return ← based 2 isBinaryDigit
  let negative ← sign
  let n := valueIn 10 (← decimal)
  return if negative then -(n : Int) else n

/-- A whole number of 64 bits, sign included. -/
def integer : Scan Int := do
  let n ← wholeValue
  if -9223372036854775808 ≤ n ∧ n < 9223372036854775808 then return n else fail

def exponent : Scan Int := do
  let _ ← one fun c => c = 'e' || c = 'E'
  let negative ← sign
  let n := valueIn 10 (← digits isAsciiDigit)
  return if negative then -(n : Int) else n

/-- A number with a fraction, an exponent or both, or one that is none; what it stands for does
    not matter, but one above zero must not be too large. -/
def float : Scan Unit := do
  let negative ← sign
  if ← skip? "inf".toList then return ()
  if ← skip? "nan".toList then return ()
  let whole ← decimal
  let fraction ← attempt (do skip ['.']; digits isAsciiDigit)
  let power ← attempt exponent
  if fraction.isNone && power.isNone then fail
  let mantissa := valueIn 10 (whole ++ fraction.getD [])
  if !negative && Text.isTooLarge mantissa (power.getD 0 - ((fraction.getD []).length : Int)) then fail

/-- A number of exactly `width` digits from `low` to `high`. -/
def fixed (width low high : Nat) : Scan Nat :=
  fun s =>
    let ds := s.take width
    let n := valueIn 10 ds
    if ds.length = width && ds.all isAsciiDigit && low ≤ n && n ≤ high then
      some (n, s.drop width)
    else none

def time : Scan Unit := do
  let _ ← fixed 2 0 23
  skip [':']
  let _ ← fixed 2 0 59
  skip [':']
  let _ ← fixed 2 0 60
  if ← skip? ['.'] then
    let _ ← one isAsciiDigit
    let _ ← run isAsciiDigit

def offset : Scan Unit := do
  let mark ← one fun c => c = 'Z' || c = 'z' || c = '+' || c = '-'
  if mark = '+' || mark = '-' then
    let _ ← fixed 2 0 23
    skip [':']
    let _ ← fixed 2 0 59

def date : Scan Unit := do
  let year ← fixed 4 0 9999
  skip ['-']
  let month ← fixed 2 1 12
  skip ['-']
  let _ ← fixed 2 1 (Timestamp.daysInMonth year month)

/-- A date, a time of day, or both. -/
def dateTime : Scan Unit :=
  Scan.orElse
    (do
      date
      let _ ← attempt (do
        let _ ← one fun c => c = 'T' || c = 't' || c = ' '
        time
        attempt offset))
    time

end BuildSupervisor.Toml
