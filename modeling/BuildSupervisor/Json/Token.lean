import BuildSupervisor.Json.Basic
/-!
# JSON tokens

A JSON text is a row of punctuation marks, words and quoted texts with blanks between them.
`Json.tokens?` reads it character by character; what has been read of a word or a text is kept in
a `Json.LexState`.  Quoted texts are kept as code units first, since two escaped units may stand
for one character.
-/

namespace BuildSupervisor.Json

/-- A token: punctuation, a word without quotes, or a quoted text. -/
inductive Token where
  | openArray
  | closeArray
  | openObject
  | closeObject
  | comma
  | colon
  | scalar (v : Json)
  | quoted (s : Option String)

/-- Where the reader stands.  What has been read so far is kept last character first. -/
inductive LexState where
  | between
  | word (read : List Char)
  | quoted (units : List Nat)
  | escaped (units : List Nat)
  | unit (units : List Nat) (value : Nat) (left : Nat)

/-- A blank between tokens. -/
def isSpace (c : Char) : Bool :=
  c = ' ' || c = '\n' || c = '\r' || c = '\t'

/-- The token that a punctuation mark is. -/
def punctuation? (c : Char) : Option Token :=
  if c = '[' then some .openArray
  else if c = ']' then some .closeArray
  else if c = '\x7b' then some .openObject
  else if c = '\x7d' then some .closeObject
  else if c = ',' then some .comma
  else if c = ':' then some .colon
  else none

/-- The first unit of a surrogate pair. -/
def isHighSurrogate (n : Nat) : Bool :=
  0xD800 ≤ n && n ≤ 0xDBFF

/-- The second unit of a surrogate pair. -/
def isLowSurrogate (n : Nat) : Bool :=
  0xDC00 ≤ n && n ≤ 0xDFFF

/-- The characters that code units stand for; `none` where half a surrogate pair stands alone. -/
def ofUnits? : List Nat → Option (List Char)
  | [] => some []
  | [a] => if isHighSurrogate a || isLowSurrogate a then none else some [Char.ofNat a]
  | a :: b :: rest =>
    if isHighSurrogate a then
      if isLowSurrogate b then
        (ofUnits? rest).map
          (Char.ofNat (0x10000 + (a - 0xD800) * 0x400 + (b - 0xDC00)) :: ·)
      else none
    else if isLowSurrogate a then none
    else (ofUnits? (b :: rest)).map (Char.ofNat a :: ·)

/-- The value of a hexadecimal digit. -/
def hexValue? (c : Char) : Option Nat :=
  let n := c.toNat
  if 48 ≤ n && n ≤ 57 then some (n - 48)
  else if 97 ≤ n && n ≤ 102 then some (n - 87)
  else if 65 ≤ n && n ≤ 70 then some (n - 55)
  else none

/-- The unit that a character behind a backslash stands for, one of the short escapes. -/
def shortEscape? (c : Char) : Option Nat :=
  if c = '"' || c = '\\' || c = '/' then some c.toNat
  else if c = 'b' then some 8
  else if c = 'f' then some 12
  else if c = 'n' then some 10
  else if c = 'r' then some 13
  else if c = 't' then some 9
  else none

/-- The digits behind an exponent mark, with a sign or without. -/
def isExponent : List Char → Bool
  | '+' :: digits | '-' :: digits => !digits.isEmpty && digits.all isAsciiDigit
  | digits => !digits.isEmpty && digits.all isAsciiDigit

/-- What may stand behind the digits before the point: a fraction, an exponent, both or nothing. -/
def isNumberEnd : List Char → Bool
  | [] => true
  | '.' :: rest =>
    !(rest.takeWhile isAsciiDigit).isEmpty &&
      match rest.dropWhile isAsciiDigit with
      | [] => true
      | 'e' :: digits | 'E' :: digits => isExponent digits
      | _ => false
  | 'e' :: digits | 'E' :: digits => isExponent digits
  | _ => false

/-- An unsigned number: digits without a needless zero at the start, and what may stand behind. -/
def isUnsigned (s : List Char) : Bool :=
  match s.takeWhile isAsciiDigit with
  | [] => false
  | '0' :: _ :: _ => false
  | _ => isNumberEnd (s.dropWhile isAsciiDigit)

/-- The value of a word that stands without quotes. -/
def ofWord? (s : List Char) : Option Json :=
  if s = "null".toList then some .null
  else if s = "true".toList then some (.bool true)
  else if s = "false".toList then some (.bool false)
  else if isUnsigned s then
    some (match Text.readDigits 0 s with
      | some n => .natural n
      | none => .number (String.ofList s))
  else
    match s with
    | '-' :: digits => if isUnsigned digits then some (.number (String.ofList s)) else none
    | _ => none

/-- The token of a word whose characters were read last first. -/
def wordToken? (read : List Char) : Option Token :=
  (ofWord? read.reverse).map .scalar

/-- Reads the tokens of a text. -/
def tokensFrom? : LexState → List Char → Option (List Token)
  | .between, [] => some []
  | .word read, [] => (wordToken? read).map ([·])
  | _, [] => none
  | .between, c :: rest =>
    if isSpace c then tokensFrom? .between rest
    else if c = '"' then tokensFrom? (.quoted []) rest
    else
      match punctuation? c with
      | some token => (tokensFrom? .between rest).map (token :: ·)
      | none => tokensFrom? (.word [c]) rest
  | .word read, c :: rest =>
    if isSpace c then
      match wordToken? read with
      | some token => (tokensFrom? .between rest).map (token :: ·)
      | none => none
    else if c = '"' then none
    else
      match punctuation? c with
      | none => tokensFrom? (.word (c :: read)) rest
      | some mark =>
        match wordToken? read with
        | some token => (tokensFrom? .between rest).map (token :: mark :: ·)
        | none => none
  | .quoted units, c :: rest =>
    if c = '"' then
      (tokensFrom? .between rest).map
        (.quoted ((ofUnits? units.reverse).map String.ofList) :: ·)
    else if c = '\\' then tokensFrom? (.escaped units) rest
    else if c.toNat < 32 then none
    else tokensFrom? (.quoted (c.toNat :: units)) rest
  | .escaped units, c :: rest =>
    if c = 'u' then tokensFrom? (.unit units 0 3) rest
    else
      match shortEscape? c with
      | some n => tokensFrom? (.quoted (n :: units)) rest
      | none => none
  | .unit units value left, c :: rest =>
    match hexValue? c with
    | none => none
    | some d =>
      match left with
      | 0 => tokensFrom? (.quoted ((value * 16 + d) :: units)) rest
      | left + 1 => tokensFrom? (.unit units (value * 16 + d) left) rest

def tokens? (s : List Char) : Option (List Token) :=
  tokensFrom? .between s

end BuildSupervisor.Json
