/-!
# Octets and UTF-8

File paths, values of environment variables and the output of programs are strings of octets;
everything that is shown to a person is text.  `Utf8.encode` is the UTF-8 form of a text.
`Utf8.scan` reads octets back and marks every maximal ill-formed piece with `none`, so that the
strict reader `Utf8.decode?` and the forgiving reader `Utf8.decodeLossy` cut their input in the
same places.
-/

namespace BuildSupervisor

/-- A string of octets. -/
abbrev Bytes := List UInt8

namespace Utf8

/-- The UTF-8 form of a list of characters. -/
def encodeChars (cs : List Char) : Bytes :=
  cs.flatMap String.utf8EncodeChar

/-- The UTF-8 form of a text. -/
def encode (text : String) : Bytes :=
  encodeChars text.toList

/-- An octet that continues a character. -/
def isContinuation (b : UInt8) : Bool :=
  0x80 ≤ b && b ≤ 0xBF

/-- The lead octet of a two-octet character. -/
def isLead2 (b : UInt8) : Bool :=
  0xC2 ≤ b && b ≤ 0xDF

/-- A lead octet of a three-octet character and a second octet that may follow it: neither an
    overlong form nor a surrogate. -/
def isLead3 (a b : UInt8) : Bool :=
  if a = 0xE0 then 0xA0 ≤ b && b ≤ 0xBF
  else if a = 0xED then 0x80 ≤ b && b ≤ 0x9F
  else 0xE1 ≤ a && a ≤ 0xEF && isContinuation b

/-- A lead octet of a four-octet character and a second octet that may follow it: neither an
    overlong form nor a value above the last code point. -/
def isLead4 (a b : UInt8) : Bool :=
  if a = 0xF0 then 0x90 ≤ b && b ≤ 0xBF
  else if a = 0xF4 then 0x80 ≤ b && b ≤ 0x8F
  else 0xF1 ≤ a && a ≤ 0xF3 && isContinuation b

/-- The low six bits of a continuation octet. -/
def payload (b : UInt8) : Nat :=
  b.toNat % 64

/-- The character of two octets. -/
def join2 (a b : UInt8) : Char :=
  Char.ofNat (a.toNat % 32 * 64 + payload b)

/-- The character of three octets. -/
def join3 (a b c : UInt8) : Char :=
  Char.ofNat (a.toNat % 16 * 4096 + payload b * 64 + payload c)

/-- The character of four octets. -/
def join4 (a b c d : UInt8) : Char :=
  Char.ofNat (a.toNat % 8 * 262144 + payload b * 4096 + payload c * 64 + payload d)

/-- Reads octets as characters.  A piece that is no character becomes one `none`; it is as long as
    the longest beginning of a character that stands there, and one octet where none begins. -/
def scan : Bytes → List (Option Char)
  | [] => []
  | a :: rest =>
    if a < 0x80 then some (Char.ofNat a.toNat) :: scan rest
    else match rest with
      | [] => [none]
      | b :: rest =>
        if isLead2 a && isContinuation b then some (join2 a b) :: scan rest
        else if isLead3 a b then
          match rest with
          | [] => [none]
          | c :: rest =>
            if isContinuation c then some (join3 a b c) :: scan rest
            else none :: scan (c :: rest)
        else if isLead4 a b then
          match rest with
          | [] => [none]
          | c :: rest =>
            if isContinuation c then
              match rest with
              | [] => [none]
              | d :: rest =>
                if isContinuation d then some (join4 a b c d) :: scan rest
                else none :: scan (d :: rest)
            else none :: scan (c :: rest)
        else none :: scan (b :: rest)

/-- Every element, if none is missing. -/
def allSome : List (Option α) → Option (List α)
  | [] => some []
  | none :: _ => none
  | some x :: rest => (allSome rest).map (x :: ·)

/-- The characters that well-formed octets stand for. -/
def decodeChars? (bytes : Bytes) : Option (List Char) :=
  allSome (scan bytes)

/-- The text that well-formed octets stand for. -/
def decode? (bytes : Bytes) : Option String :=
  (decodeChars? bytes).map String.ofList

/-- The character that stands for octets which are no character. -/
def replacement : Char := '\uFFFD'

/-- Reads octets as characters, each ill-formed piece as one replacement character. -/
def decodeCharsLossy (bytes : Bytes) : List Char :=
  (scan bytes).map fun c => c.getD replacement

/-- Reads octets as text, each ill-formed piece as one replacement character. -/
def decodeLossy (bytes : Bytes) : String :=
  String.ofList (decodeCharsLossy bytes)

end Utf8

end BuildSupervisor
