import BuildSupervisor.Text.CharClass
/-!
# Numbers as text
-/

namespace BuildSupervisor.Text

/-- The value of a digit `0` to `9`. -/
def digitValue? (c : Char) : Option Nat :=
  if isAsciiDigit c then some (c.toNat - 48) else none

/-- Reads decimal digits behind the value read so far. -/
def readDigits (value : Nat) : List Char → Option Nat
  | [] => some value
  | c :: rest =>
    match digitValue? c with
    | some d => readDigits (value * 10 + d) rest
    | none => none

/-- The number that one or more digits `0` to `9` stand for, if it is below `bound`. -/
def readNat? (bound : Nat) (digits : List Char) : Option Nat :=
  match digits with
  | [] => none
  | _ =>
    match readDigits 0 digits with
    | some n => if n < bound then some n else none
    | none => none

/-- As `readNat?`, after an optional plus sign. -/
def readUnsigned? (bound : Nat) : List Char → Option Nat
  | '+' :: digits => readNat? bound digits
  | digits => readNat? bound digits

/-- The decimal digits of a number. -/
def showNat (n : Nat) : String :=
  String.ofList (Nat.toDigits 10 n)

/-- Whether `mantissa * 10 ^ exponent` is too large for a binary floating-point number of 64
    bits. -/
def isTooLarge (mantissa : Nat) (exponent : Int) : Bool :=
  let magnitude := (Nat.toDigits 10 mantissa).length + exponent
  if mantissa = 0 || magnitude < 300 then false
  else if 320 < magnitude then true
  else
    let bound := Nat.pow 2 1024 - Nat.pow 2 970
    if 0 ≤ exponent then bound ≤ mantissa * Nat.pow 10 exponent.toNat
    else bound * Nat.pow 10 exponent.natAbs ≤ mantissa

end BuildSupervisor.Text
