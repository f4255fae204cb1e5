import BuildSupervisor.Json.Basic
import BuildSupervisor.Text.Scan
/-!
# Values that are kept

A value that has to be kept until it is known what it is must be sound all over, also where a
reader who knows would pass over it: its texts must be whole, its numbers within range, and its
brackets not too deep.
-/

namespace BuildSupervisor.Json

open Scan

/-- The value of decimal digits; no digits count as zero. -/
def digitsValue (digits : List Char) : Nat :=
  (Text.readDigits 0 digits).getD 0

/-- The power of ten behind an exponent mark, if one comes next. -/
def power : Scan Int := do
  unless (← skip? ['e']) do
    unless (← skip? ['E']) do return 0
  if ← skip? ['-'] then return -(digitsValue (← run isAsciiDigit) : Int)
  let _ ← skip? ['+']
  return digitsValue (← run isAsciiDigit)

/-- The parts of a written number: `(m, e)` for `m * 10 ^ e`, the sign left aside. -/
def magnitude : Scan (Nat × Int) := do
  let _ ← skip? ['-']
  let whole ← run isAsciiDigit
  let fraction ← if ← skip? ['.'] then run isAsciiDigit else pure []
  return (digitsValue (whole ++ fraction), (← power) - (fraction.length : Int))

/-- Whether a written number is within the range of the binary numbers of 64 bits. -/
def isInRange (digits : String) : Bool :=
  match magnitude digits.toList with
  | some ((mantissa, exponent), _) => !Text.isTooLarge mantissa exponent
  | none => false

mutual

/-- Whether a value can be kept where `room` more brackets may be opened. -/
def canBeKept (room : Nat) : Json → Bool
  | .broken => false
  | .natural n => !Text.isTooLarge n 0
  | .number digits => isInRange digits
  | .array elements => 0 < room && allKept (room - 1) elements
  | .object members => 0 < room && allMembersKept (room - 1) members
  | _ => true

/-- Whether every element can be kept. -/
def allKept (room : Nat) : List Json → Bool
  | [] => true
  | v :: rest => canBeKept room v && allKept room rest

/-- Whether the value of every member can be kept. -/
def allMembersKept (room : Nat) : List (String × Json) → Bool
  | [] => true
  | (_, v) :: rest => canBeKept room v && allMembersKept room rest

end

end BuildSupervisor.Json
