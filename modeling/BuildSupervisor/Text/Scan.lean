/-!
# Scanners

A scanner takes something off the front of a text, or fails.
-/

namespace BuildSupervisor

/-- Takes something off the front of a text, or fails. -/
abbrev Scan (α : Type) := StateT (List Char) Option α

namespace Scan

def fail : Scan α :=
  fun _ => none

/-- The character that comes next, left where it is. -/
def peek? : Scan (Option Char) :=
  fun s => some (s.head?, s)

/-- Takes the given characters, if they come next. -/
def skip? (expected : List Char) : Scan Bool :=
  fun s => some (if expected.isPrefixOf s then (true, s.drop expected.length) else (false, s))

/-- Takes the given characters. -/
def skip (expected : List Char) : Scan Unit := do
  unless ← skip? expected do fail

/-- Takes one character of a class. -/
def one (p : Char → Bool) : Scan Char :=
  fun
    | c :: rest => if p c then some (c, rest) else none
    | [] => none

/-- Takes the longest run of characters of a class. -/
def run (p : Char → Bool) : Scan (List Char) :=
  fun s => some (s.takeWhile p, s.dropWhile p)

/-- Scans, or takes nothing where the scanner fails. -/
def attempt (scan : Scan α) : Scan (Option α) :=
  fun s =>
    match scan s with
    | some (a, rest) => some (some a, rest)
    | none => some (none, s)

/-- The first scanner that does not fail. -/
def orElse (first second : Scan α) : Scan α :=
  fun s => (first s).orElse fun _ => second s

end Scan

end BuildSupervisor
