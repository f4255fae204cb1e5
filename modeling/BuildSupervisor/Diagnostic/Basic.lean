import BuildSupervisor.Text.CharClass
import BuildSupervisor.Text.Numeral
/-!
# Diagnostics

A diagnostic is one message of a compiler about one place in a source file.  Its written form,
`Diagnostic.render`, is the one-line form `file:line:column: severity: message`.
-/

namespace BuildSupervisor

/-- How grave a diagnostic is. -/
inductive Severity where
  | error
  | warning
  | note
  deriving DecidableEq, Repr

namespace Severity

/-- The word a severity is written with. -/
def name : Severity → String
  | .error => "error"
  | .warning => "warning"
  | .note => "note"

/-- Whether the diagnostic is an error. -/
def isError (s : Severity) : Bool :=
  s = .error

/-- The severity a compiler's keyword stands for, in any case and with any blanks around it. -/
def ofKeyword? (word : String) : Option Severity :=
  match String.ofList (Text.keyword word.toList) with
  | "error" | "fatal error" => some .error
  | "warning" => some .warning
  | "note" | "help" | "info" => some .note
  | _ => none

end Severity

/-- A message of a compiler and the place it is about; lines and columns count from one. -/
structure Diagnostic where
  sourceFile : String
  line : UInt32
  column : UInt32
  severity : Severity
  message : String
  deriving DecidableEq, Repr

namespace Diagnostic

/-- The one-line form `file:line:column: severity: message`. -/
def render (d : Diagnostic) : String :=
  d.sourceFile ++ ":" ++ Text.showNat d.line.toNat ++ ":" ++ Text.showNat d.column.toNat ++ ": "
    ++ d.severity.name ++ ": " ++ d.message

/-- How many diagnostics there are of each severity. -/
structure Summary where
  errors : Nat
  warnings : Nat
  notes : Nat
  deriving DecidableEq, Repr

def count (s : Severity) (ds : List Diagnostic) : Nat :=
  ds.countP fun d => d.severity = s

/-- The summary of a list of diagnostics. -/
def summarize (ds : List Diagnostic) : Summary :=
  ⟨count .error ds, count .warning ds, count .note ds⟩

/-- The number of diagnostics in a summary. -/
def Summary.total (s : Summary) : Nat :=
  s.errors + s.warnings + s.notes

/-- A summary as it is shown. -/
def Summary.render (s : Summary) : String :=
  Text.showNat s.errors ++ " error(s), " ++ Text.showNat s.warnings ++ " warning(s), "
    ++ Text.showNat s.notes ++ " note(s)"

end Diagnostic

namespace Text

/-- Cuts the longest start of decimal digits off; `none` where there is no digit. -/
def takeDigits? (s : List Char) : Option (List Char × List Char) :=
  match s.takeWhile isDecimalDigit with
  | [] => none
  | digits => some (digits, s.dropWhile isDecimalDigit)

/-- A line or column number: digits `0` to `9` that stand for a number below `2 ^ 32`. -/
def readPosition? (digits : List Char) : Option UInt32 :=
  (readNat? UInt32.size digits).map UInt32.ofNat

/-- What is behind `start`, if `s` starts with it. -/
def dropPrefix? : (start s : List Char) → Option (List Char)
  | [], s => some s
  | _ :: _, [] => none
  | a :: start, b :: s => if a = b then dropPrefix? start s else none

/-- The first of the keywords that `s` starts with, with its meaning and what is behind it. -/
def takeKeyword? (s : List Char) : List (String × α) → Option (α × List Char)
  | [] => none
  | (word, meaning) :: others =>
    match dropPrefix? word.toList s with
    | some rest => some (meaning, rest)
    | none => takeKeyword? s others

end Text

end BuildSupervisor
