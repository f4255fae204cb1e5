import BuildSupervisor.Diagnostic.Basic
import BuildSupervisor.Path.Display
/-!
# Diagnostics in one line

Compilers such as gcc and clang write a diagnostic as `file:line: severity: message` or
`file:line:column: severity: message`.  A file name may hold colons itself, so that a line can be
split in several ways; the split with the shortest file name counts.
-/

namespace BuildSupervisor.Gcc

/-- The severities as they stand in a diagnostic line. -/
def keywords : List (String × Severity) :=
  [("fatal error", .error), ("error", .error), ("warning", .warning), ("note", .note)]

/-- What stands behind the file name in a diagnostic line. -/
structure Tail where
  line : List Char
  column : Option (List Char)
  severity : Severity
  message : List Char
  deriving DecidableEq, Repr

/-- Reads `severity: message`, blanks before either; the message ends the line. -/
def readMessage? (s : List Char) : Option (Severity × List Char) :=
  match Text.takeKeyword? (s.dropWhile isBlank) keywords with
  | some (severity, ':' :: rest) =>
    let message := rest.dropWhile isBlank
    if '\n' ∈ message then none else some (severity, message)
  | _ => none

/-- Reads `digits:`. -/
def readNumber? (s : List Char) : Option (List Char × List Char) :=
  match Text.takeDigits? s with
  | some (digits, ':' :: rest) => some (digits, rest)
  | _ => none

/-- Reads all that stands behind the file name, from the colon on. -/
def readTail? : List Char → Option Tail
  | ':' :: s =>
    match readNumber? s with
    | none => none
    | some (line, s) =>
      match readNumber? s with
      | some (column, s) =>
        (readMessage? s).map fun (severity, message) => ⟨line, some column, severity, message⟩
      | none => (readMessage? s).map fun (severity, message) => ⟨line, none, severity, message⟩
  | _ => none

/-- Splits a line behind the shortest file name; a file name has a character and no line feed. -/
def splitLine? : List Char → Option (List Char × Tail)
  | [] => none
  | c :: rest =>
    if c = '\n' then none
    else
      match readTail? rest with
      | some tail => some ([c], tail)
      | none => (splitLine? rest).map fun (file, tail) => (c :: file, tail)

/-- The diagnostic that the parts of a line say; `none` if a number is too large or has digits
    other than `0` to `9`.  A line without a column is about its first one. -/
def diagnosticOf? (base : Path) (file : List Char) (tail : Tail) : Option Diagnostic :=
  match Text.readPosition? tail.line, tail.column.elim (some 1) Text.readPosition? with
  | some line, some column =>
    some ⟨resolveSource file base, line, column, tail.severity,
      String.ofList (Text.trimEnd tail.message)⟩
  | _, _ => none

def isLineEnd (c : Char) : Bool :=
  c = '\r' || c = '\n'

/-- The diagnostic that a line holds, whatever ends the line. -/
def parseLine? (line : List Char) (base : Path) : Option Diagnostic :=
  match splitLine? (Text.dropEndWhile isLineEnd line) with
  | some (file, tail) => diagnosticOf? base file tail
  | none => none

end BuildSupervisor.Gcc
