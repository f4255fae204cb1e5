import BuildSupervisor.Diagnostic.Basic
import BuildSupervisor.Path.Display
/-!
# Diagnostics in two lines

The rustc compiler writes a diagnostic as a header, `error[E0308]: mismatched types`, and a
location below it, `  --> src/main.rs:5:10`.  Other lines may stand between and around them.  The
first location below a header is the place of the diagnostic; a header without a location, such
as `error: aborting`, says nothing about a place and gives no diagnostic.
-/

namespace BuildSupervisor.Rustc

/-- The severities as they stand in a header. -/
def keywords : List (String × Severity) :=
  [("error", .error), ("warning", .warning), ("note", .note), ("help", .note)]

/-- What a header says. -/
structure Header where
  severity : Severity
  message : List Char
  deriving DecidableEq, Repr

/-- What a location says, the numbers as written. -/
structure Location where
  file : List Char
  line : List Char
  column : List Char
  deriving DecidableEq, Repr

/-- A letter or digit of an error code. -/
def isCodeChar (c : Char) : Bool :=
  isAsciiLetter c || isAsciiDigit c

/-- The message behind the colon of a header: at least one character, blanks around it dropped. -/
def readMessage? : List Char → Option (List Char)
  | [] => none
  | s => if '\n' ∈ s.dropWhile isBlank then none else some (Text.trim s)

/-- Reads a header: a severity, an error code in brackets or none, a colon and a message. -/
def readHeader? (line : List Char) : Option Header :=
  match Text.takeKeyword? line keywords with
  | some (severity, ':' :: rest) => (readMessage? rest).map (⟨severity, ·⟩)
  | some (severity, '[' :: rest) =>
    match rest.takeWhile isCodeChar, rest.dropWhile isCodeChar with
    | [], _ => none
    | code, ']' :: ':' :: rest =>
      (readMessage? rest).map fun message =>
        ⟨severity, '[' :: code ++ ']' :: ' ' :: message⟩
    | _, _ => none
  | _ => none

/-- Reads `:line:column` and blanks up to the end of the line. -/
def readPlace? : List Char → Option (List Char × List Char)
  | ':' :: s =>
    match Text.takeDigits? s with
    | some (line, ':' :: s) =>
      match Text.takeDigits? s with
      | some (column, rest) => if rest.all isBlank then some (line, column) else none
      | none => none
    | _ => none
  | _ => none

/-- Splits `file:line:column`; a file name has a character and no line feed. -/
def splitPlace? : List Char → Option Location
  | [] => none
  | c :: rest =>
    if c = '\n' then none
    else
      match readPlace? rest with
      | some (line, column) => some ⟨[c], line, column⟩
      | none => (splitPlace? rest).map fun l => { l with file := c :: l.file }

/-- Reads a location: an arrow with blanks around it, a file, a line and a column.  Where nothing
    but blanks stands for the file, the last of them is its name. -/
def readLocation? (line : List Char) : Option Location :=
  match Text.dropPrefix? ['-', '-', '>'] (line.dropWhile isBlank) with
  | none => none
  | some s =>
    match splitPlace? (s.dropWhile isBlank) with
    | some l => some l
    | none =>
      match (s.takeWhile isBlank).getLast? with
      | some blank => splitPlace? (blank :: s.dropWhile isBlank)
      | none => none

/-- The diagnostic of a header and its location; `none` if a number is too large or has digits
    other than `0` to `9`. -/
def diagnosticOf? (base : Path) (header : Header) (location : Location) : Option Diagnostic :=
  match Text.readPosition? location.line, Text.readPosition? location.column with
  | some line, some column =>
    some ⟨resolveSource location.file base, line, column, header.severity,
      String.ofList header.message⟩
  | _, _ => none

/-- The diagnostics of the lines, below the header that still waits for its location. -/
def collect (base : Path) : Option Header → List (List Char) → List Diagnostic
  | _, [] => []
  | waiting, line :: rest =>
    match readHeader? line with
    | some header => collect base (some header) rest
    | none =>
      match readLocation? line, waiting with
      | some location, some header =>
        (diagnosticOf? base header location).toList ++ collect base none rest
      | _, _ => collect base waiting rest

end BuildSupervisor.Rustc
