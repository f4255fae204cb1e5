/-!
# Words of a command line

A command line in one text is split into words at blanks, tabs and line feeds.  Quotes and
backslashes keep these characters inside a word, and a `#` where a word would start opens a
comment up to the end of its line.  Nothing else has a meaning: no variables, no patterns.
-/

namespace BuildSupervisor.Words

/-- Where the splitter stands.  What has been read of a word is kept last character first. -/
inductive State where
  /-- Between words. -/
  | gap
  | comment
  | word (read : List Char)
  /-- Behind a backslash outside quotes. -/
  | escaped (read : List Char)
  /-- Between single quotes. -/
  | single (read : List Char)
  /-- Between double quotes. -/
  | double (read : List Char)
  /-- Behind a backslash between double quotes. -/
  | doubleEscaped (read : List Char)
  deriving DecidableEq, Repr

/-- A character that ends a word. -/
def isGap (c : Char) : Bool :=
  c = ' ' || c = '\t' || c = '\n'

/-- A character that a backslash between double quotes makes an ordinary one. -/
def isEscapable (c : Char) : Bool :=
  c = '$' || c.toNat = 96 || c = '"' || c = '\\'

/-- Reads one character of a word, outside quotes and no blank. -/
def inWord (read : List Char) (c : Char) : State :=
  if c = '"' then .double read
  else if c = '\'' then .single read
  else if c = '\\' then .escaped read
  else .word (c :: read)

/-- Reads one character: the state behind it, and the word that it ends, if it ends one. -/
def State.next : State → Char → Option (List Char) × State
  | .gap, c =>
    if isGap c then (none, .gap)
    else if c = '#' then (none, .comment)
    else (none, inWord [] c)
  | .comment, c => (none, if c = '\n' then .gap else .comment)
  | .word read, c => if isGap c then (some read.reverse, .gap) else (none, inWord read c)
  | .escaped read, c => (none, .word (if c = '\n' then read else c :: read))
  | .single read, c => (none, if c = '\'' then .word read else .single (c :: read))
  | .double read, c =>
    (none,
      if c = '"' then .word read
      else if c = '\\' then .doubleEscaped read
      else .double (c :: read))
  | .doubleEscaped read, c =>
    (none,
      .double
        (if c = '\n' then read else if isEscapable c then c :: read else c :: '\\' :: read))

/-- The words from a state on; `none` if a quote is not closed or nothing stands behind a
    backslash. -/
def splitFrom? : State → List Char → Option (List (List Char))
  | .gap, [] | .comment, [] => some []
  | .word read, [] => some [read.reverse]
  | _, [] => none
  | s, c :: rest =>
    match s.next c with
    | (none, s) => splitFrom? s rest
    | (some word, s) => (splitFrom? s rest).map (word :: ·)

/-- The words of a command line. -/
def split? (line : List Char) : Option (List (List Char)) :=
  splitFrom? .gap line

end BuildSupervisor.Words
