import BuildSupervisor.Shell.Syntax
import BuildSupervisor.Text.Lines
/-!
# Reading scripts

A script is read one line of commands at a time, because what is read first may be run before the
rest is looked at.  The text of a here-document is taken out of the lines that follow as soon as its
marker is read.

The parts of the language contain each other.  Every reading function takes a `Grammar` for the
parts that it contains, and `grammar` ties the knot for parts that are nested at most so deep.
-/

namespace BuildSupervisor.Shell

/-- What is left of a script. -/
structure Reader where
  rest : List Char
  line : Nat
  /-- The lines of here-documents that were taken out behind this line. -/
  hidden : Nat

/-- Why something is no script. -/
structure SyntaxError where
  line : Nat
  message : String

/-- Reads something off the front of a script. -/
abbrev Parse (α : Type) := EStateM SyntaxError Reader α

/-- Where the parts of a word stand. -/
inductive Place where
  | bare
  /-- Between double quotes. -/
  | double
  /-- In the braces of a parameter, which may stand in quotes. -/
  | braces (inQuotes : Bool)
  /-- In a text that ends where the script does. -/
  | document
  deriving DecidableEq

namespace Place

def inQuotes : Place → Bool
  | bare => false
  | double | document => true
  | braces q => q

def isBraces : Place → Bool
  | braces _ => true
  | _ => false

end Place

/-- How the parts of the language are read that contain others. -/
structure Grammar where
  word : Place → Parse Word
  /-- Commands up to something that ends them; there may be none. -/
  list : Parse Command
  command : Parse Command

namespace Parse

/-- A blank between the words of a line. -/
def isSpace (c : Char) : Bool :=
  c = ' ' || c = '\t'

/-- A character that ends a word outside quotes and braces. -/
def endsWord (c : Char) : Bool :=
  [' ', '\t', '\n', ';', '&', '|', '<', '>', '(', ')'].contains c

/-- A character that means something inside a word. -/
def isActive (c : Char) : Bool :=
  ['\'', '"', '\\', '$', '\x7d', backquote].contains c

/-- The name of a parameter of one character that is no letter. -/
def isSpecialName (c : Char) : Bool :=
  isAsciiDigit c || ['?', '#', '@', '*', '$', '!', '-'].contains c

def keywords : List String :=
  ["!", "case", "do", "done", "elif", "else", "esac", "fi", "for", "if", "in", "then", "until",
    "while", "\x7b", "\x7d"]

/-- The keywords that end a list of commands. -/
def closingKeywords : List String :=
  ["do", "done", "elif", "else", "esac", "fi", "then", "\x7d"]

/-- The operators, those first that others are the start of. -/
def operators : List String :=
  ["&&", "||", ";;", ";", "&", "|", "(", ")"]

/-! ## Characters -/

def peek? : Parse (Option Char) :=
  return (← get).rest.head?

/-- Takes the character that comes next; a line feed starts a line. -/
def next? : Parse (Option Char) := do
  let r ← get
  match r.rest with
  | [] => return none
  | '\n' :: rest =>
    set { r with rest := rest, line := r.line + 1 + r.hidden, hidden := 0 }
    return some '\n'
  | c :: rest =>
    set { r with rest := rest }
    return some c

/-- Takes a character that is known to come next. -/
def drop : Parse Unit := do
  let _ ← next?

/-- Takes the longest run of characters of a class. -/
def run (p : Char → Bool) : Parse String := do
  let r ← get
  let (taken, rest) := r.rest.span p
  set { r with rest := rest, line := r.line + taken.count '\n' }
  return String.ofList taken

/-- Whether a text comes next. -/
def ahead (text : String) : Parse Bool :=
  return text.toList.isPrefixOf (← get).rest

/-- Takes a text if it comes next. -/
def skip? (text : String) : Parse Bool := do
  let found ← ahead text
  if found then modify fun r => { r with rest := r.rest.drop text.length }
  return found

/-- Takes the first of some texts that comes next, and answers what stands beside it. -/
def firstAhead? : List (String × α) → Parse (Option α)
  | [] => return none
  | (text, a) :: others => do
    if ← skip? text then return some a else firstAhead? others

/-- The characters up to where a word ends. -/
def upcoming : Parse String :=
  return String.ofList ((← get).rest.takeWhile fun c => !endsWord c)

/-- What stands behind blanks, joined lines and a comment, and how many lines were joined. -/
def behindBlanks (joined : Nat) : List Char → Nat × List Char
  | '\\' :: '\n' :: rest => behindBlanks (joined + 1) rest
  | c :: rest =>
    if isSpace c then behindBlanks joined rest
    else if c = '#' then (joined, rest.dropWhile (· ≠ '\n'))
    else (joined, c :: rest)
  | [] => (joined, [])

/-- Leaves out blanks, joined lines and a comment. -/
def skipBlanks : Parse Unit :=
  modify fun r =>
    let (joined, rest) := behindBlanks 0 r.rest
    { r with rest := rest, line := r.line + joined }

/-- What a reading function finds until it finds nothing; `bound` bounds how often. -/
def manyUpTo (p : Parse (Option α)) : Nat → Parse (List α)
  | 0 => return []
  | bound + 1 => do
    match ← p with
    | none => return []
    | some a => return a :: (← manyUpTo p bound)

/-- What a reading function finds until it finds nothing; it takes something whenever it finds
    something. -/
def many (p : Parse (Option α)) : Parse (List α) := do
  manyUpTo p ((← get).rest.length + 1)

/-- Leaves out blanks and ends of lines. -/
def skipNewlines : Parse Unit := do
  let _ ← many do
    skipBlanks
    if ← skip? "\n" then
      modify fun r => { r with line := r.line + 1 + r.hidden, hidden := 0 }
      return some ()
    else return none

/-- Reads something from other characters, and goes on where it was. -/
def inside (chars : List Char) (parse : Parse α) : Parse α := do
  let r ← get
  set { r with rest := chars }
  let a ← parse
  set r
  return a

/-! ## Errors -/

/-- Gives up. -/
def refuse (message : String) : Parse α := do
  throw ⟨(← get).line, message⟩

def refuseSyntax (message : String) : Parse α :=
  refuse ("Syntax error: " ++ message)

def inMarks (text : String) : String :=
  "\"" ++ text ++ "\""

/-- What comes next, as it is called where it is not expected. -/
def nextName : Parse String := do
  match (← get).rest with
  | [] => return "end of file"
  | '\n' :: _ => return "newline"
  | '<' :: _ | '>' :: _ => return "redirection"
  | rest =>
    match operators.find? fun op => op.toList.isPrefixOf rest with
    | some op => return inMarks op
    | none =>
      let word ← upcoming
      return if keywords.contains word then inMarks word else "word"

/-- Gives up at what comes next; `expected` may say what should stand there. -/
def unexpected (expected : Option String) : Parse α := do
  let name ← nextName
  if ← ahead "\n" then drop
  refuseSyntax (name ++ " unexpected"
    ++ (expected.map fun e => " (expecting " ++ inMarks e ++ ")").getD "")

/-- Takes a keyword or an operator that has to come next. -/
def expect (text : String) : Parse Unit := do
  skipBlanks
  let word ← upcoming
  if word = text || (word.isEmpty && (← ahead text)) then
    let _ ← skip? text
  else unexpected (some text)

/-! ## Words -/

/-- Whether a backslash in quotes takes the meaning from a character. -/
def isEscapable (place : Place) (c : Char) : Bool :=
  c = '\\' || c = '$' || c = backquote || (c = '"' && place ≠ .document)
    || (c = '\x7d' && place.isBraces)

/-- A part behind a backslash, which is taken already. -/
def escaped (place : Place) : Parse Part := do
  match ← next? with
  | none => return .literal "\\"
  | some '\n' => return .plain ""
  | some c =>
    if place.inQuotes && !isEscapable place c then return .plain (String.ofList ['\\', c])
    else return .literal (String.singleton c)

/-- A part in single quotes, the first of which is taken already. -/
def singleQuoted : Parse Part := do
  let text ← run (· ≠ '\'')
  unless ← skip? "'" do refuseSyntax "Unterminated quoted string"
  return .literal text

/-- The characters of a command before the backquote that ends it, and those behind it. -/
def toBackquote : List Char → Option (List Char × List Char)
  | '\\' :: c :: rest =>
    let kept := if c = '\\' || c = '$' || c = backquote then [c] else ['\\', c]
    (toBackquote rest).map fun (text, behind) => (kept ++ text, behind)
  | c :: rest =>
    if c = backquote then some ([], rest)
    else (toBackquote rest).map fun (text, behind) => (c :: text, behind)
  | [] => none

/-- The output of a command in backquotes, the first of which is taken already. -/
def backquoted (g : Grammar) : Parse Part := do
  match toBackquote (← get).rest with
  | none => refuseSyntax "EOF in backquote substitution"
  | some (text, behind) =>
    modify fun r => { r with rest := behind }
    return .output (← inside text g.list)

/-- The characters of an expression before the two parentheses that end it, and those behind them;
    so many parentheses are open inside it. -/
def toParentheses : Nat → List Char → Option (List Char × List Char)
  | 0, ')' :: ')' :: rest => some ([], rest)
  | depth, c :: rest =>
    let depth := if c = '(' then depth + 1 else if c = ')' then depth - 1 else depth
    (toParentheses depth rest).map fun (text, behind) => (c :: text, behind)
  | _, [] => none

/-- The value of an expression, the two opening parentheses of which are taken already. -/
def expressionValue (g : Grammar) : Parse Part := do
  match toParentheses 0 (← get).rest with
  | none => refuseSyntax "Missing '))'"
  | some (text, behind) =>
    modify fun r => { r with rest := behind }
    return .value (← inside text (g.word .document))

/-- The changes of parameters by how they are written. -/
def changes : List (String × Change) :=
  [("\x7d", .none), (":-", .default true), ("-", .default false), (":=", .assign true),
    ("=", .assign false), (":?", .demand true), ("?", .demand false), (":+", .alternative true),
    ("+", .alternative false), ("%%", .dropEnd true), ("%", .dropEnd false),
    ("##", .dropStart true), ("#", .dropStart false)]

/-- The name of a parameter. -/
def parameterName : Parse String := do
  match ← peek? with
  | none => refuse "Bad substitution"
  | some c =>
    if startsName c then run isNameChar
    else if isAsciiDigit c then run isAsciiDigit
    else if isSpecialName c then
      drop
      return String.singleton c
    else refuse "Bad substitution"

/-- Whether the number sign that comes next asks for the length of a parameter. -/
def asksLength : Parse Bool := do
  match (← get).rest with
  | '#' :: c :: _ => return isNameChar c || c = '@' || c = '*'
  | _ => return false

/-- A parameter in braces, the first of which is taken already. -/
def braced (g : Grammar) (place : Place) : Parse Part := do
  if ← asksLength then
    drop
    let name ← parameterName
    unless ← skip? "\x7d" do refuse "Bad substitution"
    return .parameter name .length []
  let name ← parameterName
  match ← firstAhead? changes with
  | none =>
    if (← peek?).isNone then refuseSyntax "Missing '\x7d'"
    refuse "Bad substitution"
  | some .none => return .parameter name .none []
  | some change =>
    -- a pattern is not in the quotes around the braces
    let inQuotes :=
      match change with
      | .dropStart _ | .dropEnd _ => false
      | _ => place.inQuotes
    return .parameter name change (← g.word (.braces inQuotes))

/-- What stands behind a dollar sign, which is taken already. -/
def dollar (g : Grammar) (place : Place) : Parse Part := do
  if ← skip? "((" then expressionValue g
  else if ← skip? "(" then
    let c ← g.list
    expect ")"
    return .output c
  else if ← skip? "\x7b" then braced g place
  else
    match ← peek? with
    | none => return .plain "$"
    | some c =>
      if startsName c then return .parameter (← run isNameChar) .none []
      else if isSpecialName c then
        drop
        return .parameter (String.singleton c) .none []
      else return .plain "$"

/-- Whether a character is taken as it is. -/
def isOrdinary (place : Place) (c : Char) : Bool :=
  !isActive c && !(place = .bare && endsWord c)

/-- The next part of a word.  What ends the word is taken too where it is a quote or a brace. -/
def part? (g : Grammar) (place : Place) : Parse (Option Part) := do
  match ← peek?, place with
  | none, .double => refuseSyntax "Unterminated quoted string"
  | none, .braces _ => refuseSyntax "Missing '\x7d'"
  | none, _ => return none
  | some c, _ =>
    if place = .bare && endsWord c then return none
    drop
    if (c = '"' && place = .double) || (c = '\x7d' && place.isBraces) then return none
    else if c = '\\' then some <$> escaped place
    else if c = '\'' && !place.inQuotes then some <$> singleQuoted
    else if c = '"' && place ≠ .document then return some (.quoted (← g.word .double))
    else if c = '$' then some <$> dollar g place
    else if c = backquote then some <$> backquoted g
    else return some (.plain (String.singleton c ++ (← run (isOrdinary place))))

/-! ## Redirections -/

/-- The lines of a text before the one that is a marker, and what stands behind that. -/
def takeDocument (marker : List Char) (stripsTabs : Bool) :
    List (List Char) → List (List Char) × List (List Char)
  | [] => ([], [])
  | line :: rest =>
    let line := if stripsTabs then line.dropWhile (· = '\t') else line
    if line = marker then ([], rest)
    else
      let (text, behind) := takeDocument marker stripsTabs rest
      (line :: text, behind)

/-- A here-document, behind the sign for it. -/
def document (g : Grammar) (stripsTabs : Bool) : Parse Word := do
  skipBlanks
  let written ← upcoming
  let _ ← skip? written
  let isMark := fun c => c = '\'' || c = '"' || c = '\\'
  let marker := written.toList.filter fun c => !isMark c
  let r ← get
  let (line, behind) := r.rest.span (· ≠ '\n')
  let (lines, rest) :=
    takeDocument marker stripsTabs (Text.dropLastIf [] (Text.cut '\n' (behind.drop 1)))
  let text := lines.flatMap (· ++ ['\n'])
  set { r with
    rest := line ++ '\n' :: Text.join ['\n'] rest
    hidden := r.hidden + lines.length + 1 }
  if written.toList.any isMark then return [.literal (String.ofList text)]
  else return [.quoted (← inside text (g.word .document))]

/-- The redirections by how they are written, but for those from a document; each with the descriptor
    that is meant if none is named. -/
def directions : List (String × Nat × Direction) :=
  [("<&", 0, .same), ("<", 0, .input), (">>", 1, .append), (">&", 1, .same), (">|", 1, .output),
    (">", 1, .output)]

/-- A redirection, if one comes next. -/
def redirection? (g : Grammar) : Parse (Option Redirection) := do
  let r ← get
  let digits := r.rest.takeWhile isAsciiDigit
  let descriptor? := Text.readNat? 10 digits
  match r.rest.drop digits.length with
  | c :: _ =>
    unless c = '<' || c = '>' do return none
    set { r with rest := r.rest.drop digits.length }
    if ← skip? "<<-" then return some (.document (descriptor?.getD 0) (← document g true))
    if ← skip? "<<" then return some (.document (descriptor?.getD 0) (← document g false))
    match ← firstAhead? directions with
    | none => return none
    | some (usual, direction) =>
      skipBlanks
      match ← g.word .bare with
      | [] => unexpected none
      | name => return some (.file (descriptor?.getD usual) direction name)
  | [] => return none

def redirections (g : Grammar) : Parse (List Redirection) :=
  many do
    skipBlanks
    redirection? g

/-! ## Commands -/

/-- A word or a redirection of a simple command. -/
inductive Item where
  | word (w : Word)
  | redirection (r : Redirection)

def item? (g : Grammar) : Parse (Option Item) := do
  skipBlanks
  match ← redirection? g with
  | some r => return some (.redirection r)
  | none =>
    match ← g.word .bare with
    | [] => return none
    | w => return some (.word w)

/-- A simple command, or a function. -/
def simple (g : Grammar) : Parse Command := do
  let line := (← get).line
  match ← many (item? g) with
  | [] => unexpected none
  | [.word [.plain name]] =>
    if ← skip? "(" then
      unless isName name do refuseSyntax "Bad function name"
      expect ")"
      skipNewlines
      return .define name (← g.command)
    else if Word.isAssignment [.plain name] then return .simple line [[.plain name]] [] []
    else return .simple line [] [[.plain name]] []
  | items =>
    let words := items.filterMap fun
      | .word w => some w
      | .redirection _ => none
    let redirections := items.filterMap fun
      | .word _ => none
      | .redirection r => some r
    return .simple line (words.takeWhile Word.isAssignment) (words.dropWhile Word.isAssignment)
      redirections

/-- Takes a keyword if it comes next. -/
def keyword? (name : String) : Parse Bool := do
  skipBlanks
  if (← upcoming) = name then skip? name else return false

/-- Whether something comes next that ends a list of commands. -/
def endsList : Parse Bool := do
  if (← get).rest.isEmpty || (← ahead ")") || (← ahead ";;") then return true
  return closingKeywords.contains (← upcoming)

/-- A list of commands that must not be empty. -/
def body (g : Grammar) : Parse Command := do
  skipNewlines
  if ← endsList then unexpected none
  g.list

/-- What stands behind `if` or `elif` up to the next keyword. -/
def testAndBody (g : Grammar) : Parse (Command × Command) := do
  let test ← body g
  expect "then"
  return (test, ← body g)

/-- What stands behind `if`. -/
def branch (g : Grammar) : Parse Command := do
  let first ← testAndBody g
  let others ← many do
    if ← keyword? "elif" then some <$> testAndBody g else return none
  let last ← if ← keyword? "else" then body g else pure .nothing
  expect "fi"
  return (first :: others).foldr (fun (test, yes) no => .branch test yes no) last

/-- What stands behind `while` or `until`. -/
def loop (g : Grammar) (inverted : Bool) : Parse Command := do
  let test ← body g
  expect "do"
  let c ← body g
  expect "done"
  return .loop inverted test c

/-- What stands behind `for`. -/
def each (g : Grammar) : Parse Command := do
  skipBlanks
  let name ← upcoming
  unless isName name do refuseSyntax "Bad for loop variable"
  let _ ← skip? name
  skipNewlines
  let words ←
    if ← keyword? "in" then
      let words ← many do
        skipBlanks
        match ← g.word .bare with
        | [] => return none
        | w => return some w
      unless (← ahead "\n") || (← ahead ";") do unexpected none
      pure words
    else pure [[.quoted [.parameter "@" .none []]]]
  let _ ← skip? ";"
  skipNewlines
  expect "do"
  let c ← body g
  expect "done"
  return .each name words c

/-- An arm behind `case`, if there is another one. -/
def arm? (g : Grammar) : Parse (Option (List Word × Command)) := do
  skipNewlines
  if (← upcoming) = "esac" then return none
  let _ ← skip? "("
  skipBlanks
  let first ← g.word .bare
  let others ← many do
    skipBlanks
    if ← skip? "|" then
      skipBlanks
      some <$> g.word .bare
    else return none
  expect ")"
  let c ← g.list
  unless ← skip? ";;" do
    unless (← upcoming) = "esac" do unexpected (some ";;")
  return some (first :: others, c)

/-- What stands behind `case`. -/
def choose (g : Grammar) : Parse Command := do
  skipBlanks
  let subject ← g.word .bare
  if subject.isEmpty then unexpected none
  skipNewlines
  expect "in"
  let arms ← many (arm? g)
  expect "esac"
  return .choose subject arms

/-- A compound command, if one comes next. -/
def compound? (g : Grammar) : Parse (Option Command) := do
  if ← skip? "(" then
    let c ← body g
    expect ")"
    return some (.subshell c)
  else if ← keyword? "\x7b" then
    let c ← body g
    expect "\x7d"
    return some c
  else if ← keyword? "if" then some <$> branch g
  else if ← keyword? "while" then some <$> loop g false
  else if ← keyword? "until" then some <$> loop g true
  else if ← keyword? "for" then some <$> each g
  else if ← keyword? "case" then some <$> choose g
  else return none

def command (g : Grammar) : Parse Command := do
  skipBlanks
  let line := (← get).line
  match ← compound? g with
  | some c =>
    match ← redirections g with
    | [] => return c
    | rs => return .redirected line c rs
  | none => if keywords.contains (← upcoming) then unexpected none else simple g

def pipeline (g : Grammar) : Parse Command := do
  let negated ← keyword? "!"
  let first ← g.command
  let others ← many do
    skipBlanks
    if ← ahead "||" then return none
    else if ← skip? "|" then
      skipNewlines
      some <$> g.command
    else return none
  let c := if others.isEmpty then first else .pipe (first :: others)
  return if negated then .negate c else c

/-- Pipelines with `&&` and `||` between them. -/
def chain (g : Grammar) : Parse Command := do
  let first ← pipeline g
  let others ← many do
    skipBlanks
    match ← firstAhead? [("&&", Command.both), ("||", Command.either)] with
    | none => return none
    | some join =>
      skipNewlines
      return some (join, ← pipeline g)
  return others.foldl (fun c (join, next) => join c next) first

/-- A chain with what separates it from the next one. -/
def separated (g : Grammar) : Parse Command := do
  let c ← chain g
  skipBlanks
  if ← ahead ";;" then return c
  else if ← skip? ";" then return c
  else if (← ahead "\n") || (← endsList) then return c
  else unexpected none

def list (g : Grammar) : Parse Command := do
  let cs ← many do
    skipNewlines
    if ← endsList then return none else some <$> separated g
  return cs.foldr .row .nothing

/-- The commands of the next line that has any. -/
def line? (g : Grammar) : Parse (Option Command) := do
  skipNewlines
  if (← get).rest.isEmpty then return none
  let cs ← many do
    skipBlanks
    if (← get).rest.isEmpty || (← ahead "\n") then return none
    else if ← endsList then unexpected none
    else some <$> separated g
  return some (cs.foldr .row .nothing)

end Parse

/-- The grammar of scripts in which parts are nested at most so deep. -/
def grammar : Nat → Grammar
  | 0 => ⟨fun _ => Parse.refuse "too deep", Parse.refuse "too deep", Parse.refuse "too deep"⟩
  | depth + 1 =>
    { word := fun place => Parse.many (Parse.part? (grammar depth) place)
      list := Parse.list (grammar depth)
      command := Parse.command (grammar depth) }

namespace Reader

def ofText (script : String) : Reader :=
  ⟨script.toList, 1, 0⟩

/-- The commands of the next line that has any, and what is left then; `none` at the end. -/
def next (r : Reader) : Except SyntaxError (Option (Command × Reader)) :=
  match EStateM.run (Parse.line? (grammar (r.rest.length + 10))) r with
  | .error e _ => .error e
  | .ok none _ => .ok none
  | .ok (some c) r => .ok (some (c, r))

end Reader

end BuildSupervisor.Shell
