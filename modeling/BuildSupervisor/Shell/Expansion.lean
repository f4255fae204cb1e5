import BuildSupervisor.Shell.Machine
/-!
# Values of words

What stands in a word gets its value from the left to the right: parameters, the output of commands
and expressions.
-/

namespace BuildSupervisor.Shell

/-- What the parts of a shell need of the whole. -/
structure Self where
  /-- Runs a command; the flag says that somebody looks whether it fails. -/
  run : Bool → Command → ShellM Unit
  /-- The segments of a word, which may stand in quotes. -/
  expand : Bool → Word → ShellM (List Segment)
  /-- Becomes the program at a path that is called with words, and says how that ends. -/
  become : String → List String → ShellM ExitStatus
  /-- What a command writes. -/
  output : Command → ShellM String

namespace Expansion

open ShellM

def text (self : Self) (quoted : Bool) (w : Word) : ShellM String :=
  return Segment.plainText (← self.expand quoted w)

def patternOf (self : Self) (w : Word) : ShellM Pattern :=
  return Pattern.ofMarked (Segment.marked (← self.expand false w))

def separators : ShellM (List Char) :=
  return ((← value? "IFS").map String.toList).getD defaultSeparators

def fields (self : Self) (w : Word) : ShellM (List String) :=
  return fieldsOf (← separators) (← self.expand false w)

/-- The value of a parameter, if it has one. -/
def parameter? (name : String) : ShellM (Option String) := do
  let s ← shell
  match name with
  | "@" | "*" =>
    let between := String.ofList ((← separators).take 1)
    return some (between.intercalate s.args)
  | "#" => return some (Text.showNat s.args.length)
  | "?" => return some (Text.showNat s.status)
  | "$" => return some (Text.showNat s.process)
  | "!" => return none
  | "-" => return some (String.ofList s.options)
  | _ =>
    match Text.readNat? UInt32.size name.toList with
    | some 0 => return some s.name
    | some (n + 1) => return s.args[n]?
    | none => value? name

/-- The value of a parameter as a part of a word. -/
def valueSegments (quoted : Bool) (name text : String) : ShellM (List Segment) := do
  if name = "@" || (name = "*" && !quoted) then
    return Segment.ofArguments quoted (← shell).args
  else return if quoted then [.text text true] else [.value text]

def missing (name message : String) : ShellM α :=
  fail (name ++ ": " ++ message)

/-- What is said of a parameter without a value where nothing else is. -/
def missingMessage (orEmpty : Bool) : String :=
  if orEmpty then "parameter not set or null" else "parameter not set"

/-- The value of a parameter that is used; the shell may be told that it has to have one. -/
def used (name : String) (value : Option String) : ShellM String := do
  match value with
  | some text => return text
  | none => if ← isOn 'u' then missing name (missingMessage false) else return ""

/-- Whether a value does not count as one. -/
def isMissing (orEmpty : Bool) (value : Option String) : Bool :=
  value.all fun text => orEmpty && text.isEmpty

/-- The segments of a word that takes the place of a value. -/
def instead (self : Self) (quoted : Bool) (w : Word) : ShellM (List Segment) :=
  return (← self.expand quoted w).map Segment.asValue

def parameterSegments (self : Self) (quoted : Bool) (name : String) (change : Change)
    (argument : Word) : ShellM (List Segment) := do
  let value ← parameter? name
  let plainly := valueSegments quoted name (value.getD "")
  match change with
  | .none => valueSegments quoted name (← used name value)
  | .length => valueSegments quoted "" (Text.showNat (← used name value).length)
  | .default orEmpty =>
    if isMissing orEmpty value then instead self quoted argument else plainly
  | .alternative orEmpty =>
    if isMissing orEmpty value then return [] else instead self quoted argument
  | .assign orEmpty =>
    if !isMissing orEmpty value then plainly
    else
      unless isName name do missing name "bad variable name"
      let t ← text self quoted argument
      assign name t
      valueSegments quoted name t
  | .demand orEmpty =>
    if !isMissing orEmpty value then plainly
    else if argument.isEmpty then missing name (missingMessage orEmpty)
    else missing name (← text self quoted argument)
  | .dropStart longest =>
    let t ← used name value
    let p ← patternOf self argument
    valueSegments quoted "" (String.ofList (p.dropStart longest t.toList))
  | .dropEnd longest =>
    let t ← used name value
    let p ← patternOf self argument
    valueSegments quoted "" (String.ofList (p.dropEnd longest t.toList))

/-- The value of an expression, in which a name stands for the number that is its value. -/
def number (expression : String) : ShellM Int := do
  let s ← shell
  let valueOf := fun name =>
    (integer? ((Variable.mk (s.own name) (s.environment.value name)).value?.getD "")).getD 0
  match Arithmetic.evaluate valueOf expression with
  | .ok n => return n
  | .error message => fail ("arithmetic expression: " ++ message ++ ": \"" ++ expression ++ "\"")

def partSegments (self : Self) (quoted : Bool) : Part → ShellM (List Segment)
  | .plain text => return [.text text quoted]
  | .literal text => return [.mark, .text text true]
  | .quoted [.parameter "@" .none []] => do parameterSegments self true "@" .none []
  | .quoted inside => return .mark :: (← self.expand true inside)
  | .parameter name change argument => parameterSegments self quoted name change argument
  | .output command => do
    let text := Text.dropEndWhile (· = '\n') (← self.output command).toList
    valueSegments quoted "" (String.ofList text)
  | .value expression => do
    let n ← number (← text self true expression)
    valueSegments quoted "" (showInt n)

def segments (self : Self) (quoted : Bool) (w : Word) : ShellM (List Segment) :=
  return (← w.mapM (partSegments self quoted)).flatten

/-- The name and the value of an assignment. -/
def assignment? (self : Self) (w : Word) : ShellM (Option (String × String)) := do
  match Shell.assignment? w.start with
  | none => return none
  | some (name, _) => return some (name, ← text self false (w.dropPlain (name.length + 1)))

end Expansion

end BuildSupervisor.Shell
