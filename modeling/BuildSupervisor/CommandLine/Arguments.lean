import BuildSupervisor.Config.Variables
import BuildSupervisor.Session.Basic
/-!
# The arguments of the program

Options stand before `--`, the words of the build command behind it.  An option is written with two
dashes; one that takes a value takes it from behind an equals sign or from the next argument, which
may not look like an option itself.  No option may be given twice.

The value of an option is looked at when the next option, or the end, has been reached, so that an
argument that is no option at all is found before a bad value in front of it.
-/

namespace BuildSupervisor

/-- Why arguments are not taken, or need not be. -/
inductive ArgumentError where
  | missingTarget
  | unknownArgument
  /-- An option was given twice, or two that exclude each other were given. -/
  | conflict
  | missingValue
  | badValue
  /-- An option that takes no value was given one. -/
  | unexpectedValue
  | helpRequested
  | versionRequested
  deriving DecidableEq, Repr

/-- An option that takes a value. -/
inductive ValueOption where
  | target
  | delayMs
  | watchdogSecs
  | dialect
  | config
  | command
  | cwd
  deriving DecidableEq, Repr

/-- An option that takes no value. -/
inductive Flag where
  | fromCode
  | showOutput
  | events
  | json
  | help
  | version
  deriving DecidableEq, Repr

/-- The options besides the target. -/
structure Options where
  fromCode : Bool
  showOutput : Bool
  events : Bool
  json : Bool
  delayMs : Option UInt64
  watchdogSecs : Option UInt64
  dialect : Option Dialect
  config : Option Path
  command : Option String
  cwd : Option Path
  deriving DecidableEq, Repr

namespace Options

/-- No option has been given. -/
def none : Options where
  fromCode := false
  showOutput := false
  events := false
  json := false
  delayMs := .none
  watchdogSecs := .none
  dialect := .none
  config := .none
  command := .none
  cwd := .none

end Options

/-- The arguments that a run of the program needs. -/
structure Arguments where
  target : Path
  options : Options
  /-- The words behind `--`. -/
  words : List String
  deriving DecidableEq, Repr

/-- An option whose value has not been looked at, or has not come yet. -/
structure PendingOption where
  option : ValueOption
  value : Option String
  deriving DecidableEq, Repr

/-- What has been read of the arguments. -/
structure ArgumentDraft where
  target : Option Path
  options : Options
  pending : Option PendingOption
  deriving DecidableEq, Repr

namespace ArgumentDraft

/-- Nothing has been read. -/
def empty : ArgumentDraft :=
  ⟨none, Options.none, none⟩

/-- Whether an option has a value. -/
def has (d : ArgumentDraft) : ValueOption → Bool
  | .target => d.target.isSome
  | .delayMs => d.options.delayMs.isSome
  | .watchdogSecs => d.options.watchdogSecs.isSome
  | .dialect => d.options.dialect.isSome
  | .config => d.options.config.isSome
  | .command => d.options.command.isSome
  | .cwd => d.options.cwd.isSome

/-- The path of a value, which may not be empty. -/
def readPath (value : String) : Except ArgumentError Path :=
  if value.isEmpty then .error .missingValue else .ok (Path.ofText value)

/-- The number of a value. -/
def readWord (value : String) : Except ArgumentError UInt64 :=
  match Config.readWord? value with
  | some n => .ok n
  | none => .error .badValue

def readDialect (value : String) : Except ArgumentError Dialect :=
  (Dialect.ofWord value).mapError fun _ => .badValue

/-- Gives an option its value. -/
def assign (d : ArgumentDraft) (o : ValueOption) (value : String) :
    Except ArgumentError ArgumentDraft :=
  if d.has o then .error .conflict
  else
    let put (options : Options) : ArgumentDraft := { d with options := options }
    match o with
    | .target => (readPath value).map fun p => { d with target := some p }
    | .delayMs => (readWord value).map fun n => put { d.options with delayMs := some n }
    | .watchdogSecs => (readWord value).map fun n => put { d.options with watchdogSecs := some n }
    | .dialect => (readDialect value).map fun w => put { d.options with dialect := some w }
    | .config => (readPath value).map fun p => put { d.options with config := some p }
    | .command => .ok (put { d.options with command := some value })
    | .cwd => (readPath value).map fun p => put { d.options with cwd := some p }

/-- Looks at the value of the last option. -/
def resolve (d : ArgumentDraft) : Except ArgumentError ArgumentDraft :=
  match d.pending with
  | none => .ok d
  | some ⟨_, none⟩ => .error .missingValue
  | some ⟨o, some value⟩ => { d with pending := none }.assign o value

/-- Whether a flag has been given. -/
def hasFlag (d : ArgumentDraft) : Flag → Bool
  | .fromCode => d.options.fromCode
  | .showOutput => d.options.showOutput
  | .events => d.options.events
  | .json => d.options.json
  | .help | .version => false

def raise (d : ArgumentDraft) (f : Flag) : Except ArgumentError ArgumentDraft :=
  if d.hasFlag f then .error .conflict
  else
    match f with
    | .fromCode => .ok { d with options := { d.options with fromCode := true } }
    | .showOutput => .ok { d with options := { d.options with showOutput := true } }
    | .events => .ok { d with options := { d.options with events := true } }
    | .json => .ok { d with options := { d.options with json := true } }
    | .help => .error .helpRequested
    | .version => .error .versionRequested

/-- The options that take a value, by the names behind two dashes. -/
def valueOptions : List (String × ValueOption) :=
  [("target", .target), ("delay-ms", .delayMs), ("watchdog-secs", .watchdogSecs),
    ("dialect", .dialect), ("config", .config), ("command", .command), ("cwd", .cwd)]

/-- The options that take no value, by the names behind two dashes. -/
def flags : List (String × Flag) :=
  [("from-code", .fromCode), ("show-output", .showOutput), ("events", .events), ("json", .json),
    ("help", .help), ("version", .version)]

/-- The name behind two dashes, and the value behind the first equals sign, if there is one. -/
def splitValue (s : List Char) : String × Option String :=
  (String.ofList (s.takeWhile (· ≠ '=')),
    match s.dropWhile (· ≠ '=') with
    | [] => none
    | _ :: value => some (String.ofList value))

/-- Takes an option by its name, with the value behind an equals sign. -/
def readOption (d : ArgumentDraft) (name : String) (attached : Option String) :
    Except ArgumentError ArgumentDraft :=
  match valueOptions.lookup name, flags.lookup name, attached with
  | some o, _, some value => d.resolve.bind fun d => d.assign o value
  | some o, _, none => d.resolve.map fun d => { d with pending := some ⟨o, none⟩ }
  | none, some _, some _ => .error .unexpectedValue
  | none, some f, none => d.resolve.bind fun d => d.raise f
  | none, none, _ => .error .unknownArgument

/-- Takes an option by the letter behind one dash. -/
def readLetter (d : ArgumentDraft) (letter : Char) : Except ArgumentError ArgumentDraft :=
  if letter = 'h' then d.resolve.bind fun d => d.raise .help
  else if letter = 'V' then d.resolve.bind fun d => d.raise .version
  else .error .unknownArgument

/-- Takes an argument that is no option: the value of the last option, if that still waits for
    one. -/
def readValue (d : ArgumentDraft) (arg : String) : Except ArgumentError ArgumentDraft :=
  match d.pending with
  | some ⟨o, none⟩ => .ok { d with pending := some ⟨o, some arg⟩ }
  | _ => .error .unknownArgument

def readOne (d : ArgumentDraft) (arg : String) : Except ArgumentError ArgumentDraft :=
  match arg.toList with
  | '-' :: '-' :: rest => d.readOption (splitValue rest).1 (splitValue rest).2
  | '-' :: letter :: _ => d.readLetter letter
  | _ => d.readValue arg

/-- Takes the arguments up to `--`; says which ones stand behind it. -/
def read (d : ArgumentDraft) : List String → Except ArgumentError (ArgumentDraft × List String)
  | [] => .ok (d, [])
  | arg :: rest =>
    if arg = "--" then .ok (d, rest)
    else
      match d.readOne arg with
      | .ok d => d.read rest
      | .error e => .error e

end ArgumentDraft

namespace Arguments

/-- Ends the reading of arguments in front of the words of a command. -/
def ofDraft (d : ArgumentDraft) (words : List String) : Except ArgumentError Arguments :=
  match d.resolve with
  | .error e => .error e
  | .ok d =>
    if d.options.command.isSome && !words.isEmpty then .error .conflict
    else
      match d.target with
      | none => .error .missingTarget
      | some target => .ok ⟨target, d.options, words⟩

/-- Reads the arguments of the program. -/
def parse (args : List String) : Except ArgumentError Arguments :=
  match ArgumentDraft.empty.read args with
  | .error e => .error e
  | .ok (d, words) => ofDraft d words

def request (a : Arguments) : BuildRequest :=
  ⟨a.target, a.options.fromCode, a.options.showOutput⟩

end Arguments

end BuildSupervisor
