import BuildSupervisor.Shell.Expansion
/-!
# Commands of the shell

The commands that run no other commands.  A command answers how it ends.
-/

namespace BuildSupervisor.Shell

namespace Builtin

open ShellM

/-! ## Escapes -/

/-- The characters that a letter behind a backslash stands for. -/
def escapes : List (Char × Char) :=
  [('\\', '\\'), ('a', Char.ofNat 7), ('b', Char.ofNat 8), ('e', Char.ofNat 27),
    ('f', Char.ofNat 12), ('n', '\n'), ('r', '\r'), ('t', '\t'), ('v', Char.ofNat 11)]

def isOctalDigit (c : Char) : Bool :=
  48 ≤ c.toNat && c.toNat ≤ 55

/-- The character that is escaped at the front of a text, the backslash itself where nothing is; and
    what is behind it. -/
def escapeAt (chars : List Char) : Char × List Char :=
  match (chars.take 3).takeWhile isOctalDigit, chars with
  | d :: ds, _ =>
    let code := (d :: ds).foldl (fun n c => n * 8 + (c.toNat - 48)) 0
    (Char.ofNat (code % 256), chars.drop (ds.length + 1))
  | [], c :: rest =>
    match escapes.lookup c with
    | some e => (e, rest)
    | none => ('\\', chars)
  | [], [] => ('\\', [])

/-- A text with the characters that its escapes stand for, and whether it asks for everything to end
    there; `bound` bounds its length. -/
def unescape : Nat → List Char → List Char × Bool
  | 0, _ => ([], false)
  | _, [] => ([], false)
  | _ + 1, '\\' :: 'c' :: _ => ([], true)
  | bound + 1, '\\' :: rest =>
    -- a zero may stand before three more octal digits
    let rest :=
      match rest with
      | '0' :: c :: behind => if isOctalDigit c then c :: behind else rest
      | _ => rest
    let (e, behind) := escapeAt rest
    let (text, ends) := unescape bound behind
    (e :: text, ends)
  | bound + 1, c :: rest =>
    let (text, ends) := unescape bound rest
    (c :: text, ends)

def unescapeText (text : String) : String × Bool :=
  let (chars, ends) := unescape (text.length + 1) text.toList
  (String.ofList chars, ends)

/-- Words with blanks between them on a line, which may be left unended. -/
def lineOf (quiet escaped : Bool) (words : List String) : String :=
  let text := " ".intercalate words
  let (text, ended) := if escaped then unescapeText text else (text, false)
  if quiet || ended then text else text ++ "\n"

def echo (args : List String) : ShellM Nat := do
  let quiet := args.head? = some "-n"
  write 1 (lineOf quiet true (if quiet then args.tail else args))
  return 0

/-! ## Formats -/

/-- What comes of a format so far. -/
structure Printed where
  text : String
  /-- What was complained about. -/
  faults : List String
  args : List String
  /-- Whether nothing more is written. -/
  ended : Bool

namespace Printed

def put (p : Printed) (text : String) : Printed :=
  { p with text := p.text ++ text }

def blame (p : Printed) (message : String) : Printed :=
  { p with faults := p.faults ++ [message] }

/-- Shows the next argument as a letter says. -/
def show_ (p : Printed) (kind : Char) : Printed :=
  let arg := p.args.head?.getD ""
  let p := { p with args := p.args.tail }
  match kind with
  | 's' => p.put arg
  | 'c' => p.put (String.ofList (arg.toList.take 1))
  | 'b' =>
    let (text, ends) := unescapeText arg
    { p.put text with ended := ends }
  | 'd' | 'i' =>
    match if arg.isEmpty then some 0 else integer? arg with
    | some n => p.put (showInt n)
    | none => (p.put "0").blame (arg ++ ": expected numeric value")
  | _ => { p.blame ("%" ++ String.singleton kind ++ ": invalid directive") with ended := true }

/-- Goes through a format once; `bound` bounds the number of its parts. -/
def once : Nat → Printed → List Char → Printed
  | 0, p, _ => p
  | _, p, [] => p
  | bound + 1, p, '\\' :: rest =>
    let (e, behind) := escapeAt rest
    once bound (p.put (String.singleton e)) behind
  | _, p, ['%'] => p.blame "missing format character"
  | bound + 1, p, '%' :: '%' :: rest => once bound (p.put "%") rest
  | bound + 1, p, '%' :: kind :: rest =>
    let p := p.show_ kind
    if p.ended then p else once bound p rest
  | bound + 1, p, c :: rest => once bound (p.put (String.singleton c)) rest

/-- Goes through a format until all arguments are used; `bound` bounds how often. -/
def all (format : List Char) : Nat → Printed → Printed
  | 0, p => p
  | bound + 1, p =>
    let after := once (format.length + 1) p format
    if after.ended || after.args.isEmpty || after.args.length = p.args.length then after
    else all format bound after

end Printed

/-- Writes arguments by a format. -/
def printf (args : List String) : ShellM Nat := do
  match if args.head? = some "--" then args.tail else args with
  | [] => fail "printf: usage: printf format [arg ...]"
  | format :: args =>
    let p := Printed.all format.toList (args.length + 1) ⟨"", [], args, false⟩
    p.faults.forM fun message => complain ("printf: " ++ message)
    write 1 p.text
    return if p.faults.isEmpty then 0 else 1

/-! ## Conditions -/

def isUnary (op : String) : Bool :=
  ["-n", "-z", "-e", "-f", "-d", "-r", "-w", "-x", "-s"].contains op

def unary (fs : FileSystem) (op word : String) : Bool :=
  match op with
  | "-n" => !word.isEmpty
  | "-z" => word.isEmpty
  | _ =>
    match op, fs.find ⟨octetsOf word⟩ with
    | _, .error _ => false
    | "-f", .ok (_, node) => node ≠ .directory
    | "-d", .ok (_, node) => node = .directory
    | "-s", .ok (_, node) => node ≠ .file []
    | "-x", .ok (_, node) => node = .directory
    | _, .ok _ => true

/-- A comparison of two numbers. -/
def comparison? (op : String) : Option (Int → Int → Bool) :=
  match op with
  | "-eq" => some fun a b => a = b
  | "-ne" => some fun a b => a ≠ b
  | "-lt" => some fun a b => a < b
  | "-le" => some fun a b => a ≤ b
  | "-gt" => some fun a b => b < a
  | "-ge" => some fun a b => b ≤ a
  | _ => none

def isBinary (op : String) : Bool :=
  op = "=" || op = "!=" || (comparison? op).isSome

def binary (op a b : String) : Except String Bool :=
  match op, comparison? op with
  | "=", _ => return a = b
  | "!=", _ => return a ≠ b
  | _, none => throw (op ++ ": unexpected operator")
  | _, some compare =>
    match integer? a, integer? b with
    | some m, some n => return compare m n
    | none, _ => throw ("Illegal number: " ++ a)
    | _, none => throw ("Illegal number: " ++ b)

/-- Whether the condition of some words holds; it may be negated. -/
def condition (fs : FileSystem) : List String → Except String Bool
  | [] => return false
  | [a] => return !a.isEmpty
  | [a, op, b] =>
    if isBinary op then binary op a b
    else if a = "!" then (!·) <$> condition fs [op, b]
    else throw (op ++ ": unexpected operator")
  | a :: rest =>
    if a = "!" then (!·) <$> condition fs rest
    else
      match rest with
      | [b] => if isUnary a then return unary fs a b else throw (a ++ ": unexpected operator")
      | _ => throw (rest.head?.getD "" ++ ": unexpected operator")

def test (name : String) (args : List String) : ShellM Nat := do
  match condition (← files) args with
  | .ok holds => return if holds then 0 else 1
  | .error message => fail (name ++ ": " ++ message)

/-- The condition between brackets. -/
def bracket (args : List String) : ShellM Nat := do
  if args.getLast? = some "]" then test "[" args.dropLast else fail "[: missing ]"

/-! ## Variables -/

/-- Gives variables values, and lets programs get them. -/
def export_ (args : List String) : ShellM Nat := do
  args.forM fun arg => do
    let (name, text) := (arg.toList.takeWhile (· ≠ '='), assignment? arg)
    let name := String.ofList name
    unless isName name do fail ("export: " ++ name ++ ": bad variable name")
    text.forM fun (_, text) => assign name text
    putVariable name (← variableNamed name).export_
  return 0

/-- Takes the values of variables away. -/
def unset (args : List String) : ShellM Nat := do
  args.forM fun name => putVariable name ⟨none, none⟩
  return 0

/-- The number that an argument of a command stands for. -/
def number (command arg : String) : ShellM Nat := do
  match Text.readNat? UInt32.size arg.toList with
  | some n => return n
  | none => fail (command ++ ": Illegal number: " ++ arg)

/-- Leaves out the first arguments. -/
def shift (args : List String) : ShellM Nat := do
  let n ← number "shift" (args.head?.getD "1")
  if (← shell).args.length < n then fail "shift: can't shift that many"
  change fun s => { s with args := s.args.drop n }
  return 0

/-- Switches options by their letters. -/
def switch (on : Bool) (letters : List Char) : ShellM Unit := do
  letters.forM fun letter => do
    unless ['e', 'u'].contains letter do
      fail ("Illegal option -" ++ String.singleton letter)
    change fun s =>
      let others := s.options.filter (· ≠ letter)
      { s with options := if on then letter :: others else others }

/-- Changes options and arguments. -/
def set_ : List String → ShellM Nat
  | [] => return 0
  | arg :: rest => do
    match arg.toList with
    | ['-', '-'] => change fun s => { s with args := rest }
    | '-' :: c :: letters =>
      switch true (c :: letters)
      return ← set_ rest
    | '+' :: c :: letters =>
      switch false (c :: letters)
      return ← set_ rest
    | _ => change fun s => { s with args := arg :: rest }
    return 0

/-! ## Surroundings -/

/-- Goes to another directory. -/
def cd (args : List String) : ShellM Nat := do
  let dir ← match args with
    | [] => value "HOME"
    | "-" :: _ => value "OLDPWD"
    | dir :: _ => pure dir
  let fs ← files
  unless fs.isDirectory ⟨octetsOf dir⟩ do fail ("cd: can't cd to " ++ dir)
  assign "OLDPWD" (pathOf fs.working)
  change fun s => { s with directory := fs.locationOf ⟨octetsOf dir⟩ }
  assign "PWD" (pathOf (← shell).directory)
  return 0

def pwd : ShellM Nat := do
  write 1 (pathOf (← shell).directory ++ "\n")
  return 0

/-! ## Signals -/

/-- The signals from the first one on, each with what is said of a process that it has ended. -/
def signals : List (String × String) :=
  [("HUP", "Hangup"), ("INT", "Interrupt"), ("QUIT", "Quit"), ("ILL", "Illegal instruction"),
    ("TRAP", "Trace/breakpoint trap"), ("ABRT", "Aborted"), ("BUS", "Bus error"),
    ("FPE", "Floating point exception"), ("KILL", "Killed"), ("USR1", "User defined signal 1"),
    ("SEGV", "Segmentation fault"), ("USR2", "User defined signal 2"), ("PIPE", "Broken pipe"),
    ("ALRM", "Alarm clock"), ("TERM", "Terminated")]

def description (signal : Nat) : String :=
  (signals[signal - 1]?.map Prod.snd).getD ""

/-- The signal that a word names. -/
def signal? (word : String) : Option Nat :=
  (Text.readNat? (signals.length + 1) word.toList).or
    ((signals.findIdx? fun s => s.1 = word).map (· + 1))

/-- Sends a signal to this process. -/
def kill (args : List String) : ShellM Nat := do
  let (word, processes) :=
    match args with
    | "-s" :: word :: rest => (word, rest)
    | first :: rest =>
      match first.toList with
      | '-' :: word => (String.ofList word, rest)
      | _ => ("TERM", args)
    | [] => ("TERM", [])
  match signal? word with
  | none => fail ("kill: Illegal option -" ++ word)
  | some n =>
    for process in processes do
      let p ← number "kill" process
      if p ≠ (← shell).process then
        complain "kill: No such process\n"
        return 1
      if n ≠ 0 then throw (.killed p n)
    return 0

end Builtin

end BuildSupervisor.Shell
