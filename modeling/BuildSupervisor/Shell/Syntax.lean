import BuildSupervisor.Text.Numeral
import BuildSupervisor.Text.Utf8
/-!
# Scripts

The outer program needs something to run as a tool.  These modules stand in for the programs that a
real host has: a shell that knows the usual commands, and the few utilities that build scripts lean
on.  Nothing else in the library looks at them.

A script is a row of commands, a command has words, and a word may hold commands again whose output
takes their place; so words and commands are defined together.  All texts are octets, each kept as
the character of its number.
-/

namespace BuildSupervisor.Shell

/-- Octets as the characters of their numbers. -/
def textOf (octets : Bytes) : String :=
  String.ofList (octets.map fun b => Char.ofNat b.toNat)

/-- The octets of a text whose characters stand for octets. -/
def octetsOf (text : String) : Bytes :=
  text.toList.map fun c => UInt8.ofNat c.toNat

/-- The character that is written on both sides of a command whose output is meant. -/
def backquote : Char := Char.ofNat 96

/-- A character with which a name may start. -/
def startsName (c : Char) : Bool :=
  isAsciiLetter c || c = '_'

def isNameChar (c : Char) : Bool :=
  startsName c || isAsciiDigit c

def isName (text : String) : Bool :=
  match text.toList with
  | [] => false
  | c :: rest => startsName c && rest.all isNameChar

/-- The name and the value of an assignment. -/
def assignment? (text : String) : Option (String × String) :=
  let (name, rest) := text.toList.span (· ≠ '=')
  match rest with
  | [] => none
  | _ :: value =>
    if isName (String.ofList name) then some (String.ofList name, String.ofList value) else none

/-- What becomes of the value of a parameter.  With `orEmpty`, an empty value counts as none. -/
inductive Change where
  | none
  /-- The number of octets in its place. -/
  | length
  /-- A word in its place if there is none. -/
  | default (orEmpty : Bool)
  /-- The same, and the parameter gets that value. -/
  | assign (orEmpty : Bool)
  /-- It is an error if there is none. -/
  | demand (orEmpty : Bool)
  /-- A word in its place if there is one. -/
  | alternative (orEmpty : Bool)
  /-- Without what a pattern matches at its start. -/
  | dropStart (longest : Bool)
  /-- Without what a pattern matches at its end. -/
  | dropEnd (longest : Bool)
  deriving DecidableEq, Repr

/-- How a redirection uses what it names. -/
inductive Direction where
  | input
  | output
  | append
  /-- The stream to which another descriptor leads. -/
  | same
  deriving DecidableEq, Repr

mutual

/-- A part of a word. -/
inductive Part where
  /-- Characters without quotes, or as they stand in double quotes. -/
  | plain (text : String)
  /-- Characters in single quotes or behind a backslash. -/
  | literal (text : String)
  /-- What stands in double quotes. -/
  | quoted (inside : List Part)
  | parameter (name : String) (change : Change) (argument : List Part)
  /-- The output of a command. -/
  | output (command : Command)
  /-- The value of an expression. -/
  | value (expression : List Part)

/-- A change of a descriptor while a command runs. -/
inductive Redirection where
  | file (descriptor : Nat) (direction : Direction) (name : List Part)
  /-- The descriptor leads to a text that stands in the script. -/
  | document (descriptor : Nat) (text : List Part)

/-- A command.  The number before others is its line. -/
inductive Command where
  | nothing
  | simple (line : Nat) (assignments words : List (List Part)) (redirections : List Redirection)
  | pipe (stages : List Command)
  | negate (command : Command)
  | both (first second : Command)
  | either (first second : Command)
  | row (first second : Command)
  | redirected (line : Nat) (command : Command) (redirections : List Redirection)
  | subshell (command : Command)
  | branch (test yes no : Command)
  /-- Runs the body as long as the test succeeds, or with `inverted` as long as it fails. -/
  | loop (inverted : Bool) (test body : Command)
  | each (name : String) (words : List (List Part)) (body : Command)
  /-- Runs the command behind the first patterns of which one matches the word. -/
  | choose (subject : List Part) (arms : List (List (List Part) × Command))
  | define (name : String) (body : Command)

end

abbrev Word := List Part

namespace Word

/-- The characters without quotes at the start of a word. -/
def start : Word → String
  | .plain text :: rest => text ++ start rest
  | _ => ""

def isAssignment (w : Word) : Bool :=
  (assignment? w.start).isSome

/-- Leaves out so many characters at the start of a word. -/
def dropPlain (n : Nat) : Word → Word
  | .plain text :: rest =>
    if text.length ≤ n then dropPlain (n - text.length) rest
    else .plain (String.ofList (text.toList.drop n)) :: rest
  | w => w

end Word

end BuildSupervisor.Shell
