import BuildSupervisor.Shell.Syntax
import BuildSupervisor.Text.Lines
/-!
# Patterns, fields and numbers

What words come to once everything in them has got its value: a text, a row of fields, a pattern or
a number.
-/

namespace BuildSupervisor.Shell

/-! ## Patterns -/

/-- A character, and whether it is in quotes. -/
structure Marked where
  char : Char
  quoted : Bool

/-- What one part of a pattern stands for. -/
inductive Pattern.Part where
  | one (c : Char)
  | any
  | several

abbrev Pattern := List Pattern.Part

namespace Pattern

def Part.accepts (p : Part) (c : Char) : Bool :=
  match p with
  | .one d => c = d
  | .any | .several => true

/-- The pattern of a text, in which `?` stands for any character and `*` for any characters. -/
def ofMarked (chars : List Marked) : Pattern :=
  chars.map fun m =>
    if m.quoted then .one m.char
    else if m.char = '*' then .several
    else if m.char = '?' then .any
    else .one m.char

/-- Whether some end of a text has a property. -/
def anyEnd (p : List Char → Bool) : List Char → Bool
  | [] => p []
  | c :: rest => p (c :: rest) || anyEnd p rest

def isMatch : Pattern → List Char → Bool
  | [], text => text.isEmpty
  | .several :: rest, text => anyEnd (isMatch rest) text
  | _ :: _, [] => false
  | p :: rest, c :: text => p.accepts c && isMatch rest text

/-- A text without the shortest or the longest start that a pattern matches. -/
def dropStart (p : Pattern) (longest : Bool) (text : List Char) : List Char :=
  let sizes := List.range (text.length + 1)
  match (if longest then sizes.reverse else sizes).find? fun n => isMatch p (text.take n) with
  | some n => text.drop n
  | none => text

/-- A text without the shortest or the longest end that a pattern matches. -/
def dropEnd (p : Pattern) (longest : Bool) (text : List Char) : List Char :=
  let sizes := List.range (text.length + 1)
  match (if longest then sizes else sizes.reverse).find? fun n => isMatch p (text.drop n) with
  | some n => text.take n
  | none => text

end Pattern

/-! ## Fields -/

/-- A part of a word that has got its value. -/
inductive Segment where
  | text (chars : String) (quoted : Bool)
  /-- A value outside quotes, which is split at separators. -/
  | value (chars : String)
  /-- The end of one argument and the start of the next one. -/
  | boundary
  /-- Quotes, which make a field even of nothing. -/
  | mark

namespace Segment

/-- The characters of segments that are not split. -/
def plainText (segments : List Segment) : String :=
  String.join (segments.map fun
    | .text chars _ | .value chars => chars
    | .boundary => " "
    | .mark => "")

/-- The characters of segments as those of a pattern. -/
def marked (segments : List Segment) : List Marked :=
  segments.flatMap fun
    | .text chars quoted => chars.toList.map fun c => ⟨c, quoted⟩
    | .value chars => chars.toList.map fun c => ⟨c, false⟩
    | .boundary => [⟨' ', true⟩]
    | .mark => []

/-- The segment as a part of a value. -/
def asValue : Segment → Segment
  | .text chars false => .value chars
  | s => s

/-- The segments of arguments that are fields of their own, or that are split. -/
def ofArguments (quoted : Bool) (args : List String) : List Segment :=
  let each := args.map fun arg => if quoted then [.mark, .text arg true] else [.value arg]
  (each.intersperse [.boundary]).flatten

end Segment

/-- The separators where no others are named. -/
def defaultSeparators : List Char := [' ', '\t', '\n']

/-- The complete fields, last first, and the characters of the field that has begun, last first. -/
structure Splitting where
  fields : List String
  current : Option (List Char)

namespace Splitting

/-- Goes on with a character. -/
def put (s : Splitting) (c : Char) : Splitting :=
  { s with current := some (c :: s.current.getD []) }

/-- Ends the field that has begun. -/
def finish (s : Splitting) : Splitting :=
  match s.current with
  | some chars => ⟨String.ofList chars.reverse :: s.fields, none⟩
  | none => s

/-- Lets a field begin. -/
def open_ (s : Splitting) : Splitting :=
  { s with current := some (s.current.getD []) }

/-- Goes on with a character that may be a separator; blanks do not stand for empty fields. -/
def split (separators : List Char) (s : Splitting) (c : Char) : Splitting :=
  if !separators.contains c then s.put c
  else if defaultSeparators.contains c then s.finish
  else s.open_.finish

def add (separators : List Char) (s : Splitting) : Segment → Splitting
  | .text chars _ => chars.toList.foldl put s
  | .value chars => chars.toList.foldl (split separators) s
  | .boundary => s.finish
  | .mark => s.open_

end Splitting

def fieldsOf (separators : List Char) (segments : List Segment) : List String :=
  (segments.foldl (Splitting.add separators) ⟨[], none⟩).finish.fields.reverse

/-! ## Numbers -/

/-- The decimal form of a number. -/
def showInt (n : Int) : String :=
  if n < 0 then "-" ++ Text.showNat n.natAbs else Text.showNat n.toNat

/-- The number of 64 bits with a sign that has the same last bits. -/
def wrapInt (n : Int) : Int :=
  Int.bmod n UInt64.size

/-- The number that a text stands for; a sign and blanks around it are allowed. -/
def integer? (text : String) : Option Int :=
  let isBlank := fun c => defaultSeparators.contains c
  let chars := Text.dropEndWhile isBlank (text.toList.dropWhile isBlank)
  match chars with
  | '-' :: digits => (Text.readNat? (UInt64.size / 2 + 1) digits).map fun n => -(n : Int)
  | '+' :: digits => (Text.readNat? (UInt64.size / 2) digits).map Int.ofNat
  | digits => (Text.readNat? (UInt64.size / 2) digits).map Int.ofNat

namespace Arithmetic

/-- A part of an expression. -/
inductive Token where
  | number (n : Int)
  | name (text : String)
  | operator (text : String)
  deriving DecidableEq

/-- The operators between two values, those first that others are the start of, and how tightly they
    bind them. -/
def levels : List (String × Nat) :=
  [("||", 0), ("&&", 1), ("==", 2), ("!=", 2), ("<=", 3), (">=", 3), ("<", 3), (">", 3), ("+", 4),
    ("-", 4), ("*", 5), ("/", 5), ("%", 5)]

/-- The parts of an expression; `bound` bounds their number. -/
def tokens : Nat → List Char → List Token
  | 0, _ => []
  | _, [] => []
  | bound + 1, c :: rest =>
    if defaultSeparators.contains c then tokens bound rest
    else if isAsciiDigit c then
      let (digits, behind) := (c :: rest).span isAsciiDigit
      .number ((Text.readDigits 0 digits).getD 0) :: tokens bound behind
    else if startsName c then
      let (name, behind) := (c :: rest).span isNameChar
      .name (String.ofList name) :: tokens bound behind
    else
      match (levels.map Prod.fst).find? fun op => op.toList.isPrefixOf (c :: rest) with
      | some op => .operator op :: tokens bound ((c :: rest).drop op.length)
      | none => .operator (String.singleton c) :: tokens bound rest

/-- Evaluates the parts of an expression, or says what is wrong with it. -/
abbrev Eval (α : Type) := StateT (List Token) (Except String) α

def truth (b : Bool) : Int :=
  if b then 1 else 0

/-- The value of an operator between two values. -/
def combine (op : String) (a b : Int) : Except String Int :=
  match op with
  | "||" => return truth (a ≠ 0 || b ≠ 0)
  | "&&" => return truth (a ≠ 0 && b ≠ 0)
  | "==" => return truth (a = b)
  | "!=" => return truth (a ≠ b)
  | "<" => return truth (a < b)
  | "<=" => return truth (a ≤ b)
  | ">" => return truth (b < a)
  | ">=" => return truth (b ≤ a)
  | "+" => return wrapInt (a + b)
  | "-" => return wrapInt (a - b)
  | "*" => return wrapInt (a * b)
  | "/" => if b = 0 then throw "division by zero" else return wrapInt (a.tdiv b)
  | _ => if b = 0 then throw "division by zero" else return a.tmod b

mutual

/-- A value with the signs before it; `bound` bounds how deep values are nested. -/
def operand (valueOf : String → Int) : Nat → Eval Int
  | 0 => throw "expecting primary"
  | bound + 1 => do
    match ← get with
    | .number n :: rest =>
      set rest
      return n
    | .name x :: rest =>
      set rest
      return valueOf x
    | .operator op :: rest =>
      set rest
      match op with
      | "(" =>
        let n ← between valueOf bound 0
        match ← get with
        | .operator ")" :: rest =>
          set rest
          return n
        | _ => throw "expecting ')'"
      | "+" => operand valueOf bound
      | "-" => return wrapInt (-(← operand valueOf bound))
      | "!" => return truth ((← operand valueOf bound) = 0)
      | _ => throw "expecting primary"
    | [] => throw "expecting primary"

/-- Values with operators between them that bind at least so tightly. -/
def between (valueOf : String → Int) : Nat → Nat → Eval Int
  | 0, _ => throw "expecting primary"
  | bound + 1, lowest => do goOn valueOf bound lowest (← operand valueOf bound)

/-- Goes on behind a value. -/
def goOn (valueOf : String → Int) : Nat → Nat → Int → Eval Int
  | 0, _, a => return a
  | bound + 1, lowest, a => do
    match ← get with
    | .operator op :: rest =>
      match levels.lookup op with
      | none => return a
      | some level =>
        if level < lowest then return a
        set rest
        let b ← between valueOf bound (level + 1)
        goOn valueOf bound lowest (← combine op a b)
    | _ => return a

end

/-- The value of an expression, or what is wrong with it. -/
def evaluate (valueOf : String → Int) (text : String) : Except String Int := do
  let ts := tokens (text.length + 1) text.toList
  if ts.isEmpty then return 0
  let (n, rest) ← (between valueOf (3 * ts.length + 3) 0).run ts
  if rest.isEmpty then return n else throw "expecting EOF"

end Arithmetic

end BuildSupervisor.Shell
