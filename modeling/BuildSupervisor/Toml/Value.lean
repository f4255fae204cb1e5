import BuildSupervisor.Json.Basic
import BuildSupervisor.Toml.Scan
/-!
# Values of a TOML document

Values are kept as JSON values.  A number below zero or with a fraction is kept as it would be
written, and a date as a record of one field that nothing asks for.

A table remembers how it came to be, because that decides who may add to it: by its own header, by
the header of a table inside it, or by a key with dots.
-/

namespace BuildSupervisor.Toml

open Scan

/-- A value, or a table that may still grow. -/
inductive Node where
  | value (v : Json)
  /-- `implicit`: no header or braces of its own; `dotted`: made by a key with dots. -/
  | table (implicit dotted : Bool) (members : List (String × Node))
  | series (elements : List Node)

namespace Node

/-- The member of a table of a name. -/
def member? (members : List (String × Node)) (key : String) : Option Node :=
  members.lookup key

/-- Puts a member into a table, in the place of the one of its name. -/
def put (key : String) (node : Node) : List (String × Node) → List (String × Node)
  | [] => [(key, node)]
  | m :: rest => if m.1 = key then (key, node) :: rest else m :: put key node rest

/-- Changes the table at the end of a path; tables on the way that are not there are made.  With
    `dotted`, the path is part of a key, which leads through no table with a header. -/
def change (dotted : Bool) (f : Node → Option Node) : List String → Node → Option Node
  | [], node => f node
  | key :: path, .table implicit viaDots members =>
    let changed : Option Node :=
      match member? members key with
      | none => change dotted f path (.table true dotted [])
      | some (.value _) => none
      | some (.series elements) =>
        match elements.getLast? with
        | none => none
        | some last =>
          (change dotted f path last).map fun last => .series (elements.dropLast ++ [last])
      | some (.table childImplicit childDots childMembers) =>
        if dotted && !childImplicit then none
        else change dotted f path (.table childImplicit childDots childMembers)
    changed.map fun child => .table implicit viaDots (put key child members)
  | _ :: _, _ => none

/-- Puts a value into a table under a key with the dotted path before it. -/
def insert (path : List String) (key : String) (v : Node) (root : Node) : Option Node :=
  change true
    (fun
      | .table implicit dotted members =>
        if dotted = path.isEmpty || (member? members key).isSome then none
        else some (.table implicit dotted (members ++ [(key, v)]))
      | _ => none)
    path root

def openTable (path : List String) (key : String) (root : Node) : Option Node :=
  change false
    (fun
      | .table implicit dotted members =>
        match member? members key with
        | none => some (.table implicit dotted (members ++ [(key, .table false false [])]))
        | some (.table true false inner) =>
          some (.table implicit dotted (put key (.table false false inner) members))
        | some _ => none
      | _ => none)
    path root

/-- Opens the next table of a series of tables. -/
def openNext (path : List String) (key : String) (root : Node) : Option Node :=
  change false
    (fun
      | .table implicit dotted members =>
        match member? members key with
        | none =>
          some (.table implicit dotted (members ++ [(key, .series [.table false false []])]))
        | some (.series elements) =>
          some (.table implicit dotted
            (put key (.series (elements ++ [.table false false []])) members))
        | some _ => none
      | _ => none)
    path root

mutual

def toJson : Node → Json
  | .value v => v
  | .table _ _ members => .object (membersToJson members)
  | .series elements => .array (elementsToJson elements)

def membersToJson : List (String × Node) → List (String × Json)
  | [] => []
  | (key, node) :: rest => (key, node.toJson) :: membersToJson rest

/-- The tables of a series as elements of an array. -/
def elementsToJson : List Node → List Json
  | [] => []
  | node :: rest => node.toJson :: elementsToJson rest

end

end Node

/-- A letter, digit, underscore or dash, as in a key without quotes. -/
def isBareChar (c : Char) : Bool :=
  isAsciiLetter c || isAsciiDigit c || c = '_' || c = '-'

/-- One part of a key. -/
def keyPart : Scan String := do
  match ← peek? with
  | some '"' => lineString '"'
  | some '\'' => lineString '\''
  | _ => return String.ofList ((← one isBareChar) :: (← run isBareChar))

/-- How deep keys and values may be nested. -/
def maxDepth : Nat := 80

/-- The parts of a key behind the first one; `bound` bounds their number. -/
def keyRest : Nat → Scan (List String)
  | 0 => fail
  | bound + 1 => do
    spaces
    if ← skip? ['.'] then
      spaces
      let part ← keyPart
      return part :: (← keyRest bound)
    else return []

/-- A key: its parts before the last one, and the last one. -/
def key : Scan (List String × String) := do
  spaces
  let first ← keyPart
  let rest ← keyRest (maxDepth - 1)
  let parts := first :: rest
  return (parts.dropLast, parts.getLast?.getD first)

/-- Blanks, line ends and comments between the elements of an array; `bound` bounds the number of
    lines. -/
def gap : Nat → Scan Unit
  | 0 => return ()
  | bound + 1 => do
    spaces
    if ← comment? then
      if ← newline? then gap bound else fail
    else if ← newline? then gap bound

/-- The number of characters that are left, and one more. -/
def left : Scan Nat :=
  fun s => some (s.length + 1, s)

/-- The elements of an array up to its end; `bound` bounds their number. -/
def elements (element : Scan Json) : Nat → Scan (List Json)
  | 0 => fail
  | bound + 1 => do
    gap (← left)
    if ← skip? [']'] then return []
    let v ← element
    gap (← left)
    if ← skip? [','] then return v :: (← elements element bound)
    skip [']']
    return [v]

/-- The entries of a table in braces up to its end; `bound` bounds their number. -/
def entries (element : Scan Json) (table : Node) : Nat → Scan Node
  | 0 => fail
  | bound + 1 => do
    let (path, last) ← key
    skip ['=']
    spaces
    let v ← element
    spaces
    match Node.insert path last (.value v) table with
    | none => fail
    | some table =>
      if ← skip? [','] then entries element table bound
      else
        skip ['\x7d']
        return table

/-- A word that stands for a truth value. -/
def truth : Scan Json := do
  if ← skip? "true".toList then return .bool true
  skip "false".toList
  return .bool false

def dateOrNumber : Scan Json :=
  Scan.orElse
    (do
      dateTime
      return .object [("datetime", .null)])
    (Scan.orElse
      (do
        float
        return .number "float")
      (do
        let n ← integer
        return if n < 0 then .number (toString n) else .natural n.toNat))

/-- A value that holds no others. -/
def scalar : Scan Json := do
  match ← peek? with
  | some '"' => return .text (← string '"')
  | some '\'' => return .text (← string '\'')
  | some 't' | some 'f' => truth
  | _ => dateOrNumber

/-- A value inside which values may be nested `depth` deep. -/
def value : Nat → Scan Json
  | 0 => scalar
  | depth + 1 => do
    match ← peek? with
    | some '[' =>
      skip ['[']
      return .array (← elements (value depth) (← left))
    | some '\x7b' =>
      skip ['\x7b']
      spaces
      if ← skip? ['\x7d'] then return .object []
      return (← entries (value depth) (.table false false []) (← left)).toJson
    | _ => scalar

end BuildSupervisor.Toml
