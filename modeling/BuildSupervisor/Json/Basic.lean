import BuildSupervisor.Text.Numeral
/-!
# JSON values and their written form

A value keeps the members of an object in the order in which they are written.  No field of a
document takes a number with a sign, a fraction or an exponent, or a text with half a surrogate
pair: such values are kept apart only so that they can be passed over where they do not matter.

`Json.render` writes a value without blanks, `Json.renderIndented` over several lines.
-/

namespace BuildSupervisor

/-- A JSON value. -/
inductive Json where
  | null
  | bool (b : Bool)
  | natural (n : Nat)
  /-- A number that is no natural number as it is written. -/
  | number (digits : String)
  | text (s : String)
  /-- A text with half a surrogate pair in it, or an object with such a key. -/
  | broken
  | array (elements : List Json)
  | object (members : List (String × Json))

namespace Json

/-- The digit of a number below sixteen. -/
def hexDigit (n : Nat) : Char :=
  if n < 10 then Char.ofNat (48 + n) else Char.ofNat (87 + n)

/-- A character as it is written inside quotes. -/
def escape (c : Char) : List Char :=
  if c = '"' then ['\\', '"']
  else if c = '\\' then ['\\', '\\']
  else if c.toNat = 8 then ['\\', 'b']
  else if c.toNat = 12 then ['\\', 'f']
  else if c = '\n' then ['\\', 'n']
  else if c = '\r' then ['\\', 'r']
  else if c = '\t' then ['\\', 't']
  else if c.toNat < 32 then
    ['\\', 'u', '0', '0', hexDigit (c.toNat / 16), hexDigit (c.toNat % 16)]
  else [c]

def quote (s : String) : List Char :=
  '"' :: s.toList.flatMap escape ++ ['"']

mutual

/-- A value without blanks. -/
def chars : Json → List Char
  | null => "null".toList
  | bool true => "true".toList
  | bool false => "false".toList
  | natural n => (Text.showNat n).toList
  | number digits => digits.toList
  | text s => quote s
  | broken => quote "\uFFFD"
  | array elements => '[' :: elementChars true elements ++ [']']
  | object members => '\x7b' :: memberChars true members ++ ['\x7d']

/-- The elements of an array; a comma stands before each but the first. -/
def elementChars (first : Bool) : List Json → List Char
  | [] => []
  | v :: rest => (if first then [] else [',']) ++ chars v ++ elementChars false rest

/-- The members of an object; a comma stands before each but the first. -/
def memberChars (first : Bool) : List (String × Json) → List Char
  | [] => []
  | (key, v) :: rest =>
    (if first then [] else [',']) ++ quote key ++ ':' :: chars v ++ memberChars false rest

end

/-- A value as text, without blanks. -/
def render (v : Json) : String :=
  String.ofList v.chars

/-- The start of a line inside `depth` brackets. -/
def newLine (depth : Nat) : List Char :=
  '\n' :: List.replicate (2 * depth) ' '

mutual

/-- A value over several lines, inside `depth` brackets. -/
def indentedChars (depth : Nat) : Json → List Char
  | array (v :: rest) =>
    '[' :: newLine (depth + 1) ++ indentedChars (depth + 1) v
      ++ indentedElements (depth + 1) rest ++ newLine depth ++ [']']
  | object ((key, v) :: rest) =>
    '\x7b' :: newLine (depth + 1) ++ quote key ++ ':' :: ' ' :: indentedChars (depth + 1) v
      ++ indentedMembers (depth + 1) rest ++ newLine depth ++ ['\x7d']
  | v => chars v

/-- The elements of an array behind its first one, each on its lines. -/
def indentedElements (depth : Nat) : List Json → List Char
  | [] => []
  | v :: rest => ',' :: newLine depth ++ indentedChars depth v ++ indentedElements depth rest

/-- The members of an object behind its first one, each on its lines. -/
def indentedMembers (depth : Nat) : List (String × Json) → List Char
  | [] => []
  | (key, v) :: rest =>
    ',' :: newLine depth ++ quote key ++ ':' :: ' ' :: indentedChars depth v
      ++ indentedMembers depth rest

end

/-- A value as text over several lines; what is inside brackets is indented by two blanks. -/
def renderIndented (v : Json) : String :=
  String.ofList (indentedChars 0 v)

end Json

end BuildSupervisor
