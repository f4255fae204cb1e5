import BuildSupervisor.Json.Reader
/-!
# Codecs

A codec is an encoder into JSON and the decoder beside it.  A record is an object with its fields
in order; it may be read from an array of its fields as well, and members with other names are
passed over.  A choice without contents is its name; it may be read from an object too that maps
the name to a unit.

What counts as a unit, and whether an array may hold more than the fields, depends on where a
document comes from: `Rules` say so.
-/

namespace BuildSupervisor

/-- What a document may hold beyond what an encoder writes. -/
structure Rules where
  /-- Whether a value stands for nothing at all. -/
  isUnit : Json → Bool
  /-- Whether a record in an array may be followed by other elements. -/
  allowsExtra : Bool
  /-- How many brackets may be opened, where values are kept before it is known what they are. -/
  room : Nat

/-- The rules of a JSON document: only `null` is a unit. -/
def Rules.json : Rules where
  isUnit v :=
    match v with
    | .null => true
    | _ => false
  allowsExtra := false
  room := 127

/-- The rules of a JSON value that was kept before it was known what it is: an object without
    members is a unit too. -/
def Rules.kept : Rules where
  isUnit v :=
    match v with
    | .null | .object [] => true
    | _ => false
  allowsExtra := false
  room := 0

/-- The rules of a value in a configuration file: an empty array or table is a unit. -/
def Rules.table : Rules where
  isUnit v :=
    match v with
    | .array [] | .object [] => true
    | _ => false
  allowsExtra := true
  room := 0

/-- The rules one bracket further in. -/
def Rules.inside (rules : Rules) : Rules :=
  { rules with room := rules.room - 1 }

/-- An encoder into JSON and the decoder beside it. -/
structure Codec (α : Type) where
  encode : α → Json
  decode : Rules → Json → Option α

namespace Codec

/-- A value as JSON text, without blanks. -/
def write (c : Codec α) (a : α) : String :=
  (c.encode a).render

/-- The value that a JSON text stands for. -/
def read? (c : Codec α) (text : String) : Option α :=
  (Json.ofText? text).bind (c.decode Rules.json)

def text : Codec String where
  encode := .text
  decode
    | _, .text s => some s
    | _, _ => none

/-- A truth value. -/
def bool : Codec Bool where
  encode := .bool
  decode
    | _, .bool b => some b
    | _, _ => none

/-- A number below `bound`. -/
def natural (bound : Nat) : Codec Nat where
  encode := .natural
  decode
    | _, .natural n => if n < bound then some n else none
    | _, _ => none

/-- A number of 64 bits. -/
def word64 : Codec UInt64 where
  encode n := .natural n.toNat
  decode rules v := ((natural UInt64.size).decode rules v).map UInt64.ofNat

/-- A number of 32 bits. -/
def word32 : Codec UInt32 where
  encode n := .natural n.toNat
  decode rules v := ((natural UInt32.size).decode rules v).map UInt32.ofNat

/-- A value that may be missing. -/
def nullable (c : Codec α) : Codec (Option α) where
  encode
    | none => .null
    | some a => c.encode a
  decode
    | _, .null => some none
    | rules, v => (c.decode rules v).map some

/-- Decodes every element. -/
def decodeAll (decode : Json → Option α) : List Json → Option (List α)
  | [] => some []
  | v :: rest =>
    match decode v, decodeAll decode rest with
    | some a, some as => some (a :: as)
    | _, _ => none

def list (c : Codec α) : Codec (List α) where
  encode as := .array (as.map c.encode)
  decode
    | rules, .array vs => decodeAll (c.decode rules) vs
    | _, _ => none

def choice (name : α → String) (all : List α) : Codec α where
  encode a := .text (name a)
  decode
    | _, .text s => all.find? fun a => name a = s
    | rules, .object [(s, v)] => if rules.isUnit v then all.find? fun a => name a = s else none
    | _, _ => none

/-- The values of the named members, in the order of the names; `none` if a named member occurs
    twice. -/
def membersNamed (members : List (String × Json)) : List String → Option (List (Option Json))
  | [] => some []
  | name :: names =>
    match members.filter fun m => m.1 = name, membersNamed members names with
    | [], some rest => some (none :: rest)
    | [(_, v)], some rest => some (some v :: rest)
    | _, _ => none

/-- The elements as fields; those behind the last element are missing. -/
def elementsAsFields (elements : List Json) (count : Nat) : List (Option Json) :=
  (elements.take count).map some ++ List.replicate (count - elements.length) none

/-- The fields of a record all of which may be missing. -/
def optionalFields (rules : Rules) (names : List String) : Json → Option (List (Option Json))
  | .object members => membersNamed members names
  | .array elements =>
    if elements.length ≤ names.length ∨ rules.allowsExtra then
      some (elementsAsFields elements names.length)
    else none
  | _ => none

/-- The fields of a record.  Only a member of an object may be missing. -/
def fields (rules : Rules) (names : List String) (v : Json) : Option (List (Option Json)) :=
  match v with
  | .array elements =>
    if names.length ≤ elements.length then optionalFields rules names v else none
  | _ => optionalFields rules names v

def required (c : Codec α) (rules : Rules) (field : Option Json) : Option α :=
  field.bind (c.decode rules)

/-- Decodes a field that counts as `null` where it is missing. -/
def orNull (c : Codec (Option α)) (rules : Rules) (field : Option Json) : Option (Option α) :=
  match field with
  | none => some none
  | some v => c.decode rules v

def orElse (c : Codec α) (missing : α) (rules : Rules) (field : Option Json) : Option α :=
  match field with
  | none => some missing
  | some v => c.decode rules v

end Codec

end BuildSupervisor
