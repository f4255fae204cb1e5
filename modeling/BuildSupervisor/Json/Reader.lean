import BuildSupervisor.Json.Token
/-!
# Reading JSON

A value is read from its tokens with a stack of the arrays and objects that are still open.  The
phases say what may come next; after a comma a bracket may not be closed at once.
-/

namespace BuildSupervisor.Json

/-- The members of an object so far, last first.  A key with half a surrogate pair in it has no
    text. -/
abbrev OpenMembers := List (Option String × Json)

/-- An open array or object with what it holds so far, last first; an open object waits for the
    value of a key. -/
inductive Frame where
  | array (elements : List Json)
  | object (members : OpenMembers) (key : Option String)

/-- What may come next. -/
inductive Phase where
  | value
  | firstElement
  | firstKey (members : OpenMembers)
  | nextKey (members : OpenMembers)
  | colon (members : OpenMembers) (key : Option String)
  | after (v : Json)

/-- The object of some members and, behind them, those that are closed already. -/
def closeMembers (closed : List (String × Json)) : OpenMembers → Json
  | [] => .object closed
  | (some key, v) :: rest => closeMembers ((key, v) :: closed) rest
  | (none, _) :: _ => .broken

/-- Reads a value; the phase says what may come next, and the stack holds the frames that are
    open around it, the innermost first. -/
def read? : Phase → List Frame → List Token → Option Json
  | .after v, [], [] => some v
  | _, _, [] => none
  | phase, stack, token :: rest =>
    match phase, token with
    | .value, .scalar v | .firstElement, .scalar v => read? (.after v) stack rest
    | .value, .quoted s | .firstElement, .quoted s =>
      read? (.after (s.elim .broken .text)) stack rest
    | .value, .openArray => read? .firstElement (.array [] :: stack) rest
    | .firstElement, .openArray => read? .firstElement (.array [] :: stack) rest
    | .value, .openObject | .firstElement, .openObject => read? (.firstKey []) stack rest
    | .firstElement, .closeArray =>
      match stack with
      | .array elements :: stack => read? (.after (.array elements.reverse)) stack rest
      | _ => none
    | .firstKey members, .closeObject =>
      read? (.after (closeMembers [] members)) stack rest
    | .firstKey members, .quoted key | .nextKey members, .quoted key =>
      read? (.colon members key) stack rest
    | .colon members key, .colon => read? .value (.object members key :: stack) rest
    | .after v, .comma =>
      match stack with
      | .array elements :: stack => read? .value (.array (v :: elements) :: stack) rest
      | .object members key :: stack => read? (.nextKey ((key, v) :: members)) stack rest
      | [] => none
    | .after v, .closeArray =>
      match stack with
      | .array elements :: stack => read? (.after (.array (v :: elements).reverse)) stack rest
      | _ => none
    | .after v, .closeObject =>
      match stack with
      | .object members key :: stack =>
        read? (.after (closeMembers [] ((key, v) :: members))) stack rest
      | _ => none
    | _, _ => none

/-- The value that a text stands for. -/
def ofText? (s : String) : Option Json :=
  (tokens? s.toList).bind (read? .value [])

end BuildSupervisor.Json
