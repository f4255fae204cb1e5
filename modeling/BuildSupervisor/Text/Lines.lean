/-!
# Lines

`Text.cut` cuts a list at every separator.  From it come the two ways to read lines: the lines of
a text, and the segments that a pipe delivers.
-/

namespace BuildSupervisor.Text

/-- The pieces between the separators: always one more than there are separators. -/
def cut [DecidableEq α] (sep : α) : List α → List (List α)
  | [] => [[]]
  | x :: rest =>
    if x = sep then [] :: cut sep rest
    else
      match cut sep rest with
      | [] => [[x]]
      | piece :: pieces => (x :: piece) :: pieces

/-- The pieces with one separator between neighbours. -/
def join (sep : List α) : List (List α) → List α
  | [] => []
  | [piece] => piece
  | piece :: pieces => piece ++ sep ++ join sep pieces

/-- Without its last element, if that one is `x`. -/
def dropLastIf [DecidableEq α] (x : α) : List α → List α
  | [] => []
  | [y] => if y = x then [] else [y]
  | y :: rest => y :: dropLastIf x rest

/-- Gives each piece but the last to `f`; the last one stands behind no separator and is kept as
    it is, unless it is empty. -/
def terminated (f : List α → List α) : List (List α) → List (List α)
  | [] => []
  | [[]] => []
  | [piece] => [piece]
  | piece :: pieces => f piece :: terminated f pieces

/-- The lines of a text: it is cut at every line feed, and a carriage return just before a line
    feed goes with it.  An empty end is no line. -/
def lines (s : List Char) : List (List Char) :=
  terminated (dropLastIf '\r') (cut '\n' s)

/-- The segments that a pipe delivers: its octets cut at every line feed.  An empty end is no
    segment. -/
def segments (octets : List UInt8) : List (List UInt8) :=
  terminated id (cut 10 octets)

/-- The text, ended by a line feed unless it has one there already. -/
def endLine (text : String) : String :=
  if text.toList.getLast? = some '\n' then text else text ++ "\n"

/-- The lines with one line feed between neighbours. -/
def joinLines (lines : List String) : String :=
  String.ofList (join ['\n'] (lines.map String.toList))

end BuildSupervisor.Text
