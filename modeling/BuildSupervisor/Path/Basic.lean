import BuildSupervisor.Text.Lines
import BuildSupervisor.Text.Utf8
/-!
# File paths

A path is a string of octets.  What it names is said by its components: `Path.components` skips
what repeated slashes, slashes at the end and inner `.` pieces add, so that two spellings of one
path have the same components.

The octets fall into an anchor (the leading slash, or a leading `.`) and the pieces behind it;
every other function on paths is a function on these two.
-/

namespace BuildSupervisor

/-- A path as it is written. -/
structure Path where
  octets : Bytes
  deriving DecidableEq, Repr

namespace Path

/-- One step that a path takes. -/
inductive Component where
  | root
  | current
  | parent
  | name (octets : Bytes)
  deriving DecidableEq, Repr

/-- The octet of `/`. -/
def slash : UInt8 := 47

/-- The octet of `.`. -/
def dot : UInt8 := 46

/-- What a path starts from: the root, the current directory said by a leading `.`, or nothing
    said at all. -/
inductive Anchor where
  | root
  | here
  | none
  deriving DecidableEq, Repr

def Anchor.octets : Anchor → Bytes
  | .root => [slash]
  | .here => [dot]
  | .none => []

def Anchor.components : Anchor → List Component
  | .root => [.root]
  | .here => [.current]
  | .none => []

def ofText (text : String) : Path :=
  ⟨Utf8.encode text⟩

/-- The path as text, octets that are no characters replaced. -/
def text (p : Path) : String :=
  Utf8.decodeLossy p.octets

/-- Whether the path has no octets. -/
def isEmpty (p : Path) : Bool :=
  p.octets.isEmpty

/-- Cuts the anchor off: what is left are the pieces between the slashes. -/
def split (p : Path) : Anchor × List Bytes :=
  match p.octets with
  | [] => (.none, [])
  | [a] => if a = slash then (.root, []) else if a = dot then (.here, []) else (.none, [[a]])
  | a :: b :: rest =>
    if a = slash then (.root, Text.cut slash (b :: rest))
    else if a = dot ∧ b = slash then (.here, Text.cut slash (b :: rest))
    else (.none, Text.cut slash (a :: b :: rest))

/-- The component that a piece is; an empty piece and `.` are none. -/
def pieceComponent? (piece : Bytes) : Option Component :=
  if piece = [] ∨ piece = [dot] then .none
  else if piece = [dot, dot] then some .parent
  else some (.name piece)

/-- A piece that takes no step. -/
def isIdle (piece : Bytes) : Bool :=
  (pieceComponent? piece).isNone

/-- The steps a path takes. -/
def components (p : Path) : List Component :=
  p.split.1.components ++ p.split.2.filterMap pieceComponent?

/-- Whether two paths are spellings of one. -/
def same (p q : Path) : Bool :=
  p.components = q.components

/-- Without the idle pieces at the end. -/
def trimPiecesEnd (pieces : List Bytes) : List Bytes :=
  (pieces.reverse.dropWhile isIdle).reverse

/-- Without the idle pieces at either end. -/
def trimPieces (pieces : List Bytes) : List Bytes :=
  trimPiecesEnd (pieces.dropWhile isIdle)

/-- The pieces with a slash between neighbours. -/
def joinPieces (pieces : List Bytes) : Bytes :=
  Text.join [slash] pieces

/-- The path without its last component; the root and the empty path have none to lose. -/
def parent? (p : Path) : Option Path :=
  let (anchor, pieces) := p.split
  match trimPiecesEnd pieces with
  | [] =>
    match anchor with
    | .here => some ⟨[]⟩
    | _ => .none
  | steps => some ⟨anchor.octets ++ joinPieces (trimPiecesEnd steps.dropLast)⟩

/-- The pieces left of `pieces` once their components have gone through `wanted`. -/
def stripPieces : List Bytes → List Component → Option (List Bytes)
  | pieces, [] => some pieces
  | [], _ :: _ => .none
  | piece :: pieces, c :: wanted =>
    match pieceComponent? piece with
    | .none => stripPieces pieces (c :: wanted)
    | some d => if d = c then stripPieces pieces wanted else .none

/-- The end of `p` behind the components of `base`, if `p` starts with them.  The base has a
    component, so that an anchor of `p` is never part of the end. -/
def strip? (p base : Path) : Option Path :=
  let (anchor, pieces) := p.split
  let behindAnchor (wanted : List Component) : Option Path :=
    (stripPieces pieces wanted).map fun rest => ⟨joinPieces (trimPieces rest)⟩
  match anchor.components, base.components with
  | [], wanted => behindAnchor wanted
  | c :: _, d :: wanted => if c = d then behindAnchor wanted else .none
  | _ :: _, [] => some ⟨anchor.octets ++ joinPieces (trimPiecesEnd pieces)⟩

/-- The path of `file` seen from the directory `base`: one slash between the two, unless the base
    ends with one. -/
def append (base : Path) (file : Bytes) : Path :=
  if base.octets.getLast? = some slash then ⟨base.octets ++ file⟩
  else ⟨base.octets ++ slash :: file⟩

end Path

end BuildSupervisor
