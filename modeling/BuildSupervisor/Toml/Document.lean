import BuildSupervisor.Toml.Value
/-!
# TOML documents
-/

namespace BuildSupervisor.Toml

open Scan

/-- What has been read of a document: all of it as one table, and the header below which entries
    are put. -/
structure Draft where
  root : Node
  header : List String

namespace Draft

/-- Nothing has been read. -/
def empty : Draft :=
  ⟨.table false false [], []⟩

/-- Puts an entry below the header. -/
def insert (d : Draft) (path : List String) (key : String) (v : Json) : Option Draft :=
  (d.root.change false (Node.insert path key (.value v)) d.header).map ({ d with root := · })

end Draft

/-- A header and the end of its line. -/
def header (d : Draft) : Scan Draft := do
  skip ['[']
  let series ← skip? ['[']
  let (path, last) ← key
  skip (if series then [']', ']'] else [']'])
  lineRest
  match if series then d.root.openNext path last else d.root.openTable path last with
  | some root => return ⟨root, path ++ [last]⟩
  | none => fail

/-- An entry and the end of its line. -/
def entry (d : Draft) : Scan Draft := do
  let (path, last) ← key
  skip ['=']
  spaces
  let v ← value (maxDepth - 1)
  lineRest
  match d.insert path last v with
  | some d => return d
  | none => fail

/-- The lines of a document up to its end; `bound` bounds their number. -/
def lines (d : Draft) : Nat → Scan Draft
  | 0 => fail
  | bound + 1 => do
    spaces
    match ← peek? with
    | none => return d
    | some '#' =>
      let _ ← comment?
      lineEnd
      lines d bound
    | some '[' => lines (← header d) bound
    | some '\n' | some '\r' => if ← newline? then lines d bound else fail
    | some _ => lines (← entry d) bound

/-- The table that a document stands for; a byte order mark may stand before it. -/
def ofText? (s : String) : Option Node :=
  let body :=
    match s.toList with
    | '\uFEFF' :: rest => rest
    | chars => chars
  (lines Draft.empty (body.length + 1) body).map fun (d, _) => d.root

end BuildSupervisor.Toml
