import BuildSupervisor.Proofs.Text.Cut
import BuildSupervisor.Tool.Lines
/-!
# Lines do not depend on the pieces

A pipe may deliver its octets in any pieces.  `Pipe.lines_eq` says that the lines which are read
from them are those of the octets as a whole.
-/

namespace BuildSupervisor.Pipe

open Text

theorem segmentsFrom_eq {held : Bytes} (h : 10 ∉ held) (pieces : List Bytes) :
    segmentsFrom held pieces = segments (held ++ pieces.flatten) := by
  induction pieces generalizing held with
  | nil =>
    rw [segmentsFrom, List.flatten_nil, List.append_nil, segments, cut_of_not_mem h]
    cases held <;> rfl
  | cons piece pieces ih =>
    rw [segmentsFrom]
    have rest := ih (not_mem_lastPiece 10 (held ++ piece))
    rw [lastPiece] at rest
    rw [rest, List.flatten_cons, ← List.append_assoc, segments, segments,
      cut_append 10 (held ++ piece) pieces.flatten, terminated_append _ _ (cut_ne_nil _ _),
      List.map_id, lastPiece]

/-- The lines of octets as a whole. -/
def linesOf (octets : Bytes) : List String :=
  (segments octets).map lineOf

/-- The lines of octets that come in pieces are those of all the octets. -/
theorem lines_eq (pieces : List Bytes) : lines pieces = linesOf pieces.flatten := by
  rw [lines, segmentsFrom_eq List.not_mem_nil, List.nil_append, linesOf]

end BuildSupervisor.Pipe
