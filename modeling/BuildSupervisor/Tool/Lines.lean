import BuildSupervisor.Console
import BuildSupervisor.Text.Utf8
/-!
# Lines from a pipe

A tool writes octets, and a pipe delivers them in pieces that end anywhere.  A line ends at a line
feed, whatever the octets before it are, so that octets which are no text spoil no other line.
-/

namespace BuildSupervisor.Pipe

/-- The line of a segment: without a carriage return at its end, and with octets that are no
    characters replaced. -/
def lineOf (segment : Bytes) : String :=
  Utf8.decodeLossy (Text.dropLastIf 13 segment)

/-- The segments of octets that come in pieces, where `held` stands behind the last line feed. -/
def segmentsFrom (held : Bytes) : List Bytes → List Bytes
  | [] => if held.isEmpty then [] else [held]
  | piece :: pieces =>
    let cuts := Text.cut 10 (held ++ piece)
    cuts.dropLast ++ segmentsFrom (cuts.getLast?.getD []) pieces

def lines (pieces : List Bytes) : List String :=
  (segmentsFrom [] pieces).map lineOf

/-- A line as it goes to the console. -/
def chunkOf (stream : OutputKind) (line : String) : Chunk :=
  ⟨stream, line ++ "\n"⟩

end BuildSupervisor.Pipe
