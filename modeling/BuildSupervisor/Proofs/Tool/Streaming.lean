import BuildSupervisor.Proofs.Text.LineFeed
import BuildSupervisor.Proofs.Tool.Pieces
import BuildSupervisor.Proofs.Tool.Reading
import Mathlib.Data.List.Forall2
/-!
# Output becomes lines without loss

The octets of a pipe fall into segments at their line feeds, in one way only (`Pipe.cutsInto_iff`).
Each segment becomes one line on the console, read without regard to the others, so that octets
which are no text spoil no line but their own.  `Pipe.lossless` says so of an invoker that reads
both pipes of a tool, in whatever pieces and in whatever order they deliver, and of the lines that
it reports.
-/

namespace BuildSupervisor.Pipe

open Text

/-- The octets are those of some segments, a line feed behind each, and of a tail; they hold no
    other line feed. -/
structure CutsInto (octets : Bytes) (segments : List Bytes) (tail : Bytes) : Prop where
  whole : octets = (segments.map (· ++ [10])).flatten ++ tail
  plain : ∀ segment ∈ segments, 10 ∉ segment
  tail_plain : 10 ∉ tail

/-- A carriage return stands neither before a line feed nor at the end. -/
structure ReturnFree (octets : Bytes) : Prop where
  before : ∀ front rest, octets ≠ front ++ 13 :: 10 :: rest
  atEnd : octets.getLast? ≠ some 13

/-- The chunk is the line of a segment: without a carriage return at its end, read as text, and with
    the only line feed behind it. -/
structure IsChunkOf (stream : OutputKind) (segment : Bytes) (c : Chunk) : Prop where
  stream : c.stream = stream
  line : ∃ line, (segment = line ++ [13] ∨ segment = line ∧ line.getLast? ≠ some 13) ∧
    c.text = Utf8.decodeLossy line ++ "\n" ∧ '\n' ∉ (Utf8.decodeLossy line).toList

/-- The chunks that go to the console for the octets of a pipe. -/
def chunksOf (stream : OutputKind) (octets : Bytes) : List Chunk :=
  (linesOf octets).map (chunkOf stream)

variable {octets tail : Bytes} {segments : List Bytes}

/-- Octets are cut in one way only. -/
theorem cutsInto_iff : CutsInto octets segments tail ↔ cut 10 octets = segments ++ [tail] := by
  constructor
  · rintro ⟨rfl, plain, tail_plain⟩
    rw [← join_concat]
    refine cut_join (List.append_ne_nil_of_right_ne_nil _ (List.cons_ne_nil _ _)) ?_
    intro piece mem
    rcases List.mem_append.mp mem with mem | mem
    · exact plain piece mem
    · rwa [List.mem_singleton.mp mem]
  · intro whole
    have plain : ∀ piece ∈ segments ++ [tail], 10 ∉ piece := by
      rw [← whole]
      exact fun piece => not_mem_of_mem_cut
    refine ⟨?_, fun segment mem => plain segment (List.mem_append_left _ mem),
      plain tail (List.mem_append_right _ List.mem_cons_self)⟩
    rw [← join_concat, ← whole, join_cut]

theorem exists_cutsInto (octets : Bytes) : ∃ segments tail, CutsInto octets segments tail :=
  ⟨_, _, cutsInto_iff.mpr (List.dropLast_concat_getLast (cut_ne_nil 10 octets)).symm⟩

/-- A tail is a segment too, unless it is empty. -/
theorem linesOf_of_cutsInto (h : CutsInto octets segments tail) :
    linesOf octets = (segments ++ if tail = [] then [] else [tail]).map lineOf := by
  have last : terminated id [tail] = if tail = [] then [] else [tail] := by
    cases tail <;> rfl
  rw [linesOf, Text.segments, cutsInto_iff.mp h, terminated_append _ _ (List.cons_ne_nil _ _),
    List.map_id, last]

/-- A line is read from its segment alone. -/
theorem isChunkOf_chunkOf (stream : OutputKind) {segment : Bytes} (plain : 10 ∉ segment) :
    IsChunkOf stream segment (chunkOf stream (lineOf segment)) := by
  refine ⟨rfl, dropLastIf 13 segment, ?_, rfl, ?_⟩
  · rcases dropLastIf_cases 13 segment with whole | ⟨same, other⟩
    · exact .inl whole
    · exact .inr ⟨same, same ▸ other⟩
  · refine Utf8.lineFeed_not_mem_decodeLossy fun mem => plain ?_
    rcases dropLastIf_cases 13 segment with whole | ⟨same, -⟩
    · rw [whole]
      exact List.mem_append_left _ mem
    · rwa [same]

/-- Without carriage returns, a line is its segment read as text. -/
theorem lineOf_of_returnFree (free : ReturnFree octets) (h : CutsInto octets segments tail)
    {segment : Bytes} (mem : segment ∈ segments ++ [tail]) :
    lineOf segment = Utf8.decodeLossy segment := by
  rw [lineOf, dropLastIf_eq_self]
  intro last
  obtain ⟨line, rfl⟩ := List.getLast?_eq_some_iff.mp last
  rcases List.mem_append.mp mem with mem | mem
  · obtain ⟨before, after, rfl⟩ := List.append_of_mem mem
    refine free.before ((before.map (· ++ [10])).flatten ++ line)
      ((after.map (· ++ [10])).flatten ++ tail) ?_
    rw [h.whole]
    simp
  · obtain rfl := List.mem_singleton.mp mem
    refine free.atEnd ?_
    rw [h.whole, ← List.append_assoc, List.getLast?_concat]

/-- Text is read segment by segment. -/
theorem decodeLossy_cutsInto (segments : List Bytes) (tail : Bytes) :
    Utf8.decodeLossy ((segments.map (· ++ [10])).flatten ++ tail) =
      String.join (segments.map fun segment => Utf8.decodeLossy segment ++ "\n") ++
        Utf8.decodeLossy tail := by
  induction segments with
  | nil => exact (String.empty_append).symm
  | cons segment segments ih =>
    rw [List.map_cons, List.flatten_cons, List.append_assoc, List.append_assoc,
      List.singleton_append, Utf8.decodeLossy_append_lineFeed, ih, List.map_cons, String.join_cons]
    simp only [String.append_assoc]

/-- Behind a line feed lines are read as if nothing had been before. -/
theorem chunksOf_append (stream : OutputKind) (front rest : Bytes) :
    chunksOf stream (front ++ [10] ++ rest) =
      chunksOf stream (front ++ [10]) ++ chunksOf stream rest := by
  have ended (rest : Bytes) :
      linesOf (front ++ 10 :: rest) = (cut 10 front).map lineOf ++ linesOf rest := by
    rw [linesOf, linesOf, Text.segments, Text.segments, cut_append_cons,
      terminated_append _ _ (cut_ne_nil _ _), List.map_id, List.map_append]
  have nothing : linesOf [] = [] := rfl
  rw [chunksOf, chunksOf, chunksOf, List.append_assoc, List.singleton_append, ended rest,
    ended [], nothing, List.append_nil, List.map_append]

/-- The tail is what stands behind the last line feed. -/
theorem ended_iff (h : CutsInto octets segments tail) :
    (octets = [] ∨ octets.getLast? = some 10) ↔ tail = [] := by
  rw [h.whole]
  constructor
  · rintro (empty | last)
    · exact (List.append_eq_nil_iff.mp empty).2
    · by_contra some_
      rw [List.getLast?_append_of_ne_nil _ some_] at last
      exact h.tail_plain (List.mem_of_getLast? last)
  · rintro rfl
    rcases List.eq_nil_or_concat segments with rfl | ⟨others, segment, rfl⟩
    · exact .inl rfl
    · refine .inr ?_
      simp

/-- Octets without carriage returns at the ends of their lines are written to the console as they
    are, but for a line feed behind a tail. -/
theorem join_chunksOf (stream : OutputKind) (free : ReturnFree octets) :
    String.join ((chunksOf stream octets).map Chunk.text) =
      Utf8.decodeLossy octets ++
        if octets = [] ∨ octets.getLast? = some 10 then "" else "\n" := by
  obtain ⟨segments, tail, h⟩ := exists_cutsInto octets
  have texts : (chunksOf stream octets).map Chunk.text =
      (segments ++ if tail = [] then [] else [tail]).map fun s => Utf8.decodeLossy s ++ "\n" := by
    rw [chunksOf, linesOf_of_cutsInto h, List.map_map, List.map_map]
    refine List.map_congr_left fun segment mem => ?_
    have there : segment ∈ segments ++ [tail] := by
      split at mem
      · rw [List.append_nil] at mem
        exact List.mem_append_left _ mem
      · exact mem
    exact congrArg (· ++ "\n") (lineOf_of_returnFree free h there)
  have read := decodeLossy_cutsInto segments tail
  rw [← h.whole] at read
  rw [texts, List.map_append, String.join_append, read]
  by_cases ended : tail = []
  · rw [if_pos ended, if_pos ((ended_iff h).mpr ended), ended]
    exact (String.append_empty).symm
  · rw [if_neg ended, if_neg (mt (ended_iff h).mp ended), List.map_singleton, String.append_assoc]
    simp

/-- What is said of the chunks that the octets of a pipe become. -/
structure Lossless (stream : OutputKind) (octets : Bytes) : Prop where
  /-- There is one chunk for each segment, and one for a tail. -/
  each : ∃ segments tail, CutsInto octets segments tail ∧
    (∀ others rest, CutsInto octets others rest → others = segments ∧ rest = tail) ∧
    List.Forall₂ (IsChunkOf stream) (segments ++ if tail = [] then [] else [tail])
      (chunksOf stream octets)
  /-- No segment changes the line of another one. -/
  apart : ∀ rest, chunksOf stream (octets ++ [10] ++ rest) =
    chunksOf stream (octets ++ [10]) ++ chunksOf stream rest
  /-- A text is kept as it is. -/
  kept : ∀ text, octets = Utf8.encode text → ReturnFree octets →
    String.join ((chunksOf stream octets).map Chunk.text) =
      text ++ if octets = [] ∨ octets.getLast? = some 10 then "" else "\n"
  /-- What is reported of the lines, and what the console gets of them, are the same but for the
      last line feed. -/
  reported : linesOf octets ≠ [] → joinLines (linesOf octets) ++ "\n" =
    String.join ((chunksOf stream octets).map Chunk.text)

theorem lossless_chunksOf (stream : OutputKind) (octets : Bytes) : Lossless stream octets where
  each := by
    obtain ⟨segments, tail, h⟩ := exists_cutsInto octets
    refine ⟨segments, tail, h, ?_, ?_⟩
    · intro others rest other
      exact List.append_singleton_inj.mp ((cutsInto_iff.mp other).symm.trans (cutsInto_iff.mp h))
    · rw [chunksOf, linesOf_of_cutsInto h, List.map_map, List.forall₂_map_right_iff,
        List.forall₂_same]
      intro segment mem
      refine isChunkOf_chunkOf stream ?_
      rcases List.mem_append.mp mem with mem | mem
      · exact h.plain segment mem
      · split at mem
        · cases mem
        · rw [List.mem_singleton.mp mem]
          exact h.tail_plain
  apart := chunksOf_append stream octets
  kept := by
    rintro text rfl free
    rw [join_chunksOf stream free, Utf8.decodeLossy_encode]
  reported some_ := by
    rw [← join_map_endLine some_, chunksOf, List.map_map]
    rfl

/-- An invoker reads both pipes of its tool to their ends, whatever becomes of the service between
    its steps: each step writes one of the chunks to the console, and the next one turns to what is
    to be reported. -/
structure ReadsThrough (i : Invoker) (id : BuildId) (run : ToolRun)
    (looks : List (OutputKind × Service)) (chunks : List Chunk) : Prop where
  written : (i.steps looks).1 = List.zipWith Service.written (looks.map Prod.snd) chunks
  length : chunks.length = looks.length
  streams : ∀ stream, (chunks.filter fun c => c.stream = stream) =
    chunksOf stream (run.pipe stream).flatten
  reports : ∀ first v, (i.steps looks).2.step? first v = some
    ({ i with phase := .reporting id ⟨run.status.succeeded, run.status.code?,
      joinLines (linesOf run.stdout.flatten)⟩ }, v)

theorem readsThrough {i : Invoker} {id : BuildId} {run : ToolRun}
    (phase : i.phase = .running id (.ofRun run)) {looks : List (OutputKind × Service)}
    (enough : looks.length =
      (linesOf run.stdout.flatten).length + (linesOf run.stderr.flatten).length) :
    ∃ chunks, ReadsThrough i id run looks chunks := by
  have unread : looks.length = (RunningTool.ofRun run).unread := by
    rw [enough, ← lines_eq, ← lines_eq]
    rfl
  obtain ⟨chunks, length, steps, each⟩ := Invoker.steps_running phase unread
  refine ⟨chunks, ?_, length, ?_, ?_⟩
  · rw [steps]
  · intro stream
    rw [each, RunningTool.pipe_ofRun, lines_eq, chunksOf]
  · intro first v
    rw [steps, Invoker.step?_exhausted (t := .ofRun run) rfl]
    simp only [ToolEnd.ofTool, RunningTool.exhausted, RunningTool.ofRun, List.nil_append, lines_eq]

/-- The output of a tool becomes lines without loss, in whatever pieces and in whatever order its
    pipes deliver them. -/
theorem lossless (run : ToolRun) :
    (∀ i id, i.phase = .running id (.ofRun run) → ∀ looks : List (OutputKind × Service),
      looks.length = (linesOf run.stdout.flatten).length + (linesOf run.stderr.flatten).length →
      ∃ chunks, ReadsThrough i id run looks chunks) ∧
    ∀ stream octets, Lossless stream octets :=
  ⟨fun _ _ phase _ enough => readsThrough phase enough, lossless_chunksOf⟩

/-- A tool whose output has an octet that is no text, an empty line and a line that is not ended. -/
def garbled : ToolRun :=
  ⟨[[99, 97], [233, 13, 10, 10], [120]], [[98], [10]], .exited 1⟩

/-- Its invoker. -/
def garbledReader : Invoker :=
  ⟨⟨"cc", [], none⟩, fun _ => .ok garbled, 0, ⟨0⟩, .running 1 (.ofRun garbled)⟩

/-- The invoker looks at both pipes in turn while nothing happens to the service. -/
def garbledLooks : List (OutputKind × Service) :=
  [.normal, .error, .normal, .error].map fun first =>
    (first, Service.new (Session.new (Config.default none) .gcc Environment.empty
      (Channel.new consoleCapacity)) (.ok []))

theorem garbled_lossless :
    garbledReader.phase = .running 1 (.ofRun garbled) ∧
      garbledLooks.length =
        (linesOf garbled.stdout.flatten).length + (linesOf garbled.stderr.flatten).length ∧
      (∃ chunks, ReadsThrough garbledReader 1 garbled garbledLooks chunks ∧
        (chunks.filter fun c => c.stream = .normal) =
          [⟨.normal, "ca\uFFFD\n"⟩, ⟨.normal, "\n"⟩, ⟨.normal, "x\n"⟩] ∧
        (chunks.filter fun c => c.stream = .error) = [⟨.error, "b\n"⟩]) ∧
      Lossless .normal garbled.stdout.flatten := by
  have enough : garbledLooks.length =
      (linesOf garbled.stdout.flatten).length + (linesOf garbled.stderr.flatten).length := by
    decide
  obtain ⟨chunks, through⟩ := (lossless garbled).1 garbledReader 1 rfl garbledLooks enough
  refine ⟨rfl, enough, ⟨chunks, through, ?_, ?_⟩, (lossless garbled).2 _ _⟩
  · rw [through.streams .normal]
    decide +kernel
  · rw [through.streams .error]
    decide +kernel

end BuildSupervisor.Pipe
