import BuildSupervisor.Invoker
/-!
# How a tool is read

An invoker reads one line at a step, from either pipe, and writes it to the console.  Between two of
its steps the service may have become any other.  `Invoker.steps_running` says what the console gets
until both pipes are empty, and `Invoker.step?_exhausted` what the invoker does then.
-/

namespace BuildSupervisor

/-- The pieces in which a pipe delivers what the tool writes to it. -/
def ToolRun.pipe (run : ToolRun) : OutputKind → List Bytes
  | .normal => run.stdout
  | .error => run.stderr

namespace RunningTool

/-- The lines that a pipe still holds. -/
def pipe (t : RunningTool) : OutputKind → List String
  | .normal => t.stdout
  | .error => t.stderr

theorem pipe_ofRun (run : ToolRun) (stream : OutputKind) :
    (ofRun run).pipe stream = Pipe.lines (run.pipe stream) := by
  cases stream <;> rfl

/-- The tool when all its lines have been read. -/
def exhausted (t : RunningTool) : RunningTool :=
  ⟨[], [], t.said ++ t.stdout, t.status⟩

theorem read?_eq_none {t : RunningTool} {first : OutputKind} (h : t.read? first = none) :
    t.stdout = [] ∧ t.stderr = [] := by
  obtain ⟨stdout, stderr, said, status⟩ := t
  cases first <;> cases stdout <;> cases stderr <;>
    first
    | exact ⟨rfl, rfl⟩
    | cases h

/-- A line is taken from the front of a pipe and made a chunk of its stream. -/
structure Reads (t : RunningTool) (c : Chunk) (next : RunningTool) : Prop where
  taken : ∃ line, t.pipe c.stream = line :: next.pipe c.stream ∧ c = Pipe.chunkOf c.stream line
  other : ∀ stream, c.stream ≠ stream → next.pipe stream = t.pipe stream
  unread : t.unread = next.unread + 1
  exhausted : next.exhausted = t.exhausted

theorem reads_of_read? {t next : RunningTool} {first : OutputKind} {c : Chunk}
    (h : t.read? first = some (c, next)) : t.Reads c next := by
  rcases read?_cases h with read | read
  · obtain ⟨line, rest, there, rfl, rfl⟩ := readStdout?_eq_some read
    refine ⟨⟨line, there, rfl⟩, ?_, unread_read h, ?_⟩
    · rintro (_ | _) other
      · exact absurd rfl other
      · rfl
    · simp only [exhausted, there, List.append_assoc, List.singleton_append]
  · obtain ⟨line, rest, there, rfl, rfl⟩ := readStderr?_eq_some read
    refine ⟨⟨line, there, rfl⟩, ?_, unread_read h, rfl⟩
    rintro (_ | _) other
    · rfl
    · exact absurd rfl other

end RunningTool

/-- The service with one more chunk on the console. -/
def Service.written (v : Service) (c : Chunk) : Service :=
  { v with session := (v.session.write c).2 }

namespace Invoker

open RunningTool

/-- The steps that an invoker takes, each with the pipe that it looks at first and on the service as
    it is then: the services after them, and how far the invoker has come. -/
def steps (i : Invoker) : List (OutputKind × Service) → List Service × Invoker
  | [] => ([], i)
  | (first, v) :: looks =>
    match i.step? first v with
    | some (j, w) => (w :: (j.steps looks).1, (j.steps looks).2)
    | none => (v :: (i.steps looks).1, (i.steps looks).2)

/-- As many steps as there are lines write each line to the console, those of a pipe in order. -/
theorem steps_running {i : Invoker} {id : BuildId} {t : RunningTool}
    (phase : i.phase = .running id t)
    {looks : List (OutputKind × Service)} (enough : looks.length = t.unread) :
    ∃ chunks, chunks.length = looks.length ∧
      i.steps looks = (List.zipWith Service.written (looks.map Prod.snd) chunks,
        { i with phase := .running id t.exhausted }) ∧
      ∀ stream, (chunks.filter fun c => c.stream = stream) =
        (t.pipe stream).map (Pipe.chunkOf stream) := by
  induction looks generalizing i t with
  | nil =>
    obtain ⟨stdout, stderr, said, status⟩ := t
    have empty : stdout = [] ∧ stderr = [] := by simpa [unread] using enough.symm
    obtain ⟨rfl, rfl⟩ := empty
    refine ⟨[], rfl, ?_, fun stream => by cases stream <;> rfl⟩
    rw [exhausted, List.append_nil, ← phase]
    rfl
  | cons look looks ih =>
    obtain ⟨first, v⟩ := look
    have step : i.step? first v = some (i.readTool first id t v) := by rw [step?, phase]
    cases read : t.read? first with
    | none =>
      obtain ⟨stdout, stderr⟩ := read?_eq_none read
      simp [unread, stdout, stderr] at enough
    | some taken =>
      obtain ⟨c, next⟩ := taken
      have reads := reads_of_read? read
      rw [readTool, read] at step
      have fewer : looks.length = next.unread := by
        have := reads.unread
        rw [List.length_cons] at enough
        omega
      obtain ⟨chunks, length, run, each⟩ := ih (i := { i with phase := .running id next }) rfl fewer
      refine ⟨c :: chunks, congrArg (· + 1) length, ?_, ?_⟩
      · rw [steps, step]
        dsimp only
        rw [run, reads.exhausted]
        rfl
      · intro stream
        obtain ⟨line, there, made⟩ := reads.taken
        by_cases own : c.stream = stream
        · subst own
          rw [List.filter_cons_of_pos (by simp), each, there, List.map_cons, ← made]
        · rw [List.filter_cons_of_neg (by simpa using own), each, reads.other stream own]

/-- Where both pipes are empty, the invoker goes on to report how the tool ended. -/
theorem step?_exhausted {i : Invoker} {id : BuildId} {t : RunningTool}
    (phase : i.phase = .running id t.exhausted) (first : OutputKind) (v : Service) :
    i.step? first v = some ({ i with phase := .reporting id (ToolEnd.ofTool t.exhausted) }, v) := by
  rw [step?, phase]
  cases first <;> rfl

end Invoker

end BuildSupervisor
