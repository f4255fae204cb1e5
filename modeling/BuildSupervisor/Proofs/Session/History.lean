import BuildSupervisor.Proofs.Console.Gathering
import BuildSupervisor.Session.Operation
/-!
# The history of a build

What is done to a session between the start of a build and its result is the history of the build.
`expectedResult` is the result that the history calls for.  It is a function of the chunks written
meanwhile and of the way in which the build ended; when and how the chunks were read does not
enter.
-/

namespace BuildSupervisor

/-- How a build ended. -/
inductive BuildEnd where
  /-- Its invoker has reported the end of the tool. -/
  | reported (succeeded : Bool) (said : String)
  /-- No end was reported in time. -/
  | expired
  deriving DecidableEq, Repr

namespace BuildEnd

/-- Whether the tool did what was asked of it, as far as anyone knows. -/
def succeeded : BuildEnd → Bool
  | reported yes _ => yes
  | expired => false

/-- What the tool has said, as it was reported. -/
def said : BuildEnd → String
  | reported _ text => text
  | expired => ""

/-- The block of output that says that no end was reported. -/
def note (config : Config) : BuildEnd → List Output
  | reported _ _ => []
  | expired => [⟨.error, Text.endLine (Session.watchdogNote config)⟩]

end BuildEnd

/-- The block of output that warns of the toolchain, which only a build that failed shows. -/
def warningBlock (warning : Option PatchWarning) (ended : BuildEnd) : List Output :=
  match warning, ended.succeeded with
  | some w, false => [⟨.error, Text.endLine w.message⟩]
  | _, _ => []

/-- The result that a build has to get: `chunks` were written while it was looked after, and it
    ended like this. -/
def expectedResult (config : Config) (dialect : Dialect) (request : BuildRequest)
    (warning : Option PatchWarning) (chunks : List Chunk) (ended : BuildEnd) : BuildResult :=
  let written := transcript config.normalizeNewlines .normal chunks
  let errors := transcript config.normalizeNewlines .error chunks
  let shown := if ended.succeeded && !request.showOutput then ended.said else written
  { targetFile := request.targetFile.shown config.homeDir
    outputs := [⟨.normal, shown⟩, ⟨.error, errors⟩] ++ ended.note config
      ++ warningBlock warning ended
    diagnostics :=
      if request.fromCode then []
      else dialect.parse (shown ++ "\n" ++ errors) request.targetFile.baseDirectory }

namespace Operation

/-- The chunk that is written to the console. -/
def chunk? : Operation → Option Chunk
  | .write c => some c
  | _ => none

/-- The end of a tool that is reported. -/
def report? : Operation → Option (Bool × String)
  | .buildComplete succeeded said => some (succeeded, said)
  | _ => none

/-- Whether the operation ends the console. -/
def closes : Operation → Bool
  | .closeConsole => true
  | _ => false

end Operation

/-- The chunks that are written before the console is closed. -/
def writtenIn (ops : List Operation) : List Chunk :=
  (ops.takeWhile fun op => !op.closes).filterMap Operation.chunk?

/-- Whether the console is closed. -/
def closedIn (ops : List Operation) : Bool :=
  ops.any Operation.closes

/-- The first end that is reported. -/
def firstReport? (ops : List Operation) : Option (Bool × String) :=
  ops.findSome? Operation.report?

/-- How a build ends that `last` gives its result after `middle`. -/
def endOf (middle : List Operation) (last : Operation) : BuildEnd :=
  match last with
  | .finalize _ succeeded said => .reported succeeded said
  | .watchdog _ => .expired
  | _ =>
    match firstReport? middle with
    | some (succeeded, said) => .reported succeeded said
    | none => .expired

/-- Each chunk that the session takes from the console is added at once, and no other is added. -/
inductive FromConsole : Session → List Operation → Prop where
  | done (s : Session) : FromConsole s []
  | other {s : Session} {op : Operation} {ops : List Operation} : op ≠ .nextChunk →
      (∀ c, op ≠ .outputChunk c) → FromConsole (s.apply op).2 ops → FromConsole s (op :: ops)
  | heard {s : Session} {c : Chunk} {ops : List Operation} : s.nextChunk.1 = .chunk c →
      FromConsole (s.nextChunk.2.onOutputChunk c).2 ops →
      FromConsole s (.nextChunk :: .outputChunk c :: ops)
  | unheard {s : Session} {ops : List Operation} : (∀ c, s.nextChunk.1 ≠ .chunk c) →
      FromConsole s.nextChunk.2 ops → FromConsole s (.nextChunk :: ops)

/-- The session never falls behind the console by more than the console keeps. -/
def KeepsUp (s : Session) : List Operation → Prop
  | [] => s.capture.backlog s.console ≤ s.console.ring
  | op :: ops => s.capture.backlog s.console ≤ s.console.ring ∧ KeepsUp (s.apply op).2 ops

instance decidableKeepsUp (s : Session) : (ops : List Operation) → Decidable (KeepsUp s ops)
  | [] => inferInstanceAs (Decidable (_ ≤ _))
  | op :: ops =>
    have := decidableKeepsUp (s.apply op).2 ops
    inferInstanceAs (Decidable (_ ∧ _))

theorem KeepsUp.last {s : Session} {ops : List Operation} (h : KeepsUp s ops) :
    (s.run ops).capture.backlog (s.run ops).console ≤ (s.run ops).console.ring := by
  induction ops generalizing s with
  | nil => exact h
  | cons op ops ih => exact ih h.2

theorem writtenIn_concat (ops : List Operation) (op : Operation) :
    writtenIn (ops ++ [op]) =
      writtenIn ops ++ if closedIn ops then [] else op.chunk?.toList := by
  induction ops with
  | nil => cases op <;> rfl
  | cons first ops ih =>
    cases closes : first.closes with
    | true => simp [writtenIn, closedIn, closes]
    | false =>
      have skip (more : List Operation) :
          writtenIn (first :: more) = first.chunk?.toList ++ writtenIn more := by
        cases h : first.chunk? <;> simp [writtenIn, closes, h]
      have closed : closedIn (first :: ops) = closedIn ops := by simp [closedIn, closes]
      rw [List.cons_append, skip, skip, ih, closed, List.append_assoc]

theorem closedIn_concat (ops : List Operation) (op : Operation) :
    closedIn (ops ++ [op]) = (closedIn ops || op.closes) := by
  simp only [closedIn, List.any_append, List.any_cons, List.any_nil, Bool.or_false]

theorem firstReport?_concat (ops : List Operation) (op : Operation) :
    firstReport? (ops ++ [op]) = (firstReport? ops).or op.report? := by
  simp only [firstReport?, List.findSome?_append, List.findSome?_cons, List.findSome?_nil]
  cases op.report? <;> rfl

/-! ## Operations that do not show in the history -/

theorem writtenIn_quiet (ops : List Operation) {op : Operation} (chunk : op.chunk? = none) :
    writtenIn (ops ++ [op]) = writtenIn ops := by
  rw [writtenIn_concat, chunk]
  simp

theorem closedIn_quiet (ops : List Operation) {op : Operation} (closes : op.closes = false) :
    closedIn (ops ++ [op]) = closedIn ops := by
  rw [closedIn_concat, closes, Bool.or_false]

theorem firstReport?_quiet (ops : List Operation) {op : Operation} (report : op.report? = none) :
    firstReport? (ops ++ [op]) = firstReport? ops := by
  rw [firstReport?_concat, report, Option.or_none]

end BuildSupervisor
