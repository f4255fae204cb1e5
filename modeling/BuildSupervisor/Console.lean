import BuildSupervisor.Broadcast
import BuildSupervisor.Text.Lines
/-!
# The console

The output of build tools goes through one channel as chunks, each marked with the stream it was
written to.  A `Capture` reads the channel while it is subscribed and gathers the texts of the two
streams.
-/

namespace BuildSupervisor

/-- Which of the two output streams of a program. -/
inductive OutputKind where
  | normal
  | error
  deriving DecidableEq, Repr

namespace OutputKind

/-- The word an output stream is written with. -/
def name : OutputKind → String
  | .normal => "normal"
  | .error => "error"

end OutputKind

/-- A piece of console output. -/
structure Chunk where
  stream : OutputKind
  text : String
  deriving DecidableEq, Repr

/-- The channel of all console output. -/
abbrev Console := Channel Chunk

/-- How many chunks a slow reader of the console may fall behind without a loss. -/
def consoleCapacity : Nat := 4096

/-- Gathers the texts of both streams while it is subscribed. -/
structure Capture where
  /-- Ends every chunk with a line feed. -/
  endLines : Bool
  subscription : Option Cursor
  stdout : String
  stderr : String
  deriving DecidableEq, Repr

/-- What comes of waiting for the next chunk. -/
inductive NextChunk where
  | chunk (c : Chunk)
  | pending
  | closed
  deriving DecidableEq, Repr

namespace Capture

/-- A capture that has read nothing yet. -/
def new (endLines : Bool) : Capture :=
  ⟨endLines, none, "", ""⟩

/-- Whether the capture reads the console. -/
def isSubscribed (cap : Capture) : Bool :=
  cap.subscription.isSome

/-- Reads what is written to the console from now on; nothing changes if it does so already.  A
    closed console admits no reader. -/
def subscribe? (cap : Capture) (console : Console) : Option (Capture × Console) :=
  match cap.subscription with
  | some _ => some (cap, console)
  | none => console.join?.map fun (cursor, console) =>
      ({ cap with subscription := some cursor }, console)

/-- Stops reading the console. -/
def unsubscribe (cap : Capture) (console : Console) : Capture × Console :=
  match cap.subscription with
  | some _ => ({ cap with subscription := none }, console.leave)
  | none => (cap, console)

/-- Adds a text to what a stream has shown so far. -/
def push (cap : Capture) (stream : OutputKind) (text : String) : Capture :=
  match stream with
  | .normal => { cap with stdout := cap.stdout ++ text }
  | .error => { cap with stderr := cap.stderr ++ text }

def textOf (endLines : Bool) (c : Chunk) : String :=
  if endLines then Text.endLine c.text else c.text

/-- Adds a chunk to the text of its stream, while subscribed. -/
def append (cap : Capture) (c : Chunk) : Capture :=
  if cap.isSubscribed then cap.push c.stream (textOf cap.endLines c) else cap

@[simp] theorem subscription_push (cap : Capture) (stream : OutputKind) (text : String) :
    (cap.push stream text).subscription = cap.subscription := by
  cases stream <;> rfl

@[simp] theorem subscription_append (cap : Capture) (c : Chunk) :
    (cap.append c).subscription = cap.subscription := by
  simp only [append]
  split
  · exact subscription_push ..
  · rfl

/-- Adds every chunk that waits behind `cursor`, over lost ones; says how many there were. -/
def drainFrom (cap : Capture) (console : Console) (cursor : Cursor) : Nat × Capture × Console :=
  match h : console.poll cursor with
  | (.received c, next) =>
    have := Channel.behind_of_received h
    let (count, rest) := drainFrom (cap.push c.stream (textOf cap.endLines c)) console next
    (count + 1, rest)
  | (.lagged _, next) =>
    have := Channel.behind_of_lagged h
    drainFrom cap console next
  | (.empty, next) => (0, { cap with subscription := some next }, console)
  | (.closed, _) => (0, { cap with subscription := none }, console.leave)
termination_by console.behind cursor

/-- Adds every chunk that waits; says how many there were.  At the end of a closed console the
    capture stops reading. -/
def drain (cap : Capture) (console : Console) : Nat × Capture × Console :=
  match cap.subscription with
  | some cursor => drainFrom cap console cursor
  | none => (0, cap, console)

/-- The next chunk behind `cursor`, over lost ones. -/
def nextFrom (cap : Capture) (console : Console) (cursor : Cursor) :
    NextChunk × Capture × Console :=
  match h : console.poll cursor with
  | (.received c, next) => (.chunk c, { cap with subscription := some next }, console)
  | (.lagged _, next) =>
    have := Channel.behind_of_lagged h
    nextFrom cap console next
  | (.empty, next) => (.pending, { cap with subscription := some next }, console)
  | (.closed, _) => (.closed, { cap with subscription := none }, console.leave)
termination_by console.behind cursor

/-- The next chunk, which is not added.  Nothing ever comes while the capture is not subscribed;
    the end of a closed console is told once, and ends the subscription. -/
def next (cap : Capture) (console : Console) : NextChunk × Capture × Console :=
  match cap.subscription with
  | some cursor => nextFrom cap console cursor
  | none => (.pending, cap, console)

/-- Forgets both texts. -/
def clear (cap : Capture) : Capture :=
  { cap with stdout := "", stderr := "" }

/-- Stops reading and forgets both texts. -/
def reset (cap : Capture) (console : Console) : Capture × Console :=
  let (cap, console) := cap.unsubscribe console
  (cap.clear, console)

/-- The number of chunks sent behind the subscription. -/
def backlog (cap : Capture) (console : Console) : Nat :=
  match cap.subscription with
  | some cursor => console.behind cursor
  | none => 0

theorem backlog_append (cap : Capture) (c : Chunk) (console : Console) :
    (cap.append c).backlog console = cap.backlog console := by
  simp only [backlog, subscription_append]

/-- A capture that has found a chunk reads on behind it. -/
theorem nextFrom_eq_chunk {cap cap' : Capture} {console console' : Console} {cursor : Cursor}
    {c : Chunk} (h : cap.nextFrom console cursor = (.chunk c, cap', console')) :
    ∃ next, cap'.subscription = some next ∧ console' = console ∧
      console.behind next < console.behind cursor := by
  fun_induction nextFrom cap console cursor with
  | case1 cursor d next received =>
    simp only [Prod.mk.injEq] at h
    exact ⟨next, by rw [← h.2.1], h.2.2.symm, Channel.behind_of_received received⟩
  | case2 cursor missed next lagged further ih =>
    obtain ⟨last, reads, same, less⟩ := ih h
    exact ⟨last, reads, same, Nat.lt_trans less further⟩
  | case3 => simp at h
  | case4 => simp at h

/-- A capture that has found the end reads no more. -/
theorem nextFrom_eq_closed {cap cap' : Capture} {console console' : Console} {cursor : Cursor}
    (h : cap.nextFrom console cursor = (.closed, cap', console')) : cap'.subscription = none := by
  fun_induction nextFrom cap console cursor with
  | case1 => simp at h
  | case2 _ _ _ _ _ ih => exact ih h
  | case3 => simp at h
  | case4 =>
    simp only [Prod.mk.injEq] at h
    rw [← h.2.1]

end Capture

end BuildSupervisor
