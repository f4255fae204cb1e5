import BuildSupervisor.Broadcast
import BuildSupervisor.Console
import BuildSupervisor.Diagnostic.Basic
/-!
# Build events

Listeners learn of a build from two notifications: that it has started, and its result.
Notifications are numbered in the order in which they are published, whether anyone listens or
not.
-/

namespace BuildSupervisor

/-- The number of an accepted build. -/
abbrev BuildId := Nat

/-- One block of the output of a build. -/
structure Output where
  kind : OutputKind
  text : String
  deriving DecidableEq, Repr

/-- The result of a build: the target as it is shown, the blocks of output in the order in which
    they are shown, and the diagnostics in the order in which they were read. -/
structure BuildResult where
  targetFile : String
  outputs : List Output
  diagnostics : List Diagnostic
  deriving DecidableEq, Repr

namespace BuildResult

/-- The texts of all blocks of one kind, one behind the other. -/
def textOf (r : BuildResult) (kind : OutputKind) : String :=
  String.join ((r.outputs.filter fun o => o.kind = kind).map Output.text)

/-- Whether a diagnostic is an error. -/
def hasErrors (r : BuildResult) : Bool :=
  r.diagnostics.any fun d => d.severity.isError

end BuildResult

/-- What can be told of a build. -/
inductive Event where
  | started
  | completed (result : BuildResult)
  deriving DecidableEq, Repr

namespace Event

/-- The word an event is written with. -/
def name : Event → String
  | .started => "build_started"
  | .completed _ => "build_completed"

end Event

/-- A numbered event of one build. -/
structure Notification where
  sequence : Nat
  buildId : BuildId
  event : Event
  deriving DecidableEq, Repr

namespace Notification

/-- Whether the notification tells the result of the build. -/
def completes (n : Notification) (id : BuildId) : Bool :=
  n.buildId = id &&
    match n.event with
    | .completed _ => true
    | .started => false

end Notification

/-- The channel of all notifications, and how many there have been. -/
structure EventBus where
  channel : Channel Notification
  published : Nat
  deriving DecidableEq, Repr

/-- How many notifications a slow listener may fall behind without a loss. -/
def eventCapacity : Nat := 256

/-- Why a listener gets no notification. -/
inductive ListenError where
  | closed
  | lagged (missed : Nat)
  deriving DecidableEq, Repr

/-- What is said of a listener that gets no notification. -/
def ListenError.message : ListenError → String
  | .closed => "Channel closed"
  | .lagged missed => "Subscriber lagged behind by " ++ Text.showNat missed ++ " events"

namespace EventBus

/-- A bus on which nothing has been published. -/
def new : EventBus :=
  ⟨Channel.new eventCapacity, 0⟩

/-- The notification that would be published next. -/
def announce (bus : EventBus) (id : BuildId) (event : Event) : Notification :=
  ⟨bus.published + 1, id, event⟩

def publish (bus : EventBus) (id : BuildId) (event : Event) : EventBus :=
  ⟨bus.channel.send (bus.announce id event), bus.published + 1⟩

/-- Admits a listener, who gets what is published from now on. -/
def listen? (bus : EventBus) : Option (Cursor × EventBus) :=
  bus.channel.join?.map fun (cursor, channel) => (cursor, { bus with channel })

/-- Lets a listener go. -/
def leave (bus : EventBus) : EventBus :=
  { bus with channel := bus.channel.leave }

/-- Ends the bus. -/
def close (bus : EventBus) : EventBus :=
  { bus with channel := bus.channel.close }

/-- All notifications so far, in the order in which they were published. -/
def log (bus : EventBus) : List Notification :=
  bus.channel.sent

/-- The next notification, `none` where none waits. -/
def tryReceive (bus : EventBus) (cursor : Cursor) :
    Except ListenError (Option Notification) × Cursor :=
  match bus.channel.poll cursor with
  | (.received n, next) => (.ok (some n), next)
  | (.lagged missed, next) => (.error (.lagged missed), next)
  | (.empty, next) => (.ok none, next)
  | (.closed, next) => (.error .closed, next)

/-- Looks for the result of a build among the waiting notifications; others are passed over and
    are gone.  `none` where the result does not wait yet. -/
def completionOf (bus : EventBus) (id : BuildId) (cursor : Cursor) :
    Except ListenError (Option Notification) × Cursor :=
  match h : bus.channel.poll cursor with
  | (.received n, next) =>
    have := Channel.behind_of_received h
    if n.completes id then (.ok (some n), next) else completionOf bus id next
  | (.lagged missed, next) => (.error (.lagged missed), next)
  | (.empty, next) => (.ok none, next)
  | (.closed, next) => (.error .closed, next)
termination_by bus.channel.behind cursor

/-- The notifications that wait, up to the first poll that yields none; a report of lost ones is
    such a poll. -/
def drain (bus : EventBus) (cursor : Cursor) : List Notification × Cursor :=
  match h : bus.channel.poll cursor with
  | (.received n, next) =>
    have := Channel.behind_of_received h
    let (rest, last) := drain bus next
    (n :: rest, last)
  | (_, next) => ([], next)
termination_by bus.channel.behind cursor

end EventBus

end BuildSupervisor
