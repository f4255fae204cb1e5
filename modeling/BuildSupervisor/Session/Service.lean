import BuildSupervisor.Session.Basic
/-!
# The session service

A service owns a session and is the only one that touches it.  Others publish to the console, send
commands and wait for the replies; what the session has put off arrives at the service when it is
due.  `Service.step?` is one turn of the service: a chunk on the console goes before what has
arrived, and that before the commands, which are handled in the order in which they were sent.

A service stops when it is told to, or when nobody holds a handle to it any more.  It leaves the
session at rest; commands that still wait are never answered.
-/

namespace BuildSupervisor

/-- What can be asked of a service. -/
inductive Command where
  | start (request : BuildRequest)
  | buildComplete (succeeded : Bool) (reported : String)
  | reset
  | status
  | shutdown
  deriving DecidableEq, Repr

/-- Tells the replies to different commands apart. -/
abbrev Ticket := Nat

/-- What a command is answered with. -/
inductive Reply where
  | started (outcome : Except SessionError StartOutcome)
  | done
  | status (s : SessionStatus)

/-- A session, what has arrived for it, and the commands that wait. -/
structure Service where
  session : Session
  /-- Which directories the toolchain needs. -/
  located : Located
  arrived : List Deferred
  inbox : List (Ticket × Command)
  /-- The replies given so far. -/
  replies : List (Ticket × Reply)
  /-- How many hold a handle to the service. -/
  handles : Nat
  stopped : Bool

namespace Service

def new (session : Session) (located : Located) : Service :=
  ⟨session, located, [], [], [], 1, false⟩

/-- Ends the service; the session comes to rest. -/
def stop (v : Service) : Service :=
  { v with session := v.session.reset, arrived := [], inbox := [], stopped := true }

/-- The longest time for which a service waits or puts anything off: thirty years of 365 days.  Its
    timer keeps to that long before the sum of the clock and a delay could overflow: a watchdog of
    946080001 seconds ends a build after 946080000 seconds, and so does one of ten to the twelfth. -/
def longestDelay : Duration :=
  Duration.ofSecs 946080000

/-- Brings forward what the session has put off for too long. -/
def hasten (v : Service) : Service :=
  let schedule := v.session.schedule
  { v with
    session := { v.session with schedule := schedule.noLaterThan (schedule.now.add longestDelay) } }

/-- Answers a command. -/
def reply (v : Service) (ticket : Ticket) (r : Reply) : Service :=
  { v with replies := v.replies ++ [(ticket, r)] }

/-- Does what a command asks. -/
def handle (v : Service) (ticket : Ticket) : Command → Service
  | .start request =>
    let (outcome, session) := v.session.start v.located request
    ({ v with session := session }.reply ticket (.started outcome)).hasten
  | .buildComplete succeeded reported =>
    { v with session := (v.session.onBuildComplete succeeded reported).2 }.hasten
  | .reset => { v with session := v.session.reset }.reply ticket .done
  | .status => v.reply ticket (.status v.session.status)
  | .shutdown => v.stop

/-- What the service does when no chunk waits on the console. -/
def serve? (v : Service) : Option Service :=
  match v.arrived with
  | task :: rest => some { v with session := v.session.runDeferred task, arrived := rest }
  | [] =>
    match v.inbox with
    | (ticket, command) :: rest => some ({ v with inbox := rest }.handle ticket command)
    | [] => if v.handles = 0 then some v.stop else none

/-- One turn of the service; `none` where it waits or has stopped.  That the console has come to
    its end is noticed in a turn, which goes on as if nothing waited there. -/
def step? (v : Service) : Option Service :=
  if v.stopped then none
  else
    match v.session.nextChunk with
    | (.chunk c, session) => some { v with session := (session.onOutputChunk c).2 }
    | (.closed, session) =>
      let v := { v with session := session }
      some (v.serve?.getD v)
    | (.pending, session) => { v with session := session }.serve?

/-- What the service has to do before it waits: what has arrived, the commands, and the chunks on
    the console. -/
def arrears (v : Service) : Nat × Nat :=
  ((if v.stopped then 0 else 1) + v.arrived.length + v.inbox.length,
    v.session.capture.backlog v.session.console + if v.session.capture.isSubscribed then 1 else 0)

theorem backlog_of_chunk {console console' : Console} {cap cap' : Capture} {c : Chunk}
    (h : cap.next console = (.chunk c, cap', console')) :
    cap'.isSubscribed = true ∧ cap.isSubscribed = true ∧
      cap'.backlog console' < cap.backlog console := by
  unfold Capture.next at h
  split at h
  · rename_i cursor there
    obtain ⟨next, reads, same, less⟩ := Capture.nextFrom_eq_chunk h
    simp only [Capture.isSubscribed, Capture.backlog, reads, there, same]
    exact ⟨rfl, rfl, less⟩
  · simp at h

/-- At the end of a closed console the capture, which was subscribed, is so no longer. -/
theorem unsubscribed_of_closed {console console' : Console} {cap cap' : Capture}
    (h : cap.next console = (.closed, cap', console')) :
    cap.isSubscribed = true ∧ cap'.subscription = none := by
  unfold Capture.next at h
  split at h
  · rename_i cursor there
    exact ⟨by simp [Capture.isSubscribed, there], Capture.nextFrom_eq_closed h⟩
  · simp at h

theorem arrears_handle (v : Service) (ticket : Ticket) (command : Command) :
    (v.handle ticket command).arrears.1 ≤ v.arrears.1 := by
  cases command with
  | shutdown =>
    simp only [handle, stop, arrears, List.length_nil, if_true]
    omega
  | _ => exact Nat.le_refl _

/-- Serving what has arrived or a command leaves less to do. -/
theorem arrears_serve {v next : Service} (running : v.stopped = false)
    (h : v.serve? = some next) : next.arrears.1 < v.arrears.1 := by
  unfold serve? at h
  split at h
  · rename_i ha
    simp only [Option.some.injEq] at h
    rw [← h]
    simp only [arrears, ha, running, List.length_cons]
    omega
  · rename_i ha
    split at h
    · rename_i ticket command rest hi
      simp only [Option.some.injEq] at h
      rw [← h]
      refine Nat.lt_of_le_of_lt (arrears_handle _ ticket command) ?_
      simp only [arrears, ha, hi, running, List.length_cons]
      omega
    · split at h
      · simp only [Option.some.injEq] at h
        rw [← h]
        simp only [arrears, stop, running, List.length_nil, if_true, Bool.false_eq_true, if_false]
        omega
      · simp at h

/-- Pairs are ordered by what comes first in them. -/
theorem less_of_fst {a b : Nat × Nat} (h : a.1 < b.1) : Prod.Lex (· < ·) (· < ·) a b := by
  obtain ⟨_, _⟩ := a
  obtain ⟨_, _⟩ := b
  exact Prod.Lex.left _ _ h

/-- A turn of the service leaves less to do. -/
theorem arrears_step {v next : Service} (h : v.step? = some next) :
    Prod.Lex (· < ·) (· < ·) next.arrears v.arrears := by
  unfold step? at h
  split at h
  · simp at h
  · rename_i running
    have running : v.stopped = false := by simpa using running
    rcases hn : v.session.capture.next v.session.console with ⟨chunk, cap, console⟩
    simp only [Session.nextChunk, hn] at h
    cases chunk with
    | chunk c =>
      obtain ⟨h₁, h₂, h₃⟩ := backlog_of_chunk hn
      simp only [Session.onOutputChunk, Option.some.injEq] at h
      rw [← h]
      refine Prod.Lex.right _ ?_
      have subscribed : (cap.append c).isSubscribed = cap.isSubscribed := by
        simp only [Capture.isSubscribed, Capture.subscription_append]
      simp only [Capture.backlog_append, subscribed, h₁, h₂]
      omega
    | closed =>
      obtain ⟨h₁, h₂⟩ := unsubscribed_of_closed hn
      simp only [Option.some.injEq] at h
      generalize hv : ({ v with session := _ } : Service) = quiet at h
      have fst : quiet.arrears.1 = v.arrears.1 := by
        rw [← hv]
        rfl
      cases hs : quiet.serve? with
      | some after =>
        have lt := arrears_serve (by rw [← hv]; exact running) hs
        rw [hs] at h
        simp only [Option.getD_some] at h
        rw [← h]
        exact less_of_fst (by rw [← fst]; exact lt)
      | none =>
        rw [hs] at h
        simp only [Option.getD_none] at h
        rw [← h]
        have snd : quiet.arrears.2 < v.arrears.2 := by
          rw [← hv]
          simp only [arrears, Capture.backlog, Capture.isSubscribed, h₂] at h₁ ⊢
          simp only [h₁]
          simp
        rw [show quiet.arrears = (v.arrears.1, quiet.arrears.2) by rw [← fst]]
        exact Prod.Lex.right _ snd
    | pending =>
      simp only at h
      have lt := arrears_serve (by exact running) h
      exact less_of_fst lt

/-- Turns until the service waits or has stopped. -/
def settle (v : Service) : Service :=
  match _h : v.step? with
  | none => v
  | some next => settle next
termination_by v.arrears
decreasing_by exact arrears_step _h

/-- Sends a command; nobody takes it once the service has stopped. -/
def send? (v : Service) (ticket : Ticket) (command : Command) : Option Service :=
  if v.stopped then none else some { v with inbox := v.inbox ++ [(ticket, command)] }

/-- The reply to a command, if it has been given. -/
def reply? (v : Service) (ticket : Ticket) : Option Reply :=
  v.replies.lookup ticket

/-- Lets what is due first arrive, if it is due no later than `target`, and moves the clock there.
    A service that has stopped takes nothing any more. -/
def arrive? (v : Service) (target : Duration) : Option Service :=
  (v.session.schedule.pop? target).map fun (t, schedule) =>
    { v with
      session := { v.session with schedule := schedule }
      arrived := if v.stopped then [] else v.arrived ++ [t.job.action] }

/-- Lets at most `n` put-off tasks arrive, each once the service waits, until `found` finds what it
    looks for. -/
def arriveUntil (found : Service → Option β) (target : Duration) :
    Nat → Service → Option β × Service
  | 0, v => (found v, v)
  | n + 1, v =>
    match found v with
    | some b => (some b, v)
    | none =>
      match v.arrive? target with
      | none => (none, v)
      | some v => arriveUntil found target n v.settle

/-- Waits until `found` finds what it looks for, no longer than up to `target`; the clock stands
    there if it finds nothing.  What is there already is found at once, and the service has no
    turn. -/
def wait (found : Service → Option β) (target : Duration) (v : Service) : Option β × Service :=
  match found v with
  | some b => (some b, v)
  | none =>
    let v := v.settle
    match arriveUntil found target v.session.schedule.pending.length v with
    | (some b, v) => (some b, v)
    | (none, v) =>
      (none, { v with
        session := { v.session with schedule := { v.session.schedule with now := target } } })

/-- Waits up to a time, whatever happens on the way. -/
def waitUntil (v : Service) (target : Duration) : Service :=
  (v.wait (fun _ => (none : Option Unit)) target).2

/-- Waits for a time; no time is over at once, and the service has no turn. -/
def sleep (v : Service) (by_ : Duration) : Service :=
  if by_ = Duration.zero then v
  else v.waitUntil (v.session.schedule.now.add (if longestDelay < by_ then longestDelay else by_))

/-- Waits for nothing but what is due already. -/
def rest (v : Service) : Service :=
  v.waitUntil v.session.schedule.now

end Service

end BuildSupervisor
