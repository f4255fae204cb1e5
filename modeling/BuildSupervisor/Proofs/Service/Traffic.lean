import BuildSupervisor.Proofs.Service.Journal
import Mathlib.Data.List.Perm.Basic
/-!
# What can happen around a service

A `Traffic` is a service with its history: the commands it was sent, and the journal of what it did.
A `Happening` is a turn of the service, or anything that others do between two turns.  Tasks may
arrive in any order and at any time, commands come from whoever holds a handle, and the answer of
the toolchain may change.
-/

namespace BuildSupervisor

/-- What can happen around a service. -/
inductive Happening where
  /-- The service has a turn. -/
  | serve
  /-- The task at that place of the schedule arrives. -/
  | arrive (place : Nat)
  | setClock (now : Duration)
  | send (command : Command)
  | write (c : Chunk)
  | closeConsole
  /-- Somebody who holds a handle gives one to somebody else. -/
  | share
  | release
  /-- The toolchain is found elsewhere, or nowhere. -/
  | relocate (located : Located)

/-- A service with its history. -/
structure Traffic where
  service : Service
  /-- The commands that the service has taken in, in the order in which they were sent. -/
  sent : List (Ticket × Command)
  /-- What the service did, and what was done to its console, in order. -/
  journal : List Entry

namespace Service

/-- Lets the task at that place arrive, whenever it is due. -/
def receive? (v : Service) (place : Nat) : Option Service :=
  v.session.schedule.pending[place]?.map fun t =>
    { v with
      session := { v.session with schedule := { v.session.schedule with
        pending := v.session.schedule.pending.eraseIdx place } }
      arrived := if v.stopped then [] else v.arrived ++ [t.job.action] }

/-- What whoever sends a command to the service is told: it is sent, or the service has stopped. -/
def call (v : Service) (ticket : Ticket) (command : Command) : Except SessionError Service :=
  match v.send? ticket command with
  | some w => .ok w
  | none => .error .stopped

/-- What whoever waits for the reply to a command finds; a service that has stopped gives none. -/
def answer? (v : Service) (ticket : Ticket) : Option (Except SessionError Reply) :=
  match v.reply? ticket with
  | some r => some (.ok r)
  | none => if v.stopped then some (.error .stopped) else none

theorem call_eq_ok {v w : Service} {ticket : Ticket} {command : Command}
    (h : v.call ticket command = .ok w) :
    v.stopped = false ∧ w = { v with inbox := v.inbox ++ [(ticket, command)] } := by
  unfold call send? at h
  split at h
  · rename_i sent
    split at sent
    · cases sent
    · rename_i running
      cases sent
      cases h
      exact ⟨by simpa using running, rfl⟩
  · cases h

end Service

namespace Traffic

/-- A new service, to which nothing has happened yet. -/
def new (session : Session) (located : Located) : Traffic :=
  ⟨Service.new session located, [], []⟩

/-- Replaces the service; its history stays. -/
def withService (t : Traffic) (v : Service) : Traffic :=
  { t with service := v }

/-- Does what happens; what is not possible just now does not happen. -/
def meet (t : Traffic) : Happening → Traffic
  | .serve =>
    match t.service.step? with
    | some v => { t with service := v, journal := t.journal ++ t.service.entry?.toList }
    | none => t
  | .arrive place => t.withService ((t.service.receive? place).getD t.service)
  | .setClock now =>
    t.withService { t.service with
      session := { t.service.session with
        schedule := { t.service.session.schedule with now := now } } }
  | .send command =>
    if t.service.handles = 0 then t
    else
      match t.service.call t.sent.length command with
      | .ok v => { t with service := v, sent := t.sent ++ [(t.sent.length, command)] }
      | .error _ => t
  | .write c =>
    { t with
      service := { t.service with session := (t.service.session.write c).2 }
      journal := t.journal ++ [.written c] }
  | .closeConsole =>
    { t with
      service := { t.service with session := t.service.session.closeConsole }
      journal := t.journal ++ [.closed] }
  | .share =>
    if t.service.handles = 0 then t
    else t.withService { t.service with handles := t.service.handles + 1 }
  | .release => t.withService { t.service with handles := t.service.handles - 1 }
  | .relocate located => t.withService { t.service with located := located }

def run (t : Traffic) (happenings : List Happening) : Traffic :=
  happenings.foldl meet t

/-- The calls that were made to the session. -/
def calls (t : Traffic) : List Operation :=
  t.journal.flatMap Entry.calls

/-- The commands that were handled. -/
def handled (t : Traffic) : List (Ticket × Command) :=
  t.journal.filterMap Entry.taken?

/-- The put-off tasks that were done. -/
def done (t : Traffic) : List Deferred :=
  t.journal.filterMap Entry.done?

/-- Nothing has changed but where the tasks are that are put off, who holds a handle, and where the
    toolchain is. -/
structure Aside (v w : Service) : Prop where
  session : v.session.SameButSchedule w.session
  inbox : w.inbox = v.inbox
  replies : w.replies = v.replies
  stopped : w.stopped = v.stopped
  /-- Tasks are lost only where the service has stopped. -/
  tasks : ∃ lost, v.putOff.Perm (w.putOff ++ lost) ∧ (v.stopped = false → lost = [])

/-- The tasks stay where they are. -/
theorem aside_of_kept {v w : Service} (session : v.session.SameButSchedule w.session)
    (inbox : w.inbox = v.inbox) (replies : w.replies = v.replies) (stopped : w.stopped = v.stopped)
    (putOff : w.putOff = v.putOff) : Aside v w :=
  ⟨session, inbox, replies, stopped, [], by rw [putOff, List.append_nil], fun _ => rfl⟩

theorem putOff_receive {v w : Service} {place : Nat} (h : v.receive? place = some w) :
    ∃ lost, v.putOff.Perm (w.putOff ++ lost) ∧ (v.stopped = false → lost = []) := by
  obtain ⟨job, there, rfl⟩ := Option.map_eq_some_iff.mp h
  obtain ⟨bound, rfl⟩ := List.getElem?_eq_some_iff.mp there
  have taken := (List.getElem_cons_eraseIdx_perm bound).map fun t => t.job.action
  unfold Service.putOff Schedule.actions
  dsimp only
  cases v.stopped with
  | true =>
    refine ⟨v.arrived ++ [v.session.schedule.pending[place].job.action], ?_, nofun⟩
    refine (taken.symm.append_left v.arrived).trans ?_
    rw [List.map_cons, List.append_cons]
    exact List.perm_append_comm
  | false =>
    refine ⟨[], ?_, fun _ => rfl⟩
    rw [if_neg Bool.false_ne_true, List.append_nil, List.append_assoc]
    exact taken.symm.append_left v.arrived

/-- What can become of a service with its history when something happens. -/
inductive Meets (t : Traffic) : Traffic → Prop where
  | noted {e w} : t.service.Noted e w → Meets t ⟨w, t.sent, t.journal ++ [e]⟩
  | sent (command : Command) : t.service.stopped = false →
      Meets t
        { t with
          service := { t.service with
            inbox := t.service.inbox ++ [(t.sent.length, command)] }
          sent := t.sent ++ [(t.sent.length, command)] }
  | aside {w} : Aside t.service w → Meets t (t.withService w)

theorem meets_self (t : Traffic) : Meets t t :=
  .aside (aside_of_kept (.refl _) rfl rfl rfl rfl)

theorem meets_receive (t : Traffic) (place : Nat) :
    Meets t (t.withService ((t.service.receive? place).getD t.service)) := by
  cases received : t.service.receive? place with
  | none => exact t.meets_self
  | some w =>
    refine .aside ?_
    have tasks := putOff_receive received
    obtain ⟨job, _, rfl⟩ := Option.map_eq_some_iff.mp received
    exact ⟨⟨_, rfl⟩, rfl, rfl, rfl, tasks⟩

/-- The list of what can become of it is complete. -/
theorem meets (t : Traffic) (h : Happening) : Meets t (t.meet h) := by
  cases h with
  | serve =>
    unfold meet
    cases step : t.service.step? with
    | none => exact t.meets_self
    | some w =>
      obtain ⟨running, e, entry, enters⟩ := Service.enters_of_step step
      rw [entry]
      exact .noted (enters.noted running)
  | arrive place => exact t.meets_receive place
  | setClock now => exact .aside (aside_of_kept ⟨_, rfl⟩ rfl rfl rfl rfl)
  | send command =>
    change Meets t (if _ then _ else _)
    split
    · exact t.meets_self
    · cases called : t.service.call t.sent.length command with
      | error _ => exact t.meets_self
      | ok w =>
        obtain ⟨running, rfl⟩ := Service.call_eq_ok called
        exact .sent command running
  | write c => exact .noted (t.service.noted_written c)
  | closeConsole => exact .noted t.service.noted_closed
  | share =>
    change Meets t (if _ then _ else _)
    split
    · exact t.meets_self
    · exact .aside (aside_of_kept (.refl _) rfl rfl rfl rfl)
  | release => exact .aside (aside_of_kept (.refl _) rfl rfl rfl rfl)
  | relocate located => exact .aside (aside_of_kept (.refl _) rfl rfl rfl rfl)

end Traffic

end BuildSupervisor
