import BuildSupervisor.Invoker
import Mathlib.Data.List.Induction
/-!
# Crews

A crew is a service with the invokers that have turned to it.  A run of a crew is any sequence of
turns: of the service, of one of the invokers, of the clock, and of those who reset or stop the
service or write to the console from outside.  A turn that is not possible changes nothing, so
that every list of turns is a run and every order in which things can happen is such a list.
-/

namespace BuildSupervisor

/-- What the service can be asked without a build of one's own. -/
inductive Order where
  | reset
  | status
  | shutdown
  deriving DecidableEq, Repr

/-- The command an order is sent as. -/
def Order.command : Order → Command
  | .reset => .reset
  | .status => .status
  | .shutdown => .shutdown

/-- A service, and those who have asked it for builds. -/
structure Crew where
  service : Service
  invokers : List Invoker
  /-- No ticket from this one on has been used. -/
  nextTicket : Ticket
  /-- The commands that the service has been sent, the first one first. -/
  sent : List (Ticket × Command)

/-- What can happen in a crew. -/
inductive Turn where
  /-- The service does what it does next. -/
  | serve
  /-- What is due first arrives, if it is due no later than `target`. -/
  | arrive (target : Duration)
  /-- Time goes by in which nothing falls due. -/
  | elapse (by_ : Duration)
  /-- Someone new asks for a build. -/
  | join (request : BuildRequest) (command : ToolCommand) (launch : Launch)
  /-- An invoker does what it does next. -/
  | proceed (index : Nat) (first : OutputKind)
  | order (o : Order)
  | write (c : Chunk)
  | closeConsole
  /-- A handle is given back. -/
  | release

namespace Crew

/-- A crew whose service has done nothing yet. -/
def new (session : Session) (located : Located) : Crew :=
  ⟨Service.new session located, [], 0, []⟩

/-- The service has changed, and what its inbox has gained has been sent. -/
def send (c : Crew) (v : Service) : Crew :=
  { c with service := v, sent := c.sent ++ v.inbox.drop c.service.inbox.length }

/-- The service with another session. -/
def withSession (c : Crew) (s : Session) : Crew :=
  { c with service := { c.service with session := s } }

/-- Someone new asks for a build, and listens to the events from before that. -/
def join? (c : Crew) (request : BuildRequest) (command : ToolCommand) (launch : Launch) :
    Option Crew :=
  c.service.session.events.listen?.map fun (listener, events) =>
    let v := { c.service with session := { c.service.session with events := events } }
    let (i, v) := Invoker.ask v c.nextTicket request command launch listener
    { c.send v with invokers := c.invokers ++ [i], nextTicket := c.nextTicket + 1 }

/-- The invoker of that index does what it does next. -/
def proceed? (c : Crew) (index : Nat) (first : OutputKind) : Option Crew :=
  c.invokers[index]?.bind fun i => (i.step? first c.service).map fun (i, v) =>
    { c.send v with invokers := c.invokers.set index i }

/-- An order is sent under a ticket of its own. -/
def order? (c : Crew) (o : Order) : Option Crew :=
  (c.service.send? c.nextTicket o.command).map fun v =>
    { c.send v with nextTicket := c.nextTicket + 1 }

/-- The clock moves by a time, if nothing falls due until then. -/
def elapse? (c : Crew) (by_ : Duration) : Option Crew :=
  let schedule := c.service.session.schedule
  match schedule.pop? (schedule.now.add by_) with
  | some _ => none
  | none =>
    some (c.withSession
      { c.service.session with schedule := { schedule with now := schedule.now.add by_ } })

/-- A turn; `none` where it is not possible. -/
def turn? (c : Crew) : Turn → Option Crew
  | .serve => c.service.step?.map fun v => { c with service := v }
  | .arrive target => (c.service.arrive? target).map fun v => { c with service := v }
  | .elapse by_ => c.elapse? by_
  | .join request command launch => c.join? request command launch
  | .proceed index first => c.proceed? index first
  | .order o => c.order? o
  | .write chunk => some (c.withSession (c.service.session.write chunk).2)
  | .closeConsole => some (c.withSession c.service.session.closeConsole)
  | .release => some { c with service := { c.service with handles := c.service.handles - 1 } }

/-- The crew after a turn. -/
def turn (c : Crew) (t : Turn) : Crew :=
  (c.turn? t).getD c

/-- The crew after some turns. -/
def run (c : Crew) (turns : List Turn) : Crew :=
  turns.foldl turn c

theorem run_concat (c : Crew) (turns : List Turn) (t : Turn) :
    c.run (turns ++ [t]) = (c.run turns).turn t := by
  simp only [run, List.foldl_append, List.foldl_cons, List.foldl_nil]

/-- The property holds of every crew that a run comes through. -/
def Throughout (P : Crew → Prop) (c : Crew) (turns : List Turn) : Prop :=
  ∀ before after, turns = before ++ after → P (c.run before)

/-- What every turn keeps, as long as `Q` holds, is kept by a run through which `Q` holds. -/
theorem Throughout.induction {c : Crew} {turns : List Turn} {P Q : Crew → Prop}
    (h : Throughout Q c turns) (start : P c) (step : ∀ d t, Q d → P d → P (d.turn t)) :
    Throughout P c turns := by
  intro before
  induction before using List.reverseRecOn with
  | nil => exact fun _ _ => start
  | append_singleton before t ih =>
    intro after place
    rw [List.append_assoc] at place
    rw [run_concat]
    exact step _ t (h before _ place) (ih _ place)

/-- A turn changes nothing, or is possible. -/
theorem turn_cases (c : Crew) (t : Turn) : c.turn t = c ∨ c.turn? t = some (c.turn t) := by
  unfold turn
  cases c.turn? t with
  | none => exact .inl rfl
  | some d => exact .inr rfl

/-- A turn of the service changes nothing, or is a step of it. -/
theorem turn_serve_cases (c : Crew) :
    c.turn .serve = c ∨
      ∃ w, c.service.step? = some w ∧ c.turn .serve = { c with service := w } := by
  refine (c.turn_cases .serve).imp_right fun moved => ?_
  obtain ⟨w, step, there⟩ := Option.map_eq_some_iff.mp moved
  exact ⟨w, step, there.symm⟩

/-- A turn of the clock that lets something arrive changes nothing, or the service has it. -/
theorem turn_arrive_cases (c : Crew) (target : Duration) :
    c.turn (.arrive target) = c ∨
      ∃ w, c.service.arrive? target = some w ∧
        c.turn (.arrive target) = { c with service := w } := by
  refine (c.turn_cases (.arrive target)).imp_right fun moved => ?_
  obtain ⟨w, arrives, there⟩ := Option.map_eq_some_iff.mp moved
  exact ⟨w, arrives, there.symm⟩

/-- A turn of an invoker changes nothing, or is a step of that invoker. -/
theorem turn_proceed_cases (c : Crew) (index : Nat) (first : OutputKind) :
    c.turn (.proceed index first) = c ∨
      ∃ i j w, c.invokers[index]? = some i ∧ i.step? first c.service = some (j, w) ∧
        c.turn (.proceed index first) =
          { c.send w with invokers := c.invokers.set index j } := by
  refine (c.turn_cases (.proceed index first)).imp_right fun moved => ?_
  obtain ⟨i, there, moved⟩ := Option.bind_eq_some_iff.mp moved
  obtain ⟨⟨j, w⟩, step, stepped⟩ := Option.map_eq_some_iff.mp moved
  exact ⟨i, j, w, there, step, stepped.symm⟩

end Crew

end BuildSupervisor
