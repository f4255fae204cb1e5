import BuildSupervisor.Proofs.Console.Gathering
import BuildSupervisor.Proofs.Event.Chronicle
import BuildSupervisor.Session.Basic
/-!
# Sessions with nothing to read

On an open console on which nothing waits, a session finds nothing, and goes on to what it has to
do: a start succeeds where no build is in the way, and a watchdog ends its build.
-/

namespace BuildSupervisor

namespace Capture

theorem nextFrom_of_empty {cap : Capture} {console : Console} {cursor next : Cursor}
    (h : console.poll cursor = (.empty, next)) :
    cap.nextFrom console cursor = (.pending, { cap with subscription := some next }, console) := by
  unfold nextFrom
  split
  · rename_i received
    cases h.symm.trans received
  · rename_i lagged
    cases h.symm.trans lagged
  · rename_i empty
    cases h.symm.trans empty
    rfl
  · rename_i closed
    cases h.symm.trans closed

theorem drainFrom_of_empty {cap : Capture} {console : Console} {cursor next : Cursor}
    (h : console.poll cursor = (.empty, next)) :
    cap.drainFrom console cursor = (0, { cap with subscription := some next }, console) := by
  unfold drainFrom
  split
  · rename_i received
    cases h.symm.trans received
  · rename_i lagged
    cases h.symm.trans lagged
  · rename_i empty
    cases h.symm.trans empty
    rfl
  · rename_i closed
    cases h.symm.trans closed

end Capture

namespace Session

/-- Nothing waits on an open console. -/
structure Silent (s : Session) : Prop where
  isOpen : s.console.closed = false
  read : ∀ cursor, s.capture.subscription = some cursor → s.console.sent.length ≤ cursor.next

theorem Silent.poll {s : Session} (h : Silent s) {cursor : Cursor}
    (there : s.capture.subscription = some cursor) : s.console.poll cursor = (.empty, cursor) := by
  have read := h.read cursor there
  have missed : s.console.missed cursor = 0 := by
    simp only [Channel.missed, Channel.unread, List.length_drop]
    omega
  have none_ : s.console.sent[cursor.next]? = none := List.getElem?_eq_none_iff.mpr read
  simp only [Channel.poll, missed, Nat.lt_irrefl, if_false, none_, h.isOpen, Bool.false_eq_true]

theorem Silent.nextChunk {s : Session} (h : Silent s) : s.nextChunk = (.pending, s) := by
  unfold Session.nextChunk Capture.next
  cases there : s.capture.subscription with
  | none => rfl
  | some cursor =>
    dsimp only
    rw [Capture.nextFrom_of_empty (h.poll there), ← there]

theorem Silent.drainConsole {s : Session} (h : Silent s) : s.drainConsole = (0, s) := by
  unfold Session.drainConsole Capture.drain
  cases there : s.capture.subscription with
  | none => rfl
  | some cursor =>
    dsimp only
    rw [Capture.drainFrom_of_empty (h.poll there), ← there]

theorem closed_reset (s : Session) : s.reset.console.closed = s.console.closed := by
  change (s.capture.reset s.console).2.closed = s.console.closed
  obtain ⟨endLines, subscription, stdout, stderr⟩ := s.capture
  cases subscription <;> rfl

theorem silent_reset {s : Session} (isOpen : s.console.closed = false) : Silent s.reset := by
  refine ⟨(closed_reset s).trans isOpen, ?_⟩
  intro cursor there
  change (s.capture.reset s.console).1.subscription = some cursor at there
  rw [Capture.reset_eq_new] at there
  cases there

/-- What is put off for a build that is taken up now. -/
def putOffAtStart (s : Session) : Schedule Deferred :=
  match s.config.watchdogTimeout? with
  | some timeout => s.schedule.schedule timeout (Job.single (.watchdog (s.lastId + 1)))
  | none => s.schedule

/-- A start on an open console succeeds, if no build is in the way. -/
structure Opens (s t : Session) (answer : Except SessionError StartOutcome) : Prop where
  accepted : answer = .ok (.accepted (s.lastId + 1))
  silent : Silent t
  isOpen : t.events.channel.closed = s.events.channel.closed
  schedule : t.schedule = s.putOffAtStart

theorem opens_start {s : Session} (isOpen : s.console.closed = false)
    (free : s.active = none ∨ s.config.reentry = .replace) (located : Located)
    (request : BuildRequest) :
    Opens s (s.start located request).2 (s.start located request).1 := by
  unfold start
  split
  · rename_i active rejects
    rcases free with none_ | replaces
    · cases none_.symm.trans active
    · cases replaces.symm.trans rejects
  · have rested : s.reset.capture = Capture.new s.capture.endLines :=
      Capture.reset_eq_new s.capture s.console
    have running : s.reset.console.closed = false := (closed_reset s).trans isOpen
    have published (id : BuildId) :
        (s.events.publish id .started).channel.closed = s.events.channel.closed :=
      EventBus.closed_publish _ _ _
    unfold begin
    simp only [rested, Capture.subscribe?, Capture.new, Channel.join?, running, Bool.false_eq_true,
      if_false, Option.map_some]
    split
    · rename_i timeout watched
      have watched : s.config.watchdogTimeout? = some timeout := watched
      refine ⟨rfl, ⟨rfl, ?_⟩, published _, ?_⟩
      · rintro cursor ⟨⟩
        exact Nat.le_refl _
      · rw [putOffAtStart, watched]
        rfl
    · rename_i unwatched
      have unwatched : s.config.watchdogTimeout? = none := unwatched
      refine ⟨rfl, ⟨rfl, ?_⟩, published _, ?_⟩
      · rintro cursor ⟨⟩
        exact Nat.le_refl _
      · rw [putOffAtStart, unwatched]
        rfl

/-- A build that is ended by its watchdog leaves the session at rest. -/
theorem runDeferred_watchdog {s : Session} (silent : Silent s) {build : ActiveBuild}
    (active : s.active = some build) (phase : build.phase = .building) :
    (s.runDeferred (.watchdog build.id)).active = none ∧
      Silent (s.runDeferred (.watchdog build.id)) ∧
      (s.runDeferred (.watchdog build.id)).events.channel.closed = s.events.channel.closed := by
  have runs : s.runDeferred (.watchdog build.id) =
      (s.finish build false "" (some (watchdogNote s.config))).2 := by
    simp only [runDeferred, onWatchdog, active, phase, and_self, if_true]
  rw [runs]
  have rested := silent_reset silent.isOpen
  unfold finish
  rw [silent.drainConsole]
  refine ⟨rfl, ⟨?_, ?_⟩, EventBus.closed_publish _ _ _⟩
  · dsimp only
    split
    · exact (Channel.closed_send _ _).trans rested.isOpen
    · exact rested.isOpen
  · intro cursor there
    change (s.capture.reset s.console).1.subscription = some cursor at there
    rw [Capture.reset_eq_new] at there
    cases there

end Session

end BuildSupervisor
