import BuildSupervisor.Proofs.Console.Subscription
import BuildSupervisor.Proofs.Session.Flat
import BuildSupervisor.Proofs.Session.Tasks
/-!
# The parts of a session agree

What a session says of itself, the build it looks after, its subscription to the console and what
it has gathered are separate fields.  `FlatSession.Consistent` says how they agree, and
`FlatSession.consistent_new` that they always do, whatever is done to a session; among that is a
start that fails because the console is closed, and a console that is closed while a build is there.
-/

namespace BuildSupervisor

/-- What a patch saves is the variable that it changes. -/
theorem Environment.name_of_patch {environment : Environment} {name : String} {located : Located}
    {saved : SavedVariable} (held : (environment.patch name located).1.saved? = some saved) :
    saved.name = name := by
  revert held
  unfold patch
  split
  · exact nofun
  · dsimp only
    split
    · exact nofun
    · split
      · exact nofun
      · rintro ⟨⟩
        rfl

/-- The fields of a session agree; `others` read the console besides it. -/
structure FlatSession.Consistent (others : Nat) (f : FlatSession) : Prop where
  idle : f.state = .idle ↔ f.record = none
  /-- A session at rest reads nothing, holds nothing, and speaks of no build. -/
  blank : f.state = .idle → f.capture.Blank
  unspoken : f.state = .idle → f.status.buildId = none ∧ f.status.targetFile = none
  /-- Of the readers of the console the session is at most one. -/
  counted : f.console.readers = others + f.capture.readers
  single : f.capture.readers ≤ 1
  /-- While a build is there the session reads the console, until that is closed. -/
  reading : f.record ≠ none → f.console.closed = false → f.capture.readers = 1
  current : ∀ r, f.record = some r → r.id = f.lastId
  named : ∀ r saved, f.record = some r → r.saved = some saved → saved.name = f.config.pathVariable

namespace Session

variable {others : Nat} {s t : Session}

/-- What is to be kept of a session for its flat view to be consistent. -/
structure Coherent (others : Nat) (s : Session) : Prop where
  blank : s.active = none → s.capture.Blank
  counted : s.capture.Counted others s.console
  reading : s.active ≠ none → s.console.closed = false → s.capture.readers = 1
  current : ∀ build, s.active = some build → build.id = s.lastId
  named : ∀ build saved, s.active = some build → build.saved = some saved →
    saved.name = s.config.pathVariable

theorem coherent_new (config : Config) (dialect : Dialect) (environment : Environment)
    (console : Console) :
    Coherent console.readers (Session.new config dialect environment console) where
  blank := fun _ => Capture.blank_new config.normalizeNewlines
  counted := rfl
  reading := fun there => absurd rfl there
  current := nofun
  named := nofun

/-- The flat view of a session has a state and a record that agree. -/
theorem Coherent.consistent (h : Coherent others s) : s.flat.Consistent others := by
  have state : s.flat.state = s.state := rfl
  have rest : s.flat.state = .idle ↔ s.active = none := by
    rw [state, Session.state]
    split
    · rename_i none_
      simp [none_]
    · rename_i build some_
      split <;> simp [some_]
  have record (r : BuildRecord) (there : s.flat.record = some r) :
      ∃ build, s.active = some build ∧ build.record = r :=
    Option.map_eq_some_iff.mp there
  constructor
  case idle => rw [rest]; exact Option.map_eq_none_iff.symm
  case blank => exact fun idle => h.blank (rest.mp idle)
  case unspoken =>
    intro idle
    rw [FlatSession.status_flat, status, currentBuild?, rest.mp idle]
    exact ⟨rfl, rfl⟩
  case counted => exact h.counted
  case single => exact Capture.readers_le_one s.capture
  case reading =>
    intro there isOpen
    refine h.reading ?_ isOpen
    intro none_
    exact there (Option.map_eq_none_iff.mpr none_)
  case current =>
    intro r there
    obtain ⟨build, active, rfl⟩ := record r there
    exact h.current build active
  case named =>
    intro r saved there held
    obtain ⟨build, active, rfl⟩ := record r there
    exact h.named build saved active held

namespace Coherent

theorem blank_of_rest (capture : t.capture.Blank) (active : t.active = none)
    (readers : t.console.readers = others) : Coherent others t where
  blank := fun _ => capture
  counted := by
    rw [Capture.Counted, readers, Capture.readers, Capture.isSubscribed, capture.subscription]
    rfl
  reading := fun there => absurd active there
  current := by
    intro build there
    rw [active] at there
    cases there
  named := by
    intro build saved there
    rw [active] at there
    cases there

theorem reset (h : Coherent others s) : Coherent others s.reset :=
  blank_of_rest (Capture.blank_reset s.capture s.console) rfl h.counted.reset

/-- What the console is read for changes neither build nor numbers. -/
theorem of_sameBooks (h : Coherent others s) (books : SameBooks s t)
    (blank : s.active = none → t.capture.Blank) (counted : t.capture.Counted others t.console)
    (reading : s.active ≠ none → t.console.closed = false → t.capture.readers = 1) :
    Coherent others t := by
  refine ⟨?_, counted, ?_, ?_, ?_⟩
  · rw [books.active]
    exact blank
  · rw [books.active]
    exact reading
  · rw [books.active, books.lastId]
    exact h.current
  · rw [books.active, books.config]
    exact h.named

/-- Reading ends the subscription only where the console has been closed. -/
theorem readsOn (h : Coherent others s) (books : SameBooks s t)
    (blank : s.capture.Blank → t.capture.Blank)
    (reads : Capture.ReadsOn s.capture s.console (t.capture, t.console)) : Coherent others t := by
  refine h.of_sameBooks books (fun rest => blank (h.blank rest)) (h.counted.readsOn reads) ?_
  intro there isOpen
  have isOpen : s.console.closed = false := reads.closed.symm.trans isOpen
  exact (reads.readers isOpen).trans (h.reading there isOpen)

/-- The end of a build leaves nothing behind; a warning that goes to the console then finds the
    session no longer among the readers. -/
theorem finish (h : Coherent others s) (build : ActiveBuild) (succeeded : Bool) (said : String)
    (note : Option String) : Coherent others (s.finish build succeeded said note).2 := by
  have drained := h.counted.readsOn (Capture.readsOn_drain s.capture s.console)
  refine blank_of_rest (Capture.blank_reset _ _) rfl ?_
  simp only [Session.finish, drainConsole]
  split
  · rw [Channel.readers_send]
    exact drained.reset
  · exact drained.reset

theorem runDeferred (h : Coherent others s) (task : Deferred) :
    Coherent others (s.runDeferred task) := by
  rcases s.runDeferred_cases task with same | ⟨build, succeeded, said, note, _, _, same⟩
  · rw [same]
    exact h
  · rw [same]
    exact h.finish build succeeded said note

theorem onBuildComplete (h : Coherent others s) (succeeded : Bool) (said : String) :
    Coherent others (s.onBuildComplete succeeded said).2 := by
  unfold Session.onBuildComplete
  split
  · exact h
  · rename_i build active
    split
    · exact h
    · refine ⟨nofun, h.counted, fun _ => h.reading ?_, ?_, ?_⟩
      · rw [active]
        exact Option.some_ne_none build
      · intro other there
        cases there
        exact h.current build active
      · intro other saved there held
        cases there
        exact h.named build saved active held

/-- A start that fails leaves the session at rest, and one that is accepted reads the console. -/
theorem start (h : Coherent others s) (located : Located) (request : BuildRequest) :
    Coherent others (s.start located request).2 := by
  unfold Session.start
  split
  · exact h
  · have rested := h.reset
    unfold begin
    dsimp only
    split
    · exact blank_of_rest (rested.blank rfl) rfl h.counted.reset
    · rename_i capture console subscribed
      obtain ⟨counted, readers⟩ := rested.counted.subscribe? subscribed
      have started (schedule : Schedule Deferred) : Coherent others
          { s with
            active := some (s.opened located request)
            capture := capture
            lastId := s.lastId + 1
            console := console
            events := s.events.publish (s.lastId + 1) .started
            environment := (s.patchFor located).2
            schedule := schedule } := by
        refine ⟨nofun, counted, fun _ _ => readers, ?_, ?_⟩
        · intro build there
          cases there
          rfl
        · intro build saved there held
          cases there
          exact Environment.name_of_patch held
      split
      · exact started _
      · exact started _

/-- Every operation leaves the parts of a session in agreement. -/
theorem apply (h : Coherent others s) (plain : s.schedule.IsPlain) (op : Operation) :
    Coherent others (s.apply op).2 := by
  by_cases mayEnd : op.mayEnd = true
  · obtain ⟨q, _, _, same | ⟨task, _, same⟩⟩ := settle_cases plain mayEnd
    · rw [same]
      exact ⟨h.blank, h.counted, h.reading, h.current, h.named⟩
    · rw [same]
      obtain ⟨blank, counted, reading, current, named⟩ := h.runDeferred task
      exact ⟨blank, counted, reading, current, named⟩
  · cases op with
    | start located request => exact h.start located request
    | outputChunk c =>
      have readers := s.capture.readers_append c
      refine h.of_sameBooks ⟨rfl, rfl, rfl, rfl, rfl, rfl⟩ ?_ ?_ ?_
      · intro rest
        rw [show (s.apply (.outputChunk c)).2.capture = s.capture.append c from rfl,
          (h.blank rest).append]
        exact h.blank rest
      · exact h.counted.trans (congrArg (others + ·) readers.symm)
      · exact fun there isOpen => readers.trans (h.reading there isOpen)
    | drainConsole =>
      refine h.readsOn (sameBooks_drainConsole s) ?_ (Capture.readsOn_drain s.capture s.console)
      intro blank
      rw [show (s.apply .drainConsole).2.capture = (s.capture.drain s.console).2.1 from rfl,
        blank.drain]
      exact blank
    | nextChunk =>
      refine h.readsOn (sameBooks_nextChunk s) ?_ (Capture.readsOn_next s.capture s.console)
      intro blank
      rw [show (s.apply .nextChunk).2.capture = (s.capture.next s.console).2.1 from rfl,
        blank.next]
      exact blank
    | buildComplete succeeded said => exact h.onBuildComplete succeeded said
    | reset => exact h.reset
    | write c =>
      refine h.of_sameBooks ⟨rfl, rfl, rfl, rfl, rfl, rfl⟩ h.blank ?_ ?_
      · exact (Channel.readers_send s.console c).trans h.counted
      · intro there isOpen
        rw [show (s.apply (.write c)).2.console.closed = (s.console.send c).closed from rfl,
          Channel.closed_send] at isOpen
        exact h.reading there isOpen
    | closeConsole =>
      exact h.of_sameBooks ⟨rfl, rfl, rfl, rfl, rfl, rfl⟩ h.blank h.counted nofun
    | finalize id succeeded said => exact absurd rfl mayEnd
    | watchdog id => exact absurd rfl mayEnd
    | advance by_ => exact absurd rfl mayEnd

end Coherent

theorem coherent_run (h : Coherent others s) (plain : s.schedule.IsPlain) (ops : List Operation) :
    Coherent others (s.run ops) :=
  (run_induction (P := fun _ t => Coherent others t ∧ t.schedule.IsPlain) ⟨h, plain⟩
    (fun _ op _ _ ih => ⟨ih.1.apply ih.2 op, isPlain_apply ih.2 op⟩) ops).1

end Session

/-- Whatever is done to a new session, in whatever order, its fields agree, and the session that is
    kept in separate fields is the same session with the same answers. -/
theorem FlatSession.consistent_new (config : Config) (dialect : Dialect) (environment : Environment)
    (console : Console) (ops : List Operation) :
    ((new config dialect environment console).run ops).Consistent console.readers ∧
      (new config dialect environment console).run ops =
        ((Session.new config dialect environment console).run ops).flat ∧
      (new config dialect environment console).answers ops =
        (Session.new config dialect environment console).answers ops := by
  have first := Session.coherent_new config dialect environment console
  obtain ⟨same, answers⟩ := run_flat (Session.new config dialect environment console) ops
  rw [flat_new] at same answers
  refine ⟨?_, same, answers⟩
  rw [same]
  exact (Session.coherent_run first nofun ops).consistent

end BuildSupervisor
