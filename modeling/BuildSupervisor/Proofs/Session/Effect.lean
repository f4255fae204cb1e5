import BuildSupervisor.Proofs.Schedule.Advance
import BuildSupervisor.Session.Operation
import Mathlib.Data.List.Induction
/-!
# What an operation can do to builds

The books of a session are the build it looks after, the numbers it has given, what it has
published and the environment.  `Session.Effect` lists everything that one operation can do to
them, and `Session.effect_apply` says that the list is complete.  Every invariant of the books is a
short case analysis of it, and goes over to runs by `Session.run_induction`.
-/

namespace BuildSupervisor

namespace Answer

/-- The number of the build that was accepted. -/
def newBuild? : Answer → Option BuildId
  | .started (.ok (.accepted id)) => some id
  | _ => none

/-- Whether a number was used up: each start takes one unless another build is in the way. -/
def takesNumber : Answer → Bool
  | .started (.ok (.busy _)) => false
  | .started _ => true
  | _ => false

end Answer

namespace Operation

/-- Whether the operation may give a build its result. -/
def mayEnd : Operation → Bool
  | .finalize .. => true
  | .watchdog _ => true
  | .advance _ => true
  | _ => false

end Operation

namespace Session

/-- The sessions keep the same books; what has been heard of the console and what is put off may
    differ. -/
structure SameBooks (s t : Session) : Prop where
  config : t.config = s.config
  dialect : t.dialect = s.dialect
  active : t.active = s.active
  lastId : t.lastId = s.lastId
  events : t.events = s.events
  environment : t.environment = s.environment

theorem SameBooks.refl (s : Session) : SameBooks s s :=
  ⟨rfl, rfl, rfl, rfl, rfl, rfl⟩

theorem SameBooks.trans {s t u : Session} (h : SameBooks s t) (h' : SameBooks t u) :
    SameBooks s u :=
  ⟨h'.config.trans h.config, h'.dialect.trans h.dialect, h'.active.trans h.active,
    h'.lastId.trans h.lastId, h'.events.trans h.events, h'.environment.trans h.environment⟩

/-- The patch that the start of a build applies, and the environment after it. -/
def patchFor (s : Session) (located : Located) : Patch × Environment :=
  s.reset.environment.patch s.config.pathVariable located

/-- The build that a start takes up. -/
def opened (s : Session) (located : Located) (request : BuildRequest) : ActiveBuild :=
  ⟨s.lastId + 1, request, .building, (s.patchFor located).1.saved?,
    (s.patchFor located).1.warning?⟩

/-- The session at rest after a build has got its result. -/
def ended (s : Session) (build : ActiveBuild) (result : BuildResult) : Session :=
  { s.reset with events := s.events.publish build.id (.completed result) }

/-- Everything an operation can do to the books of a session, with its answer. -/
inductive Effect (s : Session) : Operation → Answer → Session → Prop where
  | kept {op answer t} : op ≠ .reset → answer.newBuild? = none → answer.takesNumber = false →
      SameBooks s t → Effect s op answer t
  | discarded {t} : SameBooks s.reset t → Effect s .reset .done t
  | aborted (located : Located) (request : BuildRequest) {t} :
      SameBooks { s.reset with lastId := s.lastId + 1 } t →
      Effect s (.start located request) (.started (.error .consoleClosed)) t
  | accepted (located : Located) (request : BuildRequest) {t} :
      SameBooks { s with
        active := some (s.opened located request)
        lastId := s.lastId + 1
        events := s.events.publish (s.lastId + 1) .started
        environment := (s.patchFor located).2 } t →
      Effect s (.start located request) (.started (.ok (.accepted (s.lastId + 1)))) t
  | reported (build : ActiveBuild) (succeeded : Bool) (said : String) {t} :
      s.active = some build → build.phase = .building →
      SameBooks { s with active := some { build with phase := .completionPending } } t →
      Effect s (.buildComplete succeeded said) (.accepted true) t
  | ended (build : ActiveBuild) (result : BuildResult) {op answer t} :
      s.active = some build → op.mayEnd = true → answer.newBuild? = none →
      answer.takesNumber = false → SameBooks (s.ended build result) t → Effect s op answer t

/-- Undoing a patch brings back the environment that was patched. -/
theorem undo_patch (environment : Environment) (name : String) (located : Located) :
    undo (environment.patch name located).2 (environment.patch name located).1.saved? =
      environment := by
  unfold Environment.patch
  split
  · rfl
  · dsimp only
    split
    · rfl
    · split
      · rfl
      · simp only [Patch.saved?, undo, Environment.restore, Environment.set,
          Environment.put_put, Environment.put_value]

theorem sameBooks_drainConsole (s : Session) : SameBooks s s.drainConsole.2 :=
  ⟨rfl, rfl, rfl, rfl, rfl, rfl⟩

theorem sameBooks_nextChunk (s : Session) : SameBooks s s.nextChunk.2 :=
  ⟨rfl, rfl, rfl, rfl, rfl, rfl⟩

/-- What ending a build does to the books: the result is published and the session comes to rest. -/
theorem sameBooks_finish {s : Session} {build : ActiveBuild} (h : s.active = some build)
    (succeeded : Bool) (said : String) (note : Option String) :
    SameBooks (s.ended build (s.finish build succeeded said note).1)
      (s.finish build succeeded said note).2 := by
  refine ⟨rfl, rfl, rfl, rfl, rfl, ?_⟩
  simp only [finish, ended, reset, h, Option.bind_some]
  rfl

/-- The session has done nothing to its books, or has given the build it looked after a result. -/
def KeptOrEnded (s t : Session) : Prop :=
  SameBooks s t ∨ ∃ build result, s.active = some build ∧ SameBooks (s.ended build result) t

theorem KeptOrEnded.of_sameBooks {s t u : Session} (h : SameBooks s t) (h' : KeptOrEnded t u) :
    KeptOrEnded s u := by
  rcases h' with kept | ⟨build, result, active, books⟩
  · exact .inl (h.trans kept)
  · refine .inr ⟨build, result, h.active.symm.trans active, ?_⟩
    have same : SameBooks (s.ended build result) (t.ended build result) := by
      refine ⟨h.config, h.dialect, rfl, h.lastId, ?_, ?_⟩
      · simp only [ended, h.events]
      · simp only [ended, reset, h.environment, h.active]
    exact same.trans books

/-- The result that a task gives the build at hand. -/
inductive Ends (s : Session) (build : ActiveBuild) : Deferred → BuildResult → Prop where
  | reported (succeeded : Bool) (said : String) : build.phase = .completionPending →
      Ends s build (.finalize build.id succeeded said) (s.finish build succeeded said none).1
  | expired : build.phase = .building →
      Ends s build (.watchdog build.id)
        (s.finish build false "" (some (watchdogNote s.config))).1

/-- A task does nothing, or ends the build at hand. -/
theorem runDeferred_cases (s : Session) (task : Deferred) :
    s.runDeferred task = s ∨ ∃ build succeeded said note, s.active = some build ∧
      Ends s build task (s.finish build succeeded said note).1 ∧
      s.runDeferred task = (s.finish build succeeded said note).2 := by
  cases task with
  | finalize id succeeded said =>
    simp only [runDeferred, finalize]
    split
    · exact .inl rfl
    · rename_i build active
      split
      · rename_i due
        obtain ⟨phase, rfl⟩ := due
        exact .inr ⟨build, succeeded, said, none, active, .reported succeeded said phase, rfl⟩
      · exact .inl rfl
  | watchdog id =>
    simp only [runDeferred, onWatchdog]
    split
    · exact .inl rfl
    · rename_i build active
      split
      · rename_i due
        obtain ⟨phase, rfl⟩ := due
        exact .inr ⟨build, false, "", some (watchdogNote s.config), active, .expired phase, rfl⟩
      · exact .inl rfl

theorem keptOrEnded_runDeferred (s : Session) (task : Deferred) :
    KeptOrEnded s (s.runDeferred task) := by
  rcases s.runDeferred_cases task with same | ⟨build, succeeded, said, note, active, _, same⟩
  · rw [same]
    exact .inl (.refl s)
  · rw [same]
    exact .inr ⟨build, _, active, sameBooks_finish active succeeded said note⟩

/-- A session at rest has no build that could end. -/
theorem SameBooks.of_keptOrEnded {s t : Session} (rest : s.active = none) (h : KeptOrEnded s t) :
    SameBooks s t := by
  rcases h with kept | ⟨build, _, active, _⟩
  · exact kept
  · rw [rest] at active
    cases active

/-- What every task keeps that falls due, of the tasks that are left and of the session, is kept
    when the clock moves; the session takes the tasks that are left. -/
theorem advance_induction {P : Schedule Deferred → Session → Prop} (s : Session) (by_ : Duration)
    (start : P s.schedule s)
    (step : ∀ q t rest state, q.pop? (s.schedule.now.add by_) = some (t, rest) → P q state →
      P (rest.scheduleAll t.job.followUps) (state.runDeferred t.job.action)) :
    ∃ last t, last.pop? (s.schedule.now.add by_) = none ∧ P last t ∧
      (s.advance by_).2 =
        { t with schedule := { last with now := s.schedule.now.add by_ } } := by
  obtain ⟨last, done, schedule, kept⟩ := Schedule.runUntil_induction
    (fun _ task (t : Session) => t.runDeferred task) (s.schedule.now.add by_) step s.schedule s
    start
  refine ⟨last, _, done, kept, ?_⟩
  rw [← schedule]
  rfl

/-- However much falls due, at most the build that the session looks after ends. -/
theorem keptOrEnded_advance (s : Session) (by_ : Duration) : KeptOrEnded s (s.advance by_).2 := by
  have moved := advance_induction (P := fun _ t => KeptOrEnded s t) s by_ (.inl (.refl s)) <| by
    intro _ t _ state _ ih
    rcases ih with kept | ⟨build, result, active, books⟩
    · exact .of_sameBooks kept (keptOrEnded_runDeferred state t.job.action)
    · -- The build has ended, so that the tasks which fall due after that find nothing to end.
      have rest : state.active = none := books.active
      exact .inr ⟨build, result, active,
        books.trans (.of_keptOrEnded rest (keptOrEnded_runDeferred state t.job.action))⟩
  obtain ⟨last, t, _, h, same⟩ := moved
  rw [same]
  rcases h with kept | ⟨build, result, active, books⟩
  · exact .inl (kept.trans ⟨rfl, rfl, rfl, rfl, rfl, rfl⟩)
  · exact .inr ⟨build, result, active, books.trans ⟨rfl, rfl, rfl, rfl, rfl, rfl⟩⟩

theorem Effect.of_keptOrEnded {s t : Session} {op : Operation} {answer : Answer}
    (mayEnd : op.mayEnd = true) (quiet : answer.newBuild? = none)
    (free : answer.takesNumber = false) (h : KeptOrEnded s t) : Effect s op answer t := by
  rcases h with kept | ⟨build, result, active, books⟩
  · refine .kept ?_ quiet free kept
    rintro rfl
    cases mayEnd
  · exact .ended build result active mayEnd quiet free books

/-- A start that is not refused: it fails, or a build is taken up. -/
theorem effect_begin (s : Session) (located : Located) (request : BuildRequest) :
    Effect s (.start located request) (.started (s.reset.begin located request).1)
      (s.reset.begin located request).2 := by
  unfold begin
  dsimp only
  split
  · refine .aborted located request ⟨rfl, rfl, rfl, rfl, rfl, ?_⟩
    exact undo_patch s.reset.environment s.config.pathVariable located
  · split <;> exact .accepted located request ⟨rfl, rfl, rfl, rfl, rfl, rfl⟩

theorem effect_start (s : Session) (located : Located) (request : BuildRequest) :
    Effect s (.start located request) (.started (s.start located request).1)
      (s.start located request).2 := by
  unfold start
  split
  · exact .kept (by simp) rfl rfl (.refl s)
  · exact effect_begin s located request

theorem effect_onBuildComplete (s : Session) (succeeded : Bool) (said : String) :
    Effect s (.buildComplete succeeded said) (.accepted (s.onBuildComplete succeeded said).1)
      (s.onBuildComplete succeeded said).2 := by
  unfold onBuildComplete
  split
  · exact .kept (by simp) rfl rfl (.refl s)
  · rename_i build active
    split
    · exact .kept (by simp) rfl rfl (.refl s)
    · rename_i phase
      exact .reported build succeeded said active phase ⟨rfl, rfl, rfl, rfl, rfl, rfl⟩

/-- The report of an end is taken for the build at hand, whichever that is. -/
theorem active_onBuildComplete (s : Session) (succeeded : Bool) (said : String) :
    (s.onBuildComplete succeeded said).2.active =
      s.active.map fun build => { build with phase := .completionPending } := by
  unfold onBuildComplete
  split
  · rename_i none_
    rw [none_]
    rfl
  · rename_i build active
    rw [active]
    split
    · rename_i phase
      rw [active, Option.map_some, ← phase]
    · rfl

/-- Nothing else is touched by it but the schedule. -/
theorem onBuildComplete_keeps (s : Session) (succeeded : Bool) (said : String) :
    (s.onBuildComplete succeeded said).2.capture = s.capture ∧
      (s.onBuildComplete succeeded said).2.console = s.console ∧
      (s.onBuildComplete succeeded said).2.events = s.events := by
  unfold onBuildComplete
  split
  · exact ⟨rfl, rfl, rfl⟩
  · split <;> exact ⟨rfl, rfl, rfl⟩

/-- The list of effects is complete. -/
theorem effect_apply (s : Session) (op : Operation) :
    Effect s op (s.apply op).1 (s.apply op).2 := by
  cases op with
  | start located request => exact effect_start s located request
  | outputChunk c => exact .kept (by simp) rfl rfl ⟨rfl, rfl, rfl, rfl, rfl, rfl⟩
  | drainConsole => exact .kept (by simp) rfl rfl (sameBooks_drainConsole s)
  | nextChunk => exact .kept (by simp) rfl rfl (sameBooks_nextChunk s)
  | buildComplete succeeded said => exact effect_onBuildComplete s succeeded said
  | finalize id succeeded said =>
    exact .of_keptOrEnded rfl rfl rfl (keptOrEnded_runDeferred s (.finalize id succeeded said))
  | watchdog id => exact .of_keptOrEnded rfl rfl rfl (keptOrEnded_runDeferred s (.watchdog id))
  | advance by_ => exact .of_keptOrEnded rfl rfl rfl (keptOrEnded_advance s by_)
  | reset => exact .discarded (.refl s.reset)
  | write c => exact .kept (by simp) rfl rfl ⟨rfl, rfl, rfl, rfl, rfl, rfl⟩
  | closeConsole => exact .kept (by simp) rfl rfl ⟨rfl, rfl, rfl, rfl, rfl, rfl⟩

/-- Nothing that is done to a session configures it anew. -/
theorem Effect.settings {s t : Session} {op : Operation} {answer : Answer}
    (effect : Effect s op answer t) : t.config = s.config ∧ t.dialect = s.dialect := by
  cases effect with
  | kept _ _ _ books => exact ⟨books.config, books.dialect⟩
  | discarded books => exact ⟨books.config, books.dialect⟩
  | aborted _ _ books => exact ⟨books.config, books.dialect⟩
  | accepted _ _ books => exact ⟨books.config, books.dialect⟩
  | reported _ _ _ _ _ books => exact ⟨books.config, books.dialect⟩
  | ended _ _ _ _ _ _ books => exact ⟨books.config, books.dialect⟩

/-! ## Runs -/

theorem run_append (s : Session) (first second : List Operation) :
    s.run (first ++ second) = (s.run first).run second := by
  induction first generalizing s with
  | nil => rfl
  | cons op ops ih => exact ih (s.apply op).2

/-- What holds at first and is kept by every operation holds after every run; the run so far may
    be spoken of. -/
theorem run_induction {s : Session} {P : List Operation → Session → Prop} (nil : P [] s)
    (concat : ∀ ops op t, s.run ops = t → P ops t → P (ops ++ [op]) (t.apply op).2)
    (ops : List Operation) : P ops (s.run ops) := by
  induction ops using List.reverseRecOn with
  | nil => exact nil
  | append_singleton ops op ih =>
    rw [run_append]
    exact concat ops op _ rfl ih

end Session

end BuildSupervisor
