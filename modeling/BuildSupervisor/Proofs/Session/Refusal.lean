import BuildSupervisor.Proofs.Console.Subscription
import BuildSupervisor.Proofs.Session.Flat
import BuildSupervisor.Proofs.Session.Likeness
import BuildSupervisor.Proofs.Session.Restoration
/-!
# What a session turns away

Five operations may come to nothing: a start while a build is in the way, a chunk that nobody
reads, the end of a tool that nobody waits for, and a result or a watchdog that is not due for the
build at hand.  `FlatSession.TurnsAway` says when, and `FlatSession.Refuses` that the answer tells
so and that nothing at all has changed then; nor does a session at rest change that is told to come
to rest.  All of it hangs on a session at rest having nothing that could be forgotten, which
`Session.Rested` says and `rested_endure` keeps, whatever happens to the session and to what it
shares with others.
-/

namespace BuildSupervisor

/-- Whether the answer says that nothing was done. -/
def Answer.refuses : Answer → Bool
  | .started (.ok (.busy _)) => true
  | .accepted yes => !yes
  | .result r => r.isNone
  | _ => false

/-- What happens to a session: something is asked of it, or others change what it shares with them,
    in whatever way they like. -/
inductive Incident where
  | asked (op : Operation)
  | elsewhere (console : Console) (events : EventBus) (environment : Environment)
      (schedule : Schedule Deferred)

namespace FlatSession

def befall (f : FlatSession) : Incident → FlatSession
  | .asked op => (f.apply op).2
  | .elsewhere console events environment schedule =>
    { f with console, events, environment, schedule }

def endure (f : FlatSession) (incidents : List Incident) : FlatSession :=
  incidents.foldl befall f

/-- The session does not do the operation. -/
def TurnsAway (f : FlatSession) : Operation → Prop
  | .start _ _ => f.config.reentry = .reject ∧ f.record ≠ none
  | .outputChunk _ => f.capture.subscription = none
  | .buildComplete _ _ => f.state ≠ .building
  | .finalize id _ _ => f.state ≠ .completionPending ∨ f.currentBuild? ≠ some id
  | .watchdog id => f.state ≠ .building ∨ f.currentBuild? ≠ some id
  | _ => False

/-- Whatever is turned away leaves the session as it was. -/
structure Refuses (f : FlatSession) : Prop where
  told : ∀ op, (f.apply op).1.refuses = true ↔ f.TurnsAway op
  unchanged : ∀ op, f.TurnsAway op → (f.apply op).2 = f
  /-- A start that is turned away learns which build is in the way. -/
  busy : ∀ located request r, f.config.reentry = .reject → f.record = some r →
    f.start located request = (.ok (.busy r.id), f)
  rest : f.state = .idle → f.reset = f

end FlatSession

namespace Session

def befall (s : Session) : Incident → Session
  | .asked op => (s.apply op).2
  | .elsewhere console events environment schedule =>
    { s with console, events, environment, schedule }

def endure (s : Session) (incidents : List Incident) : Session :=
  incidents.foldl befall s

/-- The same, where what the session does is not noted beside the build. -/
structure Refuses (s : Session) : Prop where
  told : ∀ op, (s.apply op).1.refuses = true ↔ s.flat.TurnsAway op
  unchanged : ∀ op, s.flat.TurnsAway op → (s.apply op).2 = s
  rest : s.state = .idle → s.reset = s

/-- The same happens to a session and to its flat view. -/
theorem flat_endure (s : Session) (incidents : List Incident) :
    s.flat.endure incidents = (s.endure incidents).flat := by
  induction incidents generalizing s with
  | nil => rfl
  | cons incident rest ih =>
    have step : s.flat.befall incident = (s.befall incident).flat := by
      cases incident with
      | asked op => exact congrArg Prod.snd (FlatSession.flat_apply s op)
      | elsewhere console events environment schedule => rfl
    exact (congrArg (fun f => FlatSession.endure f rest) step).trans (ih (s.befall incident))

/-- A session at rest reads nothing and has gathered nothing. -/
def Rested (s : Session) : Prop :=
  s.active = none → s.capture.Blank

variable {s : Session}

theorem rested_new (config : Config) (dialect : Dialect) (environment : Environment)
    (console : Console) : Rested (new config dialect environment console) :=
  fun _ => Capture.blank_new config.normalizeNewlines

theorem rested_reset (s : Session) : Rested s.reset :=
  fun _ => Capture.blank_reset s.capture s.console

theorem rested_start (h : Rested s) (located : Located) (request : BuildRequest) :
    Rested (s.start located request).2 := by
  unfold start
  split
  · exact h
  · unfold begin
    dsimp only
    split
    · exact rested_reset s
    · split <;> exact fun rest => absurd rest (Option.some_ne_none _)

theorem rested_onBuildComplete (h : Rested s) (succeeded : Bool) (said : String) :
    Rested (s.onBuildComplete succeeded said).2 := by
  unfold onBuildComplete
  split
  · exact h
  · split
    · exact h
    · exact fun rest => absurd rest (Option.some_ne_none _)

theorem rested_runDeferred (h : Rested s) (task : Deferred) : Rested (s.runDeferred task) := by
  rcases s.runDeferred_cases task with same | ⟨build, succeeded, said, note, _, _, same⟩
  · rw [same]
    exact h
  · rw [same]
    exact fun _ => Capture.blank_reset _ _

theorem rested_advance (h : Rested s) (by_ : Duration) : Rested (s.advance by_).2 := by
  obtain ⟨last, t, _, rested, same⟩ := advance_induction (P := fun _ t => Rested t) s by_ h
    fun _ t _ _ _ rested => rested_runDeferred rested t.job.action
  rw [same]
  exact rested

/-- Every operation leaves a session that is at rest after it with nothing. -/
theorem rested_apply (h : Rested s) (op : Operation) : Rested (s.apply op).2 := by
  cases op with
  | start located request => exact rested_start h located request
  | outputChunk c =>
    intro rest
    change (s.capture.append c).Blank
    rw [(h rest).append]
    exact h rest
  | drainConsole =>
    intro rest
    change (s.capture.drain s.console).2.1.Blank
    rw [(h rest).drain]
    exact h rest
  | nextChunk =>
    intro rest
    change (s.capture.next s.console).2.1.Blank
    rw [(h rest).next]
    exact h rest
  | buildComplete succeeded said => exact rested_onBuildComplete h succeeded said
  | finalize id succeeded said => exact rested_runDeferred h (.finalize id succeeded said)
  | watchdog id => exact rested_runDeferred h (.watchdog id)
  | advance by_ => exact rested_advance h by_
  | reset => exact rested_reset s
  | write c => exact h
  | closeConsole => exact h

theorem rested_endure (h : Rested s) (incidents : List Incident) :
    Rested (s.endure incidents) := by
  induction incidents generalizing s with
  | nil => exact h
  | cons incident rest ih =>
    cases incident with
    | asked op => exact ih (rested_apply h op)
    | elsewhere console events environment schedule => exact ih h

/-! ## When nothing is done -/

/-- A start that is not refused is not said to have been. -/
theorem refuses_start_of_free (free : s.active = none ∨ s.config.reentry = .replace)
    (located : Located) (request : BuildRequest) :
    (Answer.started (s.start located request).1).refuses = false := by
  rw [start_eq free]
  split <;> rfl

theorem finalize_of_not_due {id : BuildId}
    (other : s.state ≠ .completionPending ∨ s.currentBuild? ≠ some id) (succeeded : Bool)
    (said : String) : s.finalize id succeeded said = (none, s) := by
  unfold finalize
  split
  · rfl
  · rename_i build active
    rw [if_neg]
    rintro ⟨phase, rfl⟩
    simp [Session.state, currentBuild?, active, phase] at other

theorem finalize_of_due {id : BuildId} (state : s.state = .completionPending)
    (current : s.currentBuild? = some id) (succeeded : Bool) (said : String) :
    (s.finalize id succeeded said).1.isSome := by
  obtain ⟨build, active, rfl⟩ := Option.map_eq_some_iff.mp current
  have phase := (FlatSession.state_flat s active).2.mp state
  simp only [finalize, active, phase, and_self, if_true, Option.isSome_some]

theorem onWatchdog_of_not_due {id : BuildId}
    (other : s.state ≠ .building ∨ s.currentBuild? ≠ some id) : s.onWatchdog id = (none, s) := by
  unfold onWatchdog
  split
  · rfl
  · rename_i build active
    rw [if_neg]
    rintro ⟨phase, rfl⟩
    simp [Session.state, currentBuild?, active, phase] at other

theorem onWatchdog_of_due {id : BuildId} (state : s.state = .building)
    (current : s.currentBuild? = some id) : (s.onWatchdog id).1.isSome := by
  obtain ⟨build, active, rfl⟩ := Option.map_eq_some_iff.mp current
  have phase := (FlatSession.state_flat s active).1.mp state
  simp only [onWatchdog, active, phase, and_self, if_true, Option.isSome_some]

theorem append_of_unsubscribed {cap : Capture} (unread : cap.subscription = none) (c : Chunk) :
    cap.append c = cap := by
  rw [Capture.append, Capture.isSubscribed, unread]
  rfl

theorem turnsAway_start_iff {located : Located} {request : BuildRequest} :
    s.flat.TurnsAway (.start located request) ↔ s.config.reentry = .reject ∧ s.active ≠ none :=
  and_congr_right fun _ => not_congr Option.map_eq_none_iff

theorem turnsAway_finalize_iff {id : BuildId} {succeeded : Bool} {said : String} :
    s.flat.TurnsAway (.finalize id succeeded said) ↔
      s.state ≠ .completionPending ∨ s.currentBuild? ≠ some id := by
  rw [FlatSession.TurnsAway, FlatSession.currentBuild?_flat]
  rfl

theorem turnsAway_watchdog_iff {id : BuildId} :
    s.flat.TurnsAway (.watchdog id) ↔ s.state ≠ .building ∨ s.currentBuild? ≠ some id := by
  rw [FlatSession.TurnsAway, FlatSession.currentBuild?_flat]
  rfl

/-- What is turned away leaves the session as it was, and is said to have been. -/
theorem apply_of_turnsAway {op : Operation} (h : s.flat.TurnsAway op) :
    (s.apply op).1.refuses = true ∧ (s.apply op).2 = s := by
  cases op with
  | start located request =>
    obtain ⟨rejects, there⟩ := turnsAway_start_iff.mp h
    obtain ⟨build, active⟩ := Option.ne_none_iff_exists'.mp there
    rw [apply, start_of_busy active rejects]
    exact ⟨rfl, rfl⟩
  | outputChunk c =>
    have unread : s.capture.subscription = none := h
    rw [apply, onOutputChunk, append_of_unsubscribed unread, Capture.isSubscribed, unread]
    exact ⟨rfl, rfl⟩
  | buildComplete succeeded said =>
    rw [apply, onBuildComplete_of_not_building h]
    exact ⟨rfl, rfl⟩
  | finalize id succeeded said =>
    rw [apply, finalize_of_not_due (turnsAway_finalize_iff.mp h)]
    exact ⟨rfl, rfl⟩
  | watchdog id =>
    rw [apply, onWatchdog_of_not_due (turnsAway_watchdog_iff.mp h)]
    exact ⟨rfl, rfl⟩
  | _ => exact h.elim

/-- What is not turned away is not said to have been. -/
theorem refuses_of_not_turnsAway {op : Operation} (h : ¬s.flat.TurnsAway op) :
    (s.apply op).1.refuses = false := by
  cases op with
  | start located request =>
    rw [turnsAway_start_iff, not_and, not_not] at h
    refine refuses_start_of_free ?_ located request
    cases policy : s.config.reentry with
    | replace => exact .inr rfl
    | reject => exact .inl (h policy)
  | outputChunk c =>
    have read : s.capture.subscription ≠ none := h
    obtain ⟨cursor, there⟩ := Option.ne_none_iff_exists'.mp read
    rw [apply, onOutputChunk, Capture.isSubscribed, there]
    rfl
  | buildComplete succeeded said =>
    have building : s.state = .building := not_not.mp h
    have busy : s.active ≠ none := fun rest => by
      rw [(state_idle_iff s).mpr rest] at building
      cases building
    obtain ⟨build, active⟩ := Option.ne_none_iff_exists'.mp busy
    rw [apply, onBuildComplete_of_building active ((FlatSession.state_flat s active).1.mp building)]
    rfl
  | finalize id succeeded said =>
    rw [turnsAway_finalize_iff, not_or, not_not, not_not] at h
    obtain ⟨result, there⟩ := Option.isSome_iff_exists.mp (finalize_of_due h.1 h.2 succeeded said)
    rw [apply, Prod.map_fst, there]
    rfl
  | watchdog id =>
    rw [turnsAway_watchdog_iff, not_or, not_not, not_not] at h
    obtain ⟨result, there⟩ := Option.isSome_iff_exists.mp (onWatchdog_of_due h.1 h.2)
    rw [apply, Prod.map_fst, there]
    rfl
  | _ => rfl

/-- A session at rest has nothing to forget. -/
theorem reset_of_rested (rested : Rested s) (rest : s.active = none) : s.reset = s := by
  obtain ⟨unread, stdout, stderr⟩ := rested rest
  obtain ⟨_, _, _, ⟨_, _, _, _⟩, _⟩ := s
  subst rest unread stdout stderr
  rfl

theorem Rested.refuses (rested : Rested s) : s.Refuses := by
  constructor
  case told =>
    intro op
    constructor
    · intro refused
      by_contra done
      exact absurd refused (Bool.eq_false_iff.mp (refuses_of_not_turnsAway done))
    · exact fun away => (apply_of_turnsAway away).1
  case unchanged => exact fun op away => (apply_of_turnsAway away).2
  case rest => exact fun idle => reset_of_rested rested ((state_idle_iff s).mp idle)

/-- What holds of a session holds of its flat view. -/
theorem Refuses.flat (h : s.Refuses) : s.flat.Refuses := by
  constructor
  case told =>
    intro op
    rw [FlatSession.flat_apply]
    exact h.told op
  case unchanged =>
    intro op away
    rw [FlatSession.flat_apply, h.unchanged op away]
  case busy =>
    intro located request r rejects there
    obtain ⟨build, active, rfl⟩ := Option.map_eq_some_iff.mp there
    rw [FlatSession.flat_start, start_of_busy active rejects]
    rfl
  case rest =>
    intro idle
    rw [FlatSession.flat_reset, h.rest idle]

end Session

/-- Whatever has happened to a new session, all that it turns away leaves it as it was, and so does
    coming to rest where it is at rest. -/
theorem FlatSession.refuses_new (config : Config) (dialect : Dialect) (environment : Environment)
    (console : Console) (incidents : List Incident) :
    ((new config dialect environment console).endure incidents).Refuses ∧
      (new config dialect environment console).endure incidents =
        ((Session.new config dialect environment console).endure incidents).flat ∧
      ((Session.new config dialect environment console).endure incidents).Refuses := by
  have rested := Session.rested_endure (Session.rested_new config dialect environment console)
    incidents
  have same := (Session.new config dialect environment console).flat_endure incidents
  rw [flat_new] at same
  refine ⟨?_, same, rested.refuses⟩
  rw [same]
  exact rested.refuses.flat

end BuildSupervisor
