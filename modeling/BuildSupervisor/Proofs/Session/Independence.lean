import BuildSupervisor.Proofs.Session.Likeness
import BuildSupervisor.Proofs.Session.Outcome
/-!
# Builds do not depend on what came before

`independent_of_history` compares two sessions that were made alike and have been used in different
ways.  Once both have accepted the same request, the same operations have the same effect on both:
what earlier builds have left behind, in the schedule, on the console and in the environment, is
not to be seen any more.
-/

namespace BuildSupervisor

namespace Capture

theorem ring_subscribe? {cap cap' : Capture} {console console' : Console}
    (h : cap.subscribe? console = some (cap', console')) : console'.ring = console.ring := by
  unfold subscribe? at h
  split at h
  · cases h
    rfl
  · obtain ⟨⟨cursor, joined⟩, admitted, same⟩ := Option.map_eq_some_iff.mp h
    cases same
    unfold Channel.join? at admitted
    split at admitted
    · cases admitted
    · cases admitted
      rfl

end Capture

theorem Channel.ring_send {α : Type u} (c : Channel α) (value : α) :
    (c.send value).ring = c.ring := by
  unfold send
  split <;> rfl

namespace Session

theorem ring_reset (s : Session) : s.reset.console.ring = s.console.ring :=
  (Capture.sameFeed_reset s.capture s.console).ring

theorem ring_runDeferred (s : Session) (task : Deferred) :
    (s.runDeferred task).console.ring = s.console.ring := by
  rcases s.runDeferred_cases task with same | ⟨build, succeeded, said, note, _, _, same⟩
  · rw [same]
  · rw [same]
    simp only [finish, drainConsole]
    split
    · rw [Channel.ring_send, (Capture.sameFeed_reset _ _).ring, (Capture.sameFeed_drain _ _).ring]
    · rw [(Capture.sameFeed_reset _ _).ring, (Capture.sameFeed_drain _ _).ring]

theorem ring_start (s : Session) (located : Located) (request : BuildRequest) :
    (s.start located request).2.console.ring = s.console.ring := by
  unfold start
  split
  · rfl
  · unfold begin
    dsimp only
    split
    · exact ring_reset s
    · rename_i subscribed
      have same := (Capture.ring_subscribe? subscribed).trans (ring_reset s)
      split <;> exact same

/-- Nothing changes how many chunks the console keeps. -/
theorem ring_apply {s : Session} (plain : s.schedule.IsPlain) (op : Operation) :
    (s.apply op).2.console.ring = s.console.ring := by
  by_cases mayEnd : op.mayEnd = true
  · obtain ⟨q, _, _, same | ⟨task, _, same⟩⟩ := settle_cases plain mayEnd
    · rw [same]
    · rw [same]
      exact ring_runDeferred s task
  · cases op with
    | start located request => exact ring_start s located request
    | outputChunk c => rfl
    | drainConsole => exact (Capture.sameFeed_drain s.capture s.console).ring
    | nextChunk => exact (Capture.sameFeed_next s.capture s.console).ring
    | buildComplete succeeded said =>
      change (s.onBuildComplete succeeded said).2.console.ring = _
      unfold onBuildComplete
      split
      · rfl
      · split <;> rfl
    | reset => exact ring_reset s
    | write c => exact Channel.ring_send s.console c
    | closeConsole => rfl
    | finalize id succeeded said => exact absurd rfl mayEnd
    | watchdog id => exact absurd rfl mayEnd
    | advance by_ => exact absurd rfl mayEnd

theorem ring_run {s : Session} (prepared : Prepared s) (ops : List Operation) :
    (s.run ops).console.ring = s.console.ring :=
  (run_induction (P := fun _ t => Prepared t ∧ t.console.ring = s.console.ring) ⟨prepared, rfl⟩
    (fun _ op _ _ ih => ⟨ih.1.apply op, (ring_apply ih.1.plain op).trans ih.2⟩) ops).2

/-- The clock of the session can show every time that the operations reckon with. -/
def Unsaturated (s : Session) : List Operation → Prop
  | [] => True
  | op :: ops => Fits s op ∧ Unsaturated (s.apply op).2 ops

instance decidableFits (s : Session) (op : Operation) : Decidable (Fits s op) := by
  unfold Fits
  split <;> infer_instance

instance decidableUnsaturated (s : Session) :
    (ops : List Operation) → Decidable (Unsaturated s ops)
  | [] => inferInstanceAs (Decidable True)
  | op :: ops =>
    have := decidableUnsaturated (s.apply op).2 ops
    inferInstanceAs (Decidable (_ ∧ _))

theorem Unsaturated.split {s : Session} {first second : List Operation}
    (h : Unsaturated s (first ++ second)) :
    Unsaturated s first ∧ Unsaturated (s.run first) second := by
  induction first generalizing s with
  | nil => exact ⟨trivial, h⟩
  | cons op ops ih =>
    obtain ⟨kept, rest⟩ := ih h.2
    exact ⟨⟨h.1, kept⟩, rest⟩

/-- What can be seen of two sessions is the same, but for the number of the build. -/
structure LooksAlike (a b : BuildId) (s t : Session) : Prop where
  state : t.state = s.state
  build : t.currentBuild? = s.currentBuild?.map (renumber a b)
  target : t.status.targetFile = s.status.targetFile
  warning : t.toolchainWarning? = s.toolchainWarning?
  stdout : t.capture.stdout = s.capture.stdout
  stderr : t.capture.stderr = s.capture.stderr
  environment : t.environment = s.environment

/-- The operations do the same to two sessions, of which the one looks after the build `a` and the
    other after the build `b`. -/
structure SameCourse (a b : BuildId) (s t : Session) (ops : List Operation) : Prop where
  looks : ∀ done rest, ops = done ++ rest → LooksAlike a b (s.run done) (t.run done)
  /-- The one build gets its result when the other does, and it is the same. -/
  result : ∀ done op rest, ops = done ++ op :: rest → ∀ result,
    (b, .completed result) ∈ (t.run done).news op ↔ (a, .completed result) ∈ (s.run done).news op
  /-- Nor do other notifications differ, but for the numbers of builds. -/
  news : ∀ done op rest, ops = done ++ op :: rest →
    (t.run done).news op = ((s.run done).news op).map (Prod.map (renumber a b) id)
  answers : ∀ done op rest, ops = done ++ op :: rest →
    op.Tells (t.console.readers = s.console.readers) →
    ((t.run done).apply op).1 = ((s.run done).apply op).1.renumber a b

variable {even : Prop} {a b : BuildId} {s t : Session}

theorem Alike.looksAlike (h : Alike even a b s t) : LooksAlike a b s t := by
  refine ⟨h.state, ?_, ?_, ?_, h.capture.stdout, h.capture.stderr, h.environment⟩
  · simp only [currentBuild?, h.active]
    cases s.active <;> rfl
  · simp only [status, h.active]
    cases s.active <;> rfl
  · simp only [toolchainWarning?, h.active]
    cases s.active <;> rfl

/-- What one operation keeps, a run keeps. -/
theorem Alike.run {ops : List Operation} (h : Alike even a b s t) (timed : Timed s)
    (timed' : Timed t) (anonymous : ∀ op ∈ ops, op.isAnonymous = true)
    (fits : Unsaturated s ops) (fits' : Unsaturated t ops) :
    Alike even a b (s.run ops) (t.run ops) := by
  induction ops generalizing s t with
  | nil => exact h
  | cons op ops ih =>
    have first := step_alike h timed timed' (anonymous op List.mem_cons_self) fits.1 fits'.1
    refine ih first.alike (timed.apply op) (timed'.apply op) ?_ fits.2 fits'.2
    exact fun other mem => anonymous other (List.mem_cons_of_mem _ mem)

theorem NewsAlike.result {op : Operation} (h : NewsAlike a b s t op) (result : BuildResult) :
    (b, .completed result) ∈ t.news op ↔ (a, .completed result) ∈ s.news op := by
  rw [h.same, List.mem_map]
  constructor
  · rintro ⟨⟨number, event⟩, mem, same⟩
    simp only [Prod.map_apply, id_eq, Prod.mk.injEq] at same
    obtain ⟨number, rfl⟩ := same
    rw [renumber_eq_iff (h.recent _ mem)] at number
    rwa [← number]
  · intro mem
    exact ⟨_, mem, by rw [Prod.map_apply, renumber_self, id_eq]⟩

theorem Alike.sameCourse {ops : List Operation} (h : Alike even a b s t) (timed : Timed s)
    (timed' : Timed t) (anonymous : ∀ op ∈ ops, op.isAnonymous = true)
    (fits : Unsaturated s ops) (fits' : Unsaturated t ops) : SameCourse a b s t ops := by
  -- From here on, the readers are as even as they are now.
  have h : Alike (t.console.readers = s.console.readers) a b s t :=
    ⟨h.config, h.dialect, h.environment, h.active, h.lastId, h.since, h.recent,
      ⟨h.capture.texts, h.capture.ring, h.capture.closed, id, h.capture.reader⟩, h.ending⟩
  have before (done rest : List Operation) (split : ops = done ++ rest) :
      Alike (t.console.readers = s.console.readers) a b (s.run done) (t.run done) := by
    rw [split] at anonymous fits fits'
    refine h.run timed timed' ?_ fits.split.1 fits'.split.1
    exact fun op mem => anonymous op (List.mem_append_left _ mem)
  have step (done : List Operation) (op : Operation) (rest : List Operation)
      (split : ops = done ++ op :: rest) :
      Follows (t.console.readers = s.console.readers) a b (s.run done) (t.run done) op := by
    have there := before done (op :: rest) split
    rw [split] at anonymous fits fits'
    refine step_alike there (timed_run timed done) (timed_run timed' done) ?_ fits.split.2.1
      fits'.split.2.1
    exact anonymous op (List.mem_append_right _ List.mem_cons_self)
  constructor
  case looks => exact fun done rest split => (before done rest split).looksAlike
  case result =>
    exact fun done op rest split result => (step done op rest split).news.result result
  case news => exact fun done op rest split => (step done op rest split).news.same
  case answers => exact fun done op rest split => (step done op rest split).answer

/-! ## From different histories -/

theorem free_of_accepted {located : Located} {request : BuildRequest} {id : BuildId}
    (accepted : (s.start located request).1 = .ok (.accepted id)) :
    s.active = none ∨ s.config.reentry = .replace := by
  cases there : s.active with
  | none => exact .inl rfl
  | some build =>
    cases policy : s.config.reentry with
    | replace => exact .inr rfl
    | reject =>
      rw [start_of_busy there policy] at accepted
      cases accepted

theorem isOpen_of_accepted {located : Located} {request : BuildRequest} {id : BuildId}
    (accepted : (s.start located request).1 = .ok (.accepted id)) : s.console.closed = false := by
  obtain ⟨_, _, _, subscribed⟩ := start_accepted accepted
  have rested : s.reset.capture.subscription = none :=
    congrArg Capture.subscription (Capture.reset_eq_new s.capture s.console)
  rw [← closed_reset s]
  unfold Capture.subscribe? at subscribed
  rw [rested] at subscribed
  obtain ⟨joined, admitted, _⟩ := Option.map_eq_some_iff.mp subscribed
  unfold Channel.join? at admitted
  split at admitted
  · cases admitted
  · rename_i running
    simpa using running

/-- Two sessions that were made alike, but with different consoles, and have been used differently
    look after the same request in the same way.  The operations name no build, and neither clock
    reaches its end. -/
theorem independent_of_history (config : Config) (dialect : Dialect) (environment : Environment)
    {console console' : Console} (before before' : List Operation) {located : Located}
    {request : BuildRequest} {a b : BuildId} {ops : List Operation}
    (ring : console'.ring = console.ring)
    (accepted : (((Session.new config dialect environment console).run before).start located
      request).1 = .ok (.accepted a))
    (accepted' : (((Session.new config dialect environment console').run before').start located
      request).1 = .ok (.accepted b))
    (anonymous : ∀ op ∈ ops, op.isAnonymous = true)
    (unsaturated : Unsaturated ((Session.new config dialect environment console).run before)
      (.start located request :: ops))
    (unsaturated' : Unsaturated ((Session.new config dialect environment console').run before')
      (.start located request :: ops)) :
    SameCourse a b
      (((Session.new config dialect environment console).run before).start located request).2
      (((Session.new config dialect environment console').run before').start located request).2
      ops := by
  have fresh := timed_new config dialect environment console
  have fresh' := timed_new config dialect environment console'
  have timed := timed_run fresh before
  have timed' := timed_run fresh' before'
  have settings := BuildRun.settings_run (Session.new config dialect environment console) before
  have settings' := BuildRun.settings_run (Session.new config dialect environment console') before'
  have rest : (Session.new config dialect environment console).active = none := rfl
  have rest' : (Session.new config dialect environment console').active = none := rfl
  have same := restorable_run rest before
  have same' := restorable_run rest' before'
  have kept := ring_run fresh.prepared before
  have kept' := ring_run fresh'.prepared before'
  generalize (Session.new config dialect environment console).run before = s at *
  generalize (Session.new config dialect environment console').run before' = t at *
  obtain ⟨rfl, _⟩ := start_accepted accepted
  obtain ⟨rfl, _⟩ := start_accepted accepted'
  have starts : StartsAlike False (s.lastId + 1) (t.lastId + 1) s t := by
    refine ⟨settings'.1.trans settings.1.symm, settings'.2.trans settings.2.symm,
      same'.undone.trans same.undone.symm, (renumber_self _ _).symm, Nat.le_refl _,
      .of_reset ?_ ?_ ?_ nofun⟩
    · rw [timed.prepared.ending, timed'.prepared.ending, settings.1, settings'.1]
      rfl
    · rw [kept, kept']
      exact ring
    · rw [isOpen_of_accepted accepted, isOpen_of_accepted accepted']
  have started := starts.start timed timed' (free_of_accepted accepted)
    (free_of_accepted accepted') unsaturated.1 unsaturated'.1
  exact started.alike.sameCourse (timed.apply (.start located request))
    (timed'.apply (.start located request)) anonymous unsaturated.2 unsaturated'.2

/-- A build on a session that is new, and the same build after one that was replaced and one that
    has failed, whose tasks are still put off. -/
theorem independent_of_replaced_and_failed :
    SameCourse 1 3
      ((Session.new (Config.default none) .gcc Environment.empty (Channel.new 8)).start (.ok [])
        ⟨Path.ofText "/proj/x.c", false, false⟩).2
      ((((Session.new (Config.default none) .gcc Environment.empty (Channel.new 8)).run
        [.start (.ok []) ⟨Path.ofText "/proj/a.c", true, true⟩, .write ⟨.normal, "stale"⟩,
          .buildComplete true "a", .start (.ok []) ⟨Path.ofText "/proj/b.c", false, true⟩,
          .write ⟨.error, "late"⟩, .buildComplete false "", .advance (Duration.ofMillis 150),
          .finalize 2 false "", .write ⟨.normal, "unread"⟩]).start (.ok [])
        ⟨Path.ofText "/proj/x.c", false, false⟩).2)
      [.write ⟨.normal, "one"⟩, .drainConsole, .buildComplete true "two",
        .advance (Duration.ofMillis 200)] := by
  refine independent_of_history _ _ _ [] _ rfl rfl ?_ ?_ ?_ ?_
  · decide +kernel
  · decide
  · decide +kernel
  · decide +kernel

end Session

end BuildSupervisor
