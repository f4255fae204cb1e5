import BuildSupervisor.Proofs.Session.History
import BuildSupervisor.Proofs.Session.Lifecycle
import BuildSupervisor.Proofs.Session.Tasks
/-!
# A build under way

`Underway` ties a session to the history of the build that it looks after: what has been written is
gathered or waits, the first report has been heard, and nothing else is put off for the build than
that report asks for.  Every operation after which the build is still there keeps this.
-/

namespace BuildSupervisor.Session

/-- What holds of a session whatever has been done to it. -/
structure Prepared (s : Session) : Prop where
  booked : Booked s
  plain : s.schedule.IsPlain
  /-- No result is put off for a build to come. -/
  bounded : ∀ id succeeded said, .finalize id succeeded said ∈ s.schedule.actions → id ≤ s.lastId
  ending : s.capture.endLines = s.config.normalizeNewlines

theorem prepared_new (config : Config) (dialect : Dialect) (environment : Environment)
    (console : Console) : Prepared (Session.new config dialect environment console) :=
  ⟨booked_new config dialect environment console, nofun, nofun, rfl⟩

theorem endLines_finish (s : Session) (build : ActiveBuild) (succeeded : Bool) (said : String)
    (note : Option String) :
    (s.finish build succeeded said note).2.capture.endLines = s.capture.endLines := by
  change (Capture.reset _ _).1.endLines = _
  rw [Capture.reset_eq_new]
  exact Capture.endLines_drain s.capture s.console

theorem endLines_runDeferred (s : Session) (task : Deferred) :
    (s.runDeferred task).capture.endLines = s.capture.endLines := by
  rcases s.runDeferred_cases task with same | ⟨build, succeeded, said, note, _, _, same⟩
  · rw [same]
  · rw [same]
    exact s.endLines_finish build succeeded said note

/-- The result of a build is made of all that was gathered and all that waited, if the session has
    kept up with the console. -/
theorem finish_gathered {s : Session} {endLines : Bool} {chunks : List Chunk}
    (h : s.capture.Gathered endLines s.console chunks)
    (kept : s.capture.backlog s.console ≤ s.console.ring) (build : ActiveBuild) (succeeded : Bool)
    (said : String) (note : Option String) :
    (s.finish build succeeded said note).1 =
      resultOf s.config s.dialect build (transcript endLines .normal chunks)
        (transcript endLines .error chunks) succeeded said note := by
  obtain ⟨⟨gathered, _⟩, none_⟩ := Capture.drain_all h kept
  rw [← gathered.complete none_ .normal, ← gathered.complete none_ .error]
  rfl

theorem endLines_start (s : Session) (located : Located) (request : BuildRequest) :
    (s.start located request).2.capture.endLines = s.capture.endLines := by
  have rested : s.reset.capture = Capture.new s.capture.endLines :=
    Capture.reset_eq_new s.capture s.console
  unfold start
  split
  · rfl
  · unfold begin
    dsimp only
    split
    · rw [rested]
      rfl
    · rename_i capture console subscribed
      have same : capture.endLines = s.capture.endLines := by
        rw [rested] at subscribed
        obtain ⟨_, _, made⟩ := Option.map_eq_some_iff.mp subscribed
        cases made
        rfl
      split <;> exact same

theorem endLines_apply {s : Session} (plain : s.schedule.IsPlain) (op : Operation) :
    (s.apply op).2.capture.endLines = s.capture.endLines := by
  by_cases mayEnd : op.mayEnd = true
  · obtain ⟨q, _, _, same | ⟨task, _, same⟩⟩ := settle_cases plain mayEnd
    · rw [same]
    · rw [same]
      exact endLines_runDeferred s task
  · cases op with
    | start located request => exact endLines_start s located request
    | outputChunk c => exact Capture.endLines_append s.capture c
    | drainConsole => exact Capture.endLines_drain s.capture s.console
    | nextChunk => exact Capture.endLines_next s.capture s.console
    | buildComplete succeeded said =>
      change (s.onBuildComplete succeeded said).2.capture.endLines = _
      unfold onBuildComplete
      split
      · rfl
      · split <;> rfl
    | reset =>
      change (s.capture.reset s.console).1.endLines = _
      rw [Capture.reset_eq_new]
      rfl
    | write c => rfl
    | closeConsole => rfl
    | finalize id succeeded said => exact absurd rfl mayEnd
    | watchdog id => exact absurd rfl mayEnd
    | advance by_ => exact absurd rfl mayEnd

theorem Prepared.apply {s : Session} (h : Prepared s) (op : Operation) :
    Prepared (s.apply op).2 := by
  have effect := effect_apply s op
  have later : s.lastId ≤ (s.apply op).2.lastId := by
    rw [(lastId_apply effect).1]
    exact Nat.le_add_right _ _
  refine ⟨h.booked.apply effect, isPlain_apply h.plain op, ?_, ?_⟩
  · intro id succeeded said mem
    rcases mem_actions_apply h.plain mem with old | watchdog |
      ⟨_, _, build, _, active, _, same⟩
    · exact Nat.le_trans (h.bounded id succeeded said old) later
    · cases watchdog
    · cases same
      have current : s.currentBuild? = some build.id := by
        rw [currentBuild?, active, Option.map_some]
      exact Nat.le_trans (h.booked.current_le current) later
  · rw [endLines_apply h.plain, effect.settings.1]
    exact h.ending

theorem prepared_run {s : Session} (h : Prepared s) (ops : List Operation) :
    Prepared (s.run ops) :=
  run_induction (P := fun _ t => Prepared t) h (fun _ op _ _ ih => ih.apply op) ops

/-- The build is looked after, and `done` is what has been done since it was started. -/
structure Underway (build : ActiveBuild) (done : List Operation) (s : Session) : Prop where
  prepared : Prepared s
  active : s.active = some { build with
    phase := if (firstReport? done).isSome then .completionPending else .building }
  gathered : s.capture.Gathered s.config.normalizeNewlines s.console (writtenIn done)
  closed : s.console.closed = closedIn done
  due : ∀ succeeded said, .finalize build.id succeeded said ∈ s.schedule.actions →
    firstReport? done = some (succeeded, said)

/-! ## The start -/

/-- A start that is accepted reads the console from then on. -/
theorem start_accepted {s : Session} {located : Located} {request : BuildRequest} {id : BuildId}
    (accepted : (s.start located request).1 = .ok (.accepted id)) :
    id = s.lastId + 1 ∧ (s.start located request).2.active = some (s.opened located request) ∧
      (s.start located request).2.config = s.config ∧
      s.reset.capture.subscribe? s.reset.console =
        some ((s.start located request).2.capture, (s.start located request).2.console) := by
  revert accepted
  unfold start
  split
  · exact nofun
  · unfold begin
    dsimp only
    split
    · exact nofun
    · rename_i subscribed
      split
      · intro accepted
        cases accepted
        exact ⟨rfl, rfl, rfl, subscribed⟩
      · intro accepted
        cases accepted
        exact ⟨rfl, rfl, rfl, subscribed⟩

/-- A start that is not refused uses up a number. -/
theorem takesNumber_begin (s : Session) (located : Located) (request : BuildRequest) :
    (Answer.started (s.begin located request).1).takesNumber = true := by
  unfold begin
  dsimp only
  split
  · rfl
  · split <;> rfl

theorem underway_start {s : Session} (h : Prepared s) {located : Located}
    {request : BuildRequest} {id : BuildId}
    (accepted : (s.start located request).1 = .ok (.accepted id)) :
    Underway (s.opened located request) [] (s.start located request).2 := by
  obtain ⟨_, active, config, subscribed⟩ := start_accepted accepted
  have rested : s.reset.capture = Capture.new s.config.normalizeNewlines := by
    rw [← h.ending]
    exact Capture.reset_eq_new s.capture s.console
  rw [rested] at subscribed
  obtain ⟨gathered, running, _⟩ := Capture.gathered_subscribe rfl rfl rfl subscribed
  refine ⟨h.apply (.start located request), active, ?_, running, ?_⟩
  · rw [config]
    exact gathered
  · intro succeeded said mem
    rcases mem_actions_start mem with old | ⟨_, watchdog⟩
    · exact absurd (h.bounded _ succeeded said old) (Nat.not_succ_le_self s.lastId)
    · cases watchdog

/-! ## One operation -/

namespace Underway

variable {build : ActiveBuild} {done : List Operation} {s t : Session} {op : Operation}

theorem currentBuild? (h : Underway build done s) : s.currentBuild? = some build.id := by
  rw [Session.currentBuild?, h.active, Option.map_some]

/-- An operation that does not show in the history. -/
theorem silent (h : Underway build done s) (prepared : Prepared t) (config : t.config = s.config)
    (active : t.active = s.active) (closed : t.console.closed = s.console.closed)
    (gathered : t.capture.Gathered s.config.normalizeNewlines t.console (writtenIn done))
    (known : ∀ task ∈ t.schedule.actions, task ∈ s.schedule.actions)
    (chunk : op.chunk? = none) (closes : op.closes = false)
    (same : firstReport? (done ++ [op]) = firstReport? done) :
    Underway build (done ++ [op]) t := by
  refine ⟨prepared, ?_, ?_, ?_, ?_⟩
  · rw [same, active]
    exact h.active
  · rw [writtenIn_quiet done chunk, config]
    exact gathered
  · rw [closedIn_quiet done closes, closed]
    exact h.closed
  · intro succeeded said mem
    rw [same]
    exact h.due succeeded said (known _ mem)

/-- A start after which the build is still there was refused. -/
theorem start_refused (h : Underway build done s) {located : Located} {request : BuildRequest}
    (stays : (s.start located request).2.currentBuild? = some build.id) :
    (s.start located request).2 = s := by
  revert stays
  unfold start
  split
  · exact fun _ => rfl
  · intro stays
    exfalso
    have effect := effect_begin s located request
    have took := takesNumber_begin s.reset located request
    generalize (s.reset.begin located request).2 = t at stays effect
    generalize Answer.started (s.reset.begin located request).1 = answer at took effect
    cases effect with
    | kept _ _ free _ =>
      rw [free] at took
      cases took
    | aborted _ _ books =>
      rw [Session.currentBuild?, books.active] at stays
      cases stays
    | accepted _ _ books =>
      have given := h.prepared.booked.current_le h.currentBuild?
      rw [Session.currentBuild?, books.active] at stays
      have same : s.lastId + 1 = build.id := Option.some.inj stays
      rw [← same] at given
      exact Nat.not_succ_le_self _ given
    | ended _ _ _ mayEnd _ _ _ => cases mayEnd

/-- An operation after which the build is still there has not ended it. -/
theorem not_settled (h : Underway build done s) (mayEnd : op.mayEnd = true)
    (stays : (s.apply op).2.currentBuild? = some build.id) :
    ∃ q : Schedule Deferred, (∀ a ∈ q.actions, a ∈ s.schedule.actions) ∧
      (s.apply op).2 = { s with schedule := q } := by
  obtain ⟨q, _, known, same | ⟨task, _, same⟩⟩ := settle_cases h.prepared.plain mayEnd
  · exact ⟨q, known, same⟩
  · rcases s.runDeferred_rests task with kept | ended
    · rw [kept] at same
      exact ⟨q, known, same⟩
    · rw [same, Session.currentBuild?] at stays
      dsimp only at stays
      rw [ended] at stays
      cases stays

theorem mayEnd_step (h : Underway build done s) (mayEnd : op.mayEnd = true)
    (chunk : op.chunk? = none) (closes : op.closes = false) (report : op.report? = none)
    (stays : (s.apply op).2.currentBuild? = some build.id) :
    Underway build (done ++ [op]) (s.apply op).2 := by
  obtain ⟨q, known, same⟩ := h.not_settled mayEnd stays
  have prepared := h.prepared.apply op
  rw [same] at prepared ⊢
  exact h.silent prepared rfl rfl rfl h.gathered known chunk closes
    (firstReport?_quiet done report)

theorem write_step (h : Underway build done s) (c : Chunk) :
    Underway build (done ++ [.write c]) (s.write c).2 := by
  have same : firstReport? (done ++ [.write c]) = firstReport? done := firstReport?_quiet done rfl
  refine ⟨h.prepared.apply (.write c), ?_, ?_, ?_, ?_⟩
  · rw [same]
    exact h.active
  · have sent := h.gathered.send c
    rw [writtenIn_concat, ← h.closed]
    exact sent
  · rw [closedIn_concat, ← h.closed]
    change (s.console.send c).closed = (s.console.closed || false)
    unfold Channel.send
    split <;> simp
  · intro succeeded said mem
    rw [same]
    exact h.due succeeded said mem

theorem closeConsole_step (h : Underway build done s) :
    Underway build (done ++ [.closeConsole]) s.closeConsole := by
  have same : firstReport? (done ++ [.closeConsole]) = firstReport? done :=
    firstReport?_quiet done rfl
  refine ⟨h.prepared.apply .closeConsole, ?_, ?_, ?_, ?_⟩
  · rw [same]
    exact h.active
  · rw [writtenIn_quiet done rfl]
    exact h.gathered.close
  · rw [closedIn_concat]
    exact (Bool.or_true _).symm
  · intro succeeded said mem
    rw [same]
    exact h.due succeeded said mem

/-- The first report makes the result due. -/
theorem firstReport_step (h : Underway build done s) (succeeded : Bool) (said : String)
    (first : firstReport? done = none) :
    Underway build (done ++ [.buildComplete succeeded said])
      (s.onBuildComplete succeeded said).2 := by
  have prepared : Prepared (s.onBuildComplete succeeded said).2 :=
    h.prepared.apply (.buildComplete succeeded said)
  have reports := firstReport?_concat done (.buildComplete succeeded said)
  have active := h.active
  rw [first] at active reports
  have now : (s.onBuildComplete succeeded said).2 =
      { s with active := some { build with phase := .completionPending } }.defer
        s.config.completionDelay (.finalize build.id succeeded said) := by
    unfold onBuildComplete
    rw [active]
    rfl
  rw [now] at prepared ⊢
  refine ⟨prepared, ?_, ?_, ?_, ?_⟩
  · rw [reports]
    rfl
  · rw [writtenIn_quiet done rfl]
    exact h.gathered
  · rw [closedIn_quiet done rfl]
    exact h.closed
  · intro succeeded' said' mem
    rcases Schedule.mem_actions_schedule.mp mem with new | old
    · cases new
      rw [reports]
      rfl
    · have heard := h.due succeeded' said' old
      rw [first] at heard
      cases heard

/-- The reports behind the first one are not heard. -/
theorem lateReport_step (h : Underway build done s) (succeeded : Bool) (said : String)
    {report : Bool × String} (first : firstReport? done = some report) :
    Underway build (done ++ [.buildComplete succeeded said])
      (s.onBuildComplete succeeded said).2 := by
  have active := h.active
  rw [first] at active
  have now : (s.onBuildComplete succeeded said).2 = s := by
    unfold onBuildComplete
    rw [active]
    rfl
  have same : firstReport? (done ++ [.buildComplete succeeded said]) = firstReport? done := by
    rw [firstReport?_concat, first, Option.some_or]
  rw [now]
  exact h.silent h.prepared rfl rfl rfl h.gathered (fun _ mem => mem) rfl rfl same

theorem drain_step (h : Underway build done s)
    (kept : s.capture.backlog s.console ≤ s.console.ring) :
    Underway build (done ++ [.drainConsole]) s.drainConsole.2 := by
  obtain ⟨⟨gathered, same⟩, _⟩ := Capture.drain_all h.gathered kept
  exact h.silent (h.prepared.apply .drainConsole) rfl rfl same.closed gathered
    (fun _ mem => mem) rfl rfl (firstReport?_quiet _ rfl)

/-- Any operation but those that take a chunk from the console, or bring one. -/
theorem apply (h : Underway build done s) (taken : op ≠ .nextChunk)
    (brought : ∀ c, op ≠ .outputChunk c) (kept : s.capture.backlog s.console ≤ s.console.ring)
    (stays : (s.apply op).2.currentBuild? = some build.id) :
    Underway build (done ++ [op]) (s.apply op).2 := by
  cases op with
  | start located request =>
    have same := h.start_refused stays
    have prepared := h.prepared.apply (.start located request)
    change Prepared (s.start located request).2 at prepared
    change Underway build _ (s.start located request).2
    rw [same] at prepared ⊢
    exact h.silent prepared rfl rfl rfl h.gathered (fun _ mem => mem) rfl rfl
      (firstReport?_quiet _ rfl)
  | outputChunk c => exact absurd rfl (brought c)
  | drainConsole => exact h.drain_step kept
  | nextChunk => exact absurd rfl taken
  | buildComplete succeeded said =>
    cases first : firstReport? done with
    | none => exact h.firstReport_step succeeded said first
    | some report => exact h.lateReport_step succeeded said first
  | finalize id succeeded said => exact h.mayEnd_step rfl rfl rfl rfl stays
  | watchdog id => exact h.mayEnd_step rfl rfl rfl rfl stays
  | advance by_ => exact h.mayEnd_step rfl rfl rfl rfl stays
  | reset => cases stays
  | write c => exact h.write_step c
  | closeConsole => exact h.closeConsole_step

/-- A chunk is taken from the console and added at once. -/
theorem heard_step (h : Underway build done s) {c : Chunk} (heard : s.nextChunk.1 = .chunk c)
    (kept : s.capture.backlog s.console ≤ s.console.ring) :
    Underway build (done ++ [.nextChunk] ++ [.outputChunk c])
      (s.nextChunk.2.onOutputChunk c).2 := by
  have prepared := (h.prepared.apply .nextChunk).apply (.outputChunk c)
  rcases Capture.next_cases h.gathered kept with ⟨c', same, gathered, feed⟩ | ⟨none_, _⟩
  · have same : c' = c := NextChunk.chunk.inj (same.symm.trans heard)
    rw [same] at gathered
    -- Between the two operations the chunk is nowhere, so they count as one.
    have both : Underway build (done ++ [.nextChunk]) (s.nextChunk.2.onOutputChunk c).2 :=
      h.silent prepared rfl rfl feed.closed gathered (fun _ mem => mem) rfl rfl
        (firstReport?_quiet _ rfl)
    exact both.silent prepared rfl rfl rfl both.gathered (fun _ mem => mem) rfl rfl
      (firstReport?_quiet _ rfl)
  · exact absurd heard (none_ c)

/-- Nothing waits, and nothing is taken. -/
theorem unheard_step (h : Underway build done s) (unheard : ∀ c, s.nextChunk.1 ≠ .chunk c)
    (kept : s.capture.backlog s.console ≤ s.console.ring) :
    Underway build (done ++ [.nextChunk]) s.nextChunk.2 := by
  rcases Capture.next_cases h.gathered kept with ⟨c, same, _⟩ | ⟨_, gathered, feed⟩
  · exact absurd same (unheard c)
  · exact h.silent (h.prepared.apply .nextChunk) rfl rfl feed.closed gathered
      (fun _ mem => mem) rfl rfl (firstReport?_quiet _ rfl)

/-! ## Runs -/

/-- A build that is there in the end has been there all the time. -/
theorem stays (h : Underway build done s) (ops : List Operation)
    (last : ((s.apply op).2.run ops).currentBuild? = some build.id) :
    (s.apply op).2.currentBuild? = some build.id := by
  by_contra left
  have given : build.id ≤ (s.apply op).2.lastId := by
    rw [(lastId_apply (effect_apply s op)).1]
    exact Nat.le_add_right_of_le (h.prepared.booked.current_le h.currentBuild?)
  exact (past_run ⟨given, left⟩ ops).notCurrent last

/-- What one operation keeps, a run keeps after which the build is still there. -/
theorem run {ops : List Operation} (heard : FromConsole s ops) (h : Underway build done s)
    (kept : KeepsUp s ops) (last : (s.run ops).currentBuild? = some build.id) :
    Underway build (done ++ ops) (s.run ops) := by
  induction heard generalizing done with
  | done s =>
    rw [List.append_nil]
    exact h
  | @other s op ops taken brought _ ih =>
    have next := h.apply taken brought kept.1 (h.stays ops last)
    rw [List.append_cons]
    exact ih next kept.2 last
  | @heard s c ops heard _ ih =>
    have next := h.heard_step heard kept.1
    rw [List.append_cons, List.append_cons]
    exact ih next kept.2.2 last
  | @unheard s ops unheard _ ih =>
    have next := h.unheard_step unheard kept.1
    rw [List.append_cons]
    exact ih next kept.2 last

end Underway

end BuildSupervisor.Session
