import BuildSupervisor.Proofs.Errand.Basic
import BuildSupervisor.Proofs.Event.Listening
import BuildSupervisor.Proofs.Session.Likeness
import BuildSupervisor.Proofs.Session.Restoration
/-!
# The session of an errand

What the operations of a session do to the stage to which it has come with the build.  The result
that a build gets is computed here: `Errand.result_eq` is about the texts that are gathered in any
order, as long as nothing of them is lost.
-/

namespace BuildSupervisor

theorem Text.endLine_concat (text : String) : endLine (text ++ "\n") = text ++ "\n" := by
  simp [endLine]

/-- Texts that end in a line feed are shown as they were written. -/
theorem transcript_eq_join {endLines : Bool} {stream : OutputKind} {chunks : List Chunk}
    (h : ∀ text ∈ textsOf chunks stream, Text.endLine text = text) :
    transcript endLines stream chunks = String.join (textsOf chunks stream) := by
  unfold transcript textsOf at *
  refine congrArg String.join (List.map_congr_left fun c mem => ?_)
  have ended := h c.text (List.mem_map_of_mem mem)
  unfold Capture.textOf
  split
  · exact ended
  · rfl

namespace Session

theorem closed_drainConsole (s : Session) :
    s.drainConsole.2.console.closed = s.console.closed :=
  (s.capture.sameFeed_drain s.console).closed

theorem closed_conclude (s : Session) (build : ActiveBuild) (how : BuildEnd) :
    (s.conclude build how).2.console.closed = s.console.closed := by
  have rested : s.drainConsole.2.reset.console.closed = s.console.closed :=
    (closed_reset _).trans s.closed_drainConsole
  unfold conclude finish
  dsimp only
  cases shownWarning? build how.succeeded with
  | some text => exact (Channel.closed_send _ _).trans rested
  | none => exact rested

end Session

namespace Errand

variable {e : Errand} {lossless : Prop} {stage : Stage} {chunks : List Chunk} {s t : Session}

/-- Every text that is written for the build ends in a line feed. -/
theorem ended_of_mem_texts {environment : Environment} {stream : OutputKind} {text : String}
    (h : text ∈ e.texts environment stream) : Text.endLine text = text := by
  unfold texts at h
  split at h
  · obtain ⟨line, _, rfl⟩ := List.mem_map.mp h
    exact Text.endLine_concat line
  · obtain ⟨line, _, rfl⟩ := List.mem_map.mp h
    exact Text.endLine_concat line
  · cases h
  · rw [List.mem_singleton.mp h]
    exact Text.endLine_concat _

/-- The result of a build of which all that the tool has written was gathered. -/
theorem result_eq (written : textsOf chunks = e.texts e.patched) (endLines : Bool) :
    Session.resultOf e.session.config e.session.dialect
        { e.build with phase := .completionPending } (transcript endLines .normal chunks)
        (transcript endLines .error chunks) (e.toolEnd e.patched).succeeded
        (e.toolEnd e.patched).reported none =
      e.result := by
  have ended (stream : OutputKind) (text : String) (mem : text ∈ textsOf chunks stream) :
      Text.endLine text = text := by
    rw [written] at mem
    exact ended_of_mem_texts mem
  rw [transcript_eq_join (ended .normal), transcript_eq_join (ended .error), written]
  dsimp only [Session.resultOf, result, Session.diagnosticsOf, Session.shownWarning?]
  cases (e.toolEnd e.patched).succeeded <;> cases e.build.warning <;> rfl

namespace Tends

/-- However the console is read, the stage stays. -/
theorem of_read (h : Tends e lossless stage chunks s) (books : s.SameBooks t)
    (isOpen : t.console.closed = s.console.closed)
    (ending : t.capture.endLines = s.capture.endLines)
    (gathered : lossless → stage.active? e ≠ none →
      t.capture.Gathered e.session.config.normalizeNewlines t.console chunks) :
    Tends e lossless stage chunks t where
  config := books.config.trans h.config
  dialect := books.dialect.trans h.dialect
  active := books.active.trans h.active
  environment := books.environment.trans h.environment
  lastId := books.lastId.trans h.lastId
  isOpen := isOpen.trans h.isOpen
  ending := ending.trans h.ending
  listening := by
    rw [books.events]
    exact h.listening
  published := by
    rw [books.events]
    exact h.published
  roomy := by
    rw [books.events]
    exact h.roomy
  log := by
    rw [books.events]
    exact h.log
  gathered := gathered
  sound := h.sound

/-- A chunk that is taken from the console is added to the others. -/
theorem hear (h : Tends e lossless stage chunks s)
    (upToDate : lossless → s.capture.backlog s.console ≤ s.console.ring) {c : Chunk}
    (next : s.nextChunk.1 = .chunk c) :
    Tends e lossless stage chunks (s.nextChunk.2.onOutputChunk c).2 := by
  refine h.of_read ⟨rfl, rfl, rfl, rfl, rfl, rfl⟩ (s.capture.sameFeed_next s.console).closed
    ((Capture.endLines_append _ _).trans (Capture.endLines_next _ _)) ?_
  intro kept active
  rcases Capture.next_cases (h.gathered kept active) (upToDate kept) with
    ⟨c', there, reads⟩ | ⟨no, _⟩
  · cases next.symm.trans there
    exact reads.gathered
  · exact absurd next (no c)

theorem listen (h : Tends e lossless stage chunks s)
    (upToDate : lossless → s.capture.backlog s.console ≤ s.console.ring)
    (next : ∀ c, s.nextChunk.1 ≠ .chunk c) : Tends e lossless stage chunks s.nextChunk.2 := by
  refine h.of_read s.sameBooks_nextChunk (s.capture.sameFeed_next s.console).closed
    (Capture.endLines_next _ _) ?_
  intro kept active
  rcases Capture.next_cases (h.gathered kept active) (upToDate kept) with
    ⟨c, there, _⟩ | ⟨_, reads⟩
  · exact absurd there (next c)
  · exact reads.gathered

/-- A chunk that is written waits behind the others. -/
theorem write (h : Tends e lossless stage chunks s) (c : Chunk) :
    Tends e lossless stage (chunks ++ [c]) (s.write c).2 := by
  refine { h with
    isOpen := (Channel.closed_send _ _).trans h.isOpen
    gathered := ?_ }
  intro kept active
  have sent := (h.gathered kept active).send c
  rw [h.isOpen] at sent
  exact sent

/-- The clock does not matter. -/
theorem withSchedule (h : Tends e lossless stage chunks s) (schedule : Schedule Deferred) :
    Tends e lossless stage chunks { s with schedule := schedule } :=
  { h with }

/-- The build is taken up. -/
theorem start (h : Tends e lossless .asked chunks s) :
    (s.start e.located e.request).1 = .ok (.accepted e.id) ∧
      (s.start e.located e.request).2.schedule = s.putOffAtStart ∧
      Tends e lossless .building [] (s.start e.located e.request).2 := by
  have lastId : s.lastId = e.session.lastId := h.lastId
  have rested : s.reset.environment = e.session.reset.environment :=
    (Session.reset_environment_of_rest h.active).trans h.environment
  have patch : s.patchFor e.located = e.session.patchFor e.located := by
    rw [Session.patchFor, rested, h.config]
    rfl
  have opened : s.opened e.located e.request = e.build := by
    rw [Session.opened, patch, lastId]
    rfl
  have blank : s.reset.capture = Capture.new s.capture.endLines :=
    Capture.reset_eq_new s.capture s.console
  have running : s.reset.console.closed = false := (Session.closed_reset s).trans h.isOpen
  have started := s.start_eq (.inl h.active) e.located e.request
  cases subscribed : s.reset.capture.subscribe? s.reset.console with
  | none =>
    simp [blank, Capture.subscribe?, Capture.new, Channel.join?, running] at subscribed
  | some admitted =>
    obtain ⟨capture, console⟩ := admitted
    rw [subscribed, opened, patch, lastId] at started
    rw [blank] at subscribed
    obtain ⟨gathered, isOpen, _⟩ := Capture.gathered_subscribe rfl rfl rfl subscribed
    obtain ⟨log, published⟩ := EventBus.log_publish_of_counted h.listening h.published
      (e.session.lastId + 1) .started
    rw [started]
    refine ⟨rfl, rfl, ?_⟩
    exact {
      config := h.config
      dialect := h.dialect
      active := rfl
      environment := rfl
      lastId := rfl
      isOpen := isOpen
      ending := gathered.ending.trans h.ending
      listening := (EventBus.closed_publish _ _ _).trans h.listening
      published := published
      roomy := (EventBus.ring_publish _ _ _).symm ▸ h.roomy
      log := by
        have before : s.events.log = e.session.events.log := h.log.trans (List.append_nil _)
        rw [log, before]
        rfl
      gathered := fun _ _ => h.ending ▸ gathered
      sound := trivial }

/-- The end of the tool is reported. -/
theorem report (h : Tends e lossless .building chunks s) (succeeded : Bool) (said : String) :
    (s.onBuildComplete succeeded said).2.schedule =
        s.schedule.schedule s.config.completionDelay
          (Job.single (.finalize e.id succeeded said)) ∧
      Tends e lossless .reported chunks (s.onBuildComplete succeeded said).2 := by
  have active : s.active = some e.build := h.active
  rw [Session.onBuildComplete_of_building active rfl]
  exact ⟨rfl, { h with
    active := rfl
    gathered := fun kept _ => h.gathered kept (Option.some_ne_none e.build) }⟩

/-- The build at hand ends. -/
theorem conclude (h : Tends e lossless stage chunks s) {build : ActiveBuild} (how : BuildEnd)
    {next : Stage} (rest : next.active? e = none)
    (environment : next.environment e = e.session.reset.environment)
    (lastId : next.lastId e = stage.lastId e)
    (told : next.told e = stage.told e ++
      [⟨e.session.events.log.length + (stage.told e).length + 1, build.id,
        .completed (s.conclude build how).1⟩])
    (undone : Session.undo (stage.environment e) build.saved = e.session.reset.environment)
    (sound : next.Sound e lossless) :
    Tends e lossless next chunks (s.conclude build how).2 := by
  obtain ⟨log, published⟩ := EventBus.log_publish_of_counted h.listening h.published build.id
    (.completed (s.conclude build how).1)
  exact {
    config := h.config
    dialect := h.dialect
    active := rest.symm
    environment := by
      change Session.undo s.environment build.saved = _
      rw [h.environment, undone, environment]
    lastId := h.lastId.trans lastId.symm
    isOpen := (s.closed_conclude build how).trans h.isOpen
    ending := (s.endLines_finish build _ _ _).trans h.ending
    listening := (EventBus.closed_publish _ _ _).trans h.listening
    published := published
    roomy := (EventBus.ring_publish _ _ _).symm ▸ h.roomy
    log := by
      change (s.events.publish build.id (.completed (s.conclude build how).1)).log = _
      rw [log, h.log, told, List.length_append, List.append_assoc]
    gathered := fun _ busy => absurd rest busy
    sound := sound }

/-- The watchdog ends the build. -/
theorem expire (h : Tends e lossless .building chunks s)
    (watched : e.session.config.watchdogTimeout? ≠ none) :
    Tends e lossless (.expired (s.conclude e.build .expired).1) chunks
      (s.conclude e.build .expired).2 :=
  h.conclude .expired rfl rfl rfl rfl (Session.undo_patch _ _ _) watched

/-- The build gets the result that it has to get. -/
theorem finish (h : Tends e lossless .reported chunks s)
    (upToDate : lossless → s.capture.backlog s.console ≤ s.console.ring)
    (written : textsOf chunks = e.texts e.patched) {build : ActiveBuild}
    (same : build = { e.build with phase := .completionPending }) {how : BuildEnd}
    (reported : how = .reported (e.toolEnd e.patched).succeeded (e.toolEnd e.patched).reported) :
    Tends e lossless (.finished (s.conclude build how).1) chunks (s.conclude build how).2 := by
  subst same reported
  refine h.conclude _ rfl rfl rfl rfl (Session.undo_patch _ _ _) fun kept => ?_
  rw [Session.conclude,
    Session.finish_gathered (h.gathered kept (Option.some_ne_none _)) (upToDate kept), h.config,
    h.dialect]
  exact result_eq written _

end Tends

end Errand

/-- Every session that is at rest, and whose console is open, may be asked for a build. -/
def Errand.ofRun (config : Config) (dialect : Dialect) (environment : Environment)
    (console : Console) (ops : List Operation)
    (rest : ((Session.new config dialect environment console).run ops).active = none)
    (isOpen : ((Session.new config dialect environment console).run ops).console.closed = false)
    (located : Located) (request : BuildRequest) (command : ToolCommand) (launch : Launch) :
    Errand where
  session := (Session.new config dialect environment console).run ops
  located := located
  request := request
  command := command
  launch := launch
  rest := rest
  booked := Session.booked_run (Session.booked_new config dialect environment console) ops
  ending :=
    (Session.prepared_run (Session.prepared_new config dialect environment console) ops).ending
  given :=
    (Session.timed_run (Session.timed_new config dialect environment console) ops).clocked.given
  isOpen := isOpen
  roomy := by
    have ring := Session.run_induction
      (s := Session.new config dialect environment console)
      (P := fun _ t => t.events.channel.ring = eventCapacity) rfl
      (fun _ op t _ same => (t.ring_events_apply op).trans same) ops
    rw [ring]
    decide

end BuildSupervisor
