import BuildSupervisor.Proofs.Crew.Effect
import BuildSupervisor.Proofs.Event.Chronicle
/-!
# Whose report ends a build

The report that a tool has ended does not say which build it is about: the service takes it for the
build that it looks after when it turns to the report.  `credited_iff_attended` says when this is
right: no build gets the result of another one's tool in a run exactly if each report that the
service turns to while a tool runs comes from the invoker of the build at hand.
-/

namespace BuildSupervisor

namespace Session

/-- The build whose tool has ended and whose result is due. -/
def resultDue? (s : Session) : Option BuildId :=
  if s.state = .completionPending then s.currentBuild? else none

theorem resultDue?_eq_some {s : Session} {id : BuildId} :
    s.resultDue? = some id ↔
      ∃ build, s.active = some build ∧ build.phase = .completionPending ∧ build.id = id := by
  unfold resultDue? state currentBuild?
  rcases s.active with _ | ⟨number, request, _ | _, saved, warning⟩ <;> simp

theorem state_eq_building {s : Session} :
    s.state = .building ↔ ∃ build, s.active = some build ∧ build.phase = .building := by
  unfold state
  rcases s.active with _ | ⟨number, request, _ | _, saved, warning⟩ <;> simp

theorem currentBuild?_of_active {s : Session} {build : ActiveBuild} (h : s.active = some build) :
    s.currentBuild? = some build.id := by
  rw [currentBuild?, h, Option.map_some]

/-- A result that is published is that of the build it was put off for. -/
theorem published_finalize {s : Session} {id own : BuildId} {succeeded : Bool} {said : String}
    {n : Notification}
    (h : (s.runDeferred (.finalize id succeeded said)).events.log = s.events.log ++ [n])
    (completed : n.completedId? = some own) : own = id := by
  obtain ⟨build, result, _, same, event, ends⟩ := published_runDeferred h
  unfold Notification.completedId? at completed
  rw [event, same] at completed
  cases ends with
  | reported _ _ _ => exact (Option.some.inj completed).symm

end Session

namespace Crew

/-- What happens next in the crew credits no build with what the tool of another one did. -/
structure Credited (c : Crew) : Prop where
  /-- A result that was put off and is published now holds what the invoker of that very build has
      reported. -/
  result : ∀ id succeeded said n own, c.service.dueTask? = some (.finalize id succeeded said) →
    (c.turn .serve).service.session.events.log = c.service.session.events.log ++ [n] →
    n.completedId? = some own →
    ∃ i ∈ c.invokers, c.Owns i.ticket own ∧ (i.ticket, .buildComplete succeeded said) ∈ c.sent
  /-- A report makes no result due but that of the build of the invoker who sent it. -/
  report : ∀ ticket succeeded said own other,
    c.service.dueCommand? = some (ticket, .buildComplete succeeded said) → c.Owns ticket own →
    c.service.session.resultDue? ≠ some other →
    (c.turn .serve).service.session.resultDue? = some other → other = own

/-- If the service is about to turn to a report while a tool runs, then the report comes from the
    invoker of the build that the service looks after. -/
def Attended (c : Crew) : Prop :=
  ∀ ticket succeeded said own,
    c.service.dueCommand? = some (ticket, .buildComplete succeeded said) → c.Owns ticket own →
    c.service.session.state = .building → c.service.session.currentBuild? = some own

/-- A report of that content was sent by the invoker of the build. -/
def Backed (c : Crew) (id : BuildId) (succeeded : Bool) (said : String) : Prop :=
  ∃ i ∈ c.invokers, c.Owns i.ticket id ∧ (i.ticket, .buildComplete succeeded said) ∈ c.sent

/-- Reports come from invokers whose build was accepted. -/
structure Honest (c : Crew) : Prop where
  inbox : ∀ m ∈ c.service.inbox, m ∈ c.sent
  owner : ∀ i ∈ c.invokers, ∀ id, i.phase.build? = some id → c.Owns i.ticket id
  sender : ∀ ticket succeeded said, (ticket, .buildComplete succeeded said) ∈ c.sent →
    ∃ i ∈ c.invokers, i.ticket = ticket ∧ ∃ own, c.Owns ticket own

/-- Reports come from invokers, and each result that is put off is backed by one. -/
structure Ledger (c : Crew) : Prop where
  honest : Honest c
  backed : ∀ id succeeded said, .finalize id succeeded said ∈ c.service.putOff →
    c.Backed id succeeded said

/-- The crew after the service had a turn. -/
theorem turn_serve {c : Crew} {v : Service} (h : c.service.step? = some v) :
    c.turn .serve = { c with service := v } := by
  simp only [turn, turn?, h, Option.map_some, Option.getD_some]

/-! ## Nothing is taken back -/

theorem Effect.owns {c d : Crew} {t : Turn} (effect : Effect c t d) {ticket : Ticket} {id : BuildId}
    (h : c.Owns ticket id) : d.Owns ticket id := by
  rcases effect.service with step | ⟨_, peace⟩
  · exact Service.reply?_step step h
  · exact (owns_congr peace.replies ticket id).mpr h

theorem Effect.mem_sent {c d : Crew} {t : Turn} (effect : Effect c t d) {m : Ticket × Command}
    (h : m ∈ c.sent) : m ∈ d.sent := by
  cases effect with
  | served _ => exact h
  | passed _ => exact h
  | joined _ _ _ _ => exact List.mem_append_left _ h
  | proceeded _ _ _ => exact List.mem_append_left _ h
  | ordered _ _ => exact List.mem_append_left _ h

/-- An invoker stays in its place under its ticket. -/
theorem Effect.invoker {c d : Crew} {t : Turn} (effect : Effect c t d) {i : Invoker}
    (h : i ∈ c.invokers) : ∃ j ∈ d.invokers, j.ticket = i.ticket := by
  cases effect with
  | served _ => exact ⟨i, h, rfl⟩
  | passed _ => exact ⟨i, h, rfl⟩
  | joined _ _ _ _ => exact ⟨i, List.mem_append_left _ h, rfl⟩
  | @proceeded _ v index old new messages _ there progress =>
    obtain ⟨k, bound, rfl⟩ := List.getElem_of_mem h
    by_cases same : index = k
    · subst same
      have bound' : index < (c.invokers.set index new).length := by
        rw [List.length_set]
        exact bound
      have new_mem := List.getElem_mem bound'
      rw [List.getElem_set_self] at new_mem
      refine ⟨new, new_mem, ?_⟩
      rw [progress.ticket, Option.some.inj (there.symm.trans (List.getElem?_eq_getElem bound))]
    · have bound' : k < (c.invokers.set index new).length := by
        rw [List.length_set]
        exact bound
      have old_mem := List.getElem_mem bound'
      rw [List.getElem_set_ne same] at old_mem
      exact ⟨c.invokers[k], old_mem, rfl⟩
  | ordered _ _ => exact ⟨i, h, rfl⟩

theorem Effect.backed {c d : Crew} {t : Turn} (effect : Effect c t d) {id : BuildId}
    {succeeded : Bool} {said : String} (h : c.Backed id succeeded said) :
    d.Backed id succeeded said := by
  obtain ⟨i, mem, own, sent⟩ := h
  obtain ⟨j, mem', same⟩ := effect.invoker mem
  refine ⟨j, mem', ?_, ?_⟩
  · rw [same]
    exact effect.owns own
  · rw [same]
    exact effect.mem_sent sent

/-! ## Reports come from invokers -/

theorem Honest.new (session : Session) (located : Located) : Honest (Crew.new session located) :=
  ⟨nofun, nofun, nofun⟩

/-- What is sent is a report of an invoker whose build was accepted, or no report. -/
theorem Effect.sent_report {c d : Crew} {t : Turn} (honest : Honest c) (effect : Effect c t d)
    {ticket : Ticket} {succeeded : Bool} {said : String}
    (h : (ticket, .buildComplete succeeded said) ∈ d.sent) :
    ∃ i ∈ c.invokers, i.ticket = ticket ∧ ∃ own, c.Owns ticket own := by
  cases effect with
  | served _ => exact honest.sender ticket succeeded said h
  | passed _ => exact honest.sender ticket succeeded said h
  | joined _ _ _ messages =>
    rcases List.mem_append.mp h with old | new
    · exact honest.sender ticket succeeded said old
    · rcases messages with rfl | ⟨request, rfl⟩
      · cases new
      · cases List.mem_singleton.mp new
  | proceeded _ there progress =>
    rcases List.mem_append.mp h with old | new
    · exact honest.sender ticket succeeded said old
    · cases progress with
      | kept _ _ _ => cases new
      | reported id _ _ _ build _ _ _ =>
        have mem := List.mem_of_getElem? there
        cases List.mem_singleton.mp new
        exact ⟨_, mem, rfl, id, honest.owner _ mem id build⟩
  | ordered o _ =>
    rcases List.mem_append.mp h with old | new
    · exact honest.sender ticket succeeded said old
    · cases o <;> cases List.mem_singleton.mp new

theorem Effect.inbox_sent {c d : Crew} {t : Turn} (honest : Honest c) (effect : Effect c t d) :
    ∀ m ∈ d.service.inbox, m ∈ d.sent := by
  have told {messages : List (Ticket × Command)} {v : Service}
      (peace : c.service.Undisturbed v messages) : ∀ m ∈ v.inbox, m ∈ c.sent ++ messages := by
    intro m mem
    rw [peace.inbox] at mem
    rcases List.mem_append.mp mem with old | new
    · exact List.mem_append_left _ (honest.inbox m old)
    · exact List.mem_append_right _ new
  cases effect with
  | served step => exact fun m mem => honest.inbox m (Service.mem_inbox_step step mem)
  | passed peace =>
    intro m mem
    have sent := told peace m mem
    rwa [List.append_nil] at sent
  | joined peace _ _ _ => exact told peace
  | proceeded peace _ _ => exact told peace
  | ordered o peace => exact told peace

/-- An invoker that looks after a build owns it, also after it has come to the build just now. -/
theorem Effect.owner {c d : Crew} {t : Turn} (honest : Honest c) (effect : Effect c t d) :
    ∀ i ∈ d.invokers, ∀ id, i.phase.build? = some id → d.Owns i.ticket id := by
  have keep : ∀ i ∈ c.invokers, ∀ id, i.phase.build? = some id → d.Owns i.ticket id :=
    fun i mem id build => effect.owns (honest.owner i mem id build)
  cases effect with
  | served _ => exact keep
  | passed _ => exact keep
  | joined _ _ fresh _ =>
    intro i mem id build
    rcases List.mem_append.mp mem with old | new
    · exact keep i old id build
    · rw [List.mem_singleton.mp new, fresh] at build
      cases build
  | @proceeded _ v index old new messages peace there progress =>
    intro i mem id build
    have old_mem := List.mem_of_getElem? there
    rcases List.mem_or_eq_of_mem_set mem with other | rfl
    · exact keep i other id build
    · rw [progress.ticket]
      cases progress with
      | kept _ build_old _ =>
        rcases build_old id build with before | owns
        · exact keep old old_mem id before
        · exact (owns_congr peace.replies old.ticket id).mpr owns
      | reported id' _ _ _ build_old _ build_new _ =>
        rw [build_new] at build
        exact keep old old_mem id (build_old.trans build)
  | ordered _ _ => exact keep

theorem Honest.effect {c d : Crew} {t : Turn} (honest : Honest c) (effect : Effect c t d) :
    Honest d := by
  refine ⟨effect.inbox_sent honest, effect.owner honest, ?_⟩
  intro ticket succeeded said sent
  obtain ⟨i, mem, rfl, own, owns⟩ := effect.sent_report honest sent
  obtain ⟨j, mem', same⟩ := effect.invoker mem
  exact ⟨j, mem', same, own, effect.owns owns⟩

/-! ## Runs in which every report is taken for the build it is about -/

/-- If the service turns to a report while a tool runs, it is taken for the build of its sender. -/
theorem Attended.sender {c : Crew} (attended : Attended c) (honest : Honest c) {ticket : Ticket}
    {succeeded : Bool} {said : String} {build : ActiveBuild}
    (due : c.service.dueCommand? = some (ticket, .buildComplete succeeded said))
    (active : c.service.session.active = some build) (phase : build.phase = .building) :
    c.Backed build.id succeeded said := by
  have sent := honest.inbox _ (Service.mem_inbox_of_dueCommand? due)
  obtain ⟨i, mem, rfl, own, owns⟩ := honest.sender ticket succeeded said sent
  have state := Session.state_eq_building.mpr ⟨build, active, phase⟩
  have current := attended i.ticket succeeded said own due owns state
  rw [Session.currentBuild?_of_active active] at current
  cases current
  exact ⟨i, mem, owns, sent⟩

theorem Ledger.effect {c d : Crew} {t : Turn} (ledger : Ledger c) (attended : Attended c)
    (effect : Effect c t d) : Ledger d := by
  refine ⟨ledger.honest.effect effect, ?_⟩
  intro id succeeded said mem
  have keep (old : .finalize id succeeded said ∈ c.service.putOff) : d.Backed id succeeded said :=
    effect.backed (ledger.backed id succeeded said old)
  rcases effect.service with step | ⟨_, peace⟩
  · rcases Service.mem_putOff_step step mem with old | ⟨_, _, watchdog⟩ |
      ⟨ticket, _, _, build, due, active, phase, same⟩
    · exact keep old
    · cases watchdog
    · cases same
      exact effect.backed (attended.sender ledger.honest due active phase)
  · exact keep (peace.putOff _ mem)

theorem Ledger.turn {c : Crew} (ledger : Ledger c) (attended : Attended c) (t : Turn) :
    Ledger (c.turn t) := by
  rcases c.effect_turn t with same | effect
  · rw [same]
    exact ledger
  · exact ledger.effect attended effect

/-- What a turn of the service does to the build at hand, if it turns to a report. -/
theorem active_serve_report {c : Crew} {ticket : Ticket} {succeeded : Bool} {said : String}
    (due : c.service.dueCommand? = some (ticket, .buildComplete succeeded said)) :
    (c.turn .serve).service.session.active =
      c.service.session.active.map fun build => { build with phase := .completionPending } := by
  have step := c.service.step_cases
  generalize hw : c.service.step? = w at step
  cases step with
  | took _ due' _ _ looked =>
    rw [due] at due'
    cases due'
    rw [turn_serve hw, ← looked.books.active]
    exact Session.active_onBuildComplete _ succeeded said
  | waits _ idle => cases due.symm.trans idle
  | heard _ idle _ => cases due.symm.trans idle
  | did _ idle _ _ => cases due.symm.trans idle
  | ended _ idle _ => cases due.symm.trans idle

/-- What a turn of the service publishes, if it turns to a result that was put off. -/
theorem published_serve {c : Crew} {id own : BuildId} {succeeded : Bool} {said : String}
    {n : Notification} (due : c.service.dueTask? = some (.finalize id succeeded said))
    (log : (c.turn .serve).service.session.events.log = c.service.session.events.log ++ [n])
    (completed : n.completedId? = some own) : own = id := by
  have step := c.service.step_cases
  generalize hw : c.service.step? = w at step
  cases step with
  | did due' _ _ looked =>
    rw [due] at due'
    cases due'
    rw [turn_serve hw, ← looked.books.events] at log
    exact Session.published_finalize log completed
  | waits idle _ => cases due.symm.trans idle
  | heard idle _ _ => cases due.symm.trans idle
  | took idle _ _ _ _ => cases due.symm.trans idle
  | ended idle _ _ => cases due.symm.trans idle

theorem Attended.credited {c : Crew} (attended : Attended c) (ledger : Ledger c) : Credited c where
  result := by
    intro id succeeded said n own due log completed
    rw [published_serve due log completed]
    exact ledger.backed id succeeded said (Service.mem_putOff_of_dueTask? due)
  report := by
    intro ticket succeeded said own other due owns before after
    obtain ⟨build', active', _, same⟩ := Session.resultDue?_eq_some.mp after
    rw [active_serve_report due] at active'
    obtain ⟨build, active, rfl⟩ := Option.map_eq_some_iff.mp active'
    cases phase : build.phase with
    | building =>
      have state := Session.state_eq_building.mpr ⟨build, active, phase⟩
      have current := attended ticket succeeded said own due owns state
      rw [Session.currentBuild?_of_active active] at current
      exact same.symm.trans (Option.some.inj current)
    | completionPending =>
      exact absurd (Session.resultDue?_eq_some.mpr ⟨build, active, phase, same⟩) before

theorem Credited.attended {c : Crew} (credited : Credited c) : Attended c := by
  intro ticket succeeded said own due owns state
  obtain ⟨build, active, phase⟩ := Session.state_eq_building.mp state
  have before : c.service.session.resultDue? ≠ some build.id := by
    rw [Session.resultDue?, state]
    exact nofun
  have after : (c.turn .serve).service.session.resultDue? = some build.id := by
    have pending := active_serve_report due
    rw [active, Option.map_some] at pending
    exact Session.resultDue?_eq_some.mpr ⟨_, pending, rfl, rfl⟩
  have same := credited.report ticket succeeded said own build.id due owns before after
  rw [Session.currentBuild?_of_active active, same]

theorem credited_of_attended (config : Config) (dialect : Dialect) (environment : Environment)
    (console : Console) (located : Located) {turns : List Turn}
    (attended : Throughout Attended
      (Crew.new (Session.new config dialect environment console) located) turns) :
    Throughout Credited (Crew.new (Session.new config dialect environment console) located)
      turns := by
  intro before after place
  have start : Ledger (Crew.new (Session.new config dialect environment console) located) :=
    ⟨.new _ _, nofun⟩
  have ledger := attended.induction start fun c t now kept => kept.turn now t
  exact (attended before after place).credited (ledger before after place)

/-- In every run of a crew: no build is credited with what the tool of another one did exactly if
    each report that the service turns to while a tool runs is about the build at hand. -/
theorem credited_iff_attended (config : Config) (dialect : Dialect) (environment : Environment)
    (console : Console) (located : Located) (turns : List Turn) :
    Throughout Credited (Crew.new (Session.new config dialect environment console) located) turns ↔
      Throughout Attended (Crew.new (Session.new config dialect environment console) located)
        turns := by
  constructor
  · intro credited before after place
    exact (credited before after place).attended
  · exact credited_of_attended config dialect environment console located

/-- A crew at rest, without a watchdog, whose session gives up a build that is in the way. -/
def patient : Crew :=
  Crew.new (Session.new { Config.default none with watchdogTimeoutSecs := 0 } .gcc
    Environment.empty (Channel.new consoleCapacity)) (.ok [])

/-- Someone asks for a build whose tool says this and ends like this. -/
def asks (target said : String) (code : UInt8) : Turn :=
  .join ⟨Path.ofText target, false, false⟩ ⟨"make", [], none⟩ fun _ =>
    .ok ⟨[Utf8.encode said], [], .exited code⟩

/-- A first build is given up for a second one; then the first tool ends, and the invoker reports
    it before the second tool has been started. -/
def overtaken : List Turn :=
  [asks "/proj/a.c" "from a" 0, .serve, asks "/proj/b.c" "from b" 1, .serve,
    .proceed 0 .normal, .proceed 0 .normal, .proceed 0 .normal, .proceed 0 .normal,
    .serve, .serve, .arrive Duration.max]

/-- The second build gets a result that holds what the first tool said. -/
theorem not_credited_overtaken : ¬ Throughout Credited patient overtaken := by
  intro credited
  obtain ⟨i, _, owns, sent⟩ := (credited overtaken [] (List.append_nil _).symm).result 2 true
    "from a" ⟨3, 2, .completed ⟨"/proj/b.c", [⟨.normal, "from a"⟩, ⟨.error, ""⟩], []⟩⟩ 2
    (by decide +kernel) (by decide +kernel) rfl
  have reporter : ∀ m ∈ (patient.run overtaken).sent,
      m.2 = .buildComplete true "from a" → m.1 = 0 := by
    decide +kernel
  have stranger : ¬ (patient.run overtaken).Owns 0 2 := by decide +kernel
  have same : i.ticket = 0 := reporter _ sent rfl
  rw [same] at owns
  exact stranger owns

end Crew

end BuildSupervisor
