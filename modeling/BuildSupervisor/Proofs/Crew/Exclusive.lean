import BuildSupervisor.Proofs.Crew.Credit
import BuildSupervisor.Proofs.Crew.Tally
/-!
# One build at a time

If a session refuses a build while it looks after another one, has no watchdog and is never reset,
then a build stays until its own invoker has reported: `Held` says so, and every turn keeps it.
Nobody is then credited with what another one's tool did.
-/

namespace BuildSupervisor.Crew

/-- The service gives no build up: it refuses builds instead, has no watchdog, and nobody has asked
    it for a reset. -/
structure Calm (c : Crew) : Prop where
  rejects : c.service.session.config.reentry = .reject
  unwatched : c.service.session.config.watchdogTimeout? = none
  noWatchdog : ∀ id, .watchdog id ∉ c.service.putOff
  noReset : ∀ m ∈ c.service.inbox, m.2 ≠ .reset

/-- The service has not taken a report under that ticket yet. -/
def Outstanding (c : Crew) (ticket : Ticket) : Prop :=
  reportsOf ticket c.sent = 0 ∨ 0 < reportsOf ticket c.service.inbox

/-- A build whose report has not been taken is looked after, and its tool runs. -/
def Held (c : Crew) : Prop :=
  c.service.stopped = false → ∀ ticket id, c.Owns ticket id → c.Outstanding ticket →
    ∃ build, c.service.session.active = some build ∧ build.id = id ∧ build.phase = .building

/-- Whoever asks for no reset leaves the service calm. -/
theorem Calm.told {c d : Crew} (calm : Calm c) {messages : List (Ticket × Command)}
    (peace : c.service.Undisturbed d.service messages) (sent : ∀ m ∈ messages, m.2 ≠ .reset) :
    Calm d := by
  refine ⟨?_, ?_, ?_, ?_⟩
  · rw [peace.config]
    exact calm.rejects
  · rw [peace.config]
    exact calm.unwatched
  · exact fun id mem => calm.noWatchdog id (peace.putOff _ mem)
  · intro m mem
    rw [peace.inbox] at mem
    rcases List.mem_append.mp mem with old | new
    · exact calm.noReset m old
    · exact sent m new

theorem Calm.served {c : Crew} (calm : Calm c) {v : Service} (step : c.service.Step (some v)) :
    Calm { c with service := v } := by
  have config := Service.config_step step
  refine ⟨?_, ?_, ?_, ?_⟩
  · rw [config]
    exact calm.rejects
  · rw [config]
    exact calm.unwatched
  · intro id mem
    rcases Service.mem_putOff_step step mem with old | ⟨watched, _⟩ | ⟨_, _, _, _, _, _, _, same⟩
    · exact calm.noWatchdog id old
    · exact watched calm.unwatched
    · cases same
  · exact fun m mem => calm.noReset m (Service.mem_inbox_step step mem)

theorem Calm.effect {c d : Crew} {t : Turn} (calm : Calm c) (effect : Effect c t d)
    (keep : t ≠ .order .reset) : Calm d := by
  cases effect with
  | served step => exact calm.served step
  | passed peace => exact calm.told peace (by intro m mem; cases mem)
  | joined peace _ _ start =>
    refine calm.told peace ?_
    intro m mem
    rcases start with rfl | ⟨request, rfl⟩
    · cases mem
    · rw [List.mem_singleton.mp mem]
      simp
  | proceeded peace _ progress =>
    refine calm.told peace ?_
    intro m mem
    cases progress with
    | kept _ _ _ => cases mem
    | reported _ _ _ _ _ _ _ _ =>
      rw [List.mem_singleton.mp mem]
      simp
  | ordered o peace =>
    refine calm.told peace ?_
    intro m mem
    rw [List.mem_singleton.mp mem]
    cases o with
    | reset => exact absurd rfl keep
    | status => simp [Order.command]
    | shutdown => simp [Order.command]

/-- While a tool runs, nothing that was put off ends its build but a watchdog. -/
theorem runDeferred_of_building {s : Session} {build : ActiveBuild} (active : s.active = some build)
    (phase : build.phase = .building) {task : Deferred} (other : ∀ id, task ≠ .watchdog id) :
    s.runDeferred task = s := by
  rcases s.runDeferred_cases task with same | ⟨ending, yes, said, note, active', ends, _⟩
  · exact same
  · cases active.symm.trans active'
    generalize (s.finish build yes said note).1 = result at ends
    cases ends with
    | reported _ _ pending => cases phase.symm.trans pending
    | expired _ => exact absurd rfl (other build.id)

/-- What the invariants say of the service when it turns to something. -/
structure Exclusive (c : Crew) : Prop where
  honest : Honest c
  tally : Tally c
  allotted : Allotted c
  calm : Calm c
  held : Held c

/-- The report that the service turns to is about the build at hand. -/
theorem Exclusive.reporter {c : Crew} (h : Exclusive c) (running : c.service.stopped = false)
    {ticket : Ticket} {succeeded : Bool} {said : String} {own : BuildId}
    (due : c.service.dueCommand? = some (ticket, .buildComplete succeeded said))
    (owns : c.Owns ticket own) :
    ∃ build, c.service.session.active = some build ∧ build.id = own ∧ build.phase = .building := by
  refine h.held running ticket own owns (.inr ?_)
  refine List.countP_pos_iff.mpr ⟨_, Service.mem_inbox_of_dueCommand? due, ?_⟩
  simp [Command.isReport]

/-- No report is outstanding under the ticket of a report that has been taken. -/
theorem Tally.taken {c : Crew} (tally : Tally c) {ticket : Ticket} {succeeded : Bool}
    {said : String} {rest : List (Ticket × Command)}
    (inbox : c.service.inbox = (ticket, .buildComplete succeeded said) :: rest) :
    reportsOf ticket rest = 0 ∧ reportsOf ticket c.sent = 1 := by
  have within := tally.inbox ticket
  have once := tally.once ticket
  rw [inbox, reportsOf_cons, reportsOf_report] at within
  omega

theorem Exclusive.held_serve {c : Crew} (h : Exclusive c) {v : Service}
    (step : c.service.Step (some v)) : Held { c with service := v } := by
  intro running ticket id owns out
  rcases Service.accepted_step step owns with old | new
  · have out' : c.Outstanding ticket := by
      rcases out with unsent | waiting
      · exact .inl unsent
      · exact .inr (Nat.lt_of_lt_of_le waiting (reportsOf_inbox_step step ticket))
    have running' := Service.running_step step running
    obtain ⟨build, active, same, phase⟩ := h.held running' ticket id old out'
    refine ⟨build, ?_, same, phase⟩
    cases step with
    | heard _ _ looked => exact looked.books.active.trans active
    | @did u task rest due _ _ looked =>
      have active' := looked.books.active.trans active
      have other : ∀ id, task ≠ .watchdog id := by
        rintro id rfl
        exact h.calm.noWatchdog id (Service.mem_putOff_of_dueTask? due)
      change (u.session.runDeferred task).active = some build
      rw [runDeferred_of_building active' phase other]
      exact active'
    | @took u first command rest _ due _ inbox looked =>
      have active' := looked.books.active.trans active
      cases command with
      | start request =>
        have rejects := (congrArg Config.reentry looked.books.config).trans h.calm.rejects
        change (u.session.start u.located request).2.active = some build
        unfold Session.start
        rw [active', rejects]
        exact active'
      | buildComplete succeeded said =>
        -- The report is about the build at hand, so its sender is the owner, who owes no other.
        have sent := h.honest.inbox _ (Service.mem_inbox_of_dueCommand? due)
        obtain ⟨_, _, _, own, owns'⟩ := h.honest.sender first succeeded said sent
        obtain ⟨build', active'', same', _⟩ := h.reporter running' due owns'
        cases active.symm.trans active''
        rw [← same, same'] at old
        have sender : first = ticket := h.allotted.single first ticket own owns' old
        subst sender
        obtain ⟨none_, all⟩ := h.tally.taken inbox
        rcases out with unsent | waiting
        · exact absurd (unsent.symm.trans all) (by decide)
        · exact absurd none_ (Nat.ne_of_gt waiting)
      | reset => exact absurd rfl (h.calm.noReset _ (Service.mem_inbox_of_dueCommand? due))
      | status => exact active'
      | shutdown => cases running
    | ended _ _ _ => cases running
  · exact new.active

/-- Someone who sends something leaves the build at hand alone. -/
theorem Exclusive.held_told {c d : Crew} (h : Exclusive c) {messages : List (Ticket × Command)}
    (peace : c.service.Undisturbed d.service messages)
    (out : ∀ ticket, d.Outstanding ticket → c.Outstanding ticket) : Held d := by
  intro running ticket id owns outstanding
  rw [peace.active]
  exact h.held (peace.stopped.symm.trans running) ticket id
    ((owns_congr peace.replies ticket id).mp owns) (out ticket outstanding)

theorem outstanding_of_idle {c d : Crew} {messages : List (Ticket × Command)}
    (peace : c.service.Undisturbed d.service messages) (sent : d.sent = c.sent ++ messages)
    {ticket : Ticket} (none_ : reportsOf ticket messages = 0) (out : d.Outstanding ticket) :
    c.Outstanding ticket := by
  unfold Outstanding at out
  rw [sent, peace.inbox, reportsOf_append, reportsOf_append, none_] at out
  exact out

theorem Exclusive.held_effect {c d : Crew} {t : Turn} (h : Exclusive c) (effect : Effect c t d) :
    Held d := by
  cases effect with
  | served step => exact h.held_serve step
  | passed peace =>
    refine h.held_told peace fun ticket => outstanding_of_idle peace ?_ rfl
    exact (List.append_nil _).symm
  | joined peace _ _ start =>
    refine h.held_told peace fun ticket => outstanding_of_idle peace rfl ?_
    rcases start with rfl | ⟨request, rfl⟩
    · rfl
    · exact reportsOf_other (.inr rfl)
  | @proceeded _ v index i j messages peace there progress =>
    refine h.held_told peace fun ticket => ?_
    cases progress with
    | kept _ _ _ => exact outstanding_of_idle peace rfl rfl
    | reported id succeeded said _ _ owed _ _ =>
      intro out
      by_cases own : i.ticket = ticket
      · rw [← own]
        exact .inl (h.tally.owed i (List.mem_of_getElem? there) owed)
      · exact outstanding_of_idle peace rfl (reportsOf_other (.inl own)) out
  | ordered o peace =>
    refine h.held_told peace fun ticket => outstanding_of_idle peace rfl ?_
    refine reportsOf_other (.inr ?_)
    cases o <;> rfl

theorem Exclusive.effect {c d : Crew} {t : Turn} (h : Exclusive c) (effect : Effect c t d)
    (keep : t ≠ .order .reset) : Exclusive d :=
  ⟨h.honest.effect effect, h.tally.effect effect, h.allotted.effect effect,
    h.calm.effect effect keep, h.held_effect effect⟩

theorem Exclusive.attended {c : Crew} (h : Exclusive c) : Attended c := by
  intro ticket succeeded said own due owns _
  have running : c.service.stopped = false := by
    by_contra stopped
    rw [Service.dueCommand?_of_stopped (by simpa using stopped)] at due
    cases due
  obtain ⟨build, active, same, _⟩ := h.reporter running due owns
  rw [Session.currentBuild?_of_active active, same]

/-- A service that refuses builds, has no watchdog and is not reset lets every build have its own
    result. -/
theorem credited_of_calm {config : Config} (rejects : config.reentry = .reject)
    (unwatched : config.watchdogTimeout? = none) (dialect : Dialect) (environment : Environment)
    (console : Console) (located : Located) {turns : List Turn}
    (keep : ∀ t ∈ turns, t ≠ .order .reset) :
    Throughout Credited (Crew.new (Session.new config dialect environment console) located)
      turns := by
  refine credited_of_attended config dialect environment console located ?_
  generalize hc : Crew.new (Session.new config dialect environment console) located = c
  have start : Exclusive c := by
    rw [← hc]
    exact ⟨.new _ _, .new _ _, .new _ _, ⟨rejects, unwatched, nofun, nofun⟩, fun _ => nofun⟩
  intro before after place
  have kept : ∀ t ∈ before, t ≠ .order .reset := by
    intro t mem
    refine keep t ?_
    rw [place]
    exact List.mem_append_left _ mem
  clear place
  refine Exclusive.attended ?_
  induction before using List.reverseRecOn with
  | nil => exact start
  | append_singleton before t ih =>
    have earlier := ih fun t mem => kept t (List.mem_append_left _ mem)
    rw [run_concat]
    rcases effect_turn (c.run before) t with same | effect
    · rw [same]
      exact earlier
    · exact earlier.effect effect (kept t (List.mem_append_right _ (List.mem_singleton_self t)))

end BuildSupervisor.Crew
