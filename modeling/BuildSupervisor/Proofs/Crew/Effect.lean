import BuildSupervisor.Proofs.Crew.Basic
import BuildSupervisor.Proofs.Service.Turn
/-!
# What a turn can do to a crew

`Crew.Effect` lists what a turn can do to those who ask for builds and to what they have sent: the
service is served, is left in peace, or is left in peace by someone who sends it a command.
`Crew.effect_turn` says that the list is complete.
-/

namespace BuildSupervisor

namespace InvokerPhase

/-- The build that was accepted for the invoker, while the invoker looks after it. -/
def build? : InvokerPhase → Option BuildId
  | .asking => none
  | .running id _ => some id
  | .reporting id _ => some id
  | .waiting id _ => some id
  | .over _ => none

/-- Whether the invoker has still to tell the service how its tool ended. -/
def owesReport : InvokerPhase → Bool
  | .asking => true
  | .running .. => true
  | .reporting .. => true
  | .waiting .. => false
  | .over _ => false

end InvokerPhase

/-- The build that was accepted. -/
def Reply.accepted? : Reply → Option BuildId
  | .started (.ok (.accepted id)) => some id
  | _ => none

namespace Service

/-- Nothing has been done to the builds of the service; its inbox may have gained commands. -/
structure Undisturbed (v w : Service) (messages : List (Ticket × Command)) : Prop where
  config : w.session.config = v.session.config
  active : w.session.active = v.session.active
  lastId : w.session.lastId = v.session.lastId
  replies : w.replies = v.replies
  stopped : w.stopped = v.stopped
  putOff : ∀ task ∈ w.putOff, task ∈ v.putOff
  inbox : w.inbox = v.inbox ++ messages

theorem Undisturbed.refl (v : Service) : Undisturbed v v [] :=
  ⟨rfl, rfl, rfl, rfl, rfl, fun _ mem => mem, (List.append_nil _).symm⟩

/-- What is written to the console leaves the builds in peace. -/
theorem undisturbed_write (v : Service) (c : Chunk) :
    Undisturbed v { v with session := (v.session.write c).2 } [] :=
  ⟨rfl, rfl, rfl, rfl, rfl, fun _ mem => mem, (List.append_nil _).symm⟩

theorem undisturbed_send {v w : Service} {ticket : Ticket} {command : Command}
    (h : v.send? ticket command = some w) : Undisturbed v w [(ticket, command)] := by
  unfold send? at h
  split at h
  · cases h
  · cases h
    exact ⟨rfl, rfl, rfl, rfl, rfl, fun _ mem => mem, rfl⟩

theorem undisturbed_arrive {v w : Service} {target : Duration} (h : v.arrive? target = some w) :
    Undisturbed v w [] := by
  obtain ⟨⟨t, rest⟩, popped, rfl⟩ := Option.map_eq_some_iff.mp h
  refine ⟨rfl, rfl, rfl, rfl, rfl, ?_, (List.append_nil _).symm⟩
  intro task mem
  unfold putOff at mem ⊢
  rw [Schedule.actions_of_pop? popped]
  rcases List.mem_append.mp mem with there | scheduled
  · dsimp only at there
    split at there
    · cases there
    · rcases List.mem_append.mp there with earlier | now
      · exact List.mem_append_left _ earlier
      · rw [List.mem_singleton.mp now]
        exact List.mem_append_right _ List.mem_cons_self
  · exact List.mem_append_right _ (List.mem_cons_of_mem _ scheduled)

end Service

namespace Crew

/-- The service has accepted that build for the one who asked under that ticket. -/
def Owns (c : Crew) (ticket : Ticket) (id : BuildId) : Prop :=
  c.service.reply? ticket = some (.started (.ok (.accepted id)))

theorem owns_iff {c : Crew} {ticket : Ticket} {id : BuildId} :
    c.Owns ticket id ↔ (c.service.reply? ticket).bind Reply.accepted? = some id := by
  rw [Owns, Option.bind_eq_some_iff]
  constructor
  · intro h
    exact ⟨_, h, rfl⟩
  · rintro ⟨r, there, accepted⟩
    rw [there]
    unfold Reply.accepted? at accepted
    split at accepted <;> cases accepted
    rfl

instance (c : Crew) (ticket : Ticket) (id : BuildId) : Decidable (c.Owns ticket id) :=
  decidable_of_iff _ owns_iff.symm

/-- Of the service, only the replies decide who owns which build. -/
theorem owns_congr {c d : Crew} (h : d.service.replies = c.service.replies) (ticket : Ticket)
    (id : BuildId) : d.Owns ticket id ↔ c.Owns ticket id := by
  unfold Owns Service.reply?
  rw [h]

/-- What an invoker does to itself, and what it sends. -/
inductive Progress (c : Crew) (i : Invoker) : Invoker → List (Ticket × Command) → Prop where
  | kept {j} : j.ticket = i.ticket →
      (∀ id, j.phase.build? = some id → i.phase.build? = some id ∨ c.Owns i.ticket id) →
      (j.phase.owesReport = true → i.phase.owesReport = true) → Progress c i j []
  | reported {j} (id : BuildId) (succeeded : Bool) (said : String) : j.ticket = i.ticket →
      i.phase.build? = some id → i.phase.owesReport = true → j.phase.build? = some id →
      j.phase.owesReport = false → Progress c i j [(i.ticket, .buildComplete succeeded said)]

theorem Progress.ticket {c : Crew} {i j : Invoker} {messages : List (Ticket × Command)}
    (h : Progress c i j messages) : j.ticket = i.ticket := by
  cases h with
  | kept same _ _ => exact same
  | reported _ _ _ same _ _ _ _ => exact same

/-- Everything a turn can do to a crew. -/
inductive Effect (c : Crew) : Turn → Crew → Prop where
  | served {v} : c.service.Step (some v) → Effect c .serve { c with service := v }
  | passed {t v} : c.service.Undisturbed v [] → Effect c t { c with service := v }
  | joined {t v i messages} : c.service.Undisturbed v messages → i.ticket = c.nextTicket →
      i.phase.build? = none →
      (messages = [] ∨ ∃ request, messages = [(c.nextTicket, .start request)]) →
      Effect c t ⟨v, c.invokers ++ [i], c.nextTicket + 1, c.sent ++ messages⟩
  | proceeded {t v index i j messages} : c.service.Undisturbed v messages →
      c.invokers[index]? = some i → Progress c i j messages →
      Effect c t ⟨v, c.invokers.set index j, c.nextTicket, c.sent ++ messages⟩
  | ordered {v} (o : Order) : c.service.Undisturbed v [(c.nextTicket, o.command)] →
      Effect c (.order o)
        ⟨v, c.invokers, c.nextTicket + 1, c.sent ++ [(c.nextTicket, o.command)]⟩

/-- Of the service alone: it is served, or left in peace. -/
theorem Effect.service {c d : Crew} {t : Turn} (effect : Effect c t d) :
    c.service.Step (some d.service) ∨
      ∃ messages, c.service.Undisturbed d.service messages := by
  cases effect with
  | served step => exact .inl step
  | passed peace => exact .inr ⟨_, peace⟩
  | joined peace _ _ _ => exact .inr ⟨_, peace⟩
  | proceeded peace _ _ => exact .inr ⟨_, peace⟩
  | ordered o peace => exact .inr ⟨_, peace⟩

theorem send_of_undisturbed {c : Crew} {v : Service} {messages : List (Ticket × Command)}
    (h : c.service.Undisturbed v messages) :
    c.send v = { c with service := v, sent := c.sent ++ messages } := by
  rw [send, h.inbox, List.drop_left]

theorem effect_join {c d : Crew} {request : BuildRequest} {command : ToolCommand} {launch : Launch}
    (h : c.join? request command launch = some d) : Effect c (.join request command launch) d := by
  obtain ⟨⟨listener, events⟩, _, rfl⟩ := Option.map_eq_some_iff.mp h
  dsimp only
  generalize hv : ({ c.service with session := _ } : Service) = v
  have listening : c.service.Undisturbed v [] := by
    rw [← hv]
    exact ⟨rfl, rfl, rfl, rfl, rfl, fun _ mem => mem, (List.append_nil _).symm⟩
  unfold Invoker.ask
  split
  · rename_i w sent
    have told := Service.undisturbed_send sent
    have both : c.service.Undisturbed w [(c.nextTicket, .start request)] :=
      ⟨told.config.trans listening.config, told.active.trans listening.active,
        told.lastId.trans listening.lastId, told.replies.trans listening.replies,
        told.stopped.trans listening.stopped,
        fun task mem => listening.putOff task (told.putOff task mem),
        by rw [told.inbox, listening.inbox, List.append_nil]⟩
    dsimp only
    rw [send_of_undisturbed both]
    exact .joined both rfl rfl (.inr ⟨request, rfl⟩)
  · dsimp only
    rw [send_of_undisturbed listening]
    exact .joined listening rfl rfl (.inl rfl)

/-- An invoker may give up, or be done. -/
theorem Progress.over {c : Crew} {i : Invoker} {outcome : Except InvokeError Outcome}
    {listener : Cursor} :
    Progress c i { i with listener := listener, phase := .over outcome } [] := by
  refine .kept rfl ?_ ?_
  · intro id build
    cases build
  · intro owes
    cases owes

/-- An invoker may go on with the build that it owns. -/
theorem Progress.onward {c : Crew} {i : Invoker} {id : BuildId} {phase : InvokerPhase}
    (same : phase.build? = some id) (own : i.phase.build? = some id ∨ c.Owns i.ticket id)
    (owes : i.phase.owesReport = true) : Progress c i { i with phase := phase } [] := by
  refine .kept rfl ?_ fun _ => owes
  intro other build
  cases same.symm.trans build
  exact own

/-- What an invoker does leaves the builds in peace, and it does nothing to itself but to go on. -/
def Proceeds (c : Crew) (i : Invoker) (after : Invoker × Service) : Prop :=
  ∃ messages, c.service.Undisturbed after.2 messages ∧ Progress c i after.1 messages

theorem proceeds_over {c : Crew} {i : Invoker} {outcome : Except InvokeError Outcome}
    {listener : Cursor} :
    Proceeds c i ({ i with listener := listener, phase := .over outcome }, c.service) :=
  ⟨[], .refl _, .over⟩

theorem proceeds_startTool {c : Crew} {i : Invoker} {id : BuildId} (owns : c.Owns i.ticket id)
    (owes : i.phase.owesReport = true) : Proceeds c i (i.startTool id c.service) := by
  unfold Invoker.startTool
  split
  · exact ⟨[], .refl _, .onward rfl (.inr owns) owes⟩
  · exact ⟨[], Service.undisturbed_write .., .onward rfl (.inr owns) owes⟩

theorem proceeds_takeReply? {c : Crew} {i : Invoker} {after : Invoker × Service}
    (owes : i.phase.owesReport = true) (h : i.takeReply? c.service = some after) :
    Proceeds c i after := by
  unfold Invoker.takeReply? at h
  split at h
  · rename_i id reply
    cases h
    exact proceeds_startTool reply owes
  · cases h
    exact proceeds_over
  · cases h
    exact proceeds_over
  all_goals
    split at h
    · cases h
      exact proceeds_over
    · cases h

theorem proceeds_readTool {c : Crew} {i : Invoker} {id : BuildId} {tool : RunningTool}
    (first : OutputKind) (own : i.phase.build? = some id) (owes : i.phase.owesReport = true) :
    Proceeds c i (i.readTool first id tool c.service) := by
  unfold Invoker.readTool
  split
  · exact ⟨[], Service.undisturbed_write .., .onward rfl (.inl own) owes⟩
  · exact ⟨[], .refl _, .onward rfl (.inl own) owes⟩

theorem proceeds_report {c : Crew} {i : Invoker} {id : BuildId} {ended : ToolEnd}
    (own : i.phase.build? = some id) (owes : i.phase.owesReport = true) :
    Proceeds c i (i.report id ended c.service) := by
  unfold Invoker.report
  split
  · rename_i v sent
    exact ⟨_, Service.undisturbed_send sent,
      .reported id ended.succeeded ended.reported rfl own owes rfl rfl⟩
  · exact proceeds_over

theorem proceeds_takeResult? {c : Crew} {i : Invoker} {id : BuildId} {ended : ToolEnd}
    {after : Invoker × Service} (h : i.takeResult? id ended c.service = some after) :
    Proceeds c i after := by
  unfold Invoker.takeResult? at h
  split at h
  · cases h
  · obtain ⟨outcome, _, rfl⟩ := Option.map_eq_some_iff.mp h
    exact proceeds_over
  · cases h
    exact proceeds_over

theorem proceeds_step {c : Crew} {i : Invoker} {first : OutputKind} {after : Invoker × Service}
    (h : i.step? first c.service = some after) : Proceeds c i after := by
  unfold Invoker.step? at h
  split at h
  · rename_i phase
    exact proceeds_takeReply? (by rw [phase]; rfl) h
  · rename_i id tool phase
    cases h
    exact proceeds_readTool first (by rw [phase]; rfl) (by rw [phase]; rfl)
  · rename_i id ended phase
    cases h
    exact proceeds_report (by rw [phase]; rfl) (by rw [phase]; rfl)
  · exact proceeds_takeResult? h
  · cases h

theorem effect_proceed {c d : Crew} {index : Nat} {first : OutputKind}
    (h : c.proceed? index first = some d) : Effect c (.proceed index first) d := by
  obtain ⟨i, there, h⟩ := Option.bind_eq_some_iff.mp h
  obtain ⟨⟨j, v⟩, step, rfl⟩ := Option.map_eq_some_iff.mp h
  obtain ⟨messages, undisturbed, progress⟩ := proceeds_step step
  dsimp only
  rw [send_of_undisturbed undisturbed]
  exact .proceeded undisturbed there progress

theorem effect_order {c d : Crew} {o : Order} (h : c.order? o = some d) :
    Effect c (.order o) d := by
  obtain ⟨v, sent, rfl⟩ := Option.map_eq_some_iff.mp h
  have undisturbed := Service.undisturbed_send sent
  rw [send_of_undisturbed undisturbed]
  exact .ordered o undisturbed

theorem effect_elapse {c d : Crew} {by_ : Duration} (h : c.elapse? by_ = some d) :
    Effect c (.elapse by_) d := by
  unfold elapse? at h
  dsimp only at h
  split at h
  · cases h
  · cases h
    exact .passed ⟨rfl, rfl, rfl, rfl, rfl, fun _ mem => mem, (List.append_nil _).symm⟩

/-- The list of effects is complete. -/
theorem effect_turn (c : Crew) (t : Turn) : c.turn t = c ∨ Effect c t (c.turn t) := by
  rcases c.turn_cases t with same | possible
  · exact .inl same
  · refine .inr ?_
    generalize c.turn t = d at possible
    cases t with
    | serve =>
      obtain ⟨v, step, rfl⟩ := Option.map_eq_some_iff.mp possible
      exact .served (step ▸ c.service.step_cases)
    | arrive target =>
      obtain ⟨v, arrived, rfl⟩ := Option.map_eq_some_iff.mp possible
      exact .passed (Service.undisturbed_arrive arrived)
    | elapse by_ => exact effect_elapse possible
    | join request command launch => exact effect_join possible
    | proceed index first => exact effect_proceed possible
    | order o => exact effect_order possible
    | write chunk =>
      cases possible
      exact .passed (Service.undisturbed_write c.service chunk)
    | closeConsole =>
      cases possible
      exact .passed ⟨rfl, rfl, rfl, rfl, rfl, fun _ mem => mem, (List.append_nil _).symm⟩
    | release =>
      cases possible
      exact .passed ⟨rfl, rfl, rfl, rfl, rfl, fun _ mem => mem, (List.append_nil _).symm⟩

end Crew

end BuildSupervisor
