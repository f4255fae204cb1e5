import BuildSupervisor.Proofs.Crew.Effect
/-!
# Who reports how often

Every invoker has a ticket of its own and reports the end of its tool at most once; every build is
accepted for one ticket only.  Both hold in every run of a crew, however it is configured.
-/

namespace BuildSupervisor

/-- Whether the command reports the end of a tool. -/
def Command.isReport : Command → Bool
  | .buildComplete .. => true
  | _ => false

/-- How many reports were sent under a ticket. -/
def reportsOf (ticket : Ticket) (messages : List (Ticket × Command)) : Nat :=
  messages.countP fun m => m.1 = ticket && m.2.isReport

theorem reportsOf_append (ticket : Ticket) (first second : List (Ticket × Command)) :
    reportsOf ticket (first ++ second) = reportsOf ticket first + reportsOf ticket second :=
  List.countP_append

theorem reportsOf_cons (ticket : Ticket) (m : Ticket × Command) (rest : List (Ticket × Command)) :
    reportsOf ticket (m :: rest) = reportsOf ticket [m] + reportsOf ticket rest :=
  reportsOf_append ticket [m] rest

theorem reportsOf_report (ticket : Ticket) (succeeded : Bool) (said : String) :
    reportsOf ticket [(ticket, .buildComplete succeeded said)] = 1 := by
  simp [reportsOf, Command.isReport]

theorem reportsOf_other {ticket first : Ticket} {command : Command}
    (h : first ≠ ticket ∨ command.isReport = false) : reportsOf ticket [(first, command)] = 0 := by
  rcases h with other | none_
  · simp [reportsOf, other]
  · simp [reportsOf, none_]

/-- Under a ticket that was never used nothing was reported. -/
theorem reportsOf_fresh {ticket : Ticket} {messages : List (Ticket × Command)}
    (h : ∀ m ∈ messages, m.1 < ticket) : reportsOf ticket messages = 0 := by
  refine List.countP_eq_zero.mpr ?_
  intro m mem
  have other := Nat.ne_of_lt (h m mem)
  simp [other]

namespace Crew

/-- No invoker reports twice. -/
structure Tally (c : Crew) : Prop where
  sentBelow : ∀ m ∈ c.sent, m.1 < c.nextTicket
  below : ∀ i ∈ c.invokers, i.ticket < c.nextTicket
  distinct : (c.invokers.map Invoker.ticket).Nodup
  owed : ∀ i ∈ c.invokers, i.phase.owesReport = true → reportsOf i.ticket c.sent = 0
  inbox : ∀ ticket, reportsOf ticket c.service.inbox ≤ reportsOf ticket c.sent
  once : ∀ ticket, reportsOf ticket c.sent ≤ 1

/-- Every build is accepted once, under the number that was given last. -/
structure Allotted (c : Crew) : Prop where
  given : ∀ ticket id, c.Owns ticket id → id ≤ c.service.session.lastId
  single : ∀ first second id, c.Owns first id → c.Owns second id → first = second

theorem Tally.new (session : Session) (located : Located) : Tally (Crew.new session located) :=
  ⟨nofun, nofun, List.nodup_nil, nofun, fun _ => Nat.le_refl 0, fun _ => Nat.zero_le 1⟩

theorem Allotted.new (session : Session) (located : Located) :
    Allotted (Crew.new session located) :=
  ⟨nofun, nofun⟩

/-- The reports in an inbox from which the service takes something. -/
theorem reportsOf_inbox_step {v w : Service} (step : Service.Step v (some w)) (ticket : Ticket) :
    reportsOf ticket w.inbox ≤ reportsOf ticket v.inbox := by
  cases step with
  | heard _ _ looked => exact Nat.le_of_eq (congrArg (reportsOf ticket) looked.inbox)
  | did _ _ _ looked => exact Nat.le_of_eq (congrArg (reportsOf ticket) looked.inbox)
  | @took u first command rest _ _ _ inbox _ =>
    rw [inbox, reportsOf_cons]
    cases command with
    | shutdown => exact Nat.zero_le _
    | _ => exact Nat.le_add_left _ _
  | ended _ _ _ => exact Nat.zero_le _

/-- The invoker at another place than `index` has another ticket. -/
theorem Tally.other_ticket {c : Crew} (tally : Tally c) {index k : Nat} {i x : Invoker}
    (there : c.invokers[index]? = some i) (other : c.invokers[k]? = some x) (ne : k ≠ index) :
    i.ticket ≠ x.ticket := by
  intro same
  have bound : index < (c.invokers.map Invoker.ticket).length := by
    rw [List.length_map]
    exact (List.getElem?_eq_some_iff.mp there).1
  have equal : (c.invokers.map Invoker.ticket)[index]? = (c.invokers.map Invoker.ticket)[k]? := by
    rw [List.getElem?_map, List.getElem?_map, there, other, Option.map_some, Option.map_some, same]
  exact ne ((List.getElem?_inj bound tally.distinct).mp equal).symm

theorem mem_set_cases {invokers : List Invoker} {index : Nat} {j x : Invoker}
    (mem : x ∈ invokers.set index j) :
    x = j ∨ ∃ k, k ≠ index ∧ invokers[k]? = some x := by
  obtain ⟨k, bound, rfl⟩ := List.getElem_of_mem mem
  by_cases same : k = index
  · subst same
    exact .inl (List.getElem_set_self _)
  · refine .inr ⟨k, same, ?_⟩
    rw [List.getElem_set_ne (Ne.symm same)]
    exact List.getElem?_eq_getElem _

theorem Tally.served {c : Crew} (tally : Tally c) {v : Service}
    (step : c.service.Step (some v)) : Tally { c with service := v } :=
  ⟨tally.sentBelow, tally.below, tally.distinct, tally.owed,
    fun ticket => Nat.le_trans (reportsOf_inbox_step step ticket) (tally.inbox ticket), tally.once⟩

/-- Whatever is sent is no report. -/
theorem Tally.told {c : Crew} (tally : Tally c) {v : Service} {messages : List (Ticket × Command)}
    (peace : c.service.Undisturbed v messages)
    (none_ : ∀ ticket, reportsOf ticket messages = 0) (below : ∀ m ∈ messages, m.1 = c.nextTicket) :
    Tally { c with service := v, nextTicket := c.nextTicket + 1, sent := c.sent ++ messages } := by
  have sent (ticket : Ticket) :
      reportsOf ticket (c.sent ++ messages) = reportsOf ticket c.sent := by
    rw [reportsOf_append, none_ ticket]
    rfl
  refine ⟨?_, ?_, tally.distinct, ?_, ?_, ?_⟩
  · intro m mem
    rcases List.mem_append.mp mem with old | new
    · exact Nat.lt_succ_of_lt (tally.sentBelow m old)
    · rw [below m new]
      exact Nat.lt_succ_self _
  · exact fun i mem => Nat.lt_succ_of_lt (tally.below i mem)
  · intro i mem owes
    rw [sent]
    exact tally.owed i mem owes
  · intro ticket
    rw [sent, peace.inbox, reportsOf_append, none_ ticket]
    exact tally.inbox ticket
  · intro ticket
    rw [sent]
    exact tally.once ticket

/-- Someone new comes under a ticket of their own. -/
theorem Tally.joined {c : Crew} (tally : Tally c) {i : Invoker} (ticket : i.ticket < c.nextTicket)
    (fresh : ∀ x ∈ c.invokers, x.ticket ≠ i.ticket) (unsent : reportsOf i.ticket c.sent = 0) :
    Tally { c with invokers := c.invokers ++ [i] } := by
  refine ⟨tally.sentBelow, ?_, ?_, ?_, tally.inbox, tally.once⟩
  · intro x mem
    rcases List.mem_append.mp mem with old | new
    · exact tally.below x old
    · rw [List.mem_singleton.mp new]
      exact ticket
  · rw [List.map_append, List.map_singleton]
    refine List.nodup_append.mpr ⟨tally.distinct, List.nodup_singleton _, ?_⟩
    intro a mem b new
    obtain ⟨x, old, rfl⟩ := List.mem_map.mp mem
    rw [List.mem_singleton.mp new]
    exact fresh x old
  · intro x mem owes
    rcases List.mem_append.mp mem with old | new
    · exact tally.owed x old owes
    · rw [List.mem_singleton.mp new]
      exact unsent

theorem map_ticket_set {invokers : List Invoker} {index : Nat} {i j : Invoker}
    (there : invokers[index]? = some i) (same : j.ticket = i.ticket) :
    (invokers.set index j).map Invoker.ticket = invokers.map Invoker.ticket := by
  obtain ⟨bound, rfl⟩ := List.getElem?_eq_some_iff.mp there
  rw [List.map_set, same, ← List.getElem_map Invoker.ticket]
  · exact List.set_getElem_self _
  · simpa using bound

theorem Tally.below_set {c : Crew} (tally : Tally c) {index : Nat} {i j : Invoker}
    (there : c.invokers[index]? = some i) (same : j.ticket = i.ticket) :
    ∀ x ∈ c.invokers.set index j, x.ticket < c.nextTicket := by
  intro x at_
  rcases mem_set_cases at_ with rfl | ⟨k, _, other⟩
  · rw [same]
    exact tally.below i (List.mem_of_getElem? there)
  · exact tally.below x (List.mem_of_getElem? other)

theorem Tally.distinct_set {c : Crew} (tally : Tally c) {index : Nat} {i j : Invoker}
    (there : c.invokers[index]? = some i) (same : j.ticket = i.ticket) :
    ((c.invokers.set index j).map Invoker.ticket).Nodup := by
  rw [map_ticket_set there same]
  exact tally.distinct

/-- An invoker goes on without a report, and owes none that it did not owe before. -/
theorem Tally.kept {c : Crew} (tally : Tally c) {v : Service} {index : Nat} {i j : Invoker}
    (peace : c.service.Undisturbed v []) (there : c.invokers[index]? = some i)
    (same : j.ticket = i.ticket)
    (owes : j.phase.owesReport = true → i.phase.owesReport = true) :
    Tally ⟨v, c.invokers.set index j, c.nextTicket, c.sent⟩ := by
  have inbox : v.inbox = c.service.inbox := by rw [peace.inbox, List.append_nil]
  refine ⟨tally.sentBelow, tally.below_set there same, tally.distinct_set there same, ?_, ?_,
    tally.once⟩
  · intro x at_ owes'
    rcases mem_set_cases at_ with rfl | ⟨k, _, other⟩
    · rw [same]
      exact tally.owed i (List.mem_of_getElem? there) (owes owes')
    · exact tally.owed x (List.mem_of_getElem? other) owes'
  · intro ticket
    rw [inbox]
    exact tally.inbox ticket

/-- An invoker that owes a report sends it, and owes none after that. -/
theorem Tally.reported {c : Crew} (tally : Tally c) {v : Service} {index : Nat} {i j : Invoker}
    {succeeded : Bool} {said : String}
    (peace : c.service.Undisturbed v [(i.ticket, .buildComplete succeeded said)])
    (there : c.invokers[index]? = some i) (same : j.ticket = i.ticket)
    (owed : i.phase.owesReport = true) (done : j.phase.owesReport = false) :
    Tally ⟨v, c.invokers.set index j, c.nextTicket,
      c.sent ++ [(i.ticket, .buildComplete succeeded said)]⟩ := by
  have mem := List.mem_of_getElem? there
  have unsent := tally.owed i mem owed
  have elsewhere {ticket : Ticket} (ne : i.ticket ≠ ticket) :
      reportsOf ticket [(i.ticket, Command.buildComplete succeeded said)] = 0 :=
    reportsOf_other (.inl ne)
  refine ⟨?_, tally.below_set there same, tally.distinct_set there same, ?_, ?_, ?_⟩
  · intro m at_
    rcases List.mem_append.mp at_ with old | new
    · exact tally.sentBelow m old
    · rw [List.mem_singleton.mp new]
      exact tally.below i mem
  · intro x at_ owes
    rcases mem_set_cases at_ with rfl | ⟨k, ne, other⟩
    · rw [done] at owes
      cases owes
    · rw [reportsOf_append, elsewhere (tally.other_ticket there other ne)]
      exact tally.owed x (List.mem_of_getElem? other) owes
  · intro ticket
    rw [peace.inbox, reportsOf_append, reportsOf_append]
    exact Nat.add_le_add_right (tally.inbox ticket) _
  · intro ticket
    rw [reportsOf_append]
    by_cases here : i.ticket = ticket
    · have first : reportsOf ticket c.sent +
          reportsOf ticket [(i.ticket, Command.buildComplete succeeded said)] = 1 := by
        rw [← here, unsent, reportsOf_report]
      exact Nat.le_of_eq first
    · rw [elsewhere here]
      exact tally.once ticket

theorem Tally.effect {c d : Crew} {t : Turn} (tally : Tally c) (effect : Effect c t d) :
    Tally d := by
  cases effect with
  | served step => exact tally.served step
  | passed peace =>
    have inbox := peace.inbox
    rw [List.append_nil] at inbox
    refine ⟨tally.sentBelow, tally.below, tally.distinct, tally.owed, ?_, tally.once⟩
    intro ticket
    rw [inbox]
    exact tally.inbox ticket
  | @joined _ v i messages peace ticket _ start =>
    have none_ : ∀ ticket, reportsOf ticket messages = 0 := by
      intro ticket
      rcases start with rfl | ⟨request, rfl⟩
      · rfl
      · exact reportsOf_other (.inr rfl)
    have own : ∀ m ∈ messages, m.1 = c.nextTicket := by
      intro m mem
      rcases start with rfl | ⟨request, rfl⟩
      · cases mem
      · rw [List.mem_singleton.mp mem]
    refine (tally.told peace none_ own).joined ?_ ?_ ?_
    · rw [ticket]
      exact Nat.lt_succ_self _
    · intro x old
      rw [ticket]
      exact Nat.ne_of_lt (tally.below x old)
    · rw [ticket, reportsOf_append, none_, reportsOf_fresh tally.sentBelow]
  | proceeded peace there progress =>
    cases progress with
    | kept same _ owes =>
      rw [List.append_nil]
      exact tally.kept peace there same owes
    | reported _ _ _ same _ owed _ done => exact tally.reported peace there same owed done
  | ordered o peace =>
    refine tally.told peace ?_ ?_
    · intro ticket
      refine reportsOf_other (.inr ?_)
      cases o <;> rfl
    · intro m mem
      rw [List.mem_singleton.mp mem]

/-! ## One build, one ticket -/

theorem Allotted.effect {c d : Crew} {t : Turn} (allotted : Allotted c) (effect : Effect c t d) :
    Allotted d := by
  rcases effect.service with step | ⟨_, peace⟩
  · have later := Service.lastId_le_step step
    constructor
    · intro ticket id owns
      rcases Service.accepted_step step owns with old | new
      · exact Nat.le_trans (allotted.given ticket id old) later
      · exact Nat.le_of_eq new.last.symm
    · intro first second id one two
      -- A build that is accepted now has a number that nobody could own before.
      have unowned {ticket : Ticket} (own : c.Owns ticket id)
          (fresh : id = c.service.session.lastId + 1) : False := by
        have given := allotted.given ticket id own
        rw [fresh] at given
        exact Nat.not_succ_le_self _ given
      rcases Service.accepted_step step one with old | new
      · rcases Service.accepted_step step two with old' | new'
        · exact allotted.single first second id old old'
        · exact (unowned old new'.fresh).elim
      · rcases Service.accepted_step step two with old' | new'
        · exact (unowned old' new.fresh).elim
        · obtain ⟨request, due⟩ := new.asked
          obtain ⟨request', due'⟩ := new'.asked
          cases due.symm.trans due'
          rfl
  · constructor
    · intro ticket id owns
      rw [peace.lastId]
      exact allotted.given ticket id ((owns_congr peace.replies ticket id).mp owns)
    · intro first second id one two
      exact allotted.single first second id ((owns_congr peace.replies first id).mp one)
        ((owns_congr peace.replies second id).mp two)

end Crew

end BuildSupervisor
