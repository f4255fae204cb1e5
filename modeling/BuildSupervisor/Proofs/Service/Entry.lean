import BuildSupervisor.Session.Service
/-!
# What a service does in a turn

An `Entry` is what a service does in one turn, and `Service.entry?` finds it out beforehand.
`Service.enters_of_step` says that the turn is what its entry says, with all that has to be so for
it; whatever is said of turns follows from that.
-/

namespace BuildSupervisor

/-- What a service does in a turn, or what happens to its console. -/
inductive Entry where
  /-- A chunk is heard and added. -/
  | heard (c : Chunk)
  | did (task : Deferred)
  | took (ticket : Ticket) (command : Command) (located : Located)
  /-- The end of the console is noticed, and there is nothing else to do. -/
  | looked
  /-- The service stops since nobody holds a handle. -/
  | left
  | written (c : Chunk)
  | closed

namespace Service

/-- What the service does next where no chunk waits. -/
def duty? (v : Service) : Option Entry :=
  match v.arrived with
  | task :: _ => some (.did task)
  | [] =>
    match v.inbox with
    | (ticket, command) :: _ => some (.took ticket command v.located)
    | [] => if v.handles = 0 then some .left else none

/-- What the next turn of the service does. -/
def entry? (v : Service) : Option Entry :=
  if v.stopped then none
  else
    match v.session.nextChunk.1 with
    | .chunk c => some (.heard c)
    | .closed => some (v.duty?.getD .looked)
    | .pending => v.duty?

/-- No chunk waits that could be read. -/
def IsQuiet (v : Service) : Prop :=
  ∀ c, v.session.nextChunk.1 ≠ .chunk c

/-- The service after it has looked at its console. -/
def listened (v : Service) : Service :=
  { v with session := v.session.nextChunk.2 }

/-- What a service becomes in the turn of an entry. -/
inductive Enters (v : Service) : Entry → Service → Prop where
  | heard {c} : v.session.nextChunk.1 = .chunk c →
      Enters v (.heard c)
        { v with session := (v.session.nextChunk.2.onOutputChunk c).2 }
  | did {task rest} : v.IsQuiet → v.arrived = task :: rest →
      Enters v (.did task)
        { v.listened with session := v.listened.session.runDeferred task, arrived := rest }
  | took {ticket command rest} : v.IsQuiet → v.arrived = [] →
      v.inbox = (ticket, command) :: rest →
      Enters v (.took ticket command v.located)
        ({ v.listened with inbox := rest }.handle ticket command)
  | looked : v.IsQuiet → v.arrived = [] → v.inbox = [] → Enters v .looked v.listened
  | left : v.IsQuiet → v.arrived = [] → v.inbox = [] → v.handles = 0 →
      Enters v .left v.listened.stop

/-- What is done where no chunk waits is what its entry says. -/
theorem enters_of_serve {v : Service} (quiet : v.IsQuiet) :
    (∃ e w, v.duty? = some e ∧ v.listened.serve? = some w ∧ Enters v e w) ∨
      v.duty? = none ∧ v.listened.serve? = none ∧ v.arrived = [] ∧ v.inbox = [] ∧
        0 < v.handles := by
  cases arrived : v.arrived with
  | cons task rest =>
    have there : v.listened.arrived = task :: rest := arrived
    exact .inl ⟨.did task, _, by rw [duty?, arrived], by rw [serve?, there], .did quiet arrived⟩
  | nil =>
    have none_ : v.listened.arrived = [] := arrived
    cases inbox : v.inbox with
    | cons m rest =>
      have there : v.listened.inbox = m :: rest := inbox
      refine .inl ⟨_, _, ?_, ?_, .took quiet arrived inbox⟩
      · simp only [duty?, arrived, inbox]
      · simp only [serve?, none_, there]
    | nil =>
      have empty : v.listened.inbox = [] := inbox
      have holders : v.listened.handles = v.handles := rfl
      by_cases free : v.handles = 0
      · refine .inl ⟨.left, _, ?_, ?_, .left quiet arrived inbox free⟩
        · simp only [duty?, arrived, inbox, free, if_true]
        · simp only [serve?, none_, empty, holders, free, if_true]
      · refine .inr ⟨?_, ?_, rfl, rfl, Nat.pos_of_ne_zero free⟩
        · simp only [duty?, arrived, inbox, free, if_false]
        · simp only [serve?, none_, empty, holders, free, if_false]

/-- What is known where the console has shown no chunk. -/
theorem quiet_of_next {v : Service} {answer : NextChunk} {session : Session}
    (next : v.session.nextChunk = (answer, session)) (none_ : ∀ c, answer ≠ .chunk c) :
    v.IsQuiet ∧ ({ v with session := session } : Service) = v.listened := by
  rw [IsQuiet, listened, next]
  exact ⟨none_, rfl⟩

/-- A turn is what its entry says. -/
theorem enters_of_step {v w : Service} (h : v.step? = some w) :
    v.stopped = false ∧ ∃ e, v.entry? = some e ∧ Enters v e w := by
  unfold step? at h
  unfold entry?
  split at h
  · cases h
  rename_i running
  refine ⟨by simpa using running, ?_⟩
  rw [if_neg running]
  rcases next : v.session.nextChunk with ⟨c | _ | _, session⟩ <;> rw [next] at h
  · cases h
    have enters : Enters v (.heard c) _ := .heard (congrArg Prod.fst next)
    rw [next] at enters
    exact ⟨_, rfl, enters⟩
  all_goals
    obtain ⟨quiet, looked⟩ := quiet_of_next next (by simp)
    dsimp only at h ⊢
    rw [looked] at h
    rcases enters_of_serve quiet with ⟨e, w', duty, serve, enters⟩ | ⟨duty, serve, nothing⟩
    all_goals
      rw [serve] at h
      cases h
  · exact ⟨e, duty, enters⟩
  · exact ⟨e, by rw [duty, Option.getD_some], enters⟩
  · exact ⟨.looked, by rw [duty, Option.getD_none], .looked quiet nothing.1 nothing.2.1⟩

/-- A service that has no turn has stopped, or has nothing to do and somebody holds a handle. -/
theorem waits_of_step {v : Service} (h : v.step? = none) :
    v.stopped = true ∨ v.IsQuiet ∧ v.arrived = [] ∧ v.inbox = [] ∧ 0 < v.handles := by
  unfold step? at h
  split at h
  · rename_i stopped
    exact .inl stopped
  rcases next : v.session.nextChunk with ⟨c | _ | _, session⟩ <;> rw [next] at h
  · cases h
  · obtain ⟨quiet, looked⟩ := quiet_of_next next (by simp)
    dsimp only at h
    rw [looked] at h
    rcases enters_of_serve quiet with ⟨_, _, _, serve, _⟩ | ⟨_, _, nothing⟩
    · rw [serve] at h
      cases h
    · exact .inr ⟨quiet, nothing⟩
  · cases h

end Service

end BuildSupervisor
