import BuildSupervisor.Proofs.Event.Backlog
/-!
# Draining

A listener that drains is handed all that waits.  It should be handed all that is kept for it, and
find nothing behind that.  But draining ends where a loss is reported, so that a listener that has
fallen behind is handed nothing at all, and only gets what is kept when it drains again:
`Forum.drains_all_iff` tells the two apart.
-/

namespace BuildSupervisor

open EventBus (Question Reply)

namespace Backlog

variable {m : Backlog}

theorem ask_drain_of_few (few : m.unread.length ≤ eventCapacity) :
    m.ask .drain = (.handed (retained m.unread), { m with unread := [] }) := by
  rw [ask_of_few few, retained_of_few few]
  rfl

theorem ask_poll_of_nil (nothing : m.unread = []) :
    (m.ask .poll).1 = .told (EventBus.silence m.closed) := by
  have few : m.unread.length ≤ eventCapacity := by
    rw [nothing]
    exact Nat.zero_le _
  rw [ask_of_few few, nothing]
  rfl

end Backlog

namespace Forum

variable {f : Forum} {i : Nat} {m : Backlog}

/-- A listener is handed all that is kept for it, and nothing waits behind that. -/
def DrainsAll (f : Forum) (i : Nat) : Prop :=
  ∃ unread, f.unread? i = some unread ∧
    (f.act (.ask i .drain)).1 = some (.handed (retained unread)) ∧
    ((f.act (.ask i .drain)).2.act (.ask i .poll)).1 =
      some (.told (EventBus.silence f.bus.channel.closed))

theorem drainsAll_of_few (sound : f.Sound) (present : f.backlog? i = some m)
    (few : m.unread.length ≤ eventCapacity) : f.DrainsAll i := by
  obtain ⟨reply, next⟩ := ask_eq sound present .drain
  obtain ⟨reply', _⟩ := ask_eq (sound.act _) next .poll
  rw [Backlog.ask_drain_of_few few] at reply reply'
  refine ⟨m.unread, unread?_of_backlog? present, reply, ?_⟩
  rw [reply', closed_of_backlog? present, Backlog.ask_poll_of_nil rfl]

/-- One that has fallen behind is handed nothing. -/
theorem drain_of_overrun (sound : f.Sound) (present : f.backlog? i = some m)
    (lost : eventCapacity < m.unread.length) :
    (f.act (.ask i .drain)).1 = some (.handed []) ∧
      (f.act (.ask i .drain)).2.backlog? i = some { m with unread := retained m.unread } := by
  have asked := ask_eq sound present .drain
  rw [Backlog.ask_of_overrun lost] at asked
  exact asked

theorem not_drainsAll_of_overrun (sound : f.Sound) (present : f.backlog? i = some m)
    (lost : eventCapacity < m.unread.length) : ¬f.DrainsAll i := by
  rintro ⟨unread, there, handed, _⟩
  rw [unread?_of_backlog? present] at there
  obtain rfl := Option.some.inj there
  rw [(drain_of_overrun sound present lost).1] at handed
  have nothing : retained m.unread = [] := (Reply.handed.inj (Option.some.inj handed)).symm
  have kept := length_retained (Nat.le_of_lt lost)
  rw [nothing] at kept
  exact absurd kept (by decide)

/-- A listener that has fallen behind is handed nothing, and all that is kept for it when it drains
    again. -/
structure DrainsLate (f : Forum) (i : Nat) (unread : List Notification) : Prop where
  first : (f.act (.ask i .drain)).1 = some (.handed [])
  left : (f.act (.ask i .drain)).2.unread? i = some (retained unread)
  second : (f.act (.ask i .drain)).2.DrainsAll i

theorem drainsLate_of_overrun (sound : f.Sound) (present : f.backlog? i = some m)
    (lost : eventCapacity < m.unread.length) : f.DrainsLate i m.unread := by
  obtain ⟨first, next⟩ := drain_of_overrun sound present lost
  have few : (retained m.unread).length ≤ eventCapacity :=
    Nat.le_of_eq (length_retained (Nat.le_of_lt lost))
  -- what is kept is a name here, lest it be computed
  generalize isKept : retained m.unread = kept at next few
  constructor
  case first => exact first
  case left =>
    rw [isKept]
    exact unread?_of_backlog? next
  case second => exact drainsAll_of_few (sound.act _) next few

/-- Draining hands a listener all that is kept for it exactly if it has not fallen behind. -/
theorem drains_all_iff (thrifty : Bool) (before : List Act) {i : Nat} {unread : List Notification}
    (present : ((opened thrifty).run before).unread? i = some unread) :
    (((opened thrifty).run before).DrainsAll i ↔ unread.length ≤ eventCapacity) ∧
      (eventCapacity < unread.length → ((opened thrifty).run before).DrainsLate i unread) := by
  have sound := sound_reached thrifty before
  have backlog := backlog?_of_unread? present
  constructor
  · constructor
    · exact fun all => Nat.le_of_not_lt fun lost => not_drainsAll_of_overrun sound backlog lost all
    · exact fun few => drainsAll_of_few sound backlog few
  · exact fun lost => drainsLate_of_overrun sound backlog lost

/-- One listener, to whom the same has been told so many times. -/
def crowd (times : Nat) : Forum :=
  (opened true).listen.run (List.replicate times (.publish 1 .started))

theorem sound_crowd (times : Nat) : (crowd times).Sound :=
  (sound_opened true).listen.run _

theorem backlog?_crowd (times : Nat) :
    ∃ m, (crowd times).backlog? 0 = some m ∧ m.unread.length = times := by
  have alike {a : Act} (mem : a ∈ List.replicate times (.publish 1 .started)) :
      a = .publish 1 .started := List.eq_of_mem_replicate mem
  have present : (opened true).listen.backlog? 0 = some ⟨[], 0, false⟩ := backlog?_listen rfl
  obtain ⟨backlog, _⟩ := backlog?_run (sound_opened true).listen present
    fun mem => nomatch alike mem
  refine ⟨_, backlog, ?_⟩
  rw [Backlog.unread_run_of_silent fun a mem => alike mem ▸ nofun, Backlog.coming_of_open rfl]
  exact length_notices_replicate 0 times 1 .started

/-- One notification more than the bus keeps, and nothing is handed to the listener. -/
theorem not_drainsAll_crowd : ¬(crowd 257).DrainsAll 0 := by
  obtain ⟨m, backlog, length⟩ := backlog?_crowd 257
  exact not_drainsAll_of_overrun (sound_crowd 257) backlog (length ▸ by decide)

/-- As many notifications as the bus keeps are handed out; of one more, none is at first. -/
theorem drains_crowd :
    (∃ unread, (crowd 256).unread? 0 = some unread ∧ unread.length = 256 ∧
      (crowd 256).DrainsAll 0) ∧
    ∃ unread, (crowd 257).unread? 0 = some unread ∧ unread.length = 257 ∧
      (crowd 257).DrainsLate 0 unread := by
  have crowd_eq (times : Nat) : crowd times = (opened true).run
      (.listen :: List.replicate times (.publish 1 .started)) := rfl
  constructor
  · obtain ⟨m, backlog, length⟩ := backlog?_crowd 256
    have present := unread?_of_backlog? backlog
    refine ⟨m.unread, present, length, ?_⟩
    rw [crowd_eq] at present ⊢
    exact (drains_all_iff true _ present).1.mpr (length ▸ Nat.le_refl _)
  · obtain ⟨m, backlog, length⟩ := backlog?_crowd 257
    have present := unread?_of_backlog? backlog
    refine ⟨m.unread, present, length, ?_⟩
    rw [crowd_eq] at present ⊢
    exact (drains_all_iff true _ present).2 (length ▸ by decide)

end Forum

end BuildSupervisor
