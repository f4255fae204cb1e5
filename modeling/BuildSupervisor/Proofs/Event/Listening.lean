import BuildSupervisor.Proofs.Console.Reading
import BuildSupervisor.Proofs.Event.Chronicle
import BuildSupervisor.Proofs.Session.Effect
/-!
# What a listener finds

A listener that has lost nothing finds the result of a build exactly if it waits on the bus.  Where
it does not, the listener has to wait for it on an open bus, and is told on a closed one that it
will not come.
-/

namespace BuildSupervisor

namespace EventBus

theorem ring_publish (bus : EventBus) (id : BuildId) (event : Event) :
    (bus.publish id event).channel.ring = bus.channel.ring := by
  unfold publish Channel.send
  split <;> rfl

/-- A bus that has counted what it published goes on counting. -/
theorem log_publish_of_counted {bus : EventBus} (isOpen : bus.channel.closed = false)
    (counted : bus.published = bus.log.length) (id : BuildId) (event : Event) :
    (bus.publish id event).log = bus.log ++ [⟨bus.log.length + 1, id, event⟩] ∧
      (bus.publish id event).published = (bus.publish id event).log.length := by
  rw [EventBus.log_publish isOpen, counted, List.length_append, List.length_singleton, ← counted]
  exact ⟨rfl, rfl⟩

/-- A listener that has lost nothing finds the result of the build among what waits. -/
theorem completionOf_of_kept {bus : EventBus} (isOpen : bus.channel.closed = false) (id : BuildId)
    {cursor : Cursor} (kept : bus.channel.behind cursor ≤ bus.channel.ring) :
    (bus.completionOf id cursor).1 =
      .ok ((bus.channel.unread cursor).find? fun n => n.completes id) := by
  fun_induction completionOf bus id cursor with
  | case1 cursor n next received lt found =>
    rw [(Channel.unread_of_received received).1, List.find?_cons, found]
  | case2 cursor n next received lt other ih =>
    rw [(Channel.unread_of_received received).1, List.find?_cons, Bool.eq_false_iff.mpr other]
    exact ih (Nat.le_of_lt (Nat.lt_of_lt_of_le lt kept))
  | case3 cursor missed next lagged => exact absurd lagged (Channel.not_lagged kept)
  | case4 cursor next empty => rw [(Channel.unread_of_empty empty).1, List.find?_nil]
  | case5 cursor next ended =>
    have closed := (Channel.unread_of_closed ended).2
    rw [isOpen] at closed
    cases closed

/-- The same on a bus that has been closed. -/
theorem completionOf_of_closed {bus : EventBus} (closed : bus.channel.closed = true) (id : BuildId)
    {cursor : Cursor} (kept : bus.channel.behind cursor ≤ bus.channel.ring) :
    (bus.completionOf id cursor).1 =
      match (bus.channel.unread cursor).find? fun n => n.completes id with
      | some n => .ok (some n)
      | none => .error .closed := by
  fun_induction completionOf bus id cursor with
  | case1 cursor n next received lt found =>
    rw [(Channel.unread_of_received received).1, List.find?_cons, found]
  | case2 cursor n next received lt other ih =>
    rw [(Channel.unread_of_received received).1, List.find?_cons, Bool.eq_false_iff.mpr other]
    exact ih (Nat.le_of_lt (Nat.lt_of_lt_of_le lt kept))
  | case3 cursor missed next lagged => exact absurd lagged (Channel.not_lagged kept)
  | case4 cursor next empty =>
    have isOpen := Channel.isOpen_of_empty empty
    rw [closed] at isOpen
    cases isOpen
  | case5 cursor next ended => rw [(Channel.unread_of_closed ended).1, List.find?_nil]

end EventBus

theorem Notification.completes_iff {n : Notification} {id : BuildId} :
    n.completes id = true ↔ n.completedId? = some id := by
  unfold completes completedId?
  cases n.event <;> simp

theorem Session.ring_events_apply (s : Session) (op : Operation) :
    (s.apply op).2.events.channel.ring = s.events.channel.ring := by
  have effect := effect_apply s op
  generalize (s.apply op).1 = answer at effect
  generalize (s.apply op).2 = t at effect ⊢
  cases effect with
  | kept _ _ _ books => rw [books.events]
  | discarded books => rw [books.events]; rfl
  | aborted _ _ books => rw [books.events]; rfl
  | accepted _ _ books => rw [books.events]; exact EventBus.ring_publish _ _ _
  | reported _ _ _ _ _ books => rw [books.events]
  | ended _ _ _ _ _ _ books => rw [books.events]; exact EventBus.ring_publish _ _ _

end BuildSupervisor
