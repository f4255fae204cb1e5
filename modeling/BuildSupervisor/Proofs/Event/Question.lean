import BuildSupervisor.Proofs.Console.Reading
import BuildSupervisor.Event
/-!
# What a listener is answered

A listener asks for the next notification, looks for the result of a build, or takes all that
waits.  `Question.answer` says what comes of it, and `EventBus.answers` that the bus answers so.
The answer depends on nothing but the notifications that the listener has not read and on whether
the bus has ended; where it reads, and what others have read, is not asked.
-/

namespace BuildSupervisor

namespace Channel

variable {α : Type u} {c : Channel α} {cursor next : Cursor}

theorem unread_skip (c : Channel α) (cursor : Cursor) (n : Nat) :
    c.unread ⟨cursor.next + n⟩ = (c.unread cursor).drop n := by
  simp only [unread, List.drop_drop]

/-- A reader of whom more is kept back than the ring holds is told so first. -/
theorem poll_of_overrun (lost : c.ring < (c.unread cursor).length) :
    c.poll cursor = (.lagged (c.missed cursor), ⟨cursor.next + c.missed cursor⟩) := by
  unfold poll
  rw [if_pos]
  exact Nat.sub_pos_of_lt lost

theorem cursor_of_closed (h : c.poll cursor = (.closed, next)) : next = cursor := by
  unfold poll at h
  split at h
  · cases h
  · split at h
    · cases h
    · split at h
      · exact (Prod.mk.inj h).2.symm
      · cases h

end Channel

namespace EventBus

/-- What a listener may ask. -/
inductive Question where
  | poll
  | completionOf (id : BuildId)
  | drain
  deriving DecidableEq

inductive Reply where
  | told (outcome : Except ListenError (Option Notification))
  | handed (notifications : List Notification)

/-- Asks the bus, from where a listener has read to. -/
def ask (bus : EventBus) (cursor : Cursor) : Question → Reply × Cursor
  | .poll => (bus.tryReceive cursor).map .told id
  | .completionOf number => (bus.completionOf number cursor).map .told id
  | .drain => (bus.drain cursor).map .handed id

/-- What is told where nothing waits. -/
def silence (closed : Bool) : Except ListenError (Option Notification) :=
  if closed then .error .closed else .ok none

namespace Question

/-- The answer to a listener that has lost notifications. -/
def overrun (lost : Nat) : Question → Reply
  | .poll => .told (.error (.lagged lost))
  | .completionOf _ => .told (.error (.lagged lost))
  | .drain => .handed []

/-- The answer to a listener that has lost nothing, and what it has not read then. -/
def heard (closed : Bool) (unread : List Notification) : Question → Reply × List Notification
  | .poll =>
    match unread with
    | n :: rest => (.told (.ok (some n)), rest)
    | [] => (.told (silence closed), [])
  | .completionOf id =>
    match unread.dropWhile fun n => !n.completes id with
    | n :: rest => (.told (.ok (some n)), rest)
    | [] => (.told (silence closed), [])
  | .drain => (.handed unread, [])

/-- The answer to a listener that has not read `unread`, on a bus that keeps the last `size`
    notifications, and what it has not read then. -/
def answer (size : Nat) (closed : Bool) (unread : List Notification) (q : Question) :
    Reply × List Notification :=
  if size < unread.length then
    (q.overrun (unread.length - size), unread.drop (unread.length - size))
  else q.heard closed unread

end Question

/-- The bus gives an answer, after which so much is unread. -/
structure Answers (bus : EventBus) (answer : Reply × List Notification) (after : Reply × Cursor) :
    Prop where
  reply : after.1 = answer.1
  unread : bus.channel.unread after.2 = answer.2
  bound : after.2.next ≤ bus.channel.sent.length

variable {bus : EventBus} {cursor : Cursor}

/-- Whatever is asked, a listener that has lost something goes on with the oldest that is kept. -/
theorem answers_of_overrun (lost : bus.channel.ring < (bus.channel.unread cursor).length)
    (q : Question) :
    bus.Answers (q.overrun (bus.channel.missed cursor),
      (bus.channel.unread cursor).drop (bus.channel.missed cursor)) (bus.ask cursor q) := by
  have polled := Channel.poll_of_overrun lost
  have skipped := bus.channel.unread_skip cursor (bus.channel.missed cursor)
  have bound : cursor.next + bus.channel.missed cursor ≤ bus.channel.sent.length := by
    simp only [Channel.missed, Channel.unread, List.length_drop] at lost ⊢
    omega
  have asked : bus.ask cursor q = (q.overrun (bus.channel.missed cursor),
      ⟨cursor.next + bus.channel.missed cursor⟩) := by
    cases q with
    | poll => rw [ask, tryReceive, polled]; rfl
    | completionOf id =>
      rw [ask, completionOf]
      split <;> rename_i h <;> cases h.symm.trans polled
      rfl
    | drain =>
      rw [ask, drain]
      split
      · rename_i h
        cases h.symm.trans polled
      · rename_i h
        cases h.symm.trans polled
        rfl
  rw [asked]
  exact ⟨rfl, skipped, bound⟩

/-- Reading on from a listener that has lost nothing leads to one that has lost nothing. -/
theorem few_of_received {n : Notification} {next : Cursor}
    (received : bus.channel.poll cursor = (.received n, next))
    (few : (bus.channel.unread cursor).length ≤ bus.channel.ring) :
    (bus.channel.unread next).length ≤ bus.channel.ring := by
  rw [(Channel.unread_of_received received).1, List.length_cons] at few
  exact Nat.le_of_succ_le few

theorem not_lagged_of_few {n : Nat} {next : Cursor}
    (few : (bus.channel.unread cursor).length ≤ bus.channel.ring) :
    bus.channel.poll cursor ≠ (.lagged n, next) := by
  refine Channel.not_lagged ?_
  rwa [Channel.behind, ← List.length_drop]

theorem answers_poll (bound : cursor.next ≤ bus.channel.sent.length)
    (few : (bus.channel.unread cursor).length ≤ bus.channel.ring) :
    bus.Answers (Question.heard bus.channel.closed (bus.channel.unread cursor) .poll)
      (bus.ask cursor .poll) := by
  rw [ask, tryReceive]
  split
  · rename_i n next received
    obtain ⟨first, bound'⟩ := Channel.unread_of_received received
    rw [first]
    exact ⟨rfl, rfl, bound'⟩
  · rename_i missed next lagged
    exact absurd lagged (not_lagged_of_few few)
  · rename_i next empty
    obtain ⟨nothing, rfl⟩ := Channel.unread_of_empty empty
    rw [nothing, Channel.isOpen_of_empty empty]
    exact ⟨rfl, nothing, bound⟩
  · rename_i next ended
    obtain ⟨nothing, closed⟩ := Channel.unread_of_closed ended
    obtain rfl := Channel.cursor_of_closed ended
    rw [nothing, closed]
    exact ⟨rfl, nothing, bound⟩

/-- What is passed over in a search makes no difference to what comes of it. -/
theorem heard_completionOf_cons {closed : Bool} {n : Notification} {rest : List Notification}
    {id : BuildId} (other : ¬n.completes id = true) :
    Question.heard closed (n :: rest) (.completionOf id) =
      Question.heard closed rest (.completionOf id) := by
  simp only [Question.heard, List.dropWhile_cons, Bool.eq_false_iff.mpr other, Bool.not_false,
    if_true]

theorem answers_completionOf {id : BuildId} (bound : cursor.next ≤ bus.channel.sent.length)
    (few : (bus.channel.unread cursor).length ≤ bus.channel.ring) :
    bus.Answers (Question.heard bus.channel.closed (bus.channel.unread cursor) (.completionOf id))
      (bus.ask cursor (.completionOf id)) := by
  rw [ask]
  fun_induction completionOf bus id cursor with
  | case1 cursor n next received lt found =>
    obtain ⟨first, bound'⟩ := Channel.unread_of_received received
    rw [first]
    simp only [Question.heard, List.dropWhile_cons, found, Bool.not_true, Bool.false_eq_true,
      if_false]
    exact ⟨rfl, rfl, bound'⟩
  | case2 cursor n next received lt other ih =>
    obtain ⟨first, bound'⟩ := Channel.unread_of_received received
    rw [first, heard_completionOf_cons other]
    exact ih bound' (few_of_received received few)
  | case3 cursor missed next lagged => exact absurd lagged (not_lagged_of_few few)
  | case4 cursor next empty =>
    obtain ⟨nothing, rfl⟩ := Channel.unread_of_empty empty
    rw [nothing, Channel.isOpen_of_empty empty]
    exact ⟨rfl, nothing, bound⟩
  | case5 cursor next ended =>
    obtain ⟨nothing, closed⟩ := Channel.unread_of_closed ended
    obtain rfl := Channel.cursor_of_closed ended
    rw [nothing, closed]
    exact ⟨rfl, nothing, bound⟩

theorem answers_drain (bound : cursor.next ≤ bus.channel.sent.length)
    (few : (bus.channel.unread cursor).length ≤ bus.channel.ring) :
    bus.Answers (.handed (bus.channel.unread cursor), []) (bus.ask cursor .drain) := by
  rw [ask]
  fun_induction drain bus cursor with
  | case1 cursor n next received lt rest last result ih =>
    obtain ⟨first, bound'⟩ := Channel.unread_of_received received
    obtain ⟨reply, unread, bound''⟩ := ih bound' (few_of_received received few)
    rw [result] at reply unread bound''
    rw [first]
    refine ⟨?_, unread, bound''⟩
    exact congrArg (fun ns => Reply.handed (n :: ns)) (Reply.handed.inj reply)
  | case2 cursor outcome next other polled =>
    cases outcome with
    | received n => exact (other n rfl).elim
    | lagged missed => exact absurd polled (not_lagged_of_few few)
    | empty =>
      obtain ⟨nothing, rfl⟩ := Channel.unread_of_empty polled
      rw [nothing]
      exact ⟨rfl, nothing, bound⟩
    | closed =>
      obtain ⟨nothing, _⟩ := Channel.unread_of_closed polled
      obtain rfl := Channel.cursor_of_closed polled
      rw [nothing]
      exact ⟨rfl, nothing, bound⟩

/-- The answer depends on nothing but what is unread, and on whether the bus has ended. -/
theorem answers_ask (bound : cursor.next ≤ bus.channel.sent.length) (q : Question) :
    bus.Answers (q.answer bus.channel.ring bus.channel.closed (bus.channel.unread cursor))
      (bus.ask cursor q) := by
  unfold Question.answer
  split
  · rename_i lost
    exact answers_of_overrun lost q
  · rename_i kept
    have few := Nat.le_of_not_lt kept
    cases q with
    | poll => exact answers_poll bound few
    | completionOf id => exact answers_completionOf bound few
    | drain => exact answers_drain bound few

end EventBus

end BuildSupervisor
