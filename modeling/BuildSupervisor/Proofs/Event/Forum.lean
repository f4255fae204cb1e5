import BuildSupervisor.Proofs.Console.Subscription
import BuildSupervisor.Proofs.Event.Listening
import BuildSupervisor.Proofs.Event.Question
/-!
# Many listeners of one bus

A forum is an event bus with all that have ever listened to it.  `Forum.act` is one thing that can
happen there, and `Sound` holds after any number of them: the bus counts those who listen, and none
of them reads ahead of what has been published.

A bus need not keep what is published while nobody listens.  Its notifications are numbered all the
same, so that their numbers and their places on the channel part; a `thrifty` forum has such a bus.
-/

namespace BuildSupervisor

structure Forum where
  bus : EventBus
  /-- Where each listener has read to, in the order in which they were admitted; `none` for those
      that were let go. -/
  listeners : List (Option Cursor)
  /-- Nothing is kept of what is published while nobody listens. -/
  thrifty : Bool

namespace Forum

open EventBus (Question Reply)

inductive Act where
  | publish (id : BuildId) (event : Event)
  | listen
  | leave (i : Nat)
  | ask (i : Nat) (q : Question)
  /-- The bus is gone: nothing is published after that, and nobody admitted. -/
  | close

/-- Whose act it is to ask. -/
def Act.asker? : Act → Option Nat
  | .ask i _ => some i
  | _ => none

def opened (thrifty : Bool) : Forum :=
  ⟨EventBus.new, [], thrifty⟩

/-- Where a listener has read to that has not been let go. -/
def cursor? (f : Forum) (i : Nat) : Option Cursor :=
  (f.listeners[i]?).join

def publish (f : Forum) (id : BuildId) (event : Event) : Forum :=
  if f.bus.channel.closed then f
  else if f.thrifty && f.bus.channel.readers = 0 then
    { f with bus := { f.bus with published := f.bus.published + 1 } }
  else { f with bus := f.bus.publish id event }

def listen (f : Forum) : Forum :=
  match f.bus.listen? with
  | some (cursor, bus) => { f with bus, listeners := f.listeners ++ [some cursor] }
  | none => f

def act (f : Forum) : Act → Option Reply × Forum
  | .publish id event => (none, f.publish id event)
  | .listen => (none, f.listen)
  | .leave i =>
    match f.cursor? i with
    | some _ => (none, { f with bus := f.bus.leave, listeners := f.listeners.set i none })
    | none => (none, f)
  | .ask i q =>
    match f.cursor? i with
    | some cursor =>
      (some (f.bus.ask cursor q).1,
        { f with listeners := f.listeners.set i (some (f.bus.ask cursor q).2) })
    | none => (none, f)
  | .close => (none, { f with bus := f.bus.close })

def run (f : Forum) : List Act → Forum
  | [] => f
  | a :: acts => run (f.act a).2 acts

/-- What a listener is answered in a run. -/
def repliesTo (f : Forum) (i : Nat) : List Act → List Reply
  | [] => []
  | a :: acts =>
    (if a.asker? = some i then (f.act a).1.toList else []) ++ repliesTo (f.act a).2 i acts

/-- The notifications that are published in a run, numbered from `count` on. -/
def notices (count : Nat) : List Act → List Notification
  | [] => []
  | .publish id event :: acts => ⟨count + 1, id, event⟩ :: notices (count + 1) acts
  | .close :: _ => []
  | _ :: acts => notices count acts

/-- What a listener has not read that has not been let go, lost notifications among it. -/
def unread? (f : Forum) (i : Nat) : Option (List Notification) :=
  (f.cursor? i).map f.bus.channel.unread

theorem cursor?_eq_some {f : Forum} {i : Nat} {cursor : Cursor} :
    f.cursor? i = some cursor ↔ f.listeners[i]? = some (some cursor) :=
  Option.join_eq_some_iff

theorem listen_of_closed {f : Forum} (closed : f.bus.channel.closed = true) : f.listen = f := by
  rw [listen, EventBus.listen?, Channel.join?, if_pos closed]
  rfl

theorem listen_eq {f : Forum} (isOpen : f.bus.channel.closed = false) :
    f.listen = { f with
      bus := { f.bus with channel := { f.bus.channel with readers := f.bus.channel.readers + 1 } }
      listeners := f.listeners ++ [some ⟨f.bus.channel.sent.length⟩] } := by
  rw [listen, EventBus.listen?, Channel.join?, if_neg (Bool.eq_false_iff.mp isOpen)]
  rfl

/-- One that does not ask is not answered. -/
theorem repliesTo_of_silent {f : Forum} {i : Nat} {acts : List Act}
    (silent : ∀ a ∈ acts, a.asker? ≠ some i) : f.repliesTo i acts = [] := by
  induction acts generalizing f with
  | nil => rfl
  | cons a acts ih =>
    obtain ⟨now, later⟩ := List.forall_mem_cons.mp silent
    rw [repliesTo, if_neg now, List.nil_append]
    exact ih later

/-! ## What every act keeps -/

structure Sound (f : Forum) : Prop where
  ring : f.bus.channel.ring = eventCapacity
  counted : f.bus.channel.readers = f.listeners.countP Option.isSome
  placed : ∀ cursor, some cursor ∈ f.listeners → cursor.next ≤ f.bus.channel.sent.length

theorem sound_opened (thrifty : Bool) : (opened thrifty).Sound where
  ring := rfl
  counted := rfl
  placed _ mem := nomatch mem

theorem countP_set_none {listeners : List (Option Cursor)} {i : Nat} {cursor : Cursor}
    (there : listeners[i]? = some (some cursor)) :
    (listeners.set i none).countP Option.isSome = listeners.countP Option.isSome - 1 := by
  obtain ⟨bound, at_⟩ := List.getElem?_eq_some_iff.mp there
  rw [List.countP_set bound, at_]
  rfl

theorem countP_set_some {listeners : List (Option Cursor)} {i : Nat} {cursor : Cursor}
    (there : listeners[i]? = some (some cursor)) (next : Cursor) :
    (listeners.set i (some next)).countP Option.isSome = listeners.countP Option.isSome := by
  obtain ⟨bound, at_⟩ := List.getElem?_eq_some_iff.mp there
  have among : 0 < listeners.countP Option.isSome :=
    List.countP_pos_iff.mpr ⟨_, List.mem_of_getElem? there, rfl⟩
  rw [List.countP_set bound, at_]
  exact Nat.sub_add_cancel among

namespace Sound

variable {f : Forum} (h : f.Sound)

include h

/-- A listener that has not been let go stands at a place of the channel. -/
theorem bound {i : Nat} {cursor : Cursor} (there : f.cursor? i = some cursor) :
    cursor.next ≤ f.bus.channel.sent.length :=
  h.placed cursor (List.mem_of_getElem? (cursor?_eq_some.mp there))

theorem publish (id : BuildId) (event : Event) : (f.publish id event).Sound := by
  unfold Forum.publish
  split
  · exact h
  · rename_i running
    split
    · exact ⟨h.ring, h.counted, h.placed⟩
    · refine ⟨?_, ?_, ?_⟩
      · exact (EventBus.ring_publish f.bus id event).trans h.ring
      · exact (Channel.readers_send _ _).trans h.counted
      · intro cursor mem
        calc cursor.next ≤ f.bus.log.length := h.placed cursor mem
          _ ≤ (f.bus.publish id event).log.length := by
            rw [EventBus.log_publish (Bool.eq_false_iff.mpr running), List.length_append]
            exact Nat.le_add_right _ _

theorem listen : f.listen.Sound := by
  cases closed : f.bus.channel.closed with
  | true =>
    rw [listen_of_closed closed]
    exact h
  | false =>
    rw [listen_eq closed]
    refine ⟨h.ring, ?_, ?_⟩
    · rw [List.countP_append, ← h.counted]
      rfl
    · intro cursor mem
      rcases List.mem_append.mp mem with old | new
      · exact h.placed cursor old
      · obtain rfl := Option.some.inj (List.mem_singleton.mp new)
        exact Nat.le_refl _

theorem leave {i : Nat} {cursor : Cursor} (there : f.cursor? i = some cursor) :
    Sound { f with bus := f.bus.leave, listeners := f.listeners.set i none } where
  ring := h.ring
  counted := by
    rw [countP_set_none (cursor?_eq_some.mp there), ← h.counted]
    rfl
  placed other mem := by
    rcases List.mem_or_eq_of_mem_set mem with old | new
    · exact h.placed other old
    · cases new

theorem ask {i : Nat} {cursor : Cursor} (there : f.cursor? i = some cursor) (q : Question) :
    Sound { f with listeners := f.listeners.set i (some (f.bus.ask cursor q).2) } where
  ring := h.ring
  counted := by
    rw [countP_set_some (cursor?_eq_some.mp there)]
    exact h.counted
  placed other mem := by
    rcases List.mem_or_eq_of_mem_set mem with old | new
    · exact h.placed other old
    · obtain rfl := Option.some.inj new
      exact (EventBus.answers_ask (h.bound there) q).bound

theorem act (a : Act) : (f.act a).2.Sound := by
  cases a with
  | publish id event => exact h.publish id event
  | listen => exact h.listen
  | leave i =>
    unfold Forum.act
    dsimp only
    split
    · rename_i cursor there
      exact h.leave there
    · exact h
  | ask i q =>
    unfold Forum.act
    dsimp only
    split
    · rename_i cursor there
      exact h.ask there q
    · exact h
  | close => exact ⟨h.ring, h.counted, h.placed⟩

end Sound

theorem Sound.run {f : Forum} (h : f.Sound) (acts : List Act) : (f.run acts).Sound := by
  induction acts generalizing f with
  | nil => exact h
  | cons a acts ih => exact ih (h.act a)

/-- Whatever has been done on a forum, it is sound. -/
theorem sound_reached (thrifty : Bool) (acts : List Act) : ((opened thrifty).run acts).Sound :=
  (sound_opened thrifty).run acts

/-! ## How many notifications there have been -/

section Count

variable {f : Forum}

theorem isOpen_act (isOpen : f.bus.channel.closed = false) {a : Act} (running : a ≠ .close) :
    (f.act a).2.bus.channel.closed = false := by
  cases a with
  | publish id event =>
    rw [act, publish, if_neg (Bool.eq_false_iff.mp isOpen)]
    split
    · exact isOpen
    · exact (EventBus.closed_publish f.bus id event).trans isOpen
  | listen =>
    rw [act, listen_eq isOpen]
    exact isOpen
  | leave j =>
    rw [act]
    split <;> exact isOpen
  | ask j q =>
    rw [act]
    split <;> exact isOpen
  | close => exact absurd rfl running

theorem published_act (isOpen : f.bus.channel.closed = false) (a : Act) :
    (f.act a).2.bus.published = f.bus.published + (notices f.bus.published [a]).length := by
  cases a with
  | publish id event =>
    rw [act, publish, if_neg (Bool.eq_false_iff.mp isOpen)]
    split <;> rfl
  | listen =>
    rw [act, listen_eq isOpen]
    rfl
  | leave j =>
    rw [act]
    split <;> rfl
  | ask j q =>
    rw [act]
    split <;> rfl
  | close => rfl

theorem notices_cons {a : Act} (running : a ≠ .close) (count : Nat) (acts : List Act) :
    notices count (a :: acts) =
      notices count [a] ++ notices (count + (notices count [a]).length) acts := by
  cases a with
  | publish | listen | leave | ask => rfl
  | close => exact absurd rfl running

theorem length_notices_replicate (count times : Nat) (id : BuildId) (event : Event) :
    (notices count (List.replicate times (.publish id event))).length = times := by
  induction times generalizing count with
  | zero => rfl
  | succ times ih => rw [List.replicate_succ, notices, List.length_cons, ih]

/-- While it is there, the bus counts what is published, whether anyone listens or not. -/
theorem published_run (isOpen : f.bus.channel.closed = false) {acts : List Act}
    (running : .close ∉ acts) :
    (f.run acts).bus.channel.closed = false ∧
      (f.run acts).bus.published = f.bus.published + (notices f.bus.published acts).length := by
  induction acts generalizing f with
  | nil => exact ⟨isOpen, rfl⟩
  | cons a acts ih =>
    have running' : a ≠ .close := (List.ne_of_not_mem_cons running).symm
    have later : .close ∉ acts := List.not_mem_of_not_mem_cons running
    obtain ⟨still, counted⟩ := ih (isOpen_act isOpen running') later
    refine ⟨still, ?_⟩
    rw [run, counted, published_act isOpen, notices_cons running' _ acts, List.length_append,
      Nat.add_assoc]

end Count

end Forum

end BuildSupervisor
