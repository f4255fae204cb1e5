import BuildSupervisor.Proofs.Event.Forum
/-!
# The backlog of one listener

A `Backlog` is what one listener of a forum has not read, kept for it alone: nothing that others ask
enters into it.  `Forum.backlog?` finds it in the forum, and `Forum.backlog?_run` says that a
listener is answered from its backlog, whatever is done on the forum, and in whatever order.
-/

namespace BuildSupervisor

open EventBus (Question Reply)

/-- What is kept for a listener of all that it has not read: the newest, as many as the bus
    keeps. -/
def retained (unread : List Notification) : List Notification :=
  unread.drop (unread.length - eventCapacity)

theorem length_retained {unread : List Notification} (lost : eventCapacity ≤ unread.length) :
    (retained unread).length = eventCapacity := by
  rw [retained, List.length_drop, Nat.sub_sub_self lost]

theorem retained_of_few {unread : List Notification} (few : unread.length ≤ eventCapacity) :
    retained unread = unread := by
  rw [retained, Nat.sub_eq_zero_of_le few, List.drop_zero]

/-- What one listener has not read, lost notifications among it, and what is known of the bus. -/
structure Backlog where
  unread : List Notification
  /-- How many notifications there have been. -/
  published : Nat
  closed : Bool

namespace Backlog

/-- What an act publishes. -/
def news (m : Backlog) : Forum.Act → List Notification
  | .publish id event => if m.closed then [] else [⟨m.published + 1, id, event⟩]
  | _ => []

/-- Takes note of what is published. -/
def hear (m : Backlog) (news : List Notification) : Backlog :=
  { m with unread := m.unread ++ news, published := m.published + news.length }

/-- Answers the listener. -/
def ask (m : Backlog) (q : Question) : Reply × Backlog :=
  (q.answer eventCapacity m.closed m.unread).map id fun unread => { m with unread }

/-- What becomes of the backlog of the listener of number `i`. -/
def act (i : Nat) (m : Backlog) : Forum.Act → Backlog
  | .publish id event => m.hear (m.news (.publish id event))
  | .ask j q => if j = i then (m.ask q).2 else m
  | .close => { m with closed := true }
  | .listen => m
  | .leave _ => m

/-- What the listener is answered. -/
def reply? (i : Nat) (m : Backlog) : Forum.Act → Option Reply
  | .ask j q => if j = i then some (m.ask q).1 else none
  | _ => none

def run (i : Nat) (m : Backlog) : List Forum.Act → Backlog
  | [] => m
  | a :: acts => run i (m.act i a) acts

def replies (i : Nat) (m : Backlog) : List Forum.Act → List Reply
  | [] => []
  | a :: acts => (m.reply? i a).toList ++ replies i (m.act i a) acts

/-- What is yet to be published in a run. -/
def coming (m : Backlog) (acts : List Forum.Act) : List Notification :=
  if m.closed then [] else Forum.notices m.published acts

/-- The acts that make a difference to the listener of number `i`. -/
def Matters (i : Nat) : Forum.Act → Bool
  | .publish _ _ | .close => true
  | .ask j _ => j = i
  | .listen | .leave _ => false

variable {m : Backlog} {i : Nat}

theorem hear_nil (m : Backlog) : m.hear [] = m := by
  rw [hear, List.append_nil, List.length_nil, Nat.add_zero]

theorem news_of_closed (closed : m.closed = true) (a : Forum.Act) : m.news a = [] := by
  cases a with
  | publish id event => exact if_pos closed
  | listen | leave | ask | close => rfl

theorem news_publish (isOpen : m.closed = false) (id : BuildId) (event : Event) :
    m.news (.publish id event) = [⟨m.published + 1, id, event⟩] := by
  rw [news, isOpen]
  rfl

theorem news_ask (m : Backlog) (j : Nat) (q : Question) : m.news (.ask j q) = [] :=
  rfl

theorem ask_of_overrun (lost : eventCapacity < m.unread.length) (q : Question) :
    m.ask q = (q.overrun (m.unread.length - eventCapacity),
      { m with unread := retained m.unread }) := by
  rw [ask, Question.answer, if_pos lost]
  rfl

theorem ask_of_few (few : m.unread.length ≤ eventCapacity) (q : Question) :
    m.ask q = (q.heard m.closed m.unread).map id fun unread => { m with unread } := by
  rw [ask, Question.answer, if_neg (Nat.not_lt_of_le few)]

theorem act_of_not_matters {a : Forum.Act} (h : Matters i a = false) :
    m.act i a = m ∧ m.reply? i a = none := by
  cases a with
  | publish id event => cases h
  | listen => exact ⟨rfl, rfl⟩
  | leave j => exact ⟨rfl, rfl⟩
  | ask j q =>
    have other : j ≠ i := of_decide_eq_false h
    rw [act, reply?, if_neg other, if_neg other]
    exact ⟨rfl, rfl⟩
  | close => cases h

/-- What others do makes no difference. -/
theorem run_filter (m : Backlog) (i : Nat) (acts : List Forum.Act) :
    m.run i (acts.filter (Matters i)) = m.run i acts ∧
      m.replies i (acts.filter (Matters i)) = m.replies i acts := by
  induction acts generalizing m with
  | nil => exact ⟨rfl, rfl⟩
  | cons a acts ih =>
    by_cases h : Matters i a = true
    · rw [List.filter_cons_of_pos h]
      obtain ⟨same, answers⟩ := ih (m.act i a)
      exact ⟨same, congrArg ((m.reply? i a).toList ++ ·) answers⟩
    · obtain ⟨still, silent⟩ := act_of_not_matters (m := m) (Bool.eq_false_iff.mpr h)
      rw [List.filter_cons_of_neg h, run, replies, still, silent]
      exact ih m

theorem reply?_of_other {a : Forum.Act} (h : a.asker? ≠ some i) : m.reply? i a = none := by
  cases a with
  | ask j q => exact if_neg fun same => h (congrArg some same)
  | publish | listen | leave | close => rfl

/-- What is published adds to what is unread, and only an answer takes from it. -/
theorem unread_act {a : Forum.Act} (h : a.asker? ≠ some i) :
    (m.act i a).unread = m.unread ++ m.news a := by
  cases a with
  | ask j q =>
    have other : j ≠ i := fun same => h (congrArg some same)
    rw [act, if_neg other]
    exact (List.append_nil _).symm
  | publish id event => rfl
  | listen | leave | close => exact (List.append_nil _).symm

theorem closed_act (a : Forum.Act) :
    (m.act i a).closed = true ↔ m.closed = true ∨ a = .close := by
  cases a with
  | ask j q =>
    rw [act]
    split
    · simp [ask]
    · simp
  | close => simp [act]
  | publish | listen | leave => simp [act, hear]

theorem closed_run (acts : List Forum.Act) :
    (m.run i acts).closed = true ↔ m.closed = true ∨ .close ∈ acts := by
  induction acts generalizing m with
  | nil => simp [run]
  | cons a acts ih => rw [run, ih, closed_act, List.mem_cons, or_assoc, eq_comm (a := a)]

theorem coming_of_closed (closed : m.closed = true) (acts : List Forum.Act) :
    m.coming acts = [] :=
  if_pos closed

theorem coming_of_open (isOpen : m.closed = false) (acts : List Forum.Act) :
    m.coming acts = Forum.notices m.published acts := by
  rw [coming, isOpen]
  rfl

theorem coming_nil (m : Backlog) : m.coming [] = [] := by
  unfold coming
  split <;> rfl

theorem coming_cons (i : Nat) (m : Backlog) (a : Forum.Act) (acts : List Forum.Act) :
    m.coming (a :: acts) = m.news a ++ (m.act i a).coming acts := by
  cases closed : m.closed with
  | true =>
    have still : (m.act i a).closed = true := (closed_act a).mpr (.inl closed)
    rw [coming_of_closed closed, coming_of_closed still, news_of_closed closed]
    rfl
  | false =>
    rw [coming_of_open closed]
    cases a with
    | publish id event =>
      rw [act, news_publish closed, coming_of_open (by exact closed)]
      rfl
    | listen | leave =>
      rw [act, coming_of_open (by exact closed)]
      rfl
    | ask j q =>
      rw [act]
      split <;> rw [coming_of_open (by exact closed)] <;> rfl
    | close => rfl

/-- What a listener has not read that does not ask. -/
theorem unread_run_of_silent {acts : List Forum.Act} (h : ∀ a ∈ acts, a.asker? ≠ some i) :
    (m.run i acts).unread = m.unread ++ m.coming acts := by
  induction acts generalizing m with
  | nil => rw [run, coming_nil, List.append_nil]
  | cons a acts ih =>
    obtain ⟨silent, later⟩ := List.forall_mem_cons.mp h
    rw [run, ih later, unread_act silent, List.append_assoc, ← coming_cons]

end Backlog

namespace Forum

/-- The backlog of one that has read so far. -/
def backlogAt (f : Forum) (cursor : Cursor) : Backlog :=
  ⟨f.bus.channel.unread cursor, f.bus.published, f.bus.channel.closed⟩

/-- The backlog of a listener that has not been let go. -/
def backlog? (f : Forum) (i : Nat) : Option Backlog :=
  (f.cursor? i).map f.backlogAt

variable {f : Forum} {i : Nat} {m : Backlog}

theorem backlog?_eq_some :
    f.backlog? i = some m ↔ ∃ cursor, f.cursor? i = some cursor ∧ f.backlogAt cursor = m :=
  Option.map_eq_some_iff

theorem backlog?_of_unread? {unread : List Notification} (h : f.unread? i = some unread) :
    f.backlog? i = some ⟨unread, f.bus.published, f.bus.channel.closed⟩ := by
  obtain ⟨cursor, there, rfl⟩ := Option.map_eq_some_iff.mp h
  exact backlog?_eq_some.mpr ⟨cursor, there, rfl⟩

theorem closed_of_backlog? (h : f.backlog? i = some m) : f.bus.channel.closed = m.closed := by
  obtain ⟨cursor, _, rfl⟩ := backlog?_eq_some.mp h
  rfl

theorem unread?_of_backlog? (h : f.backlog? i = some m) : f.unread? i = some m.unread := by
  obtain ⟨cursor, there, rfl⟩ := backlog?_eq_some.mp h
  exact Option.map_eq_some_iff.mpr ⟨cursor, there, rfl⟩

/-- Someone listens, so that a thrifty forum keeps what is published. -/
theorem publish_eq (sound : f.Sound) (isOpen : f.bus.channel.closed = false) {cursor : Cursor}
    (there : f.cursor? i = some cursor) (id : BuildId) (event : Event) :
    f.publish id event = { f with bus := f.bus.publish id event } := by
  have mem := List.mem_of_getElem? (cursor?_eq_some.mp there)
  have audience : 0 < f.bus.channel.readers := by
    rw [sound.counted]
    exact List.countP_pos_iff.mpr ⟨_, mem, rfl⟩
  have kept : ¬(f.thrifty && f.bus.channel.readers = 0) = true := by
    simp [Nat.ne_of_gt audience]
  rw [publish, if_neg (Bool.eq_false_iff.mp isOpen), if_neg kept]

theorem backlogAt_publish (sound : f.Sound) {cursor : Cursor} (there : f.cursor? i = some cursor)
    (id : BuildId) (event : Event) :
    (f.publish id event).backlogAt cursor =
      (f.backlogAt cursor).hear ((f.backlogAt cursor).news (.publish id event)) := by
  cases closed : f.bus.channel.closed with
  | true =>
    have same : f.publish id event = f := if_pos closed
    rw [same, Backlog.news_of_closed (by exact closed), Backlog.hear_nil]
  | false =>
    have longer := Channel.unread_send (f.bus.announce id event) closed (sound.bound there)
    rw [publish_eq sound closed there, Backlog.news_publish (by exact closed)]
    simp only [backlogAt, Backlog.hear, EventBus.publish, longer, Channel.closed_send]
    rfl

/-- A listener is answered from its backlog. -/
theorem ask_eq (sound : f.Sound) (present : f.backlog? i = some m) (q : Question) :
    (f.act (.ask i q)).1 = some (m.ask q).1 ∧
      (f.act (.ask i q)).2.backlog? i = some (m.ask q).2 := by
  obtain ⟨cursor, there, rfl⟩ := backlog?_eq_some.mp present
  have answers := EventBus.answers_ask (sound.bound there) q
  rw [sound.ring] at answers
  have place := (List.getElem?_eq_some_iff.mp (cursor?_eq_some.mp there)).1
  rw [act, there]
  constructor
  · exact congrArg some answers.reply
  · refine backlog?_eq_some.mpr ⟨_, cursor?_eq_some.mpr (List.getElem?_set_self place), ?_⟩
    simp only [backlogAt, Backlog.ask, answers.unread, Prod.map]

/-- A listener reads where it did when only the place of another has changed. -/
theorem cursor?_set {g : Forum} {j : Nat} {listener : Option Cursor}
    (set : g.listeners = f.listeners.set j listener) (other : j ≠ i) :
    g.cursor? i = f.cursor? i := by
  rw [cursor?, cursor?, set, List.getElem?_set_ne other]

/-- What becomes of a listener that is not let go. -/
theorem backlog?_act (sound : f.Sound) (present : f.backlog? i = some m) {a : Act}
    (stays : a ≠ .leave i) : (f.act a).2.backlog? i = some (m.act i a) := by
  obtain ⟨cursor, there, rfl⟩ := backlog?_eq_some.mp present
  cases a with
  | publish id event =>
    have kept : (f.publish id event).cursor? i = some cursor := by
      rw [← there]
      unfold publish
      split
      · rfl
      · split <;> rfl
    exact backlog?_eq_some.mpr ⟨cursor, kept, backlogAt_publish sound there id event⟩
  | listen =>
    cases closed : f.bus.channel.closed with
    | true =>
      rw [act, listen_of_closed closed]
      exact present
    | false =>
      rw [act, listen_eq closed]
      have place := (List.getElem?_eq_some_iff.mp (cursor?_eq_some.mp there)).1
      refine backlog?_eq_some.mpr ⟨cursor, cursor?_eq_some.mpr ?_, rfl⟩
      exact (List.getElem?_append_left place).trans (cursor?_eq_some.mp there)
  | leave j =>
    have other : j ≠ i := fun same => stays (congrArg Act.leave same)
    rw [act]
    split
    · exact backlog?_eq_some.mpr ⟨cursor, (cursor?_set rfl other).trans there, rfl⟩
    · exact present
  | ask j q =>
    by_cases mine : j = i
    · subst mine
      rw [Backlog.act, if_pos rfl]
      exact (ask_eq sound present q).2
    · rw [Backlog.act, if_neg mine, act]
      split
      · exact backlog?_eq_some.mpr ⟨cursor, (cursor?_set rfl mine).trans there, rfl⟩
      · exact present
  | close => exact backlog?_eq_some.mpr ⟨cursor, there, rfl⟩

/-- What a listener is answered that is not let go. -/
theorem reply?_act (sound : f.Sound) (present : f.backlog? i = some m) (a : Act) :
    (if a.asker? = some i then (f.act a).1.toList else []) = (m.reply? i a).toList := by
  obtain ⟨cursor, there, rfl⟩ := backlog?_eq_some.mp present
  cases a with
  | ask j q =>
    by_cases mine : j = i
    · subst mine
      rw [Act.asker?, if_pos rfl, (ask_eq sound present q).1, Backlog.reply?, if_pos rfl]
    · rw [Act.asker?, if_neg fun same => mine (Option.some.inj same), Backlog.reply?, if_neg mine]
      rfl
  | publish | listen | leave | close => rfl

/-- Whatever is done, a listener that is not let go has the backlog that it would have alone, and
    is answered from it. -/
theorem backlog?_run (sound : f.Sound) (present : f.backlog? i = some m) {acts : List Act}
    (stays : .leave i ∉ acts) :
    (f.run acts).backlog? i = some (m.run i acts) ∧ f.repliesTo i acts = m.replies i acts := by
  induction acts generalizing f m with
  | nil => exact ⟨present, rfl⟩
  | cons a acts ih =>
    have stays' : a ≠ .leave i := (List.ne_of_not_mem_cons stays).symm
    have later : .leave i ∉ acts := List.not_mem_of_not_mem_cons stays
    obtain ⟨backlog, replies⟩ := ih (sound.act a) (backlog?_act sound present stays') later
    rw [repliesTo, Backlog.replies, replies, reply?_act sound present]
    exact ⟨backlog, rfl⟩

/-- A listener that has just been admitted has all before it. -/
theorem backlog?_listen (isOpen : f.bus.channel.closed = false) :
    f.listen.backlog? f.listeners.length = some ⟨[], f.bus.published, false⟩ := by
  rw [listen_eq isOpen]
  refine backlog?_eq_some.mpr ⟨_, cursor?_eq_some.mpr List.getElem?_concat_length, ?_⟩
  simp only [backlogAt, Channel.unread, List.drop_length, isOpen]

end Forum

end BuildSupervisor
