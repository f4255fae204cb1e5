import BuildSupervisor.Proofs.Event.Backlog
/-!
# Every notification is accounted for

A listener that polls is given notifications, and told how many it has lost.  The two make up all
that has been published since it was admitted, up to what it has not read yet: so the number of the
next notification is known from what the listener was answered, and `Forum.accounts` says when it
is given, and what is answered where it is not.
-/

namespace BuildSupervisor

open EventBus (Question Reply)

namespace EventBus.Reply

/-- The notifications that a listener gets with a reply. -/
def given : Reply → List Notification
  | .told (.ok (some n)) => [n]
  | .told _ => []
  | .handed ns => ns

/-- How many notifications are reported as lost. -/
def lost : Reply → Nat
  | .told (.error (.lagged n)) => n
  | _ => 0

end EventBus.Reply

/-- All notifications that a listener got with its replies. -/
def allGiven (replies : List Reply) : List Notification :=
  replies.flatMap Reply.given

/-- How many notifications were reported as lost, in all. -/
def allLost : List Reply → Nat
  | [] => 0
  | reply :: replies => reply.lost + allLost replies

/-! ## What is given and what is lost -/

/-- Of `all` notifications some were given and the others lost, up to those that are left. -/
structure Settles (all : List Notification) (replies : List Reply) (left : List Notification) :
    Prop where
  among : (allGiven replies).Sublist all
  within : (allGiven replies).length + allLost replies ≤ all.length
  left : left = all.drop ((allGiven replies).length + allLost replies)
  /-- What is given is the first behind what was given and lost before. -/
  first : ∀ earlier n later, replies = earlier ++ .told (.ok (some n)) :: later →
    (all.drop ((allGiven earlier).length + allLost earlier)).head? = some n

theorem settles_nil (all : List Notification) : Settles all [] all where
  among := List.nil_sublist all
  within := Nat.zero_le _
  left := rfl
  first _ _ _ none_ := absurd none_.symm (List.append_ne_nil_of_right_ne_nil _ nofun)

section Step

variable {unread rest : List Notification} {reply : Reply}

theorem allGiven_cons (reply : Reply) (replies : List Reply) :
    allGiven (reply :: replies) = reply.given ++ allGiven replies :=
  List.flatMap_cons

theorem whole_eq (split : unread.drop reply.lost = reply.given ++ rest)
    (more : List Notification) :
    unread ++ more = unread.take reply.lost ++ (reply.given ++ (rest ++ more)) := by
  rw [← List.append_assoc reply.given, ← split, ← List.append_assoc, List.take_append_drop]

/-- What comes behind a reply and others comes behind the others, among the rest. -/
theorem drop_cons (lost : reply.lost ≤ unread.length)
    (split : unread.drop reply.lost = reply.given ++ rest) (more : List Notification)
    (replies : List Reply) :
    (unread ++ more).drop ((allGiven (reply :: replies)).length + allLost (reply :: replies)) =
      (rest ++ more).drop ((allGiven replies).length + allLost replies) := by
  have taken : (unread.take reply.lost).length = reply.lost := List.length_take_of_le lost
  have place : (allGiven (reply :: replies)).length + allLost (reply :: replies) =
      (unread.take reply.lost).length +
        (reply.given.length + ((allGiven replies).length + allLost replies)) := by
    rw [allGiven_cons, allLost, List.length_append, taken]
    omega
  rw [whole_eq split more, place, List.drop_length_add_append, List.drop_length_add_append]

/-- A reply gives what is behind the notifications that it reports as lost. -/
theorem Settles.cons {more left : List Notification} {replies : List Reply}
    (h : Settles (rest ++ more) replies left) (lost : reply.lost ≤ unread.length)
    (split : unread.drop reply.lost = reply.given ++ rest) :
    Settles (unread ++ more) (reply :: replies) left := by
  have whole := whole_eq split more
  constructor
  case among =>
    rw [whole, allGiven_cons]
    exact (h.among.append_left reply.given).trans (List.sublist_append_right _ _)
  case within =>
    have within := h.within
    have taken : (unread.take reply.lost).length = reply.lost := List.length_take_of_le lost
    rw [whole, allGiven_cons, allLost, List.length_append, List.length_append,
      List.length_append, taken]
    omega
  case left =>
    rw [drop_cons lost split]
    exact h.left
  case first =>
    intro earlier n later same
    cases earlier with
    | nil =>
      obtain ⟨rfl, _⟩ := List.cons.inj same
      rw [whole]
      rfl
    | cons r earlier =>
      obtain ⟨rfl, others⟩ := List.cons.inj same
      rw [drop_cons lost split]
      exact h.first earlier n later others

end Step

namespace Backlog

variable {m : Backlog} {i : Nat}

/-- What is left behind the lost notifications is given, or left unread. -/
theorem ask_poll (m : Backlog) :
    (m.ask .poll).1.lost ≤ m.unread.length ∧
      m.unread.drop (m.ask .poll).1.lost = (m.ask .poll).1.given ++ (m.ask .poll).2.unread := by
  rcases Nat.lt_or_ge eventCapacity m.unread.length with lost | few
  · rw [ask_of_overrun lost, retained]
    have among := Nat.sub_le m.unread.length eventCapacity
    generalize m.unread.length - eventCapacity = n at among ⊢
    exact ⟨among, rfl⟩
  · rw [ask_of_few few]
    cases m.unread with
    | nil => cases closed : m.closed <;> exact ⟨Nat.le_refl 0, rfl⟩
    | cons n rest => exact ⟨Nat.zero_le _, rfl⟩

/-- A listener that does nothing but poll. -/
def Polls (i : Nat) (acts : List Forum.Act) : Prop :=
  ∀ q, .ask i q ∈ acts → q = .poll

/-- What is answered to a listener that polls accounts for all that has been published to it. -/
theorem settles_run {acts : List Forum.Act} (polls : Polls i acts) :
    Settles (m.unread ++ m.coming acts) (m.replies i acts) (m.run i acts).unread := by
  induction acts generalizing m with
  | nil =>
    rw [coming_nil, List.append_nil]
    exact settles_nil m.unread
  | cons a acts ih =>
    have later : Polls i acts := fun q mem => polls q (List.mem_cons_of_mem a mem)
    have rest := ih (m := m.act i a) later
    rw [coming_cons i, ← List.append_assoc, replies, run]
    by_cases mine : a.asker? = some i
    · cases a with
      | ask j q =>
        obtain rfl : j = i := Option.some.inj mine
        obtain rfl := polls q List.mem_cons_self
        rw [act, if_pos rfl] at rest ⊢
        rw [reply?, if_pos rfl, news_ask, List.append_nil]
        obtain ⟨lost, split⟩ := m.ask_poll
        exact rest.cons lost split
      | publish | listen | leave | close => cases mine
    · rw [unread_act mine] at rest
      rw [reply?_of_other mine]
      exact rest

end Backlog

/-! ## What a poll tells -/

/-- What is told to a listener that has not read `unread`. -/
structure Tells (unread : List Notification) (ended : Prop) (reply : Reply) : Prop where
  given : ∀ n, reply = .told (.ok (some n)) ↔
    unread.length ≤ eventCapacity ∧ unread.head? = some n
  lagged : ∀ n, reply = .told (.error (.lagged n)) ↔
    eventCapacity < unread.length ∧ n = unread.length - eventCapacity
  nothing : reply = .told (.ok none) ↔ unread = [] ∧ ¬ended
  closed : reply = .told (.error .closed) ↔ unread = [] ∧ ended

theorem tells_lost {unread : List Notification} {ended : Prop}
    (lost : eventCapacity < unread.length) :
    Tells unread ended (.told (.error (.lagged (unread.length - eventCapacity)))) := by
  have nonempty : unread ≠ [] := List.ne_nil_of_length_pos (Nat.zero_lt_of_lt lost)
  constructor
  case given => exact fun n => iff_of_false nofun fun kept => absurd kept.1 (Nat.not_le_of_lt lost)
  case lagged =>
    intro n
    constructor
    · intro told
      exact ⟨lost, (ListenError.lagged.inj (Except.error.inj (Reply.told.inj told))).symm⟩
    · rintro ⟨_, isLost⟩
      rw [isLost]
  case nothing => exact iff_of_false nofun fun none_ => nonempty none_.1
  case closed => exact iff_of_false nofun fun none_ => nonempty none_.1

theorem tells_next {n : Notification} {rest : List Notification} {ended : Prop}
    (few : (n :: rest).length ≤ eventCapacity) :
    Tells (n :: rest) ended (.told (.ok (some n))) := by
  constructor
  case given =>
    intro n'
    constructor
    · intro told
      cases told
      exact ⟨few, rfl⟩
    · rintro ⟨_, first⟩
      cases first
      rfl
  case lagged => exact fun _ => iff_of_false nofun fun lost => Nat.not_lt_of_le few lost.1
  case nothing => exact iff_of_false nofun fun none_ => nomatch none_.1
  case closed => exact iff_of_false nofun fun none_ => nomatch none_.1

theorem tells_silence (closed : Bool) :
    Tells [] (closed = true) (.told (EventBus.silence closed)) := by
  cases closed <;> constructor <;> simp [EventBus.silence]

theorem tells_ask (m : Backlog) : Tells m.unread (m.closed = true) (m.ask .poll).1 := by
  rcases Nat.lt_or_ge eventCapacity m.unread.length with lost | few
  · rw [Backlog.ask_of_overrun lost]
    exact tells_lost lost
  · rw [Backlog.ask_of_few few]
    cases unread : m.unread with
    | nil => exact tells_silence m.closed
    | cons n rest =>
      rw [unread] at few
      exact tells_next few

/-- Behind what was lost, the listener goes on with the oldest notification that is kept. -/
theorem resumes_ask {m : Backlog} (lost : eventCapacity < m.unread.length) :
    ∃ n, (retained m.unread).head? = some n ∧
      ((m.ask .poll).2.ask .poll).1 = .told (.ok (some n)) := by
  have length := length_retained (Nat.le_of_lt lost)
  rw [Backlog.ask_of_overrun lost]
  generalize retained m.unread = newest at length ⊢
  rw [Backlog.ask_of_few (by exact Nat.le_of_eq length)]
  cases newest with
  | nil => exact absurd length (by decide)
  | cons n rest => exact ⟨n, rfl, rfl⟩

namespace Forum

/-- Notifications are numbered in the order in which they are published, without a gap. -/
theorem map_sequence_notices (count : Nat) (acts : List Act) :
    (notices count acts).map Notification.sequence =
      List.range' (count + 1) (notices count acts).length := by
  induction acts generalizing count with
  | nil => rfl
  | cons a acts ih =>
    cases a with
    | publish id event =>
      rw [notices, List.map_cons, ih, List.length_cons, List.range'_succ]
    | listen | leave | ask => exact ih count
    | close => rfl

theorem sequence_of_head_drop {count k : Nat} {acts : List Act} {n : Notification}
    (first : ((notices count acts).drop k).head? = some n) : n.sequence = count + k + 1 := by
  rw [List.head?_drop] at first
  obtain ⟨bound, at_⟩ := List.getElem?_eq_some_iff.mp first
  have place := List.getElem_map Notification.sequence (l := notices count acts) (i := k)
    (h := by rwa [List.length_map])
  simp only [map_sequence_notices, List.getElem_range', at_] at place
  omega

/-- What has been published since the listener of number `i` was admitted, which was behind `number`
    others, less what it was given and what was reported to it as lost. -/
def owed (f : Forum) (i number : Nat) (since : List Act) : List Notification :=
  (notices number since).drop
    ((allGiven (f.repliesTo i since)).length + allLost (f.repliesTo i since))

/-- The listener of number `i` was admitted behind `number` notifications, and is answered so. -/
structure Accounts (f : Forum) (i number : Nat) (since : List Act) : Prop where
  within : (allGiven (f.repliesTo i since)).length + allLost (f.repliesTo i since) ≤
    (notices number since).length
  among : (allGiven (f.repliesTo i since)).Sublist (notices number since)
  increasing : ((allGiven (f.repliesTo i since)).map Notification.sequence).Pairwise (· < ·)
  /-- The number of a notification tells what was given and lost before it. -/
  numbered : ∀ earlier n later,
    f.repliesTo i since = earlier ++ .told (.ok (some n)) :: later →
    n.sequence = number + (allGiven earlier).length + allLost earlier + 1
  unread : (f.run since).unread? i = some (f.owed i number since)
  tells : ∃ reply, ((f.run since).act (.ask i .poll)).1 = some reply ∧
    Tells (f.owed i number since) (.close ∈ since) reply
  resumes : eventCapacity < (f.owed i number since).length →
    ((f.run since).act (.ask i .poll)).2.unread? i = some (retained (f.owed i number since)) ∧
      ∃ n, (retained (f.owed i number since)).head? = some n ∧
        (((f.run since).act (.ask i .poll)).2.act (.ask i .poll)).1 = some (.told (.ok (some n)))
  /-- What others ask is not noticed. -/
  alone : f.repliesTo i since = f.repliesTo i (since.filter (Backlog.Matters i)) ∧
    (f.run since).unread? i = (f.run (since.filter (Backlog.Matters i))).unread? i

theorem accounts_of_backlog {f : Forum} {i number : Nat} {since : List Act} (sound : f.Sound)
    (present : f.backlog? i = some ⟨[], number, false⟩) (stays : .leave i ∉ since)
    (polls : Backlog.Polls i since) : f.Accounts i number since := by
  obtain ⟨now, replies⟩ := backlog?_run sound present stays
  have settles := Backlog.settles_run (m := ⟨[], number, false⟩) polls
  rw [List.nil_append, Backlog.coming_of_open rfl, ← replies] at settles
  have ended := Backlog.closed_run (m := ⟨[], number, false⟩) (i := i) since
  generalize isRun : Backlog.run i ⟨[], number, false⟩ since = m at now settles ended
  have left : f.owed i number since = m.unread := settles.left.symm
  obtain ⟨reply, later⟩ := ask_eq (sound.run since) now .poll
  constructor
  case within => exact settles.within
  case among => exact settles.among
  case increasing =>
    refine List.Pairwise.sublist (settles.among.map Notification.sequence) ?_
    rw [map_sequence_notices]
    exact List.pairwise_lt_range'
  case numbered =>
    intro earlier n later same
    rw [sequence_of_head_drop (settles.first earlier n later same), ← Nat.add_assoc number]
  case unread =>
    rw [left]
    exact unread?_of_backlog? now
  case tells =>
    refine ⟨_, reply, ?_⟩
    have gone : m.closed = true ↔ .close ∈ since := by simpa using ended
    rw [left, ← gone]
    exact tells_ask m
  case resumes =>
    intro lost
    rw [left] at lost ⊢
    obtain ⟨n, first, told⟩ := resumes_ask lost
    refine ⟨?_, n, first, ?_⟩
    · rw [unread?_of_backlog? later, Backlog.ask_of_overrun lost]
    · rw [(ask_eq ((sound.run since).act _) later .poll).1, told]
  case alone =>
    have stays' : .leave i ∉ since.filter (Backlog.Matters i) :=
      fun mem => stays (List.mem_of_mem_filter mem)
    obtain ⟨now', replies'⟩ := backlog?_run sound present stays'
    obtain ⟨same, same'⟩ := Backlog.run_filter ⟨[], number, false⟩ i since
    rw [same, isRun] at now'
    constructor
    · rw [replies, replies', same']
    · rw [unread?_of_backlog? now, unread?_of_backlog? now']

/-- A listener that is admitted to a bus and does nothing but poll has every notification accounted
    for, whatever else is done on the bus. -/
theorem accounts (thrifty : Bool) {before since : List Act} (running : .close ∉ before)
    (stays : .leave ((opened thrifty).run before).listeners.length ∉ since)
    (polls : Backlog.Polls ((opened thrifty).run before).listeners.length since) :
    ((opened thrifty).run before).listen.Accounts ((opened thrifty).run before).listeners.length
      (notices 0 before).length since := by
  obtain ⟨isOpen, published⟩ := published_run (f := opened thrifty) rfl running
  have present := backlog?_listen isOpen
  have count : (opened thrifty).bus.published = 0 := rfl
  rw [published, count, Nat.zero_add] at present
  exact accounts_of_backlog (sound_reached thrifty before).listen present stays polls

/-- A listener that is admitted behind one notification that nobody heard, and falls behind. -/
theorem accounts_of_crowd :
    let since := List.replicate 300 (Act.publish 2 .started)
    .close ∉ [Act.publish 1 .started] ∧ .leave 0 ∉ since ∧ Backlog.Polls 0 since ∧
      let f := ((opened true).run [.publish 1 .started]).listen.run since
      (f.act (.ask 0 .poll)).1 = some (.told (.error (.lagged 44))) ∧
        ∃ n, ((f.act (.ask 0 .poll)).2.act (.ask 0 .poll)).1 = some (.told (.ok (some n))) := by
  intro since
  have alike {a : Act} (mem : a ∈ since) : a = .publish 2 .started := List.eq_of_mem_replicate mem
  have running : .close ∉ [Act.publish 1 .started] := by simp
  have stays : .leave 0 ∉ since := fun mem => nomatch alike mem
  have polls : Backlog.Polls 0 since := fun q mem => nomatch alike mem
  have account := accounts true running stays polls
  have owed : (((opened true).run [.publish 1 .started]).listen.owed 0 1 since).length = 300 := by
    have silent : ∀ a ∈ since, a.asker? ≠ some 0 := fun a mem => alike mem ▸ nofun
    have published := length_notices_replicate 1 300 2 .started
    rw [Forum.owed, repliesTo_of_silent silent, List.length_drop, published]
    rfl
  obtain ⟨reply, told, tells⟩ := account.tells
  have lost : eventCapacity < (((opened true).run [.publish 1 .started]).listen.owed 0 1
    since).length := owed ▸ by decide
  refine ⟨running, stays, polls, ?_, ?_⟩
  · exact told.trans (congrArg some ((tells.lagged 44).mpr ⟨lost, owed ▸ rfl⟩))
  · obtain ⟨_, n, _, next⟩ := account.resumes lost
    exact ⟨n, next⟩

end Forum

end BuildSupervisor
