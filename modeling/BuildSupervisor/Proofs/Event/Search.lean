import BuildSupervisor.Proofs.Event.Backlog
/-!
# The search for a result

A listener that looks for the result of a build passes over all else.  `Finds` says what comes of
it where nothing was lost, and `Forum.searches` that this is what every listener of a forum gets.
A search that is given up and taken up again comes to the same as one that begins late
(`Backlog.outcome_replies`): what was passed over before is no result, so that nothing is missed.
-/

namespace BuildSupervisor

open EventBus (Question Reply)

/-- The notification tells the result of the build of that number. -/
def Notification.IsResultOf (id : BuildId) (n : Notification) : Prop :=
  n.buildId = id ∧ ∃ result, n.event = .completed result

theorem Notification.completes_iff_isResultOf {n : Notification} {id : BuildId} :
    n.completes id = true ↔ n.IsResultOf id := by
  unfold completes IsResultOf
  cases n.event <;> simp

/-- What comes of looking for a result among `unread`: the reply, and what is left unread. -/
inductive Finds (id : BuildId) (closed : Bool) :
    List Notification → Reply → List Notification → Prop where
  /-- The first result is found, and what was published behind it is left. -/
  | found {passed rest : List Notification} {n : Notification}
      (others : ∀ other ∈ passed, ¬other.IsResultOf id) (result : n.IsResultOf id) :
      Finds id closed (passed ++ n :: rest) (.told (.ok (some n))) rest
  /-- There is none, and nothing is left. -/
  | absent {unread : List Notification} (others : ∀ other ∈ unread, ¬other.IsResultOf id) :
      Finds id closed unread (.told (EventBus.silence closed)) []

/-! ## Looking for a result -/

section Heard

variable {id : BuildId} {closed : Bool} {passed unread rest : List Notification} {n : Notification}

theorem heard_append (others : ∀ other ∈ passed, ¬other.IsResultOf id)
    (unread : List Notification) :
    Question.heard closed (passed ++ unread) (.completionOf id) =
      Question.heard closed unread (.completionOf id) := by
  induction passed with
  | nil => rfl
  | cons other passed ih =>
    obtain ⟨first, later⟩ := List.forall_mem_cons.mp others
    have passedOver : ¬other.completes id = true :=
      fun completes => first (Notification.completes_iff_isResultOf.mp completes)
    rw [List.cons_append, EventBus.heard_completionOf_cons passedOver]
    exact ih later

theorem heard_of_result (result : n.IsResultOf id) (rest : List Notification) :
    Question.heard closed (n :: rest) (.completionOf id) = (.told (.ok (some n)), rest) := by
  have completes := Notification.completes_iff_isResultOf.mpr result
  simp only [Question.heard, List.dropWhile_cons, completes, Bool.not_true, Bool.false_eq_true,
    if_false]

/-- What comes of a search is determined by what is searched. -/
theorem Finds.heard_eq {reply : Reply} {left : List Notification}
    (h : Finds id closed unread reply left) :
    Question.heard closed unread (.completionOf id) = (reply, left) := by
  cases h with
  | found others result => rw [heard_append others, heard_of_result result]
  | absent others =>
    rw [← List.append_nil unread, heard_append others]
    rfl

theorem Finds.isResultOf {reply : Reply} {left : List Notification}
    (h : Finds id closed unread reply left) (told : reply = .told (.ok (some n))) :
    n.IsResultOf id := by
  cases h with
  | found _ result =>
    cases told
    exact result
  | absent _ => cases closed <;> cases told

theorem finds_heard (id : BuildId) (closed : Bool) (unread : List Notification) :
    Finds id closed unread (Question.heard closed unread (.completionOf id)).1
      (Question.heard closed unread (.completionOf id)).2 := by
  induction unread with
  | nil => exact .absent nofun
  | cons n rest ih =>
    by_cases result : n.IsResultOf id
    · rw [heard_of_result result]
      exact @Finds.found id closed [] rest n nofun result
    · have others : ∀ other ∈ [n], ¬other.IsResultOf id := by simpa using result
      have same : Question.heard closed (n :: rest) (.completionOf id) =
          Question.heard closed rest (.completionOf id) := heard_append others rest
      rw [same]
      generalize Question.heard closed rest (.completionOf id) = outcome at ih
      obtain ⟨reply, left⟩ := outcome
      dsimp only at ih
      cases ih with
      | @found passed left n' others' result' =>
        have others : ∀ other ∈ n :: passed, ¬other.IsResultOf id :=
          List.forall_mem_cons.mpr ⟨result, others'⟩
        exact @Finds.found id closed (n :: passed) left n' others result'
      | absent others' => exact .absent (List.forall_mem_cons.mpr ⟨result, others'⟩)

end Heard

/-! ## A search that is taken up again -/

/-- What comes of asking until there is an answer. -/
def outcome : List Reply → Reply
  | [] => .told (.ok none)
  | .told (.ok none) :: replies => outcome replies
  | reply :: _ => reply

/-- Nothing is reported as lost. -/
def NoLag (replies : List Reply) : Prop :=
  ∀ n, .told (.error (.lagged n)) ∉ replies

/-- A listener that does nothing but look for the result of one build. -/
def Seeks (i : Nat) (id : BuildId) (acts : List Forum.Act) : Prop :=
  ∀ q, .ask i q ∈ acts → q = .completionOf id

theorem outcome_singleton (reply : Reply) : outcome [reply] = reply := by
  cases reply with
  | handed ns => rfl
  | told told =>
    cases told with
    | error e => rfl
    | ok found => cases found <;> rfl

/-- What a search has passed over makes no difference to the searches after it. -/
theorem outcome_cons {id : BuildId} {closed closed' : Bool} {unread left more : List Notification}
    {reply : Reply} {replies : List Reply} (finds : Finds id closed unread reply left)
    (ended : closed = true → closed' = true ∧ more = [])
    (rest : outcome replies = (Question.heard closed' (left ++ more) (.completionOf id)).1) :
    outcome (reply :: replies) =
      (Question.heard closed' (unread ++ more) (.completionOf id)).1 := by
  cases finds with
  | found others result =>
    rw [List.append_assoc, List.cons_append, heard_append others, heard_of_result result]
    rfl
  | absent others =>
    rw [heard_append others]
    cases closed with
    | false => exact rest
    | true =>
      obtain ⟨rfl, rfl⟩ := ended rfl
      rfl

theorem NoLag.tail {reply : Reply} {replies : List Reply} (h : NoLag (reply :: replies)) :
    NoLag replies :=
  fun n mem => h n (List.mem_cons_of_mem reply mem)

namespace Backlog

variable {m : Backlog} {i : Nat} {id : BuildId}

theorem finds_ask (few : m.unread.length ≤ eventCapacity) :
    Finds id m.closed m.unread (m.ask (.completionOf id)).1
      (m.ask (.completionOf id)).2.unread := by
  rw [ask_of_few few]
  exact finds_heard id m.closed m.unread

theorem few_of_noLag {replies : List Reply}
    (h : NoLag ((m.ask (.completionOf id)).1 :: replies)) : m.unread.length ≤ eventCapacity := by
  refine Nat.le_of_not_lt fun lost => h (m.unread.length - eventCapacity) ?_
  rw [ask_of_overrun lost]
  exact List.mem_cons_self

/-- A search that is given up and taken up again, and reports no loss, comes to what a search comes
    to that begins when all has been published. -/
theorem outcome_replies {acts : List Forum.Act} (seeks : Seeks i id acts)
    (noLag : NoLag (m.replies i (acts ++ [.ask i (.completionOf id)]))) :
    outcome (m.replies i (acts ++ [.ask i (.completionOf id)])) =
      (Question.heard (m.run i acts).closed (m.unread ++ m.coming acts) (.completionOf id)).1 := by
  induction acts generalizing m with
  | nil =>
    rw [List.nil_append, replies, reply?, if_pos rfl] at noLag ⊢
    have few := few_of_noLag noLag
    rw [coming_nil, List.append_nil, run, ask_of_few few]
    exact outcome_singleton _
  | cons a acts ih =>
    have later : Seeks i id acts := fun q mem => seeks q (List.mem_cons_of_mem a mem)
    rw [List.cons_append, replies] at noLag ⊢
    rw [run, coming_cons i, ← List.append_assoc]
    by_cases mine : a.asker? = some i
    · cases a with
      | ask j q =>
        obtain rfl : j = i := Option.some.inj mine
        obtain rfl := seeks q List.mem_cons_self
        rw [reply?, if_pos rfl, act, if_pos rfl] at noLag ⊢
        have few := few_of_noLag noLag
        rw [news_ask, List.append_nil]
        refine outcome_cons (finds_ask few) ?_ (ih later noLag.tail)
        intro ended
        have still : (m.ask (.completionOf id)).2.closed = true := ended
        exact ⟨(closed_run acts).mpr (.inl still), coming_of_closed still acts⟩
      | publish | listen | leave | close => cases mine
    · rw [reply?_of_other mine] at noLag ⊢
      rw [← unread_act mine]
      exact ih later noLag

end Backlog

namespace Forum

/-- The acts but those that a listener asks. -/
def silenced (i : Nat) (acts : List Act) : List Act :=
  acts.filter fun a => a.asker? ≠ some i

theorem notices_silenced (i count : Nat) (acts : List Act) :
    notices count (silenced i acts) = notices count acts := by
  induction acts generalizing count with
  | nil => rfl
  | cons a acts ih =>
    by_cases mine : a.asker? = some i
    · have gone : silenced i (a :: acts) = silenced i acts :=
        List.filter_cons_of_neg (by simpa using mine)
      cases a with
      | ask j q =>
        rw [gone]
        exact ih count
      | publish | listen | leave | close => cases mine
    · have kept : silenced i (a :: acts) = a :: silenced i acts :=
        List.filter_cons_of_pos (by simpa using mine)
      rw [kept]
      cases a with
      | publish id event => exact congrArg (⟨count + 1, id, event⟩ :: ·) (ih (count + 1))
      | listen | leave | ask => exact ih count
      | close => rfl

theorem asker?_of_mem_silenced {i : Nat} {acts : List Act} {a : Act} (h : a ∈ silenced i acts) :
    a ∈ acts ∧ a.asker? ≠ some i := by
  simpa [silenced] using h

end Forum

namespace Backlog

variable {m : Backlog} {i : Nat}

theorem coming_silenced (acts : List Forum.Act) :
    m.coming (Forum.silenced i acts) = m.coming acts := by
  rw [coming, coming, Forum.notices_silenced]

theorem closed_run_silenced (acts : List Forum.Act) :
    (m.run i (Forum.silenced i acts)).closed = (m.run i acts).closed := by
  have kept : .close ∈ Forum.silenced i acts ↔ .close ∈ acts := by
    simp [Forum.silenced, Forum.Act.asker?]
  rw [Bool.eq_iff_iff, closed_run, closed_run, kept]

end Backlog

namespace Forum

/-- What is answered to the listener of number `i`, that has not read `unread`, when it looks for
    the result of a build. -/
structure Searches (f : Forum) (i : Nat) (id : BuildId) (unread : List Notification) : Prop where
  kept : unread.length ≤ eventCapacity →
    ∃ reply left, (f.act (.ask i (.completionOf id))).1 = some reply ∧
      (f.act (.ask i (.completionOf id))).2.unread? i = some left ∧
      Finds id f.bus.channel.closed unread reply left
  lagged : eventCapacity < unread.length →
    (f.act (.ask i (.completionOf id))).1 =
        some (.told (.error (.lagged (unread.length - eventCapacity)))) ∧
      (f.act (.ask i (.completionOf id))).2.unread? i = some (retained unread) ∧
      ∃ reply left,
        ((f.act (.ask i (.completionOf id))).2.act (.ask i (.completionOf id))).1 = some reply ∧
        ((f.act (.ask i (.completionOf id))).2.act (.ask i (.completionOf id))).2.unread? i =
          some left ∧
        Finds id f.bus.channel.closed (retained unread) reply left
  /-- Nothing but a result of that build is found. -/
  own : ∀ n, (f.act (.ask i (.completionOf id))).1 = some (.told (.ok (some n))) → n.IsResultOf id
  /-- Where nothing is lost, asking from time to time comes to what asking once comes to, when all
      has been published. -/
  split : ∀ acts, .leave i ∉ acts → Seeks i id acts →
    ∃ reply, ((f.run (silenced i acts)).act (.ask i (.completionOf id))).1 = some reply ∧
      (NoLag (f.repliesTo i (acts ++ [.ask i (.completionOf id)])) → NoLag [reply] →
        outcome (f.repliesTo i (acts ++ [.ask i (.completionOf id)])) = reply)

theorem searches_of_backlog {f : Forum} {i : Nat} {m : Backlog} (sound : f.Sound)
    (present : f.backlog? i = some m) (id : BuildId) : f.Searches i id m.unread := by
  have closed := closed_of_backlog? present
  obtain ⟨reply, next⟩ := ask_eq sound present (.completionOf id)
  constructor
  case kept =>
    intro few
    rw [closed]
    exact ⟨_, _, reply, unread?_of_backlog? next, Backlog.finds_ask few⟩
  case lagged =>
    intro lost
    have length := length_retained (Nat.le_of_lt lost)
    rw [Backlog.ask_of_overrun lost] at reply next
    generalize retained m.unread = newest at length next ⊢
    obtain ⟨reply', next'⟩ := ask_eq (sound.act _) next (.completionOf id)
    refine ⟨reply, unread?_of_backlog? next, _, _, reply', unread?_of_backlog? next', ?_⟩
    rw [closed]
    exact Backlog.finds_ask (m := { m with unread := newest }) (Nat.le_of_eq length)
  case own =>
    intro n told
    rw [reply] at told
    have found := Option.some.inj told
    rcases Nat.lt_or_ge eventCapacity m.unread.length with lost | few
    · rw [Backlog.ask_of_overrun lost] at found
      cases found
    · exact (Backlog.finds_ask few).isResultOf found
  case split =>
    intro acts stays seeks
    have silent : ∀ a ∈ silenced i acts, a.asker? ≠ some i :=
      fun a mem => (asker?_of_mem_silenced mem).2
    have stays' : .leave i ∉ silenced i acts := fun mem => stays (asker?_of_mem_silenced mem).1
    have stays'' : .leave i ∉ acts ++ [.ask i (.completionOf id)] := by simpa using stays
    obtain ⟨once, _⟩ := backlog?_run sound present stays'
    obtain ⟨_, often⟩ := backlog?_run sound present stays''
    refine ⟨_, (ask_eq (sound.run _) once (.completionOf id)).1, ?_⟩
    intro noLag noLag'
    rw [often] at noLag ⊢
    have same := Backlog.closed_run_silenced (m := m) (i := i) acts
    rw [Backlog.outcome_replies seeks noLag, Backlog.ask_of_few (Backlog.few_of_noLag noLag'),
      Backlog.unread_run_of_silent silent, Backlog.coming_silenced, same]
    rfl

/-- Whatever has been done on a forum, this is how a listener finds the result of a build. -/
theorem searches (thrifty : Bool) (before : List Act) {i : Nat} {unread : List Notification}
    (present : ((opened thrifty).run before).unread? i = some unread) (id : BuildId) :
    ((opened thrifty).run before).Searches i id unread :=
  searches_of_backlog (sound_reached thrifty before) (backlog?_of_unread? present) id

/-- The result of a build that was announced behind the result of another. -/
theorem searches_behind_other :
    let result : BuildResult := ⟨"a.c", [], []⟩
    let f := (opened true).run [.listen, .publish 1 .started, .publish 2 (.completed result),
      .publish 1 (.completed result), .publish 1 .started]
    f.unread? 0 = some [⟨1, 1, .started⟩, ⟨2, 2, .completed result⟩, ⟨3, 1, .completed result⟩,
        ⟨4, 1, .started⟩] ∧
      (f.act (.ask 0 (.completionOf 1))).1 =
        some (.told (.ok (some ⟨3, 1, .completed result⟩))) ∧
      (f.act (.ask 0 (.completionOf 1))).2.unread? 0 = some [⟨4, 1, .started⟩] := by
  intro result f
  have present : f.unread? 0 = some [⟨1, 1, .started⟩, ⟨2, 2, .completed result⟩,
    ⟨3, 1, .completed result⟩, ⟨4, 1, .started⟩] := rfl
  obtain ⟨reply, left, told, rest, finds⟩ := (searches true _ present 1).kept (by decide)
  have found : (.told (.ok (some ⟨3, 1, .completed result⟩)), [⟨4, 1, .started⟩]) = (reply, left) :=
    finds.heard_eq
  obtain ⟨rfl, rfl⟩ := Prod.mk.inj found
  exact ⟨present, told, rest⟩

end Forum

end BuildSupervisor
