import BuildSupervisor.Proofs.Console.Mailbox
import BuildSupervisor.Proofs.Console.Sifting
/-!
# Every capture is a mailbox

The captures of a hall share one ring, over which each of them reads at its own pace.  What comes
of that for one capture is what comes of a mailbox of its own (`Mirrors.use`, `Hall.mirrors_run`):
the shared ring only limits how many chunks can be unread without a loss.  So what is true of
mailboxes is true of captures, however many there are, and no capture notices the others.
-/

namespace BuildSupervisor

namespace Capture

/-- The capture has read what the mailbox has handed out, and has before it what the mailbox has
    not. -/
structure Mirrors (m : Mailbox) (cap : Capture) (console : Console) : Prop where
  endLines : cap.endLines = m.endLines
  closed : console.closed = m.closed
  published : console.sent = m.published
  subscribed : cap.isSubscribed = m.subscribed
  unread : cap.waiting console = m.unread
  texts : cap.Holds m.held
  bounded : ∀ cursor, cap.subscription = some cursor → cursor.next ≤ console.sent.length

namespace Mirrors

variable {m : Mailbox} {cap cap' : Capture} {console console' : Console}

/-- Who else reads the console is of no account. -/
theorem of_feed (h : Mirrors m cap console) (same : console.SameFeed console') :
    Mirrors m cap console' where
  endLines := h.endLines
  closed := same.closed.trans h.closed
  published := same.sent.trans h.published
  subscribed := h.subscribed
  unread := by
    rw [← h.unread]
    simp only [waiting, Channel.unread, same.sent]
  texts := h.texts
  bounded := by
    rw [same.sent]
    exact h.bounded

theorem gathered_eq (h : Mirrors m cap console) (stream : OutputKind) :
    cap.gathered stream = m.text stream := by
  rw [h.texts stream, h.endLines]
  rfl

/-- Neither the capture nor the mailbox has a subscription, or both have, and the same before
    them. -/
theorem cases (h : Mirrors m cap console) :
    (cap.subscription = none ∧ m.subscribed = false ∧ m.unread = []) ∨
      ∃ cursor, cap.subscription = some cursor ∧ m.subscribed = true ∧
        console.unread cursor = m.unread ∧ cursor.next ≤ console.sent.length := by
  have subscribed := h.subscribed
  have unread := h.unread
  have bounded := h.bounded
  unfold isSubscribed at subscribed
  unfold waiting at unread
  cases there : cap.subscription with
  | none =>
    rw [there] at subscribed unread
    exact .inl ⟨rfl, subscribed.symm, unread.symm⟩
  | some cursor =>
    rw [there] at subscribed unread
    exact .inr ⟨cursor, rfl, subscribed.symm, unread, bounded cursor there⟩

/-- A mailbox leaves nothing open about its capture. -/
theorem eq (h : Mirrors m cap console) :
    cap = ⟨m.endLines,
      if m.subscribed then some ⟨m.published.length - m.unread.length⟩ else none,
      m.text .normal, m.text .error⟩ := by
  have place : cap.subscription =
      if m.subscribed then some ⟨m.published.length - m.unread.length⟩ else none := by
    rcases h.cases with ⟨there, idle, _⟩ | ⟨cursor, there, reading, unread, bound⟩
    · rw [there, idle]
      rfl
    · rw [there, reading, if_pos rfl, ← unread, ← h.published, Channel.unread, List.length_drop,
        Nat.sub_sub_self bound]
  rw [← place, ← h.endLines, ← h.gathered_eq .normal, ← h.gathered_eq .error]
  rfl

theorem new (endLines : Bool) {console : Console} (sent : console.sent = [])
    (isOpen : console.closed = false) :
    Mirrors (Mailbox.new endLines) (Capture.new endLines) console where
  endLines := rfl
  closed := isOpen
  published := sent
  subscribed := rfl
  unread := rfl
  texts := fun stream => by cases stream <;> rfl
  bounded := nofun

/-! ## What happens to the console -/

theorem publish (h : Mirrors m cap console) (c : Chunk) :
    Mirrors (m.publish c) cap (console.send c) := by
  by_cases closed : m.closed = true
  · rw [Mailbox.publish, if_pos closed, Channel.send_of_closed c (h.closed.trans closed)]
    exact h
  · have running : console.closed = false := by simpa only [h.closed, Bool.not_eq_true] using closed
    have longer : (console.send c).sent = console.sent ++ [c] := by
      simp only [Channel.send, running, Bool.false_eq_true, if_false]
    have stillOpen := (Channel.closed_send console c).trans h.closed
    have published : (console.send c).sent = m.published ++ [c] := by
      rw [longer, h.published]
    have bounded : ∀ cursor, cap.subscription = some cursor →
        cursor.next ≤ (console.send c).sent.length := by
      intro cursor there
      rw [longer, List.length_append]
      exact Nat.le_add_right_of_le (h.bounded cursor there)
    rw [Mailbox.publish, if_neg closed]
    rcases h.cases with ⟨there, idle, nothing⟩ | ⟨cursor, there, reading, unread, bound⟩
    · rw [if_neg (by simp [idle])]
      refine ⟨h.endLines, stillOpen, published, h.subscribed, ?_, h.texts, bounded⟩
      simp only [waiting, there, nothing]
    · rw [if_pos reading]
      refine ⟨h.endLines, stillOpen, published, h.subscribed, ?_, h.texts, bounded⟩
      simp only [waiting, there]
      rw [Channel.unread_send c running bound, unread]

theorem close (h : Mirrors m cap console) :
    Mirrors { m with closed := true } cap console.close :=
  ⟨h.endLines, rfl, h.published, h.subscribed, h.unread, h.texts, h.bounded⟩

/-! ## What is asked of the capture -/

theorem leave (h : Mirrors m cap console) :
    Mirrors m.leave { cap with subscription := none } console where
  endLines := h.endLines
  closed := h.closed
  published := h.published
  subscribed := rfl
  unread := rfl
  texts := h.texts
  bounded := nofun

theorem forget (h : Mirrors m cap console) : Mirrors { m with held := [] } cap.clear console where
  endLines := h.endLines
  closed := h.closed
  published := h.published
  subscribed := h.subscribed
  unread := h.unread
  texts := fun stream => by cases stream <;> rfl
  bounded := h.bounded

/-- Only what is before the capture counts, not where it stands. -/
theorem readOn (h : Mirrors m cap console) {next : Cursor} (reading : m.subscribed = true)
    (unread : console.unread next = m.unread) (bound : next.next ≤ console.sent.length) :
    Mirrors m { cap with subscription := some next } console where
  endLines := h.endLines
  closed := h.closed
  published := h.published
  subscribed := reading.symm
  unread := unread
  texts := h.texts
  bounded cursor there := by
    cases there
    exact bound

/-- Some chunks are added, and the capture reads on behind them. -/
theorem handOut (h : Mirrors m cap console) (chunks : List Chunk) {rest : List Chunk}
    {next : Cursor} (reading : m.subscribed = true) (unread : console.unread next = rest)
    (bound : next.next ≤ console.sent.length) :
    Mirrors { m.handOut chunks with unread := rest }
      { cap.pushAll chunks with subscription := some next } console where
  endLines := (endLines_pushAll cap chunks).trans h.endLines
  closed := h.closed
  published := h.published
  subscribed := reading.symm
  unread := unread
  texts := holds_pushAll h.texts chunks
  bounded cursor there := by
    cases there
    exact bound

/-- What a capture replies, and what becomes of it, is what its mailbox says. -/
structure Follows (said : Reply × Mailbox) (after : Reply × Capture × Console) : Prop where
  reply : after.1 = said.1
  mirrors : Mirrors said.2 after.2.1 after.2.2

theorem enrol (h : Mirrors m cap console) : Follows m.enrol (cap.enrol console) := by
  unfold Capture.enrol Mailbox.enrol subscribe?
  rcases h.cases with ⟨there, idle, nothing⟩ | ⟨cursor, there, reading, _, _⟩
  · rw [if_neg (by simp [idle])]
    by_cases closed : m.closed = true
    · simp only [there, Channel.join?, h.closed, closed, if_true, Option.map_none]
      exact ⟨rfl, h⟩
    · have running : console.closed = false := by
        simpa only [h.closed, Bool.not_eq_true] using closed
      rw [if_neg closed]
      simp only [there, Channel.join?, running, Bool.false_eq_true, if_false, Option.map_some]
      refine ⟨rfl, h.endLines, ?_, h.published, rfl, ?_, h.texts, ?_⟩
      · exact running.symm.trans h.closed
      · simp only [waiting, Channel.unread, List.drop_length, nothing]
      · intro cursor same
        cases same
        exact Nat.le_refl _
  · rw [if_pos reading]
    simp only [there]
    exact ⟨rfl, h⟩

theorem unsubscribe (h : Mirrors m cap console) :
    Mirrors m.leave (cap.unsubscribe console).1 (cap.unsubscribe console).2 := by
  unfold Capture.unsubscribe
  have left := h.leave
  rcases h.cases with ⟨there, _, _⟩ | ⟨cursor, there, _, _, _⟩
  · simp only [there]
    rwa [← there] at left
  · simp only [there]
    exact left.of_feed console.sameFeed_leave

/-- Where there is no subscription, there is nothing to hand out. -/
theorem handOut_nil (h : Mirrors m cap console) (nothing : m.unread = []) :
    Mirrors { m.handOut [] with unread := [] } cap console where
  endLines := h.endLines
  closed := h.closed
  published := h.published
  subscribed := h.subscribed
  unread := h.unread.trans nothing
  texts := by
    change cap.Holds (m.held ++ [])
    rw [List.append_nil]
    exact h.texts
  bounded := h.bounded

theorem drain (h : Mirrors m cap console) :
    Follows (m.drain console.ring) (.counted (cap.drain console).1, (cap.drain console).2) := by
  unfold Capture.drain Mailbox.drain
  rcases h.cases with ⟨there, idle, nothing⟩ | ⟨cursor, there, reading, unread, bound⟩
  · have same := h.handOut_nil nothing
    simp only [there, nothing, newest_nil]
    refine ⟨rfl, ?_⟩
    dsimp only
    split
    · have left := same.leave
      rwa [← there] at left
    · exact same
  · have kept : console.kept cursor = newest console.ring m.unread := by
      rw [← unread]
      rfl
    have all := h.handOut (newest console.ring m.unread) reading
      (List.drop_length : console.unread ⟨console.sent.length⟩ = []) (Nat.le_refl _)
    simp only [there]
    rw [drainFrom_eq bound, kept, h.closed]
    split
    · exact ⟨rfl, all.leave.of_feed console.sameFeed_leave⟩
    · exact ⟨rfl, all⟩

theorem listen (h : Mirrors m cap console) (positive : 0 < console.ring) :
    Follows (m.listen console.ring) (cap.listen console) := by
  unfold Capture.listen Mailbox.listen next
  rcases h.cases with ⟨there, idle, nothing⟩ | ⟨cursor, there, reading, unread, bound⟩
  · simp only [there, nothing, newest_nil, idle, Bool.false_and, Bool.false_eq_true, if_false]
    exact ⟨rfl, h⟩
  · have kept : console.kept cursor = newest console.ring m.unread := by
      rw [← unread]
      rfl
    simp only [there]
    cases first : newest console.ring m.unread with
    | nil =>
      have nothing : m.unread = [] := newest_eq_nil positive first
      rw [nextFrom_of_kept_nil bound (kept.trans first), h.closed, reading]
      simp only [Bool.true_and]
      split
      · exact ⟨rfl, h.leave.of_feed console.sameFeed_leave⟩
      · exact ⟨rfl, h.readOn reading (List.drop_length.trans nothing.symm) (Nat.le_refl _)⟩
    | cons c rest =>
      obtain ⟨behind, bound', left, eq⟩ := nextFrom_of_kept cap bound (kept.trans first)
      have added : ({ cap with subscription := some behind } : Capture).append c =
          { cap.pushAll [c] with subscription := some behind } :=
        (if_pos rfl).trans (pushAll_subscription cap _ [c])
      rw [eq]
      simp only [added]
      exact ⟨rfl, h.handOut [c] reading left bound'⟩

theorem use (h : Mirrors m cap console) (positive : 0 < console.ring) (u : Use) :
    Follows (m.use console.ring u) (cap.use console u) := by
  cases u with
  | subscribe => exact h.enrol
  | unsubscribe => exact ⟨congrArg Reply.wasSubscribed h.subscribed, h.unsubscribe⟩
  | drain => exact h.drain
  | listen => exact h.listen positive
  | take =>
    refine ⟨?_, h.forget⟩
    rw [Capture.use, Mailbox.use, ← h.gathered_eq .normal, ← h.gathered_eq .error]
    rfl
  | reset => exact ⟨rfl, h.unsubscribe.forget⟩

end Mirrors

end Capture

namespace Hall

variable {h : Hall} {i : Nat} {m : Mailbox}

/-- There is a capture of that number, and it is what the mailbox says. -/
def HasMailbox (h : Hall) (i : Nat) (m : Mailbox) : Prop :=
  ∃ cap, h.captures[i]? = some cap ∧ cap.Mirrors m h.console

theorem ring_act (h : Hall) (a : Act) : (h.act a).2.console.ring = h.console.ring := by
  cases a with
  | publish c =>
    change (h.console.send c).ring = h.console.ring
    unfold Channel.send
    split <;> rfl
  | close => rfl
  | use j u =>
    unfold Hall.act
    dsimp only
    split
    · rfl
    · rename_i cap _
      exact (cap.sameFeed_use h.console u).ring

theorem ring_run (h : Hall) (acts : List Act) : (h.run acts).console.ring = h.console.ring := by
  induction acts generalizing h with
  | nil => rfl
  | cons a acts ih => exact (ih _).trans (h.ring_act a)

namespace HasMailbox

/-- What is asked of the capture itself. -/
theorem use (has : h.HasMailbox i m) (positive : 0 < h.console.ring) (u : Capture.Use) :
    (h.act (.use i u)).1 = (m.use h.console.ring u).1 ∧
      (h.act (.use i u)).2.HasMailbox i (m.use h.console.ring u).2 := by
  obtain ⟨cap, there, mirrors⟩ := has
  have follows := mirrors.use positive u
  obtain ⟨bound, _⟩ := List.getElem?_eq_some_iff.mp there
  simp only [Hall.act, there]
  exact ⟨follows.reply, _, List.getElem?_set_self bound, follows.mirrors⟩

/-- What is asked of another capture. -/
theorem other (has : h.HasMailbox i m) {j : Nat} (ne : j ≠ i) (u : Capture.Use) :
    (h.act (.use j u)).2.HasMailbox i m := by
  obtain ⟨cap, there, mirrors⟩ := has
  unfold Hall.act
  dsimp only
  split
  · exact ⟨cap, there, mirrors⟩
  · rename_i asked _
    exact ⟨cap, (List.getElem?_set_ne ne).trans there,
      mirrors.of_feed (asked.sameFeed_use h.console u)⟩

theorem act (has : h.HasMailbox i m) (positive : 0 < h.console.ring) (a : Act) :
    (h.act a).2.HasMailbox i (m.act h.console.ring i a) := by
  cases a with
  | publish c =>
    obtain ⟨cap, there, mirrors⟩ := has
    exact ⟨cap, there, mirrors.publish c⟩
  | close =>
    obtain ⟨cap, there, mirrors⟩ := has
    exact ⟨cap, there, mirrors.close⟩
  | use j u =>
    by_cases mine : j = i
    · rw [mine, Mailbox.act_mine]
      exact (has.use positive u).2
    · rw [Mailbox.act_other mine]
      exact has.other mine u

/-- A run does to a capture what it does to its mailbox, and the capture replies the same. -/
theorem run (has : h.HasMailbox i m) (positive : 0 < h.console.ring) (acts : List Act) :
    (h.run acts).HasMailbox i (m.run h.console.ring i acts) ∧
      h.repliesOf i acts = m.replies h.console.ring i acts := by
  induction acts generalizing h m with
  | nil => exact ⟨has, rfl⟩
  | cons a acts ih =>
    have same := h.ring_act a
    have step := ih (has.act positive a) (same ▸ positive)
    rw [same] at step
    refine ⟨step.1, ?_⟩
    cases a with
    | publish c => exact step.2
    | close => exact step.2
    | use j u =>
      by_cases mine : j = i
      · rw [repliesOf, Mailbox.replies, if_pos mine, if_pos mine, step.2, mine]
        rw [(has.use positive u).1]
      · rw [repliesOf, Mailbox.replies, if_neg mine, if_neg mine, step.2]

theorem listens (has : h.HasMailbox i m) : h.listens i = m.subscribed := by
  obtain ⟨cap, there, mirrors⟩ := has
  rw [Hall.listens, there]
  exact mirrors.subscribed

theorem closed (has : h.HasMailbox i m) : h.console.closed = m.closed := by
  obtain ⟨cap, _, mirrors⟩ := has
  exact mirrors.closed

/-- What a mailbox is presented with are the chunks that are published while the capture is
    subscribed. -/
theorem presented (has : h.HasMailbox i m) (positive : 0 < h.console.ring) (acts : List Act) :
    (m.run h.console.ring i acts).presented = m.presented ++ h.presentedTo i acts := by
  induction acts generalizing h m with
  | nil => exact (List.append_nil _).symm
  | cons a acts ih =>
    have same := h.ring_act a
    have step := ih (has.act positive a) (same ▸ positive)
    rw [same] at step
    rw [Mailbox.run, step]
    cases a with
    | publish c =>
      change (m.publish c).presented ++ _ = _
      rw [Mailbox.presented_publish, presentedTo, has.listens, has.closed, List.append_assoc]
    | close => rfl
    | use j u =>
      have kept : (m.act h.console.ring i (.use j u)).presented = m.presented := by
        by_cases mine : j = i
        · rw [mine, Mailbox.act_mine, (Mailbox.frame_use _ m u).presented]
        · rw [Mailbox.act_other mine]
      rw [kept]
      rfl

/-- Where the mailbox is the same, so is the capture. -/
theorem capture_eq {h' : Hall} (has : h.HasMailbox i m) (has' : h'.HasMailbox i m) :
    h.captures[i]? = h'.captures[i]? := by
  obtain ⟨cap, there, mirrors⟩ := has
  obtain ⟨cap', there', mirrors'⟩ := has'
  rw [there, there', mirrors.eq, mirrors'.eq]

end HasMailbox

/-! ## What the captures of a hall receive -/

/-- What draining does: it adds the newest of the chunks that wait, as many as the ring holds. -/
structure Drains (cap : Capture) (console : Console) : Prop where
  counted : (cap.drain console).1 = min (cap.waiting console).length console.ring
  texts : ∀ stream, (cap.drain console).2.1.gathered stream =
    cap.gathered stream ++
      transcript cap.endLines stream (newest console.ring (cap.waiting console))
  nothingLeft : (cap.drain console).2.1.waiting (cap.drain console).2.2 = []

theorem drains_of_mirrors {cap : Capture} {console : Console} (mirrors : cap.Mirrors m console) :
    Drains cap console := by
  have follows := mirrors.drain
  have unread : (m.drain console.ring).2.unread = [] := by
    unfold Mailbox.drain
    dsimp only
    split <;> rfl
  have text (stream : OutputKind) : (m.drain console.ring).2.text stream =
      m.text stream ++ transcript m.endLines stream (newest console.ring m.unread) := by
    unfold Mailbox.drain
    dsimp only
    split <;> exact transcript_append _ _ _ _
  constructor
  case counted =>
    rw [mirrors.unread, ← length_newest]
    exact Capture.Reply.counted.inj follows.reply
  case texts =>
    intro stream
    rw [follows.mirrors.gathered_eq, text, mirrors.gathered_eq, mirrors.unread, mirrors.endLines]
  case nothingLeft => exact follows.mirrors.unread.trans unread

/-- What a capture has received after a run and will receive in a longer one, where `m` is its
    mailbox. -/
structure Receives (h : Hall) (i : Nat) (acts : List Act) (cap : Capture) (m : Mailbox) :
    Prop where
  mirrors : cap.Mirrors m (h.run acts).console
  replies : h.repliesOf i acts = (Mailbox.new cap.endLines).replies h.console.ring i acts
  texts : ∀ stream, cap.gathered stream = transcript cap.endLines stream m.held
  held : m.held <:+ m.delivered
  /-- What was received, and what waits, is some of what was published to it, in its order. -/
  once : (m.delivered ++ cap.waiting (h.run acts).console).Sublist (h.presentedTo i acts)
  drains : Drains cap (h.run acts).console
  /-- As long as no more waits than the ring holds, nothing is missed. -/
  misses_none : ∀ more, Mailbox.Stays i more → m.KeepsUp h.console.ring i more →
    ∃ out, (m.run h.console.ring i more).delivered = m.delivered ++ out ∧
      out ++ (m.run h.console.ring i more).unread =
        m.unread ++ (h.run acts).presentedTo i more
  /-- Of a closed console, the newest of what waits is received before the subscription ends. -/
  all_before_end : (h.run acts).console.closed = true → ∀ more, Mailbox.Stays i more →
    ∃ out, (m.run h.console.ring i more).delivered = m.delivered ++ out ∧
      out ++ newest h.console.ring (m.run h.console.ring i more).unread =
        newest h.console.ring m.unread ∧
      ((m.run h.console.ring i more).subscribed = false → out = newest h.console.ring m.unread)
  told_end : (h.run acts).console.closed = true → cap.isSubscribed = true →
    let polls := List.replicate ((newest h.console.ring m.unread).length + 1) (.use i .listen)
    (h.run acts).repliesOf i polls =
        (newest h.console.ring m.unread).map (fun c => .heard (.chunk c)) ++ [.heard .closed] ∧
      ((h.run acts).run polls).listens i = false

theorem receives_of_mailbox {endLines : Bool} {acts : List Act}
    (has : h.HasMailbox i (Mailbox.new endLines)) (positive : 0 < h.console.ring) :
    ∃ cap, (h.run acts).captures[i]? = some cap ∧ cap.endLines = endLines ∧
      Receives h i acts cap ((Mailbox.new endLines).run h.console.ring i acts) := by
  have sound := (Mailbox.sound_new endLines).run h.console.ring i acts
  have presented := has.presented positive acts
  obtain ⟨now, replies⟩ := has.run positive acts
  have ring := h.ring_run acts
  have positive' : 0 < (h.run acts).console.ring := ring ▸ positive
  have ending : ((Mailbox.new endLines).run h.console.ring i acts).endLines = endLines :=
    Mailbox.endLines_run acts
  generalize (Mailbox.new endLines).run h.console.ring i acts = m at *
  have closed := now.closed
  have later := now.presented positive'
  have polled := now.run positive'
  rw [ring] at later polled
  obtain ⟨cap, there, mirrors⟩ := id now
  have ends : cap.endLines = endLines := mirrors.endLines.trans ending
  refine ⟨cap, there, ends, ?_⟩
  constructor
  case mirrors => exact mirrors
  case replies =>
    rw [ends]
    exact replies
  case texts => exact mirrors.texts
  case held => exact sound.held
  case once =>
    rw [mirrors.unread]
    have once := sound.once
    rwa [presented] at once
  case drains => exact drains_of_mirrors mirrors
  case misses_none =>
    intro more stays keepsUp
    obtain ⟨new, out, shown, delivered, all⟩ := Mailbox.no_loss stays keepsUp
    rw [later more, List.append_cancel_left_eq] at shown
    rw [shown]
    exact ⟨out, delivered, all⟩
  case all_before_end =>
    intro ended more stays
    obtain ⟨_, out, delivered, all⟩ := Mailbox.all_before_end (closed.symm.trans ended) stays
    refine ⟨out, delivered, all, ?_⟩
    intro left
    rw [(sound.run _ i more).rest left, newest_nil, List.append_nil] at all
    exact all
  case told_end =>
    intro ended subscribed polls
    have told := Mailbox.listen_closed h.console.ring i (closed.symm.trans ended)
      (mirrors.subscribed.symm.trans subscribed)
    obtain ⟨after, said⟩ := polled polls
    exact ⟨said.trans told.1, after.listens.trans told.2⟩

/-- What holds of a hall when it is opened. -/
structure Delivers (capacity : Nat) (endings : List Bool) (h : Hall) : Prop where
  ring : Channel.IsRingFor h.console.ring capacity
  /-- A chunk reaches every capture that is subscribed, and none once the console is closed. -/
  reaches : ∀ acts c, ((h.run acts).act (.publish c)).1 =
    .counted (if (h.run acts).console.closed then 0 else (h.run acts).subscribers)
  receives : ∀ acts i endLines, endings[i]? = some endLines →
    ∃ cap, (h.run acts).captures[i]? = some cap ∧ cap.endLines = endLines ∧
      Receives h i acts cap ((Mailbox.new endLines).run h.console.ring i acts)
  /-- A capture does not notice what is asked of the others. -/
  alone : ∀ acts i, i < endings.length →
    (h.run acts).captures[i]? =
        (h.run (acts.filter (Mailbox.Concerns i))).captures[i]? ∧
      h.repliesOf i acts = h.repliesOf i (acts.filter (Mailbox.Concerns i))

theorem hasMailbox_opened (capacity : Nat) {endings : List Bool} {i : Nat} {endLines : Bool}
    (there : endings[i]? = some endLines) :
    (opened capacity endings).HasMailbox i (Mailbox.new endLines) := by
  refine ⟨Capture.new endLines, ?_, .new endLines rfl rfl⟩
  rw [opened, List.getElem?_map, there]
  rfl

/-- Whatever is done to a console and the captures that read it, each capture receives what it is
    due. -/
theorem delivers {capacity : Nat} (positive : 1 ≤ capacity) (endings : List Bool) :
    ∃ h, open? capacity endings = some h ∧ Delivers capacity endings h := by
  refine ⟨opened capacity endings, open?_eq positive endings, ?_⟩
  have isRing := Channel.isRingFor_ringSize capacity
  have room : 0 < (opened capacity endings).console.ring :=
    Nat.lt_of_lt_of_le positive isRing.holds
  constructor
  case ring => exact isRing
  case reaches => exact fun acts c => ((counts_opened capacity endings).run acts).publish_reply c
  case receives =>
    exact fun acts i endLines there => receives_of_mailbox (hasMailbox_opened capacity there) room
  case alone =>
    intro acts i bound
    have mine := hasMailbox_opened capacity (List.getElem?_eq_getElem bound)
    obtain ⟨state, replies⟩ := mine.run room acts
    obtain ⟨state', replies'⟩ := mine.run room (acts.filter (Mailbox.Concerns i))
    obtain ⟨same, same'⟩ := Mailbox.run_filter (opened capacity endings).console.ring i
      (Mailbox.new endings[i]) acts
    rw [same] at state'
    exact ⟨state.capture_eq state', by rw [replies, replies', same']⟩

/-- Two captures, of which one falls behind and goes on after that. -/
def crowded : List Act :=
  [.use 0 .subscribe, .publish ⟨.normal, "1"⟩, .use 1 .subscribe, .publish ⟨.normal, "2"⟩,
    .publish ⟨.error, "3"⟩, .publish ⟨.normal, "4"⟩, .use 1 .listen, .publish ⟨.normal, "5"⟩,
    .use 0 .drain, .close, .publish ⟨.normal, "6"⟩, .use 1 .drain]

theorem crowded_received : 1 ≤ 3 ∧ ∃ h, open? 3 [false, true] = some h ∧
    h.repliesOf 0 crowded = [.admitted true, .counted 4] ∧
    h.repliesOf 1 crowded = [.admitted true, .heard (.chunk ⟨.normal, "2"⟩), .counted 3] ∧
    ∃ cap, (h.run crowded).captures[1]? = some cap ∧ cap.gathered .normal = "2\n4\n5\n" := by
  refine ⟨by decide, ?_⟩
  obtain ⟨h, made, delivered⟩ := delivers (by decide : 1 ≤ 3) [false, true]
  obtain ⟨_, _, ending, first⟩ := delivered.receives crowded 0 false rfl
  obtain ⟨cap, there, ending', second⟩ := delivered.receives crowded 1 true rfl
  have replies := first.replies
  have replies' := second.replies
  have texts := second.texts .normal
  rw [ending] at replies
  rw [ending'] at replies' texts
  refine ⟨h, made, ?_, ?_, cap, there, ?_⟩
  · rw [replies]
    cases made
    decide
  · rw [replies']
    cases made
    decide
  · rw [texts]
    cases made
    decide

end Hall

end BuildSupervisor
