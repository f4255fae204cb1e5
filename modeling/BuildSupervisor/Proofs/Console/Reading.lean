import BuildSupervisor.Proofs.Console.Gathering
import BuildSupervisor.Proofs.Event.Chronicle
/-!
# What a capture reads

Whatever way a capture reads the console, what it gets depends on nothing but the chunks that are
still kept for it and on whether the console is closed.  `Capture.Alike` relates two captures, each
on a console of its own, that have the same texts and the same chunks before them; where the chunks
stand on the consoles and who else reads there may differ.
-/

namespace BuildSupervisor

namespace Channel

variable {α : Type u} {c : Channel α} {cursor next : Cursor}

theorem kept_of_received {value : α} (h : c.poll cursor = (.received value, next)) :
    c.kept cursor = value :: c.kept next ∧ c.kept next = c.unread next := by
  have nothingLost : c.missed cursor = 0 := by
    refine Nat.eq_zero_of_not_pos fun lost => ?_
    rw [poll, if_pos lost] at h
    cases h
  obtain ⟨first, _⟩ := unread_of_received h
  have nothingLost' : c.missed next = 0 := by
    simp only [missed, first, List.length_cons] at nothingLost ⊢
    omega
  rw [kept, kept, nothingLost, nothingLost', List.drop_zero, List.drop_zero, first]
  exact ⟨rfl, rfl⟩

/-- Passing over what is lost leaves what is kept. -/
theorem kept_of_lagged {n : Nat} (h : c.poll cursor = (.lagged n, next)) :
    c.kept cursor = c.kept next ∧
      (cursor.next ≤ c.sent.length → next.next ≤ c.sent.length) := by
  unfold poll at h
  split at h
  · simp only [Prod.mk.injEq, Poll.lagged.injEq] at h
    obtain ⟨_, rfl⟩ := h
    have length : (c.unread cursor).length = c.sent.length - cursor.next := List.length_drop
    have rest : c.unread ⟨cursor.next + c.missed cursor⟩ =
        (c.unread cursor).drop (c.missed cursor) := by
      simp only [unread, List.drop_drop]
    have nothingLost : c.missed ⟨cursor.next + c.missed cursor⟩ = 0 := by
      rw [missed, rest, List.length_drop, missed]
      omega
    constructor
    · rw [kept, kept, nothingLost, rest, List.drop_zero]
    · simp only [missed, length]
      omega
  · split at h
    · cases h
    · split at h <;> cases h

theorem kept_congr {d : Channel α} {cursor' : Cursor} (ring : d.ring = c.ring)
    (same : d.unread cursor' = c.unread cursor) : d.kept cursor' = c.kept cursor := by
  simp only [kept, missed, same, ring]

theorem kept_of_unread_nil (h : c.unread cursor = []) : c.kept cursor = [] := by
  rw [kept, h, List.drop_nil]

/-- Only the end of a channel that is closed is told as such. -/
theorem isOpen_of_empty (h : c.poll cursor = (.empty, next)) : c.closed = false := by
  unfold poll at h
  split at h
  · cases h
  · split at h
    · cases h
    · split at h
      · cases h
      · rename_i running
        simpa using running

end Channel

namespace Capture

/-- Adds chunks, whether subscribed or not. -/
def pushAll (cap : Capture) (chunks : List Chunk) : Capture :=
  chunks.foldl (fun cap c => cap.push c.stream (textOf cap.endLines c)) cap

/-- Draining adds all that is kept.  It ends at the end of the console, or leaves a closed one. -/
theorem drainFrom_eq {cap : Capture} {console : Console} {cursor : Cursor}
    (bound : cursor.next ≤ console.sent.length) :
    cap.drainFrom console cursor =
      if console.closed then
        ((console.kept cursor).length,
          { cap.pushAll (console.kept cursor) with subscription := none }, console.leave)
      else
        ((console.kept cursor).length,
          { cap.pushAll (console.kept cursor) with
            subscription := some ⟨console.sent.length⟩ },
          console) := by
  fun_induction drainFrom cap console cursor with
  | case1 cap cursor c next received lt count rest result ih =>
    have after := ih (Channel.unread_of_received received).2
    simp only [result] at after
    rw [(Channel.kept_of_received received).1]
    split at after <;> simp_all [pushAll]
  | case2 cap cursor missed next lagged lt ih =>
    obtain ⟨same, bound'⟩ := Channel.kept_of_lagged lagged
    rw [same]
    exact ih (bound' bound)
  | case3 cap cursor next empty =>
    obtain ⟨none_, rfl⟩ := Channel.unread_of_empty empty
    have there : next.next = console.sent.length := by
      have all := List.drop_eq_nil_iff.mp none_
      omega
    rw [Channel.kept_of_unread_nil none_, Channel.isOpen_of_empty empty, ← there]
    rfl
  | case4 cap cursor next ended =>
    obtain ⟨none_, closed⟩ := Channel.unread_of_closed ended
    rw [Channel.kept_of_unread_nil none_, closed]
    rfl

/-- The next chunk is the oldest one that is kept. -/
theorem nextFrom_of_kept (cap : Capture) {console : Console} {cursor : Cursor} {c : Chunk}
    {rest : List Chunk} (bound : cursor.next ≤ console.sent.length)
    (h : console.kept cursor = c :: rest) :
    ∃ next : Cursor, next.next ≤ console.sent.length ∧ console.unread next = rest ∧
      cap.nextFrom console cursor =
        (.chunk c, { cap with subscription := some next }, console) := by
  fun_induction nextFrom cap console cursor with
  | case1 cursor c' next received =>
    obtain ⟨first, all⟩ := Channel.kept_of_received received
    rw [first] at h
    cases h
    exact ⟨next, (Channel.unread_of_received received).2, all.symm, rfl⟩
  | case2 cursor missed next lagged lt ih =>
    obtain ⟨same, bound'⟩ := Channel.kept_of_lagged lagged
    rw [same] at h
    exact ih (bound' bound) h
  | case3 cursor next empty =>
    rw [Channel.kept_of_unread_nil (Channel.unread_of_empty empty).1] at h
    cases h
  | case4 cursor next ended =>
    rw [Channel.kept_of_unread_nil (Channel.unread_of_closed ended).1] at h
    cases h

theorem nextFrom_of_kept_nil {cap : Capture} {console : Console} {cursor : Cursor}
    (bound : cursor.next ≤ console.sent.length) (h : console.kept cursor = []) :
    cap.nextFrom console cursor =
      if console.closed then (.closed, { cap with subscription := none }, console.leave)
      else (.pending, { cap with subscription := some ⟨console.sent.length⟩ }, console) := by
  fun_induction nextFrom cap console cursor with
  | case1 cursor c' next received =>
    rw [(Channel.kept_of_received received).1] at h
    cases h
  | case2 cursor missed next lagged lt ih =>
    obtain ⟨same, bound'⟩ := Channel.kept_of_lagged lagged
    rw [same] at h
    exact ih (bound' bound) h
  | case3 cursor next empty =>
    obtain ⟨none_, rfl⟩ := Channel.unread_of_empty empty
    have there : next.next = console.sent.length := by
      have all := List.drop_eq_nil_iff.mp none_
      omega
    rw [Channel.isOpen_of_empty empty, ← there]
    rfl
  | case4 cursor next ended =>
    rw [(Channel.unread_of_closed ended).2]
    rfl

/-! ## What reading leaves alone -/

theorem sameFeed_drainFrom (cap : Capture) (console : Console) (cursor : Cursor) :
    console.SameFeed (cap.drainFrom console cursor).2.2 := by
  fun_induction drainFrom cap console cursor with
  | case1 cap cursor c next _ _ count rest result ih => simpa only [result] using ih
  | case2 _ _ _ _ _ _ ih => exact ih
  | case3 => exact .refl console
  | case4 => exact console.sameFeed_leave

theorem sameFeed_nextFrom (cap : Capture) (console : Console) (cursor : Cursor) :
    console.SameFeed (cap.nextFrom console cursor).2.2 := by
  fun_induction nextFrom cap console cursor with
  | case1 => exact .refl console
  | case2 _ _ _ _ _ ih => exact ih
  | case3 => exact .refl console
  | case4 => exact console.sameFeed_leave

theorem sameFeed_drain (cap : Capture) (console : Console) :
    console.SameFeed (cap.drain console).2.2 := by
  unfold drain
  split
  · exact sameFeed_drainFrom cap console _
  · exact .refl console

theorem sameFeed_next (cap : Capture) (console : Console) :
    console.SameFeed (cap.next console).2.2 := by
  unfold next
  split
  · exact sameFeed_nextFrom cap console _
  · exact .refl console

theorem sameFeed_reset (cap : Capture) (console : Console) :
    console.SameFeed (cap.reset console).2 := by
  obtain ⟨endLines, subscription, stdout, stderr⟩ := cap
  cases subscription
  · exact .refl console
  · exact console.sameFeed_leave

theorem nextFrom_ne_closed (cap : Capture) {console : Console} (isOpen : console.closed = false)
    (cursor : Cursor) : (cap.nextFrom console cursor).1 ≠ .closed := by
  fun_induction nextFrom cap console cursor with
  | case1 => simp
  | case2 _ _ _ _ _ ih => exact ih
  | case3 => simp
  | case4 cursor next ended =>
    have closed := (Channel.unread_of_closed ended).2
    rw [isOpen] at closed
    cases closed

/-- The end of a console is told only where it has been closed. -/
theorem next_ne_closed (cap : Capture) {console : Console} (isOpen : console.closed = false) :
    (cap.next console).1 ≠ .closed := by
  unfold next
  split
  · exact nextFrom_ne_closed cap isOpen _
  · simp

theorem backlog_nextFrom {cap : Capture} {console : Console} {cursor : Cursor}
    (none_ : ∀ c, (cap.nextFrom console cursor).1 ≠ .chunk c) :
    (cap.nextFrom console cursor).2.1.backlog (cap.nextFrom console cursor).2.2 = 0 := by
  fun_induction nextFrom cap console cursor with
  | case1 cursor c => exact absurd rfl (none_ c)
  | case2 _ _ _ _ _ ih => exact ih none_
  | case3 cursor next empty =>
    obtain ⟨all, rfl⟩ := Channel.unread_of_empty empty
    exact Nat.sub_eq_zero_of_le (List.drop_eq_nil_iff.mp all)
  | case4 => rfl

/-- Where there is no next chunk, nothing waits. -/
theorem backlog_next {cap : Capture} {console : Console}
    (none_ : ∀ c, (cap.next console).1 ≠ .chunk c) :
    (cap.next console).2.1.backlog (cap.next console).2.2 = 0 := by
  unfold next at *
  cases there : cap.subscription with
  | none => simp only [backlog, there]
  | some cursor =>
    rw [there] at none_
    exact backlog_nextFrom none_

/-! ## Two captures that have read the same -/

/-- Neither reads its console, or both do and have the same before them. -/
inductive SameReader (console console' : Console) : Option Cursor → Option Cursor → Prop where
  | neither : SameReader console console' none none
  | both {cursor cursor' : Cursor} : cursor.next ≤ console.sent.length →
      cursor'.next ≤ console'.sent.length → console'.unread cursor' = console.unread cursor →
      SameReader console console' (some cursor) (some cursor')

/-- The captures have read the same, and will read the same.  If `even` holds, as many others read
    the one console as the other. -/
structure Alike (even : Prop) (cap : Capture) (console : Console) (cap' : Capture)
    (console' : Console) : Prop where
  texts : cap' = { cap with subscription := cap'.subscription }
  ring : console'.ring = console.ring
  closed : console'.closed = console.closed
  readers : even → console'.readers = console.readers
  reader : SameReader console console' cap.subscription cap'.subscription

variable {even : Prop} {cap cap' : Capture} {console console' : Console}

/-- What is added to the texts does not depend on where the capture reads. -/
theorem pushAll_subscription (cap : Capture) (subscription : Option Cursor)
    (chunks : List Chunk) :
    ({ cap with subscription := subscription } : Capture).pushAll chunks =
      { cap.pushAll chunks with subscription := subscription } := by
  induction chunks generalizing cap with
  | nil => rfl
  | cons c rest ih =>
    obtain ⟨kind, text⟩ := c
    cases kind
    · exact ih (cap.push .normal (textOf cap.endLines ⟨.normal, text⟩))
    · exact ih (cap.push .error (textOf cap.endLines ⟨.error, text⟩))

/-- At the ends of two consoles the captures have nothing before them. -/
theorem SameReader.ends (console console' : Console) :
    SameReader console console' (some ⟨console.sent.length⟩) (some ⟨console'.sent.length⟩) :=
  .both (Nat.le_refl _) (Nat.le_refl _) (by simp only [Channel.unread, List.drop_length])

theorem SameReader.isSome {subscription subscription' : Option Cursor}
    (h : SameReader console console' subscription subscription') :
    subscription'.isSome = subscription.isSome := by
  cases h <;> rfl

theorem SameReader.of_sent {console₂ console₂' : Console}
    {subscription subscription' : Option Cursor}
    (h : SameReader console console' subscription subscription')
    (sent : console₂.sent = console.sent) (sent' : console₂'.sent = console'.sent) :
    SameReader console₂ console₂' subscription subscription' := by
  cases h with
  | neither => exact .neither
  | both bound bound' same =>
    refine .both ?_ ?_ ?_
    · rw [sent]
      exact bound
    · rw [sent']
      exact bound'
    · simp only [Channel.unread, sent, sent'] at same ⊢
      exact same

namespace Alike

theorem endLines (h : Alike even cap console cap' console') : cap'.endLines = cap.endLines := by
  rw [h.texts]

theorem stdout (h : Alike even cap console cap' console') : cap'.stdout = cap.stdout := by
  rw [h.texts]

theorem stderr (h : Alike even cap console cap' console') : cap'.stderr = cap.stderr := by
  rw [h.texts]

theorem withSubscription (h : Alike even cap console cap' console')
    (subscription subscription' : Option Cursor) :
    ({ cap' with subscription := subscription' } : Capture) =
      { ({ cap with subscription := subscription } : Capture) with
        subscription := subscription' } := by
  simp only [h.endLines, h.stdout, h.stderr]

theorem isSubscribed (h : Alike even cap console cap' console') :
    cap'.isSubscribed = cap.isSubscribed :=
  h.reader.isSome

theorem append (h : Alike even cap console cap' console') (c : Chunk) :
    Alike even (cap.append c) console (cap'.append c) console' := by
  have subscribed := h.isSubscribed
  obtain ⟨texts, ring, closed, readers, reader⟩ := h
  refine ⟨?_, ring, closed, readers, ?_⟩
  · unfold Capture.append
    rw [subscribed]
    split
    · rw [texts]
      obtain ⟨kind, text⟩ := c
      cases kind <;> rfl
    · exact texts
  · rw [subscription_append, subscription_append]
    exact reader

theorem send (h : Alike even cap console cap' console') (c : Chunk) :
    Alike even cap (console.send c) cap' (console'.send c) := by
  by_cases ended : console.closed = true
  · have ended' : console'.closed = true := h.closed.trans ended
    rw [Channel.send_of_closed c ended, Channel.send_of_closed c ended']
    exact h
  · have running : console.closed = false := by simpa using ended
    have running' : console'.closed = false := h.closed.trans running
    obtain ⟨texts, ring, closed, readers, reader⟩ := h
    refine ⟨texts, ?_, ?_, ?_, ?_⟩
    · simpa only [Channel.send, running, running', Bool.false_eq_true, if_false] using ring
    · rw [Channel.closed_send, Channel.closed_send]
      exact closed
    · simpa only [Channel.send, running, running', Bool.false_eq_true, if_false] using readers
    · generalize cap.subscription = subscription at reader ⊢
      generalize cap'.subscription = subscription' at reader ⊢
      cases reader with
      | neither => exact .neither
      | both bound bound' same =>
        refine .both ?_ ?_ ?_
        · simp only [Channel.send, running, Bool.false_eq_true, if_false, List.length_append]
          omega
        · simp only [Channel.send, running', Bool.false_eq_true, if_false, List.length_append]
          omega
        · rw [Channel.unread_send c running bound, Channel.unread_send c running' bound', same]

theorem close (h : Alike even cap console cap' console') :
    Alike even cap console.close cap' console'.close :=
  ⟨h.texts, h.ring, rfl, h.readers, h.reader.of_sent rfl rfl⟩

/-- Captures that are reset have forgotten all but how they end lines. -/
theorem of_reset (ending : cap'.endLines = cap.endLines) (ring : console'.ring = console.ring)
    (closed : console'.closed = console.closed)
    (readers : even → (cap'.reset console').2.readers = (cap.reset console).2.readers) :
    Alike even (cap.reset console).1 (cap.reset console).2 (cap'.reset console').1
      (cap'.reset console').2 := by
  have feed := sameFeed_reset cap console
  have feed' := sameFeed_reset cap' console'
  refine ⟨?_, ?_, ?_, readers, ?_⟩
  · rw [reset_eq_new, reset_eq_new, ending]
  · rw [feed.ring, feed'.ring]
    exact ring
  · rw [feed.closed, feed'.closed]
    exact closed
  · rw [reset_eq_new, reset_eq_new]
    exact .neither

theorem reset (h : Alike even cap console cap' console') :
    Alike even (cap.reset console).1 (cap.reset console).2 (cap'.reset console').1
      (cap'.reset console').2 := by
  refine of_reset h.endLines h.ring h.closed fun evenly => ?_
  have reader := h.reader
  have readers := h.readers evenly
  simp only [Capture.reset, unsubscribe]
  generalize cap.subscription = subscription at reader ⊢
  generalize cap'.subscription = subscription' at reader ⊢
  cases reader with
  | neither => exact readers
  | both => exact congrArg (· - 1) readers

/-- Both take up reading, or neither is admitted. -/
theorem subscribe? (h : Alike even cap console cap' console') :
    Option.Rel (fun a b => Alike even a.1 a.2 b.1 b.2) (cap.subscribe? console)
      (cap'.subscribe? console') := by
  have reader := h.reader
  unfold Capture.subscribe?
  generalize there : cap.subscription = subscription at reader ⊢
  generalize there' : cap'.subscription = subscription' at reader ⊢
  cases reader with
  | both => exact .some h
  | neither =>
    simp only [Channel.join?]
    rw [h.closed]
    split
    · exact .none
    · exact .some ⟨h.withSubscription _ _, h.ring, rfl,
        fun evenly => congrArg (· + 1) (h.readers evenly),
        (SameReader.ends console console').of_sent rfl rfl⟩

/-- Both get the same when they drain their consoles. -/
theorem drain (h : Alike even cap console cap' console') :
    (cap'.drain console').1 = (cap.drain console).1 ∧
      Alike even (cap.drain console).2.1 (cap.drain console).2.2 (cap'.drain console').2.1
        (cap'.drain console').2.2 := by
  have reader := h.reader
  unfold Capture.drain
  generalize there : cap.subscription = subscription at reader ⊢
  generalize there' : cap'.subscription = subscription' at reader ⊢
  cases reader with
  | neither => exact ⟨rfl, h⟩
  | both bound bound' same =>
    have kept := Channel.kept_congr h.ring same
    dsimp only
    rw [drainFrom_eq bound, drainFrom_eq bound', h.closed, kept, h.texts, pushAll_subscription]
    split
    · exact ⟨rfl, rfl, h.ring, h.closed, fun evenly => congrArg (· - 1) (h.readers evenly),
        .neither⟩
    · exact ⟨rfl, rfl, h.ring, h.closed, h.readers, .ends console console'⟩

/-- Both get the same next chunk. -/
theorem next (h : Alike even cap console cap' console') :
    (cap'.next console').1 = (cap.next console).1 ∧
      Alike even (cap.next console).2.1 (cap.next console).2.2 (cap'.next console').2.1
        (cap'.next console').2.2 := by
  have reader := h.reader
  unfold Capture.next
  generalize there : cap.subscription = subscription at reader ⊢
  generalize there' : cap'.subscription = subscription' at reader ⊢
  cases reader with
  | neither => exact ⟨rfl, h⟩
  | @both cursor cursor' bound bound' same =>
    have kept := Channel.kept_congr h.ring same
    dsimp only
    cases first : console.kept cursor with
    | nil =>
      rw [nextFrom_of_kept_nil bound first, nextFrom_of_kept_nil bound' (kept.trans first),
        h.closed]
      split
      · exact ⟨rfl, h.withSubscription _ _, h.ring, h.closed,
          fun evenly => congrArg (· - 1) (h.readers evenly), .neither⟩
      · exact ⟨rfl, h.withSubscription _ _, h.ring, h.closed, h.readers, .ends console console'⟩
    | cons c rest =>
      obtain ⟨next, inside, unread, taken⟩ := nextFrom_of_kept cap bound first
      obtain ⟨next', inside', unread', taken'⟩ :=
        nextFrom_of_kept cap' bound' (kept.trans first)
      rw [taken, taken']
      exact ⟨rfl, h.withSubscription _ _, h.ring, h.closed, h.readers,
        .both inside inside' (unread'.trans unread.symm)⟩

end Alike

end Capture

end BuildSupervisor
