import BuildSupervisor.Console
/-!
# What a capture has gathered

`Capture.Gathered` ties a capture to the chunks that were written since it began to read: the texts
it holds are those of the chunks it has read, and the others still wait.  Both ways of reading keep
this, in whatever order they are used, as long as no chunk is lost; `drain_all` says that draining
leaves nothing behind.
-/

namespace BuildSupervisor

namespace Channel

variable {α : Type u}

/-- A value that is received is the first one that was unread. -/
theorem unread_of_received {c : Channel α} {cursor next : Cursor} {value : α}
    (h : c.poll cursor = (.received value, next)) :
    c.unread cursor = value :: c.unread next ∧ next.next ≤ c.sent.length := by
  unfold poll at h
  split at h
  · simp at h
  · split at h
    · rename_i there
      obtain ⟨bound, rfl⟩ := List.getElem?_eq_some_iff.mp there
      simp only [Prod.mk.injEq, Poll.received.injEq] at h
      obtain ⟨rfl, rfl⟩ := h
      exact ⟨List.drop_eq_getElem_cons bound, bound⟩
    · split at h <;> simp at h

/-- Where nothing is received and nothing lost, nothing is unread. -/
theorem unread_of_empty {c : Channel α} {cursor next : Cursor}
    (h : c.poll cursor = (.empty, next)) : c.unread cursor = [] ∧ next = cursor := by
  unfold poll at h
  split at h
  · simp at h
  · split at h
    · simp at h
    · rename_i none_
      split at h
      · simp at h
      · simp only [Prod.mk.injEq, true_and] at h
        exact ⟨List.drop_eq_nil_of_le (List.getElem?_eq_none_iff.mp none_), h.symm⟩

theorem unread_of_closed {c : Channel α} {cursor next : Cursor}
    (h : c.poll cursor = (.closed, next)) : c.unread cursor = [] ∧ c.closed = true := by
  unfold poll at h
  split at h
  · simp at h
  · split at h
    · simp at h
    · rename_i none_
      split at h
      · rename_i closed
        exact ⟨List.drop_eq_nil_of_le (List.getElem?_eq_none_iff.mp none_), closed⟩
      · simp at h

/-- A reader that is not too far behind loses nothing. -/
theorem not_lagged {c : Channel α} {cursor next : Cursor} {n : Nat}
    (kept : c.behind cursor ≤ c.ring) : c.poll cursor ≠ (.lagged n, next) := by
  intro h
  unfold poll at h
  split at h
  · rename_i lost
    simp only [missed, unread, List.length_drop, behind] at lost kept
    omega
  · split at h
    · simp at h
    · split at h <;> simp at h

/-- A value that is sent is unread behind all others. -/
theorem unread_send {c : Channel α} {cursor : Cursor} (value : α) (running : c.closed = false)
    (bound : cursor.next ≤ c.sent.length) :
    (c.send value).unread cursor = c.unread cursor ++ [value] := by
  simp only [send, running, Bool.false_eq_true, if_false, unread]
  exact List.drop_append_of_le_length bound

theorem send_of_closed {c : Channel α} (value : α) (closed : c.closed = true) :
    c.send value = c := by
  rw [send, if_pos closed]

/-- What is on the channel is the same; only its readers may be others. -/
structure SameFeed (c d : Channel α) : Prop where
  ring : d.ring = c.ring
  sent : d.sent = c.sent
  closed : d.closed = c.closed

theorem SameFeed.refl (c : Channel α) : SameFeed c c :=
  ⟨rfl, rfl, rfl⟩

theorem sameFeed_leave (c : Channel α) : SameFeed c c.leave :=
  ⟨rfl, rfl, rfl⟩

end Channel

/-- The texts of the chunks of one stream, one behind the other. -/
def transcript (endLines : Bool) (stream : OutputKind) (chunks : List Chunk) : String :=
  String.join ((chunks.filter fun c => c.stream = stream).map (Capture.textOf endLines))

theorem transcript_append (endLines : Bool) (stream : OutputKind) (first second : List Chunk) :
    transcript endLines stream (first ++ second) =
      transcript endLines stream first ++ transcript endLines stream second := by
  simp only [transcript, List.filter_append, List.map_append, String.join_append]

namespace Capture

/-- The text that was gathered of a stream. -/
def gathered (cap : Capture) : OutputKind → String
  | .normal => cap.stdout
  | .error => cap.stderr

/-- The chunks that wait for the capture. -/
def waiting (cap : Capture) (console : Console) : List Chunk :=
  match cap.subscription with
  | some cursor => console.unread cursor
  | none => []

/-- Of the chunks written since the capture began to read, it holds the texts of those that do not
    wait any more. -/
structure Gathered (endLines : Bool) (cap : Capture) (console : Console) (chunks : List Chunk) :
    Prop where
  ending : cap.endLines = endLines
  /-- The capture stops reading by itself only at the end of a closed console. -/
  reading : cap.subscription = none → console.closed = true
  bounded : ∀ cursor, cap.subscription = some cursor → cursor.next ≤ console.sent.length
  texts : ∃ read, chunks = read ++ cap.waiting console ∧
    ∀ stream, cap.gathered stream = transcript endLines stream read

variable {endLines : Bool} {cap : Capture} {console : Console} {chunks : List Chunk}

/-- A capture that has just begun to read has missed nothing. -/
theorem gathered_subscribe {cap' : Capture} {console' : Console} (blank : cap.stdout = "")
    (blank' : cap.stderr = "") (fresh : cap.subscription = none)
    (h : cap.subscribe? console = some (cap', console')) :
    Gathered cap.endLines cap' console' [] ∧ console'.closed = false ∧
      console'.ring = console.ring := by
  simp only [subscribe?, fresh, Channel.join?] at h
  split at h
  · cases h
  · rename_i running
    simp only [Option.map_some, Option.some.injEq, Prod.mk.injEq] at h
    obtain ⟨rfl, rfl⟩ := h
    refine ⟨⟨rfl, nofun, ?_, [], ?_, ?_⟩, by simpa using running, rfl⟩
    · intro cursor same
      cases same
      exact Nat.le_refl _
    · simp only [waiting, Channel.unread, List.drop_length, List.append_nil]
    · intro stream
      cases stream
      · exact blank
      · exact blank'

/-- The text that a push adds. -/
theorem gathered_push (cap : Capture) (c : Chunk) (stream : OutputKind) :
    (cap.push c.stream (textOf cap.endLines c)).gathered stream =
      cap.gathered stream ++ transcript cap.endLines stream [c] := by
  obtain ⟨kind, text⟩ := c
  cases kind <;> cases stream <;> simp [push, gathered, transcript]

theorem endLines_push (cap : Capture) (stream : OutputKind) (text : String) :
    (cap.push stream text).endLines = cap.endLines := by
  cases stream <;> rfl

theorem endLines_append (cap : Capture) (c : Chunk) : (cap.append c).endLines = cap.endLines := by
  unfold append
  split
  · exact endLines_push cap _ _
  · rfl

theorem endLines_drainFrom (cap : Capture) (console : Console) (cursor : Cursor) :
    (cap.drainFrom console cursor).2.1.endLines = cap.endLines := by
  fun_induction drainFrom cap console cursor with
  | case1 cap cursor c next _ _ count rest result ih =>
    rw [endLines_push] at ih
    simpa only [result] using ih
  | case2 _ _ _ _ _ _ ih => exact ih
  | case3 => rfl
  | case4 => rfl

theorem endLines_nextFrom (cap : Capture) (console : Console) (cursor : Cursor) :
    (cap.nextFrom console cursor).2.1.endLines = cap.endLines := by
  fun_induction nextFrom cap console cursor with
  | case1 => rfl
  | case2 _ _ _ _ _ ih => exact ih
  | case3 => rfl
  | case4 => rfl

theorem endLines_drain (cap : Capture) (console : Console) :
    (cap.drain console).2.1.endLines = cap.endLines := by
  unfold drain
  split
  · exact endLines_drainFrom cap console _
  · rfl

theorem endLines_next (cap : Capture) (console : Console) :
    (cap.next console).2.1.endLines = cap.endLines := by
  unfold next
  split
  · exact endLines_nextFrom cap console _
  · rfl

/-- A reset leaves a capture that has read nothing yet. -/
theorem reset_eq_new (cap : Capture) (console : Console) :
    (cap.reset console).1 = Capture.new cap.endLines := by
  obtain ⟨endLines, subscription, stdout, stderr⟩ := cap
  cases subscription <;> rfl

/-- A chunk that is received and added at once counts as read. -/
theorem Gathered.hear {cursor next : Cursor} {c : Chunk}
    (h : Gathered endLines { cap with subscription := some cursor } console chunks)
    (received : console.poll cursor = (.received c, next)) :
    Gathered endLines { cap.push c.stream (textOf cap.endLines c) with subscription := some next }
      console chunks := by
  obtain ⟨ending, _, _, read, split, texts⟩ := h
  obtain ⟨first, bound⟩ := Channel.unread_of_received received
  refine ⟨(endLines_push cap _ _).trans ending, nofun, ?_, read ++ [c], ?_, ?_⟩
  · intro cursor same
    cases same
    exact bound
  · rw [split]
    simp only [waiting, first, List.append_assoc, List.singleton_append]
  · intro stream
    have before : cap.gathered stream = transcript endLines stream read := texts stream
    have ending : cap.endLines = endLines := ending
    have after := gathered_push cap c stream
    rw [before, ending, ← transcript_append] at after
    rw [ending]
    exact after

/-- At the end of a closed console everything has been read. -/
theorem Gathered.leave {cursor next : Cursor}
    (h : Gathered endLines { cap with subscription := some cursor } console chunks)
    (ended : console.poll cursor = (.closed, next)) :
    Gathered endLines { cap with subscription := none } console.leave chunks := by
  obtain ⟨ending, _, _, read, split, texts⟩ := h
  obtain ⟨none_, closed⟩ := Channel.unread_of_closed ended
  refine ⟨ending, fun _ => closed, nofun, read, ?_, texts⟩
  rw [split]
  simp only [waiting, none_]

/-- What is asked of any way to read: nothing is lost, and nobody else notices. -/
structure Reads (endLines : Bool) (console : Console) (chunks : List Chunk) (cap' : Capture)
    (console' : Console) : Prop where
  gathered : Gathered endLines cap' console' chunks
  same : console.SameFeed console'

theorem drainFrom_all (cap : Capture) (console : Console) (cursor : Cursor)
    (h : Gathered endLines { cap with subscription := some cursor } console chunks)
    (kept : console.behind cursor ≤ console.ring) :
    Reads endLines console chunks (cap.drainFrom console cursor).2.1
        (cap.drainFrom console cursor).2.2 ∧
      (cap.drainFrom console cursor).2.1.waiting (cap.drainFrom console cursor).2.2 = [] := by
  fun_induction drainFrom cap console cursor with
  | case1 cap cursor c next received lt count rest result ih =>
    have fewer := Nat.le_of_lt (Nat.lt_of_lt_of_le lt kept)
    have step := ih (h.hear received) fewer
    simpa only [result] using step
  -- No more waits than the console keeps, so that nothing has been lost.
  | case2 cap cursor missed next lagged lt ih => exact absurd lagged (Channel.not_lagged kept)
  | case3 cap cursor next empty =>
    obtain ⟨none_, rfl⟩ := Channel.unread_of_empty empty
    exact ⟨⟨h, .refl console⟩, none_⟩
  | case4 cap cursor next ended => exact ⟨⟨h.leave ended, console.sameFeed_leave⟩, rfl⟩

/-- Draining reads all that waits. -/
theorem drain_all (h : Gathered endLines cap console chunks)
    (kept : cap.backlog console ≤ console.ring) :
    Reads endLines console chunks (cap.drain console).2.1 (cap.drain console).2.2 ∧
      (cap.drain console).2.1.waiting (cap.drain console).2.2 = [] := by
  unfold drain
  unfold backlog at kept
  cases there : cap.subscription with
  | none => exact ⟨⟨h, .refl console⟩, by simp only [waiting, there]⟩
  | some cursor =>
    rw [there] at kept
    refine drainFrom_all cap console cursor ?_ kept
    rw [← there]
    exact h

/-- The texts of a capture for which nothing waits are those of all chunks. -/
theorem Gathered.complete (h : Gathered endLines cap console chunks)
    (none_ : cap.waiting console = []) (stream : OutputKind) :
    cap.gathered stream = transcript endLines stream chunks := by
  obtain ⟨_, _, _, read, split, texts⟩ := h
  rw [none_, List.append_nil] at split
  rw [split]
  exact texts stream

/-- What the next chunk does where nothing is lost: it is the first one that waits, or nothing
    waits. -/
theorem next_cases (h : Gathered endLines cap console chunks)
    (kept : cap.backlog console ≤ console.ring) :
    (∃ c, (cap.next console).1 = .chunk c ∧
        Reads endLines console chunks ((cap.next console).2.1.append c) (cap.next console).2.2) ∨
      (∀ c, (cap.next console).1 ≠ .chunk c) ∧
        Reads endLines console chunks (cap.next console).2.1 (cap.next console).2.2 := by
  unfold next
  unfold backlog at kept
  cases there : cap.subscription with
  | none =>
    refine .inr ⟨?_, h, .refl console⟩
    intro c same
    cases same
  | some cursor =>
    rw [there] at kept
    have h : Gathered endLines { cap with subscription := some cursor } console chunks := by
      rw [← there]
      exact h
    dsimp only at kept ⊢
    unfold nextFrom
    split
    · rename_i c next received
      refine .inl ⟨c, rfl, ?_, .refl console⟩
      have heard := h.hear received
      have same : ({ cap with subscription := some next } : Capture).append c =
          { cap.push c.stream (textOf cap.endLines c) with subscription := some next } := by
        obtain ⟨stream, text⟩ := c
        cases stream <;> rfl
      rw [same]
      exact heard
    · rename_i n next lagged
      exact absurd lagged (Channel.not_lagged kept)
    · rename_i next empty
      obtain ⟨_, rfl⟩ := Channel.unread_of_empty empty
      refine .inr ⟨?_, h, .refl console⟩
      intro c same
      cases same
    · rename_i next ended
      refine .inr ⟨?_, h.leave ended, console.sameFeed_leave⟩
      intro c same
      cases same

/-- A chunk that is written waits behind all others, unless the console is closed. -/
theorem Gathered.send (h : Gathered endLines cap console chunks) (c : Chunk) :
    Gathered endLines cap (console.send c)
      (chunks ++ if console.closed then [] else [c]) := by
  by_cases closed : console.closed = true
  · rw [Channel.send_of_closed c closed, if_pos closed, List.append_nil]
    exact h
  · have running : console.closed = false := by simpa using closed
    obtain ⟨ending, reading, bounded, read, split, texts⟩ := h
    have longer : (console.send c).sent = console.sent ++ [c] := by
      simp only [Channel.send, running, Bool.false_eq_true, if_false]
    refine ⟨ending, ?_, ?_, read, ?_, texts⟩
    · intro none_
      exact absurd (reading none_) closed
    · intro cursor there
      rw [longer, List.length_append]
      exact Nat.le_add_right_of_le (bounded cursor there)
    · rw [if_neg closed, split, List.append_assoc]
      refine congrArg (read ++ ·) ?_
      unfold waiting
      split
      · rename_i cursor there
        exact (Channel.unread_send c running (bounded cursor there)).symm
      · rename_i none_
        exact absurd (reading none_) closed

theorem Gathered.close (h : Gathered endLines cap console chunks) :
    Gathered endLines cap console.close chunks :=
  ⟨h.ending, fun _ => rfl, h.bounded, h.texts⟩

end Capture

end BuildSupervisor
