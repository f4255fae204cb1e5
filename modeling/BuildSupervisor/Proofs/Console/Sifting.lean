import BuildSupervisor.Proofs.Console.Reading
import BuildSupervisor.Proofs.Console.Subscription
/-!
# What a capture gathers of a console it cannot keep up with

`Capture.Sifted` is what `Capture.Gathered` says, for a capture that may fall behind and lose
chunks: the texts it holds are those of some of the chunks written since it began to read, none of
them twice and in the order in which they were written, and what still waits comes behind them.
-/

namespace BuildSupervisor

/-- The unread values that are still kept are among those that are unread, in their order. -/
theorem Channel.kept_sublist_unread {α : Type u} (c : Channel α) (cursor : Cursor) :
    (c.kept cursor).Sublist (c.unread cursor) :=
  List.drop_sublist _ _

/-- A ring keeps the newest of the values that are unread. -/
theorem Channel.unread_of_kept_nil {α : Type u} {c : Channel α} {cursor : Cursor}
    (ring : 0 < c.ring) (none_ : c.kept cursor = []) : c.unread cursor = [] := by
  have all := List.drop_eq_nil_iff.mp none_
  unfold missed at all
  rw [← List.length_eq_zero_iff]
  omega

namespace Capture

/-- The chunks that the capture can still read. -/
def readable (cap : Capture) (console : Console) : List Chunk :=
  match cap.subscription with
  | some cursor => console.kept cursor
  | none => []

/-- The texts that a capture holds are those of some of the chunks, in their order. -/
def Holds (cap : Capture) (chunks : List Chunk) : Prop :=
  ∀ stream, cap.gathered stream = transcript cap.endLines stream chunks

/-- Of the chunks written since the capture began to read, it holds the texts of some that do not
    wait any more. -/
structure Sifted (cap : Capture) (console : Console) (chunks : List Chunk) : Prop where
  bounded : ∀ cursor, cap.subscription = some cursor → cursor.next ≤ console.sent.length
  texts : ∃ read, (read ++ cap.waiting console).Sublist chunks ∧ cap.Holds read

variable {cap : Capture} {console : Console} {chunks : List Chunk}

theorem holds_pushAll {read : List Chunk} (h : cap.Holds read) (more : List Chunk) :
    (cap.pushAll more).Holds (read ++ more) := by
  induction more generalizing cap read with
  | nil => rwa [List.append_nil]
  | cons c more ih =>
    have pushed : (cap.push c.stream (textOf cap.endLines c)).Holds (read ++ [c]) := by
      intro stream
      rw [gathered_push, h stream, endLines_push, transcript_append]
    have all := ih pushed
    rwa [List.append_assoc] at all

theorem endLines_pushAll (cap : Capture) (chunks : List Chunk) :
    (cap.pushAll chunks).endLines = cap.endLines := by
  induction chunks generalizing cap with
  | nil => rfl
  | cons c rest ih => exact (ih _).trans (endLines_push cap _ _)

theorem kept_of_nextFrom {cursor : Cursor}
    (none_ : ∀ c, (cap.nextFrom console cursor).1 ≠ .chunk c) : console.kept cursor = [] := by
  fun_induction nextFrom cap console cursor with
  | case1 cursor c => exact absurd rfl (none_ c)
  | case2 cursor missed next lagged lt ih =>
    rw [(Channel.kept_of_lagged lagged).1]
    exact ih none_
  | case3 cursor next empty => exact Channel.kept_of_unread_nil (Channel.unread_of_empty empty).1
  | case4 cursor next ended => exact Channel.kept_of_unread_nil (Channel.unread_of_closed ended).1

/-- Where there is no next chunk, none can be read. -/
theorem readable_of_next (none_ : ∀ c, (cap.next console).1 ≠ .chunk c) :
    cap.readable console = [] := by
  unfold next at none_
  unfold readable
  split
  · rename_i cursor there
    rw [there] at none_
    exact kept_of_nextFrom none_
  · rfl

/-- Where none can be read, none waits, unless there is no ring that could keep any. -/
theorem waiting_of_readable (ring : 0 < console.ring) (none_ : cap.readable console = []) :
    cap.waiting console = [] := by
  unfold waiting
  unfold readable at none_
  split
  · rename_i cursor there
    rw [there] at none_
    exact Channel.unread_of_kept_nil ring none_
  · rfl

/-- A capture that has just begun to read holds nothing. -/
theorem sifted_subscribe {cap' : Capture} {console' : Console} (blank : cap.Blank)
    (h : cap.subscribe? console = some (cap', console')) :
    Sifted cap' console' [] ∧ console.SameFeed console' := by
  simp only [subscribe?, blank.subscription, Channel.join?] at h
  split at h
  · cases h
  · simp only [Option.map_some, Option.some.injEq, Prod.mk.injEq] at h
    obtain ⟨rfl, rfl⟩ := h
    refine ⟨⟨?_, [], ?_, ?_⟩, rfl, rfl, rfl⟩
    · intro cursor same
      cases same
      exact Nat.le_refl _
    · simp only [waiting, Channel.unread, List.drop_length, List.append_nil, List.Sublist.refl]
    · intro stream
      cases stream
      · exact blank.stdout
      · exact blank.stderr

namespace Sifted

variable (h : Sifted cap console chunks)

include h

/-- A chunk that is received and added at once comes behind those that were added before. -/
theorem hear {c : Chunk} {cap' : Capture} {console' : Console}
    (next : cap.next console = (.chunk c, cap', console')) :
    Sifted (cap'.append c) console' chunks := by
  obtain ⟨bounded, read, among, holds⟩ := h
  unfold Capture.next at next
  unfold waiting at among
  cases there : cap.subscription with
  | none =>
    rw [there] at next
    cases next
  | some cursor =>
    rw [there] at next among
    dsimp only at next among
    have bound := bounded cursor there
    cases kept : console.kept cursor with
    | nil =>
      rw [nextFrom_of_kept_nil bound kept] at next
      split at next <;> cases next
    | cons first rest =>
      obtain ⟨behind, bound', unread, eq⟩ := nextFrom_of_kept cap bound kept
      rw [eq] at next
      cases next
      have known : (c :: rest).Sublist (console.unread cursor) :=
        kept ▸ console.kept_sublist_unread cursor
      have holds' : ({ cap with subscription := some behind } : Capture).Holds read := holds
      have added : ({ cap with subscription := some behind } : Capture).append c =
          ({ cap with subscription := some behind } : Capture).pushAll [c] :=
        if_pos rfl
      refine ⟨?_, read ++ [c], ?_, added ▸ holds_pushAll holds' [c]⟩
      · intro cursor' same
        rw [subscription_append] at same
        cases same
        exact bound'
      · unfold waiting
        rw [subscription_append]
        dsimp only
        rw [unread, List.append_assoc]
        exact ((List.Sublist.refl read).append known).trans among

/-- Nothing changes where there is no next chunk, but that what was lost does not wait any more. -/
theorem listen (none_ : ∀ c, (cap.next console).1 ≠ .chunk c) :
    Sifted (cap.next console).2.1 (cap.next console).2.2 chunks := by
  have nothing := readable_of_next none_
  obtain ⟨bounded, read, among, holds⟩ := h
  have before : read.Sublist chunks := (List.sublist_append_left _ _).trans among
  unfold Capture.next
  unfold readable at nothing
  cases there : cap.subscription with
  | none => exact ⟨bounded, read, among, holds⟩
  | some cursor =>
    rw [there] at nothing
    dsimp only at nothing ⊢
    rw [nextFrom_of_kept_nil (bounded cursor there) nothing]
    split
    · refine ⟨?_, read, by rwa [waiting, List.append_nil], holds⟩
      intro cursor' same
      cases same
    · refine ⟨?_, read, ?_, holds⟩
      · intro cursor' same
        cases same
        exact Nat.le_refl _
      · simpa only [waiting, Channel.unread, List.drop_length, List.append_nil] using before

/-- Draining adds what can still be read, in its order. -/
theorem drain : Sifted (cap.drain console).2.1 (cap.drain console).2.2 chunks := by
  obtain ⟨bounded, read, among, holds⟩ := h
  unfold Capture.drain
  unfold waiting at among
  cases there : cap.subscription with
  | none =>
    rw [there] at among
    exact ⟨bounded, read, by simpa only [waiting, there] using among, holds⟩
  | some cursor =>
    rw [there] at among
    dsimp only at among ⊢
    have all : (read ++ console.kept cursor).Sublist chunks :=
      ((List.Sublist.refl read).append (console.kept_sublist_unread cursor)).trans among
    have pushed := holds_pushAll holds (console.kept cursor)
    rw [drainFrom_eq (bounded cursor there)]
    split
    · refine ⟨?_, _, by rwa [waiting, List.append_nil], pushed⟩
      intro cursor' same
      cases same
    · refine ⟨?_, _, ?_, pushed⟩
      · intro cursor' same
        cases same
        exact Nat.le_refl _
      · simpa only [waiting, Channel.unread, List.drop_length, List.append_nil] using all

/-- A chunk that is written waits behind all others, unless the console is closed. -/
theorem send (c : Chunk) :
    Sifted cap (console.send c) (chunks ++ if console.closed then [] else [c]) := by
  by_cases closed : console.closed = true
  · rw [Channel.send_of_closed c closed, if_pos closed, List.append_nil]
    exact h
  · have running : console.closed = false := by simpa using closed
    obtain ⟨bounded, read, among, holds⟩ := h
    have longer : (console.send c).sent = console.sent ++ [c] := by
      simp only [Channel.send, running, Bool.false_eq_true, if_false]
    rw [if_neg closed]
    refine ⟨?_, read, ?_, holds⟩
    · intro cursor there
      rw [longer, List.length_append]
      exact Nat.le_add_right_of_le (bounded cursor there)
    · unfold waiting at among ⊢
      cases there : cap.subscription with
      | none =>
        rw [there] at among
        exact among.trans (List.sublist_append_left _ _)
      | some cursor =>
        rw [there] at among
        dsimp only at among ⊢
        rw [Channel.unread_send c running (bounded cursor there), ← List.append_assoc]
        exact among.append (.refl [c])

end Sifted

end Capture

end BuildSupervisor
