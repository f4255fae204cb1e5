import BuildSupervisor.Proofs.Console.Sifting
import BuildSupervisor.Proofs.Session.Timeless
import BuildSupervisor.Proofs.Session.Underway
/-!
# What a session gathers

A session that reads the console for a build gathers texts of what is written since it began to do
so.  `Session.ReadsFrom` is kept by each way to read, and begins where a build is taken up.
-/

namespace BuildSupervisor

namespace Session

/-- Some of the chunks written behind the first `n` are gathered, none of them twice and in the
    order in which they were written. -/
def GathersFrom (n : Nat) (s : Session) : Prop :=
  ∃ read, read.Sublist (s.console.sent.drop n) ∧ s.capture.Holds read

/-- The session reads what is written behind the first `n` chunks. -/
structure ReadsFrom (n : Nat) (s : Session) : Prop where
  begun : n ≤ s.console.sent.length
  sifted : s.capture.Sifted s.console (s.console.sent.drop n)

namespace ReadsFrom

variable {n : Nat} {s : Session} (h : ReadsFrom n s)

include h

theorem gathers : GathersFrom n s := by
  obtain ⟨read, among, holds⟩ := h.sifted.texts
  exact ⟨read, (List.sublist_append_left _ _).trans among, holds⟩

/-- Reading goes on where the console stays what it was. -/
theorem of_feed {t : Session} (feed : s.console.SameFeed t.console)
    (sifted : t.capture.Sifted t.console (s.console.sent.drop n)) : ReadsFrom n t := by
  rw [← feed.sent] at sifted
  exact ⟨by rw [feed.sent]; exact h.begun, sifted⟩

theorem hear {c : Chunk} (next : s.nextChunk.1 = .chunk c) :
    ReadsFrom n (s.nextChunk.2.onOutputChunk c).2 :=
  h.of_feed (s.capture.sameFeed_next s.console) (h.sifted.hear (Prod.ext next rfl))

theorem listen (quiet : ∀ c, s.nextChunk.1 ≠ .chunk c) : ReadsFrom n s.nextChunk.2 :=
  h.of_feed (s.capture.sameFeed_next s.console) (h.sifted.listen quiet)

theorem drain : ReadsFrom n s.drainConsole.2 :=
  h.of_feed (s.capture.sameFeed_drain s.console) h.sifted.drain

theorem write (c : Chunk) : ReadsFrom n (s.write c).2 := by
  have sifted := h.sifted.send c
  by_cases closed : s.console.closed = true
  · have same : (s.write c).2.console = s.console := Channel.send_of_closed c closed
    exact h.of_feed (by rw [same]; exact .refl _) (by rw [same]; exact h.sifted)
  · have longer : (s.write c).2.console.sent = s.console.sent ++ [c] := by
      rw [Session.write, Channel.send, if_neg closed]
    rw [if_neg closed, ← List.drop_append_of_le_length h.begun, ← longer] at sifted
    refine ⟨?_, sifted⟩
    rw [longer, List.length_append]
    exact Nat.le_add_right_of_le h.begun

theorem close : ReadsFrom n s.closeConsole :=
  ⟨h.begun, h.sifted.bounded, h.sifted.texts⟩

theorem of_same {t : Session} (same : s.SameButSchedule t) : ReadsFrom n t := by
  obtain ⟨_, rfl⟩ := same
  exact ⟨h.begun, h.sifted⟩

end ReadsFrom

/-- A build that is taken up reads what is written from now on; else the session stays as it is, or
    is at rest. -/
theorem readsFrom_start {s : Session} {located : Located} {request : BuildRequest}
    {build : ActiveBuild} (active : (s.start located request).2.active = some build) :
    (s.start located request).2 = s ∨
      (s.start located request).1 = .ok (.accepted build.id) ∧
        ReadsFrom s.console.sent.length (s.start located request).2 := by
  by_cases accepted : ∃ id, (s.start located request).1 = .ok (.accepted id)
  · obtain ⟨id, accepted⟩ := accepted
    obtain ⟨fresh, opened, _, subscribed⟩ := start_accepted accepted
    have number : build.id = id := by
      rw [opened] at active
      cases active
      exact fresh.symm
    obtain ⟨sifted, feed⟩ :=
      Capture.sifted_subscribe (s.capture.blank_reset s.console) subscribed
    have sent := feed.sent.trans (s.capture.sameFeed_reset s.console).sent
    refine .inr ⟨by rw [number, accepted], Nat.le_of_eq (by rw [sent]), ?_⟩
    rw [sent, List.drop_length]
    exact sifted
  · refine .inl ?_
    revert active accepted
    unfold start
    split
    · exact fun _ _ => rfl
    · unfold begin
      dsimp only
      split
      · exact nofun
      · intro _ accepted
        refine absurd ?_ accepted
        split <;> exact ⟨_, rfl⟩

end Session

end BuildSupervisor
