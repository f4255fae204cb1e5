import BuildSupervisor.Proofs.Crew.Leading
import BuildSupervisor.Proofs.Session.Independence
/-!
# Services that keep up with the console

A session is abreast of the console if it has read all but the last chunk there.  No turn of the
service changes that, and where the service has nothing to do all has been read, so that an invoker
that writes only then never writes more than is read.
-/

namespace BuildSupervisor

namespace Capture

theorem backlog_reset (cap : Capture) (console other : Console) :
    (cap.reset console).1.backlog other = 0 := by
  rw [reset_eq_new]
  rfl

theorem backlog_next_le (cap : Capture) (console : Console) :
    (cap.next console).2.1.backlog (cap.next console).2.2 ≤ cap.backlog console := by
  by_cases quiet : ∀ c, (cap.next console).1 ≠ .chunk c
  · rw [backlog_next quiet]
    exact Nat.zero_le _
  · obtain ⟨c, there⟩ := not_forall.mp quiet
    have next : cap.next console = (.chunk c, (cap.next console).2) :=
      Prod.ext (not_not.mp there) rfl
    exact Nat.le_of_lt (Service.backlog_of_chunk next).2.2

/-- A capture that begins to read has everything before it. -/
theorem backlog_subscribe? {cap cap' : Capture} {console console' : Console}
    (unread : cap.subscription = none) (h : cap.subscribe? console = some (cap', console')) :
    cap'.backlog console' = 0 := by
  unfold subscribe? Channel.join? at h
  rw [unread] at h
  dsimp only at h
  split at h
  · cases h
  · cases h
    exact Nat.sub_self _

/-- Where no chunk comes and no more than one could, nothing waits. -/
theorem backlog_of_quiet {cap : Capture} {console : Console} (roomy : 1 ≤ console.ring)
    (few : cap.backlog console ≤ 1) (quiet : ∀ c, (cap.next console).1 ≠ .chunk c) :
    cap.backlog console = 0 := by
  unfold next at quiet
  unfold backlog at few ⊢
  split
  · rename_i cursor there
    rw [there] at few quiet
    dsimp only at few quiet
    have kept : ¬ 0 < console.missed cursor := by
      simp only [Channel.missed, Channel.unread, List.length_drop]
      change console.sent.length - cursor.next ≤ 1 at few
      omega
    cases last : console.sent[cursor.next]? with
    | none => exact Nat.sub_eq_zero_of_le (List.getElem?_eq_none_iff.mp last)
    | some c =>
      have poll : console.poll cursor = (.received c, ⟨cursor.next + 1⟩) := by
        simp only [Channel.poll, kept, if_false, last]
      refine absurd ?_ (quiet c)
      unfold nextFrom
      split <;> rename_i there <;> cases poll.symm.trans there
      rfl
  · rfl

end Capture

namespace Session

/-- The session has read all but the last chunk on its console. -/
structure Abreast (s : Session) : Prop where
  few : s.capture.backlog s.console ≤ 1
  roomy : 1 ≤ s.console.ring

namespace Abreast

variable {s t : Session}

/-- Nothing waits that could be read. -/
theorem of_empty (h : Abreast s) (empty : t.capture.backlog t.console = 0)
    (ring : t.console.ring = s.console.ring) : Abreast t :=
  ⟨empty ▸ Nat.zero_le 1, ring ▸ h.roomy⟩

theorem reset (h : Abreast s) : Abreast s.reset :=
  h.of_empty (Capture.backlog_reset ..) (ring_reset s)

theorem nextChunk (h : Abreast s) : Abreast s.nextChunk.2 :=
  ⟨Nat.le_trans (s.capture.backlog_next_le s.console) h.few,
    (s.capture.sameFeed_next s.console).ring ▸ h.roomy⟩

theorem runDeferred (h : Abreast s) (task : Deferred) : Abreast (s.runDeferred task) := by
  have ring := ring_runDeferred s task
  rcases s.runDeferred_cases task with same | ⟨build, succeeded, said, note, _, _, ended⟩
  · rw [same]
    exact h
  · rw [ended] at ring ⊢
    exact h.of_empty (Capture.backlog_reset ..) ring

theorem start (h : Abreast s) (located : Located) (request : BuildRequest) :
    Abreast (s.start located request).2 := by
  have ring := ring_start s located request
  unfold Session.start at ring ⊢
  split at ring
  · exact h
  · have rested : s.reset.capture.subscription = none := by
      change (s.capture.reset s.console).1.subscription = none
      rw [Capture.reset_eq_new]
      rfl
    unfold begin at ring ⊢
    dsimp only at ring ⊢
    split at ring
    · exact h.of_empty (Capture.backlog_reset ..) ring
    · rename_i subscribed
      have all := Capture.backlog_subscribe? rested subscribed
      split at ring <;> exact h.of_empty all ring

theorem onBuildComplete (h : Abreast s) (succeeded : Bool) (said : String) :
    Abreast (s.onBuildComplete succeeded said).2 := by
  unfold Session.onBuildComplete
  split
  · exact h
  · split <;> exact ⟨h.few, h.roomy⟩

/-- One more chunk may be written where nothing waits. -/
theorem write (h : Abreast s) (empty : s.capture.backlog s.console = 0) (c : Chunk) :
    Abreast (s.write c).2 := by
  refine ⟨?_, ?_⟩
  · change s.capture.backlog (s.console.send c) ≤ 1
    unfold Capture.backlog Channel.behind at empty ⊢
    unfold Channel.send
    split
    · rename_i cursor there
      rw [there] at empty
      dsimp only at empty
      split
      · omega
      · simp only [List.length_append, List.length_singleton]
        omega
    · exact Nat.zero_le _
  · exact (Channel.ring_send s.console c).symm ▸ h.roomy

end Abreast

end Session

namespace Service

variable {v w : Service}

theorem abreast_handle (h : v.session.Abreast) (ticket : Ticket) (command : Command) :
    (v.handle ticket command).session.Abreast := by
  cases command with
  | start request =>
    have started := h.start v.located request
    exact ⟨started.few, started.roomy⟩
  | buildComplete succeeded said =>
    have told := h.onBuildComplete succeeded said
    exact ⟨told.few, told.roomy⟩
  | reset => exact h.reset
  | status => exact h
  | shutdown => exact h.reset

theorem abreast_step (h : v.session.Abreast) (step : v.step? = some w) : w.session.Abreast := by
  obtain ⟨_, e, _, enters⟩ := enters_of_step step
  have looked := h.nextChunk
  cases enters with
  | heard _ => exact ⟨(Capture.backlog_append ..).symm ▸ looked.few, looked.roomy⟩
  | did _ _ => exact looked.runDeferred _
  | @took ticket command rest _ _ _ =>
    exact abreast_handle (v := { v.listened with inbox := rest }) looked ticket command
  | looked _ _ _ => exact looked
  | left _ _ _ _ => exact looked.reset

/-- A service that has nothing to do has read everything. -/
theorem backlog_of_waits (h : v.session.Abreast) (running : v.stopped = false)
    (waits : v.step? = none) : v.session.capture.backlog v.session.console = 0 := by
  rcases waits_of_step waits with stopped | ⟨quiet, _⟩
  · cases running.symm.trans stopped
  · exact Capture.backlog_of_quiet h.roomy h.few quiet

/-- An invoker that waits for the service writes no more than is read. -/
theorem abreast_handled {j : Invoker} (h : v.session.Abreast) (running : v.stopped = false)
    (waits : v.step? = none) (handled : Crew.Handled v j w) : w.session.Abreast := by
  cases handled with
  | left => exact h
  | wrote c _ => exact h.write (backlog_of_waits h running waits) c
  | sent _ _ => exact h

end Service

end BuildSupervisor
