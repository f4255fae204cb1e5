import BuildSupervisor.Event
import Mathlib.Data.List.Nodup
/-!
# Logs that tell of one build at a time

`Chronicle log` says how the log of a bus can grow when a single session publishes on it: a build
starts under a number that is greater than all before it, or the build whose start was published
last gets its result.  What a reader of the log may rely on follows by induction on its growth.
-/

namespace BuildSupervisor

namespace Notification

/-- The build whose start is told. -/
def startedId? (n : Notification) : Option BuildId :=
  match n.event with
  | .started => some n.buildId
  | .completed _ => none

/-- The build whose result is told. -/
def completedId? (n : Notification) : Option BuildId :=
  match n.event with
  | .started => none
  | .completed _ => some n.buildId

theorem buildId_of_startedId? {n : Notification} {id : BuildId} (h : n.startedId? = some id) :
    n.buildId = id := by
  unfold startedId? at h
  split at h
  · exact Option.some.inj h
  · cases h

theorem buildId_of_completedId? {n : Notification} {id : BuildId} (h : n.completedId? = some id) :
    n.buildId = id := by
  unfold completedId? at h
  split at h
  · cases h
  · exact Option.some.inj h

end Notification

/-- The builds whose starts a log tells, in its order. -/
def startedIds (log : List Notification) : List BuildId :=
  log.filterMap Notification.startedId?

/-- The builds whose results a log tells, in its order. -/
def completedIds (log : List Notification) : List BuildId :=
  log.filterMap Notification.completedId?

/-- The logs of a bus on which a single session publishes. -/
inductive Chronicle : List Notification → Prop where
  | nil : Chronicle []
  | started {log : List Notification} (id : BuildId) :
      Chronicle log → (∀ n ∈ log, n.buildId < id) →
      Chronicle (log ++ [⟨log.length + 1, id, .started⟩])
  | completed {log : List Notification} (id : BuildId) (result : BuildResult) :
      Chronicle log → log.getLast? = some ⟨log.length, id, .started⟩ →
      Chronicle (log ++ [⟨log.length + 1, id, .completed result⟩])

theorem startedIds_concat_started (log : List Notification) (number : Nat) (id : BuildId) :
    startedIds (log ++ [⟨number, id, .started⟩]) = startedIds log ++ [id] := by
  simp [startedIds, Notification.startedId?]

theorem startedIds_concat_completed (log : List Notification) (number : Nat) (id : BuildId)
    (result : BuildResult) :
    startedIds (log ++ [⟨number, id, .completed result⟩]) = startedIds log := by
  simp [startedIds, Notification.startedId?]

theorem completedIds_concat_started (log : List Notification) (number : Nat) (id : BuildId) :
    completedIds (log ++ [⟨number, id, .started⟩]) = completedIds log := by
  simp [completedIds, Notification.completedId?]

theorem completedIds_concat_completed (log : List Notification) (number : Nat) (id : BuildId)
    (result : BuildResult) :
    completedIds (log ++ [⟨number, id, .completed result⟩]) = completedIds log ++ [id] := by
  simp [completedIds, Notification.completedId?]

/-- Every build whose start is told is told of. -/
theorem exists_of_mem_startedIds {log : List Notification} {id : BuildId}
    (h : id ∈ startedIds log) : ∃ n ∈ log, n.buildId = id := by
  obtain ⟨n, mem, told⟩ := List.mem_filterMap.mp h
  exact ⟨n, mem, Notification.buildId_of_startedId? told⟩

/-- Every build whose result is told is told of. -/
theorem exists_of_mem_completedIds {log : List Notification} {id : BuildId}
    (h : id ∈ completedIds log) : ∃ n ∈ log, n.buildId = id := by
  obtain ⟨n, mem, told⟩ := List.mem_filterMap.mp h
  exact ⟨n, mem, Notification.buildId_of_completedId? told⟩

/-- A place in a list with one more element is the last one or a place before it. -/
theorem concat_eq_append_cons {α : Type u} {xs before after : List α} {x y : α}
    (h : xs ++ [x] = before ++ y :: after) :
    (before = xs ∧ y = x ∧ after = []) ∨
      ∃ rest, after = rest ++ [x] ∧ xs = before ++ y :: rest := by
  rcases List.eq_nil_or_concat after with rfl | ⟨rest, last, rfl⟩
  · obtain ⟨rfl, same⟩ := List.append_inj' h rfl
    exact .inl ⟨rfl, (List.cons.inj same).1.symm, rfl⟩
  · rw [List.concat_eq_append, ← List.cons_append, ← List.append_assoc] at h
    obtain ⟨rfl, same⟩ := List.append_inj' h rfl
    rw [(List.cons.inj same).1]
    exact .inr ⟨rest, List.concat_eq_append, rfl⟩

/-- On an open bus a notification is put behind all others, under the next number. -/
theorem EventBus.log_publish {bus : EventBus} (isOpen : bus.channel.closed = false) (id : BuildId)
    (event : Event) :
    (bus.publish id event).log = bus.log ++ [⟨bus.published + 1, id, event⟩] := by
  simp only [publish, log, announce, Channel.send, isOpen, Bool.false_eq_true, if_false]

/-- What a publication has put behind the log is what was published. -/
theorem EventBus.published_of_log {bus : EventBus} {id : BuildId} {event : Event}
    {n : Notification} (h : (bus.publish id event).log = bus.log ++ [n]) :
    n.buildId = id ∧ n.event = event := by
  by_cases closed : bus.channel.closed = true
  · have same : (bus.publish id event).log = bus.log := by
      simp only [publish, log, Channel.send, closed, if_true]
    rw [same, List.self_eq_append_right] at h
    cases h
  · have isOpen : bus.channel.closed = false := by simpa using closed
    rw [log_publish isOpen] at h
    cases List.append_cancel_left h
    exact ⟨rfl, rfl⟩

theorem Channel.closed_send {α : Type u} (c : Channel α) (value : α) :
    (c.send value).closed = c.closed := by
  unfold send
  split <;> rfl

theorem EventBus.closed_publish (bus : EventBus) (id : BuildId) (event : Event) :
    (bus.publish id event).channel.closed = bus.channel.closed :=
  Channel.closed_send _ _

namespace Chronicle

/-- Notifications are numbered from one on, without a gap. -/
theorem map_sequence {log : List Notification} (h : Chronicle log) :
    log.map Notification.sequence = List.range' 1 log.length := by
  induction h with
  | nil => rfl
  | started id _ _ ih =>
    rw [List.map_append, ih, List.length_append, List.length_singleton, List.range'_1_concat,
      Nat.add_comm 1]
    rfl
  | completed id result _ _ ih =>
    rw [List.map_append, ih, List.length_append, List.length_singleton, List.range'_1_concat,
      Nat.add_comm 1]
    rfl

/-- Builds start under ever greater numbers. -/
theorem pairwise_startedIds {log : List Notification} (h : Chronicle log) :
    (startedIds log).Pairwise (· < ·) := by
  induction h with
  | nil => exact List.Pairwise.nil
  | @started log id _ greater ih =>
    rw [startedIds_concat_started, List.pairwise_append]
    refine ⟨ih, List.pairwise_singleton _ _, ?_⟩
    intro earlier mem later last
    obtain ⟨n, told, rfl⟩ := exists_of_mem_startedIds mem
    rw [List.mem_singleton.mp last]
    exact greater n told
  | completed id result _ _ ih => rwa [startedIds_concat_completed]

/-- The build whose start was published last has no result yet. -/
theorem last_not_mem_completedIds {log : List Notification} (h : Chronicle log) {number : Nat}
    {id : BuildId} (last : log.getLast? = some ⟨number, id, .started⟩) : id ∉ completedIds log := by
  cases h with
  | nil => cases last
  | started other _ greater =>
    rw [List.getLast?_concat] at last
    have same := congrArg Notification.buildId (Option.some.inj last)
    dsimp only at same
    rw [completedIds_concat_started, ← same]
    intro mem
    obtain ⟨n, told, rfl⟩ := exists_of_mem_completedIds mem
    exact Nat.lt_irrefl _ (greater n told)
  | completed other result _ _ =>
    rw [List.getLast?_concat] at last
    have same := congrArg Notification.event (Option.some.inj last)
    cases same

/-- No build has two results. -/
theorem nodup_completedIds {log : List Notification} (h : Chronicle log) :
    (completedIds log).Nodup := by
  induction h with
  | nil => exact List.nodup_nil
  | started id _ _ ih => rwa [completedIds_concat_started]
  | completed id result chronicle last ih =>
    rw [completedIds_concat_completed, ← List.concat_eq_append]
    exact List.Nodup.concat (chronicle.last_not_mem_completedIds last) ih

/-- Right before the result of a build its start is told. -/
theorem started_before_completed {log before after : List Notification} {n : Notification}
    {id : BuildId} (h : Chronicle log) (place : log = before ++ n :: after)
    (told : n.completedId? = some id) :
    ∃ m, before.getLast? = some m ∧ m.startedId? = some id := by
  induction h generalizing after with
  | nil => exact absurd place.symm (by simp)
  | started other _ _ ih =>
    rcases concat_eq_append_cons place with ⟨-, rfl, -⟩ | ⟨rest, -, place⟩
    · cases told
    · exact ih place
  | completed other result _ last ih =>
    rcases concat_eq_append_cons place with ⟨rfl, rfl, -⟩ | ⟨rest, -, place⟩
    · exact ⟨_, last, told⟩
    · exact ih place

/-- A build whose start is not told has no result. -/
theorem not_mem_completedIds {log : List Notification} (h : Chronicle log) {id : BuildId}
    (never : id ∉ startedIds log) : id ∉ completedIds log := by
  intro mem
  obtain ⟨n, there, told⟩ := List.mem_filterMap.mp mem
  obtain ⟨before, after, place⟩ := List.append_of_mem there
  obtain ⟨m, last, started⟩ := h.started_before_completed place told
  apply never
  rw [place, startedIds, List.filterMap_append]
  exact List.mem_append_left _ (List.mem_filterMap.mpr ⟨m, List.mem_of_getLast? last, started⟩)

end Chronicle

end BuildSupervisor
