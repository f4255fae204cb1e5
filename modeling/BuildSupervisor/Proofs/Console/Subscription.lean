import BuildSupervisor.Proofs.Console.Gathering
/-!
# The readers of a console

A console only counts its readers.  `Capture.readers` is the part of a capture in that number, and
`Capture.Counted` says that it is counted rightly, however the capture reads.
-/

namespace BuildSupervisor

theorem Channel.readers_send {α : Type u} (c : Channel α) (value : α) :
    (c.send value).readers = c.readers := by
  unfold send
  split <;> rfl

namespace Capture

/-- How many of the readers of the console the capture is. -/
def readers (cap : Capture) : Nat :=
  if cap.isSubscribed then 1 else 0

theorem readers_le_one (cap : Capture) : cap.readers ≤ 1 := by
  unfold readers
  split
  · exact Nat.le_refl 1
  · exact Nat.zero_le 1

@[simp] theorem readers_append (cap : Capture) (c : Chunk) : (cap.append c).readers = cap.readers := by
  rw [readers, readers, isSubscribed, isSubscribed, subscription_append]

/-- What reading does to a subscription: it goes on, or it ends with a closed console, which then
    has one reader less. -/
inductive ReadsOn (cap : Capture) (console : Console) : Capture × Console → Prop where
  | on {cap'} : cap'.readers = cap.readers → ReadsOn cap console (cap', console)
  | ended {cap'} : cap.readers = 1 → cap'.readers = 0 → console.closed = true →
      ReadsOn cap console (cap', console.leave)

theorem readsOn_drainFrom {cap : Capture} {console : Console} {cursor : Cursor}
    (subscribed : cap.readers = 1) : ReadsOn cap console (cap.drainFrom console cursor).2 := by
  fun_induction drainFrom cap console cursor with
  | case1 cap cursor c next _ _ count rest result ih =>
    have same : (cap.push c.stream (textOf cap.endLines c)).readers = cap.readers := by
      rw [readers, readers, isSubscribed, isSubscribed, subscription_push]
    rw [result] at ih
    cases ih (same.trans subscribed) with
    | on kept => exact .on (kept.trans same)
    | ended _ left closed => exact .ended subscribed left closed
  | case2 _ _ _ _ _ _ ih => exact ih subscribed
  | case3 => exact .on subscribed.symm
  | case4 cap cursor next ended =>
    exact .ended subscribed rfl (Channel.unread_of_closed ended).2

theorem readsOn_nextFrom {cap : Capture} {console : Console} {cursor : Cursor}
    (subscribed : cap.readers = 1) : ReadsOn cap console (cap.nextFrom console cursor).2 := by
  fun_induction nextFrom cap console cursor with
  | case1 => exact .on subscribed.symm
  | case2 _ _ _ _ _ ih => exact ih
  | case3 => exact .on subscribed.symm
  | case4 cursor next ended => exact .ended subscribed rfl (Channel.unread_of_closed ended).2

theorem readsOn_drain (cap : Capture) (console : Console) :
    ReadsOn cap console (cap.drain console).2 := by
  unfold drain
  split
  · rename_i there
    exact readsOn_drainFrom (by rw [readers, isSubscribed, there]; rfl)
  · exact .on rfl

theorem readsOn_next (cap : Capture) (console : Console) :
    ReadsOn cap console (cap.next console).2 := by
  unfold next
  split
  · rename_i there
    exact readsOn_nextFrom (by rw [readers, isSubscribed, there]; rfl)
  · exact .on rfl

namespace ReadsOn

variable {cap : Capture} {console : Console} {after : Capture × Console}

theorem closed (h : ReadsOn cap console after) : after.2.closed = console.closed := by
  cases h <;> rfl

/-- An open console is read on. -/
theorem readers (h : ReadsOn cap console after) (isOpen : console.closed = false) :
    after.1.readers = cap.readers := by
  cases h with
  | on kept => exact kept
  | ended _ _ closed =>
    rw [isOpen] at closed
    cases closed

end ReadsOn

/-- The capture does not read, and has nothing. -/
structure Blank (cap : Capture) : Prop where
  subscription : cap.subscription = none
  stdout : cap.stdout = ""
  stderr : cap.stderr = ""

theorem blank_new (endLines : Bool) : (new endLines).Blank :=
  ⟨rfl, rfl, rfl⟩

theorem blank_reset (cap : Capture) (console : Console) : (cap.reset console).1.Blank := by
  rw [reset_eq_new]
  exact blank_new cap.endLines

namespace Blank

variable {cap : Capture} (h : cap.Blank)

include h

theorem readers : cap.readers = 0 := by
  rw [Capture.readers, isSubscribed, h.subscription]
  rfl

/-- Nothing that comes in is kept while the console is not read. -/
theorem append (c : Chunk) : cap.append c = cap := by
  rw [Capture.append, isSubscribed, h.subscription]
  rfl

theorem drain (console : Console) : cap.drain console = (0, cap, console) := by
  rw [Capture.drain, h.subscription]

theorem next (console : Console) : cap.next console = (.pending, cap, console) := by
  rw [Capture.next, h.subscription]

end Blank

/-- Of the readers of the console, `others` are not the capture. -/
def Counted (others : Nat) (cap : Capture) (console : Console) : Prop :=
  console.readers = others + cap.readers

namespace Counted

variable {others : Nat} {cap : Capture} {console : Console}

theorem readsOn (h : Counted others cap console) {after : Capture × Console}
    (reads : ReadsOn cap console after) : Counted others after.1 after.2 := by
  unfold Counted at *
  cases reads with
  | on kept => rw [kept, h]
  | @ended cap' was left _ =>
    change console.readers - 1 = others + cap'.readers
    omega

/-- A capture that is reset is none of the readers. -/
theorem reset (h : Counted others cap console) : (cap.reset console).2.readers = others := by
  unfold Counted readers at h
  obtain ⟨_, subscription, _, _⟩ := cap
  cases subscription with
  | none => exact h
  | some cursor =>
    change console.readers - 1 = others
    rw [h]
    rfl

/-- A capture that begins to read is one reader more. -/
theorem subscribe? {cap' : Capture} {console' : Console} (h : Counted others cap console)
    (subscribed : cap.subscribe? console = some (cap', console')) :
    Counted others cap' console' ∧ cap'.readers = 1 := by
  unfold Counted readers at *
  obtain ⟨_, subscription, _, _⟩ := cap
  cases subscription with
  | some cursor =>
    cases subscribed
    exact ⟨h, rfl⟩
  | none =>
    obtain ⟨⟨cursor, joined⟩, admitted, made⟩ := Option.map_eq_some_iff.mp subscribed
    cases made
    unfold Channel.join? at admitted
    split at admitted
    · cases admitted
    · cases admitted
      exact ⟨congrArg (· + 1) h, rfl⟩

end Counted

end Capture

end BuildSupervisor
