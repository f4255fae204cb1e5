/-!
# Broadcast channels

A channel hands every value that is sent to every reader that has joined.  It remembers what was
sent, but a reader that falls behind by more than `ring` values loses the oldest of them: its next
poll reports how many, and reading goes on with the oldest value that is still kept.  A closed
channel takes no more values; its readers still get those that were sent before.

Each reader is a position in the list of values sent, so that readers never disturb one another.
-/

namespace BuildSupervisor

/-- A position in the list of values sent through a channel. -/
structure Cursor where
  next : Nat
  deriving DecidableEq, Repr

/-- A channel with everything sent so far, oldest first. -/
structure Channel (α : Type u) where
  ring : Nat
  sent : List α
  readers : Nat
  closed : Bool
  deriving DecidableEq, Repr

/-- What a reader gets when it asks for the next value. -/
inductive Poll (α : Type u) where
  | received (value : α)
  | lagged (missed : Nat)
  | empty
  | closed
  deriving DecidableEq, Repr

namespace Channel

variable {α : Type u}

/-- The least power of two that is no less than `n`. -/
def ringSize (n : Nat) : Nat :=
  if n ≤ 1 then 1 else Nat.pow 2 (Nat.log2 (n - 1) + 1)

/-- A channel that keeps as many values for a slow reader as the least power of two that is no
    less than `capacity`.  A capacity of nothing has no ring. -/
def ofCapacity? (capacity : Nat) : Option (Channel α) :=
  if capacity = 0 then none else some ⟨ringSize capacity, [], 0, false⟩

/-- A new channel with a ring of `ring` values. -/
def new (ring : Nat) : Channel α :=
  ⟨ring, [], 0, false⟩

/-- The number of readers that a value sent now would reach. -/
def audience (c : Channel α) : Nat :=
  if c.closed then 0 else c.readers

/-- Sends a value, unless the channel is closed. -/
def send (c : Channel α) (value : α) : Channel α :=
  if c.closed then c else { c with sent := c.sent ++ [value] }

/-- Admits a reader, who gets the values sent from now on.  A closed channel admits none. -/
def join? (c : Channel α) : Option (Cursor × Channel α) :=
  if c.closed then none else some (⟨c.sent.length⟩, { c with readers := c.readers + 1 })

/-- Lets a reader go. -/
def leave (c : Channel α) : Channel α :=
  { c with readers := c.readers - 1 }

/-- Ends the stream. -/
def close (c : Channel α) : Channel α :=
  { c with closed := true }

/-- The values a reader has not read, those it has lost among them. -/
def unread (c : Channel α) (cursor : Cursor) : List α :=
  c.sent.drop cursor.next

/-- How many of the oldest unread values a reader has lost. -/
def missed (c : Channel α) (cursor : Cursor) : Nat :=
  (c.unread cursor).length - c.ring

/-- The unread values that are still kept. -/
def kept (c : Channel α) (cursor : Cursor) : List α :=
  (c.unread cursor).drop (c.missed cursor)

/-- Asks for the next value. -/
def poll (c : Channel α) (cursor : Cursor) : Poll α × Cursor :=
  if 0 < c.missed cursor then (.lagged (c.missed cursor), ⟨cursor.next + c.missed cursor⟩)
  else
    match c.sent[cursor.next]? with
    | some value => (.received value, ⟨cursor.next + 1⟩)
    | none => if c.closed then (.closed, cursor) else (.empty, cursor)

/-- The number of values sent behind the cursor. -/
def behind (c : Channel α) (cursor : Cursor) : Nat :=
  c.sent.length - cursor.next

/-- A poll that yields a value leaves fewer behind the cursor. -/
theorem behind_of_received {c : Channel α} {cursor next : Cursor} {value : α}
    (h : c.poll cursor = (.received value, next)) : c.behind next < c.behind cursor := by
  unfold poll at h
  split at h
  · simp at h
  · split at h
    · rename_i heq
      have hlt := (List.getElem?_eq_some_iff.1 heq).1
      simp only [Prod.mk.injEq] at h
      rw [← h.2]
      simp only [behind]
      omega
    · split at h <;> simp at h

/-- A poll that reports lost values leaves fewer behind the cursor. -/
theorem behind_of_lagged {c : Channel α} {cursor next : Cursor} {n : Nat}
    (h : c.poll cursor = (.lagged n, next)) : c.behind next < c.behind cursor := by
  unfold poll at h
  split at h
  · rename_i hpos
    simp only [Prod.mk.injEq] at h
    rw [← h.2]
    simp only [missed, unread, List.length_drop, behind] at hpos ⊢
    omega
  · split at h
    · simp at h
    · split at h <;> simp at h

end Channel

end BuildSupervisor
