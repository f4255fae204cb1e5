import BuildSupervisor.Proofs.Console.Reading
import BuildSupervisor.Proofs.Console.Subscription
/-!
# Many captures of one console

A hall is a console with the captures that may read it.  Whatever is done to the console or to one
of the captures is an `Act`.  What a chunk that is published is answered with is the number of the
captures that are subscribed: `Hall.publish_reply`.
-/

namespace BuildSupervisor

namespace Channel

/-- The ring is the least power of two that holds the capacity. -/
structure IsRingFor (ring capacity : Nat) : Prop where
  power : ∃ k, ring = Nat.pow 2 k
  holds : capacity ≤ ring
  least : ∀ k, capacity ≤ Nat.pow 2 k → ring ≤ Nat.pow 2 k

theorem isRingFor_ringSize (capacity : Nat) : IsRingFor (ringSize capacity) capacity := by
  unfold ringSize
  split
  · rename_i small
    exact ⟨⟨0, rfl⟩, small, fun k _ => Nat.pow_pos Nat.two_pos⟩
  · rename_i large
    have nonzero : capacity - 1 ≠ 0 := by omega
    have below : capacity - 1 < Nat.pow 2 ((capacity - 1).log2 + 1) := Nat.lt_log2_self
    have above : Nat.pow 2 (capacity - 1).log2 ≤ capacity - 1 := Nat.log2_self_le nonzero
    refine ⟨⟨_, rfl⟩, by omega, ?_⟩
    intro k holds
    have less : Nat.pow 2 (capacity - 1).log2 < Nat.pow 2 k := by omega
    exact Nat.pow_le_pow_right Nat.two_pos ((Nat.pow_lt_pow_iff_right Nat.one_lt_two).mp less)

end Channel

namespace Capture

/-- What a capture can be asked to do. -/
inductive Use where
  | subscribe
  | unsubscribe
  | drain
  /-- To wait for the next chunk, and to add it. -/
  | listen
  /-- To hand over what it has gathered. -/
  | take
  | reset
  deriving DecidableEq

/-- What comes of it. -/
inductive Reply where
  | admitted (yes : Bool)
  | wasSubscribed (yes : Bool)
  | counted (n : Nat)
  | heard (next : NextChunk)
  | texts (stdout stderr : String)
  | done
  deriving DecidableEq

/-- Subscribes, if the console admits that. -/
def enrol (cap : Capture) (console : Console) : Reply × Capture × Console :=
  match cap.subscribe? console with
  | some after => (.admitted true, after)
  | none => (.admitted false, cap, console)

/-- Adds the next chunk, if there is one. -/
def listen (cap : Capture) (console : Console) : Reply × Capture × Console :=
  match cap.next console with
  | (.chunk c, cap, console) => (.heard (.chunk c), cap.append c, console)
  | (other, after) => (.heard other, after)

def use (cap : Capture) (console : Console) : Use → Reply × Capture × Console
  | .subscribe => cap.enrol console
  | .unsubscribe => (.wasSubscribed cap.isSubscribed, cap.unsubscribe console)
  | .drain => (.counted (cap.drain console).1, (cap.drain console).2)
  | .listen => cap.listen console
  | .take => (.texts cap.stdout cap.stderr, cap.clear, console)
  | .reset => (.done, cap.reset console)

/-- Whatever a capture is asked to do, it is counted rightly among the readers. -/
theorem Counted.use {cap : Capture} {console : Console} {others : Nat}
    (h : Counted others cap console) (u : Use) :
    Counted others (cap.use console u).2.1 (cap.use console u).2.2 := by
  cases u with
  | subscribe =>
    change Counted others (cap.enrol console).2.1 (cap.enrol console).2.2
    unfold enrol
    split
    · rename_i after subscribed
      exact (h.subscribe? subscribed).1
    · exact h
  | unsubscribe =>
    obtain ⟨_, subscription, _, _⟩ := cap
    cases subscription with
    | none => exact h
    | some cursor => exact congrArg (· - 1) h
  | drain => exact h.readsOn (cap.readsOn_drain console)
  | listen =>
    have reads := h.readsOn (cap.readsOn_next console)
    change Counted others (cap.listen console).2.1 (cap.listen console).2.2
    unfold listen
    split
    · rename_i c cap' console' next
      rw [next] at reads
      exact reads.trans (congrArg (others + ·) (readers_append cap' c).symm)
    · rename_i other after _ next
      rw [next] at reads
      exact reads
  | take => exact h
  | reset =>
    have blank := (cap.blank_reset console).readers
    change (cap.reset console).2.readers = others + (cap.reset console).1.readers
    rw [h.reset, blank, Nat.add_zero]

theorem sameFeed_unsubscribe (cap : Capture) (console : Console) :
    console.SameFeed (cap.unsubscribe console).2 := by
  unfold unsubscribe
  split
  · exact console.sameFeed_leave
  · exact .refl console

/-- Nothing that a capture is asked to do changes what the others can read. -/
theorem sameFeed_use (cap : Capture) (console : Console) (u : Use) :
    console.SameFeed (cap.use console u).2.2 := by
  cases u with
  | subscribe =>
    change console.SameFeed (cap.enrol console).2.2
    unfold enrol subscribe? Channel.join?
    split
    · rename_i after subscribed
      split at subscribed
      · cases subscribed
        exact .refl console
      · split at subscribed
        · cases subscribed
        · cases subscribed
          exact ⟨rfl, rfl, rfl⟩
    · exact .refl console
  | unsubscribe => exact cap.sameFeed_unsubscribe console
  | drain => exact cap.sameFeed_drain console
  | listen =>
    have same := cap.sameFeed_next console
    change console.SameFeed (cap.listen console).2.2
    unfold listen
    split
    · rename_i next
      rw [next] at same
      exact same
    · rename_i next
      rw [next] at same
      exact same
  | take => exact .refl console
  | reset => exact cap.sameFeed_unsubscribe console

end Capture

/-- A console and the captures that may read it. -/
structure Hall where
  console : Console
  captures : List Capture
  deriving DecidableEq

namespace Hall

/-- A console that nothing was published on, with a capture for each of the ways to end lines. -/
def opened (capacity : Nat) (endings : List Bool) : Hall :=
  ⟨Channel.new (Channel.ringSize capacity), endings.map Capture.new⟩

/-- A hall whose console has room for so many chunks, if that is possible. -/
def open? (capacity : Nat) (endings : List Bool) : Option Hall :=
  (Channel.ofCapacity? capacity).map fun console => ⟨console, endings.map Capture.new⟩

theorem open?_eq {capacity : Nat} (positive : 1 ≤ capacity) (endings : List Bool) :
    open? capacity endings = some (opened capacity endings) := by
  rw [open?, Channel.ofCapacity?, if_neg (Nat.ne_of_gt positive)]
  rfl

inductive Act where
  | publish (c : Chunk)
  | close
  | use (i : Nat) (u : Capture.Use)
  deriving DecidableEq

/-- Does something to the console, or to a capture if there is one of that number. -/
def act (h : Hall) : Act → Capture.Reply × Hall
  | .publish c => (.counted h.console.audience, { h with console := h.console.send c })
  | .close => (.done, { h with console := h.console.close })
  | .use i u =>
    match h.captures[i]? with
    | none => (.done, h)
    | some cap =>
      ((cap.use h.console u).1, ⟨(cap.use h.console u).2.2, h.captures.set i (cap.use h.console u).2.1⟩)

def run (h : Hall) : List Act → Hall
  | [] => h
  | act :: acts => run (h.act act).2 acts

/-- What a capture replies in a run. -/
def repliesOf (h : Hall) (i : Nat) : List Act → List Capture.Reply
  | [] => []
  | .use j u :: acts =>
    if j = i then (h.act (.use j u)).1 :: repliesOf (h.act (.use j u)).2 i acts
    else repliesOf (h.act (.use j u)).2 i acts
  | act :: acts => repliesOf (h.act act).2 i acts

/-- Whether the capture of that number is subscribed. -/
def listens (h : Hall) (i : Nat) : Bool :=
  (h.captures[i]?).any Capture.isSubscribed

/-- The chunks that are published in a run before the console is closed, while the capture is
    subscribed. -/
def presentedTo (h : Hall) (i : Nat) : List Act → List Chunk
  | [] => []
  | .publish c :: acts =>
    (if h.listens i && !h.console.closed then [c] else []) ++
      presentedTo (h.act (.publish c)).2 i acts
  | act :: acts => presentedTo (h.act act).2 i acts

/-- How many of the captures are subscribed. -/
def subscribers (h : Hall) : Nat :=
  h.captures.countP Capture.isSubscribed

/-- The console counts the captures that are subscribed. -/
def Counts (h : Hall) : Prop :=
  h.console.readers = h.subscribers

theorem counts_opened (capacity : Nat) (endings : List Bool) :
    (opened capacity endings).Counts := by
  have blank : (endings.map Capture.new).countP Capture.isSubscribed = 0 := by
    refine List.countP_eq_zero.mpr ?_
    intro cap mem
    obtain ⟨ending, _, rfl⟩ := List.mem_map.mp mem
    exact Bool.false_ne_true
  exact blank.symm

theorem readers_le_subscribers {h : Hall} {cap : Capture} (mem : cap ∈ h.captures) :
    cap.readers ≤ h.subscribers := by
  unfold Capture.readers
  split
  · rename_i subscribed
    exact List.countP_pos_iff.mpr ⟨cap, mem, subscribed⟩
  · exact Nat.zero_le _

theorem Counts.act {h : Hall} (counts : h.Counts) (a : Act) : (h.act a).2.Counts := by
  cases a with
  | publish c => exact (h.console.readers_send c).trans counts
  | close => exact counts
  | use i u =>
    cases there : h.captures[i]? with
    | none =>
      simp only [Hall.act, there]
      exact counts
    | some cap =>
      simp only [Hall.act, there]
      obtain ⟨bound, at_⟩ := List.getElem?_eq_some_iff.mp there
      have among := readers_le_subscribers (List.mem_of_getElem? there)
      -- The other captures are those of the count that are not this one.
      have before : Capture.Counted (h.subscribers - cap.readers) cap h.console := by
        have counts : h.console.readers = h.subscribers := counts
        rw [Capture.Counted, counts, Nat.sub_add_cancel among]
      have after := before.use u
      rw [Capture.Counted] at after
      rw [Counts, subscribers, List.countP_set bound, at_]
      exact after

theorem Counts.run {h : Hall} (counts : h.Counts) (acts : List Act) : (h.run acts).Counts := by
  induction acts generalizing h with
  | nil => exact counts
  | cons a acts ih => exact ih (counts.act a)

/-- A chunk reaches every capture that is subscribed, and none once the console is closed. -/
theorem Counts.publish_reply {h : Hall} (counts : h.Counts) (c : Chunk) :
    (h.act (.publish c)).1 = .counted (if h.console.closed then 0 else h.subscribers) := by
  have counts : h.console.readers = h.subscribers := counts
  rw [Hall.act, Channel.audience, counts]

end Hall

end BuildSupervisor
