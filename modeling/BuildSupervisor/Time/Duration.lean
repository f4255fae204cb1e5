/-!
# Durations

A duration is a number of nanoseconds.  Seconds are counted in 64 bits, so that there is a longest
duration; sums that would be longer stop there.
-/

namespace BuildSupervisor

/-- The nanoseconds of the longest duration. -/
def maxNanos : Nat :=
  (UInt64.size - 1) * 1000000000 + 999999999

/-- A length of time. -/
structure Duration where
  nanos : Nat
  bounded : nanos ≤ maxNanos
  deriving DecidableEq

namespace Duration

@[ext] theorem ext {a b : Duration} (h : a.nanos = b.nanos) : a = b := by
  cases a
  cases b
  simpa using h

/-- A number of nanoseconds, or the longest duration where they are too many. -/
def ofNanos (n : Nat) : Duration :=
  ⟨min n maxNanos, Nat.min_le_right _ _⟩

/-- No time. -/
def zero : Duration :=
  ofNanos 0

def max : Duration :=
  ofNanos maxNanos

/-- A number of milliseconds. -/
def ofMillis (ms : UInt64) : Duration :=
  ofNanos (ms.toNat * 1000000)

/-- A number of seconds. -/
def ofSecs (secs : UInt64) : Duration :=
  ofNanos (secs.toNat * 1000000000)

/-- The sum of two durations, at most the longest one. -/
def add (a b : Duration) : Duration :=
  ofNanos (a.nanos + b.nanos)

def wholeSecs (d : Duration) : Nat :=
  d.nanos / 1000000000

/-- What a duration has beyond its whole seconds, in nanoseconds. -/
def subsecNanos (d : Duration) : Nat :=
  d.nanos % 1000000000

instance : LE Duration := ⟨fun a b => a.nanos ≤ b.nanos⟩

instance : LT Duration := ⟨fun a b => a.nanos < b.nanos⟩

instance (a b : Duration) : Decidable (a ≤ b) :=
  inferInstanceAs (Decidable (a.nanos ≤ b.nanos))

instance (a b : Duration) : Decidable (a < b) :=
  inferInstanceAs (Decidable (a.nanos < b.nanos))

instance : Repr Duration := ⟨fun d p => reprPrec d.nanos p⟩

end Duration

end BuildSupervisor
