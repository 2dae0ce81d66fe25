import Gatehouse.Time.Duration

/-! Timers. They are due at times that are counted in nanoseconds from a beginning. Times too far
ahead cannot be told, and a timer that would be due then runs for thirty years instead.
-/

namespace Gatehouse.Timer

/-- The first time that cannot be told. -/
def limit : Nat := Nat.pow 2 63 * Duration.perSecond

/-- How long a timer runs that should run beyond the times that can be told: thirty years of 365
days.
-/
def farFuture : Duration := .ofSeconds (30 * 365 * Duration.secondsPerDay)

/-- The time a duration after another, when it can be told. -/
def after? (from_ : Nat) (d : Duration) : Option Nat :=
  if from_ + d.nanos < limit then some (from_ + d.nanos) else none

/-- When a timer is due that runs for a duration from a time. -/
def dueAfter (from_ : Nat) (d : Duration) : Nat :=
  (after? from_ d).getD (from_ + farFuture.nanos)

/-- Timers go off at multiples of so many nanoseconds: at whole milliseconds. -/
def grain : Nat := 1000000

/-- When a timer of a grain goes off that is due at a time. -/
def roundUp (grain time : Nat) : Nat := (time + (grain - 1)) / grain * grain

end Gatehouse.Timer
