import Gatehouse.Time.Timer

/-! When timers go off. One that runs for whole milliseconds from a whole millisecond goes off when
it is due, and that is when it should be as long as the time can be told.
-/

namespace Gatehouse

/-- A time in nanoseconds that is a whole number of milliseconds. -/
def WholeMillis (nanos : Nat) : Prop := 1000000 ∣ nanos

namespace Timer

variable {from_ : Nat} {d : Duration}

theorem dueAfter_eq (told : from_ + d.nanos < limit)
    : dueAfter from_ d = from_ + d.nanos := by
  rw [dueAfter, after?, if_pos told, Option.getD_some]

theorem dueAfter_of_limit_le (far : limit ≤ from_ + d.nanos)
    : dueAfter from_ d = from_ + farFuture.nanos := by
  rw [dueAfter, after?, if_neg (Nat.not_lt.mpr far), Option.getD_none]

theorem whole_farFuture
    : WholeMillis farFuture.nanos :=
  Nat.dvd_of_mod_eq_zero (by decide)

theorem whole_dueAfter (start : WholeMillis from_) (whole : WholeMillis d.nanos)
    : WholeMillis (dueAfter from_ d) := by
  rcases Nat.lt_or_ge (from_ + d.nanos) limit with told | far
  · rw [dueAfter_eq told]
    exact Nat.dvd_add start whole
  · rw [dueAfter_of_limit_le far]
    exact Nat.dvd_add start whole_farFuture

/-- Timers go off at whole milliseconds. -/
theorem whole_roundUp (time : Nat)
    : WholeMillis (roundUp grain time) :=
  Nat.dvd_mul_left _ _

/-- Timers that are due at a whole millisecond go off when they are due. -/
theorem roundUp_of_whole {time : Nat} (whole : WholeMillis time)
    : roundUp grain time = time := by
  obtain ⟨millis, rfl⟩ := whole
  unfold roundUp grain
  omega

end Timer

end Gatehouse
