/-! Lengths of time. A duration is a count of nanoseconds; seconds and days are views of it.
-/

namespace Gatehouse

structure Duration where
  nanos : Nat
deriving DecidableEq, Repr

namespace Duration

def perSecond : Nat := 1000000000

def secondsPerDay : Nat := 86400

def zero : Duration := ⟨0⟩

instance : Inhabited Duration := ⟨zero⟩

instance : LT Duration := ⟨fun a b => a.nanos < b.nanos⟩

instance : LE Duration := ⟨fun a b => a.nanos ≤ b.nanos⟩

instance (a b : Duration) : Decidable (a < b) := inferInstanceAs (Decidable (a.nanos < b.nanos))

instance (a b : Duration) : Decidable (a ≤ b) := inferInstanceAs (Decidable (a.nanos ≤ b.nanos))

def ofSeconds (seconds : Nat) : Duration := ⟨seconds * perSecond⟩

def ofMillis (millis : Nat) : Duration := ⟨millis * 1000000⟩

/-- The duration of whole seconds and further nanoseconds. -/
def ofParts (seconds nanos : Nat) : Duration := ⟨seconds * perSecond + nanos⟩

def seconds (d : Duration) : Nat := d.nanos / perSecond

def subsecond (d : Duration) : Nat := d.nanos % perSecond

/-- Whole days, for texts that are read by people. -/
def days (d : Duration) : Nat := d.seconds / secondsPerDay

def isZero (d : Duration) : Bool := d.nanos == 0

/-- What is left of a duration after another; nothing when the other is as long. -/
def minus (a b : Duration) : Duration := ⟨a.nanos - b.nanos⟩

/-- The parts of a duration make it up again. -/
theorem ofParts_seconds_subsecond (d : Duration)
    : ofParts d.seconds d.subsecond = d := by
  have whole := Nat.div_add_mod d.nanos perSecond
  rw [Nat.mul_comm] at whole
  exact congrArg Duration.mk whole

end Duration

end Gatehouse
