import Gatehouse.Time.Calendar
import Gatehouse.Time.Duration

/-! Points in time. An instant is a day, a second of the day and nanoseconds; nanoseconds from a
thousand million on place it in a leap second that follows its second. Those that are read follow
the last second of a minute, but an instant can be made with one behind any second.
-/

namespace Gatehouse

/-- The first day that an instant can fall on, -262143-01-01. -/
def firstDay : Int := Date.dayNumber ⟨-262143, 1, 1⟩

/-- The last day that an instant can fall on, +262142-12-31. -/
def lastDay : Int := Date.dayNumber ⟨262142, 12, 31⟩

/-- A point in time, to the nanosecond. -/
structure Instant where
  day : Int
  second : Nat
  nano : Nat
  day_ge : firstDay ≤ day
  day_le : day ≤ lastDay
  second_lt : second < 86400
  nano_lt : nano < 2000000000
deriving DecidableEq

namespace Instant

/-- The instant with these parts, when there is one. -/
def ofParts? (day : Int) (second nano : Nat) : Option Instant :=
  if h : (firstDay ≤ day ∧ day ≤ lastDay) ∧ second < 86400 ∧ nano < 2000000000 then
    some ⟨day, second, nano, h.1.1, h.1.2, h.2.1, h.2.2⟩
  else none

/-- The parts of an instant make it up again. -/
theorem ofParts?_parts (at_ : Instant)
    : ofParts? at_.day at_.second at_.nano = some at_ := by
  rw [ofParts?, dif_pos ⟨⟨at_.day_ge, at_.day_le⟩, at_.second_lt, at_.nano_lt⟩]

/-- The start of 1970. -/
def epoch : Instant :=
  ⟨0, 0, 0, by decide, by decide, by decide, by decide⟩

instance : Inhabited Instant := ⟨epoch⟩

/-- The instant so many milliseconds after the start of 1970. -/
def ofUnixMillis? (millis : Int) : Option Instant :=
  let second := millis / 1000
  ofParts? (second / 86400) (second % 86400).toNat ((millis % 1000).toNat * 1000000)

/-- Whole milliseconds since the start of 1970; within a leap second they run on. -/
def unixMillis (at_ : Instant) : Int :=
  (at_.day * 86400 + at_.second) * 1000 + (at_.nano / 1000000 : Nat)

def isLeap (at_ : Instant) : Bool := 1000000000 ≤ at_.nano

/-- Nanoseconds from an earlier instant to a later one, negative in the other direction. A
leap second that lies between the two counts, when it is one of them and the other is in
another second of the day.
-/
def nanosSince (later earlier : Instant) : Int :=
  let crossed : Int :=
    if later.second > earlier.second ∧ earlier.isLeap then 1
    else if later.second < earlier.second ∧ later.isLeap then -1
    else 0
  ((later.day - earlier.day) * 86400 + (later.second : Int) - earlier.second + crossed)
      * 1000000000
    + ((later.nano : Int) - earlier.nano)

/-- The time from an earlier instant to a later one; none when they are in the other order. -/
def since? (later earlier : Instant) : Option Duration :=
  let nanos := later.nanosSince earlier
  if nanos < 0 then none else some ⟨nanos.toNat⟩

/-- The instant a number of nanoseconds away, when there is one. Whole seconds and the rest are
taken toward zero. A step that stays inside a leap second stays there; one that leaves it first
turns the instant into an ordinary one.
-/
def shift? (at_ : Instant) (nanos : Int) : Option Instant :=
  let seconds := nanos.tdiv 1000000000
  let rest := nanos.tmod 1000000000
  let leaves := seconds > 0 ∨ (rest > 0 ∧ (at_.nano : Int) + rest ≥ 2000000000)
  if at_.isLeap ∧ ¬ leaves ∧ ¬ seconds < 0 then
    ofParts? at_.day at_.second ((at_.nano : Int) + rest).toNat
  else
    let nano : Int := if at_.isLeap then at_.nano - 1000000000 else at_.nano
    let second : Int :=
      if at_.isLeap ∧ ¬ leaves then at_.second + 1 else at_.second
    let total := (second + seconds) * 1000000000 + nano + rest
    let wholeSeconds := total / 1000000000
    ofParts? (at_.day + wholeSeconds / 86400) (wholeSeconds % 86400).toNat
      (total % 1000000000).toNat

end Instant

end Gatehouse
