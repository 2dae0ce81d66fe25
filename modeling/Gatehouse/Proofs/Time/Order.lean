import Gatehouse.Proofs.Time.Elapsed

/-! The order of instants. A leap second comes after the second that it belongs to and before the
one that follows; there alone the order of instants and that of their counts part.
-/

namespace Gatehouse.Instant

/-- One instant comes before another: on an earlier day, in an earlier second of the day, or less
far into the second. A leap second comes last in its second.
-/
def Before (a b : Instant) : Prop :=
  a.day < b.day
  ∨ a.day = b.day ∧ (a.second < b.second ∨ a.second = b.second ∧ a.nano < b.nano)

instance (a b : Instant) : Decidable (a.Before b) := inferInstanceAs (Decidable (_ ∨ _))

/-- Ordinary instants are in the order of their counts. -/
theorem before_iff_of_ordinary {a b : Instant} (ordinary : a.isLeap = false)
    (other : b.isLeap = false)
    : a.Before b ↔ a.unixNanos < b.unixNanos := by
  have left := not_isLeap_iff.mp ordinary
  have right := not_isLeap_iff.mp other
  have last := a.second_lt
  have final := b.second_lt
  unfold Before unixNanos
  omega

/-- Ordinary instants with the same count are the same. -/
theorem eq_of_unixNanos_eq {a b : Instant} (ordinary : a.isLeap = false)
    (other : b.isLeap = false) (same : a.unixNanos = b.unixNanos)
    : a = b := by
  have made := ofCount?_unixNanos ordinary
  rw [same, ofCount?_unixNanos other] at made
  exact (Option.some.inj made).symm

/-- An instant without what is left over of its millisecond. -/
def truncated (at_ : Instant) : Instant :=
  { at_ with
    nano := at_.nano / 1000000 * 1000000
    nano_lt := Nat.lt_of_le_of_lt (Nat.div_mul_le_self _ _) at_.nano_lt }

theorem isLeap_truncated (at_ : Instant)
    : at_.truncated.isLeap = at_.isLeap := by
  have same : 1000000000 ≤ at_.nano / 1000000 * 1000000 ↔ 1000000000 ≤ at_.nano := by omega
  exact decide_eq_decide.mpr same

theorem unixNanos_truncated (at_ : Instant)
    : at_.truncated.unixNanos = at_.unixNanos / 1000000 * 1000000 := by
  unfold unixNanos truncated
  dsimp only
  omega

-------------------------------------------------------------------------------
-- Leap seconds at the end of a day
-------------------------------------------------------------------------------

/-- An instant lies in the leap second that ends the day before another. -/
structure EndsDayBefore (at_ other : Instant) : Prop where
  leap : at_.isLeap = true
  last : at_.second = 86399
  next : other.day = at_.day + 1

/-- An instant is farther into the leap second that ends its day than a later one is into the day
that follows.
-/
structure Overtakes (at_ later : Instant) : Prop extends at_.EndsDayBefore later where
  first : later.second = 0
  farther : later.nano + 1000000000 < at_.nano

/-- Before an ordinary instant no time has passed since it, as far as time is measured between the
two; but days are measured apart, so a leap second that overtakes it at the end of the day before
counts as past it.
-/
theorem nanosSince_pos_iff {at_ later : Instant} (ordinary : later.isLeap = false)
    (before : at_.Before later)
    : 0 < at_.nanosSince later ↔ at_.Overtakes later := by
  have overtaking
      : at_.Overtakes later
        ↔ ((1000000000 ≤ at_.nano ∧ at_.second = 86399 ∧ later.day = at_.day + 1)
          ∧ later.second = 0 ∧ later.nano + 1000000000 < at_.nano) := by
    constructor
    · rintro ⟨⟨leap, last, next⟩, first, farther⟩
      exact ⟨⟨of_decide_eq_true leap, last, next⟩, first, farther⟩
    · rintro ⟨⟨leap, last, next⟩, first, farther⟩
      exact ⟨⟨decide_eq_true leap, last, next⟩, first, farther⟩
  have small := not_isLeap_iff.mp ordinary
  have most := at_.nano_lt
  have last := at_.second_lt
  have final := later.second_lt
  rw [overtaking]
  unfold Before at before
  unfold nanosSince
  rw [ordinary]
  simp only [Bool.false_eq_true, and_false, if_false]
  by_cases leap : at_.isLeap = true
  · have late : 1000000000 ≤ at_.nano := of_decide_eq_true leap
    simp only [leap, and_true]
    split <;> omega
  · have early := not_isLeap_iff.mp (Bool.eq_false_iff.mpr leap)
    rw [if_neg fun crossed => leap crossed.2]
    omega

end Gatehouse.Instant
