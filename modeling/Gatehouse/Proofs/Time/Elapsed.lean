import Gatehouse.Community.MessageId

/-! Time as a count of nanoseconds. Outside leap seconds, instants move and lie apart as their
counts do, and an identifier tells when its message was posted, less what is left over of a
millisecond.
-/

namespace Gatehouse

namespace Instant

/-- Nanoseconds since the start of 1970; within a leap second they run on. -/
def unixNanos (at_ : Instant) : Int :=
  (at_.day * 86400 + at_.second) * 1000000000 + at_.nano

/-- The count with which the last day that an instant can fall on is over. -/
def endNanos : Int := (lastDay + 1) * 86400 * 1000000000

theorem unixMillis_eq (at_ : Instant)
    : at_.unixMillis = at_.unixNanos / 1000000 := by
  unfold unixMillis unixNanos
  omega

theorem not_isLeap_iff {at_ : Instant}
    : at_.isLeap = false ↔ at_.nano < 1000000000 := by
  unfold isLeap
  rw [decide_eq_false_iff_not, Nat.not_le]

/-- The ordinary instant with a count of nanoseconds, when there is one. -/
def ofCount? (count : Int) : Option Instant :=
  ofParts? (count / 1000000000 / 86400) (count / 1000000000 % 86400).toNat
    (count % 1000000000).toNat

/-- What is made up by a count is an ordinary instant with that count. -/
theorem spec_of_ofCount? {count : Int} {at_ : Instant} (made : ofCount? count = some at_)
    : at_.isLeap = false ∧ at_.unixNanos = count := by
  unfold ofCount? ofParts? at made
  split at made
  · cases made
    have ordinary : (count % 1000000000).toNat < 1000000000 := by omega
    refine ⟨not_isLeap_iff.mpr ordinary, ?_⟩
    simp only [unixNanos]
    omega
  · cases made

/-- A count in the time of instants is that of an ordinary one. -/
theorem exists_ofCount? {count : Int}
    (bounds : firstDay * 86400 * 1000000000 ≤ count ∧ count < endNanos)
    : ∃ at_, ofCount? count = some at_ ∧ at_.isLeap = false ∧ at_.unixNanos = count := by
  unfold endNanos at bounds
  have day : firstDay ≤ count / 1000000000 / 86400 ∧ count / 1000000000 / 86400 ≤ lastDay := by
    omega
  have made : ofCount? count = some _ := dif_pos ⟨day, by omega, by omega⟩
  exact ⟨_, made, spec_of_ofCount? made⟩

theorem le_unixNanos (at_ : Instant)
    : firstDay * 86400 * 1000000000 ≤ at_.unixNanos := by
  have first := at_.day_ge
  unfold unixNanos
  omega

theorem unixNanos_lt {at_ : Instant} (ordinary : at_.isLeap = false)
    : at_.unixNanos < endNanos := by
  have final := at_.day_le
  have second := at_.second_lt
  have nano := not_isLeap_iff.mp ordinary
  unfold unixNanos endNanos
  omega

/-- An ordinary instant is made up again by its count. -/
theorem ofCount?_unixNanos {at_ : Instant} (ordinary : at_.isLeap = false)
    : ofCount? at_.unixNanos = some at_ := by
  have second := at_.second_lt
  have nano := not_isLeap_iff.mp ordinary
  rw [← ofParts?_parts at_]
  unfold ofCount? unixNanos
  congr 1 <;> omega

theorem ofUnixMillis?_eq (millis : Int)
    : ofUnixMillis? millis = ofCount? (millis * 1000000) := by
  unfold ofUnixMillis? ofCount?
  dsimp only
  congr 1 <;> omega

/-- An ordinary instant moves as its count does. -/
theorem shift?_eq {at_ : Instant} (ordinary : at_.isLeap = false) (nanos : Nat)
    : at_.shift? nanos = ofCount? (at_.unixNanos + nanos) := by
  unfold shift? ofCount?
  rw [ordinary]
  simp only [Bool.false_eq_true, false_and, if_false,
    Int.tdiv_eq_ediv_of_nonneg (Int.natCast_nonneg nanos),
    Int.tmod_eq_emod_of_nonneg (Int.natCast_nonneg nanos)]
  have total
      : ((at_.second : Int) + nanos / 1000000000) * 1000000000 + at_.nano + nanos % 1000000000
        = at_.unixNanos + nanos - at_.day * 86400 * 1000000000 := by
    unfold unixNanos
    omega
  rw [total]
  congr 1 <;> omega

/-- An ordinary instant moved on by a count of nanoseconds is the ordinary one with that later
count.
-/
theorem shift?_of_ordinary {at_ : Instant} (ordinary : at_.isLeap = false) {nanos : Nat}
    (inside : at_.unixNanos + nanos < endNanos)
    : ∃ later,
        at_.shift? nanos = some later
        ∧ later.isLeap = false
        ∧ later.unixNanos = at_.unixNanos + nanos := by
  have since := at_.le_unixNanos
  rw [shift?_eq ordinary]
  exact exists_ofCount? ⟨by omega, inside⟩

/-- Between ordinary instants there is the difference of their counts. -/
theorem nanosSince_of_ordinary {later earlier : Instant} (ordinary : later.isLeap = false)
    (former : earlier.isLeap = false)
    : later.nanosSince earlier = later.unixNanos - earlier.unixNanos := by
  unfold nanosSince unixNanos
  rw [ordinary, former]
  simp only [Bool.false_eq_true, and_false, if_false]
  omega

/-- The time since an instant that is not past counts as none. -/
theorem nanos_getD_since? (later earlier : Instant)
    : ((later.since? earlier).getD .zero).nanos = (later.nanosSince earlier).toNat := by
  unfold since?
  dsimp only
  split
  · next ahead => exact (Int.toNat_of_nonpos (Int.le_of_lt ahead)).symm
  · rfl

end Instant

namespace MessageId

/-- The counts of nanoseconds from which on and up to which identifiers tell the time. -/
def startNanos : Int := epochMillis * 1000000

def endNanos : Int := (epochMillis + Nat.pow 2 42 : Nat) * 1000000

theorem endNanos_le : endNanos ≤ Instant.endNanos := by decide +kernel

theorem millisSinceEpoch_lt {at_ : Instant} (before : at_.unixNanos < endNanos)
    : millisSinceEpoch at_ < Nat.pow 2 42 := by
  have whole := at_.unixMillis_eq
  have some_ : 0 < Nat.pow 2 42 := by decide
  unfold endNanos at before
  unfold millisSinceEpoch
  omega

/-- The word of an identifier, minted while its milliseconds fit. -/
theorem word_mint {at_ : Instant} (before : at_.unixNanos < endNanos) (sequence : Nat)
    : (mint at_ sequence).word.toNat
      = millisSinceEpoch at_ * sequences + sequence % sequences := by
  have small : sequence % sequences < sequences := Nat.mod_lt _ (by decide)
  refine UInt64.toNat_ofNat_of_lt' (Nat.lt_of_lt_of_le (Nat.add_lt_add_left small _) ?_)
  rw [← Nat.succ_mul]
  exact Nat.mul_le_mul_right sequences (millisSinceEpoch_lt before)

/-- An identifier minted in its time tells the millisecond in which it was. -/
theorem unixMillis_mint {at_ : Instant} (since : startNanos ≤ at_.unixNanos)
    (before : at_.unixNanos < endNanos) (sequence : Nat)
    : ((mint at_ sequence).unixMillis : Int) = at_.unixMillis := by
  have whole := at_.unixMillis_eq
  have small : sequence % sequences < sequences := Nat.mod_lt _ (by decide)
  unfold startNanos at since
  unfold unixMillis
  rw [word_mint before, Nat.mul_comm, Nat.mul_add_div (by decide), Nat.div_eq_of_lt small]
  unfold millisSinceEpoch
  omega

/-- Every identifier tells an instant, an ordinary one at a whole millisecond. -/
theorem createdAt_spec (id : MessageId)
    : Instant.ofUnixMillis? id.unixMillis = some id.createdAt
      ∧ id.createdAt.isLeap = false
      ∧ id.createdAt.unixNanos = id.unixMillis * 1000000 := by
  have millis : id.word.toNat / sequences < Nat.pow 2 42 :=
    Nat.div_lt_of_lt_mul id.word.toNat_lt
  have inside
      : firstDay * 86400 * 1000000000 ≤ (id.unixMillis : Int) * 1000000
        ∧ (id.unixMillis : Int) * 1000000 < Instant.endNanos := by
    have least : firstDay * 86400 * 1000000000 ≤ 0 := by decide +kernel
    have most := endNanos_le
    unfold endNanos at most
    unfold unixMillis
    generalize id.word.toNat / sequences = offset at millis
    omega
  obtain ⟨created, made, ordinary, count⟩ := Instant.exists_ofCount? inside
  have read := (Instant.ofUnixMillis?_eq id.unixMillis).trans made
  have told : id.createdAt = created := by
    unfold createdAt
    rw [read]
    rfl
  rw [told]
  exact ⟨read, ordinary, count⟩

theorem createdAt_mint {at_ : Instant} (since : startNanos ≤ at_.unixNanos)
    (before : at_.unixNanos < endNanos) (sequence : Nat)
    : (mint at_ sequence).createdAt.isLeap = false
      ∧ (mint at_ sequence).createdAt.unixNanos = at_.unixNanos / 1000000 * 1000000 := by
  obtain ⟨-, ordinary, count⟩ := (mint at_ sequence).createdAt_spec
  have millis := (unixMillis_mint since before sequence).trans at_.unixMillis_eq
  exact ⟨ordinary, by rw [count, millis]⟩

end MessageId

end Gatehouse
