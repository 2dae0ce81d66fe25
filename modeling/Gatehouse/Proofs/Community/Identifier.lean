import Gatehouse.Proofs.Time.Order

/-! Identifiers of messages and the time at which the messages were posted. An identifier is made up
again by what it tells, what is minted tells the millisecond in which it was minted, and
identifiers are in the order of their milliseconds and sequence numbers.
-/

namespace Gatehouse.MessageId

/-- The sequence number that an identifier bears. -/
def number (id : MessageId) : Nat := id.word.toNat % sequences

/-- The instant from which on identifiers tell the time, the start of 2015. -/
def start : Instant :=
  { Instant.epoch with day := 16436, day_ge := by decide, day_le := by decide }

/-- An instant is one whose milliseconds an identifier can tell. -/
structure InTime (at_ : Instant) : Prop where
  since : epochMillis ≤ at_.unixMillis
  before : at_.unixMillis < (epochMillis + Nat.pow 2 42 : Nat)

/-- An identifier bears the low bits of the running number that it was minted with. -/
theorem number_mint_mod (at_ : Instant) (sequence : Nat)
    : (mint at_ sequence).number = sequence % sequences := by
  unfold number mint
  rw [UInt64.toNat_ofNat', Nat.mod_mod_of_dvd _ (by decide : sequences ∣ 2 ^ 64),
    Nat.mul_add_mod_self_right, Nat.mod_mod]

/-- Instants of the same milliseconds mint the same identifiers. -/
theorem mint_congr {a b : Instant} (same : millisSinceEpoch a = millisSinceEpoch b)
    (sequence : Nat)
    : mint a sequence = mint b sequence := by
  unfold mint
  rw [same]

/-- An identifier is minted again from what it tells. -/
theorem mint_createdAt (id : MessageId)
    : mint id.createdAt id.number = id := by
  obtain ⟨-, -, count⟩ := id.createdAt_spec
  have millis : id.createdAt.unixMillis = id.unixMillis := by
    rw [Instant.unixMillis_eq, count]
    omega
  have since : millisSinceEpoch id.createdAt = id.word.toNat / sequences := by
    unfold millisSinceEpoch
    rw [millis, Int.toNat_natCast, unixMillis, Nat.add_sub_cancel]
  unfold mint number
  rw [since, Nat.mod_mod, Nat.mul_comm, Nat.div_add_mod, UInt64.ofNat_toNat]

/-- The bounds of the time of identifiers, as counts of nanoseconds. -/
theorem InTime.bounds {at_ : Instant} (inTime : InTime at_)
    : startNanos ≤ at_.unixNanos ∧ at_.unixNanos < endNanos := by
  obtain ⟨since, before⟩ := inTime
  have whole := at_.unixMillis_eq
  unfold startNanos endNanos
  omega

/-- The milliseconds of an instant, counted from the start of the time of identifiers. -/
theorem InTime.unixMillis_eq {at_ : Instant} (inTime : InTime at_)
    : at_.unixMillis = (millisSinceEpoch at_ + epochMillis : Nat) := by
  have since := inTime.since
  unfold millisSinceEpoch
  omega

-------------------------------------------------------------------------------
-- What is minted
-------------------------------------------------------------------------------

/-- What an identifier tells that was minted with a running number at an instant: the instant of
the same milliseconds, which is the instant to the millisecond unless that lies in a leap second,
where milliseconds run on into the second after; and the low bits of the number.
-/
structure MintedAt (at_ : Instant) (sequence : Nat) : Prop where
  millis : Instant.ofUnixMillis? at_.unixMillis = some (mint at_ sequence).createdAt
  truncated : at_.isLeap = false → (mint at_ sequence).createdAt = at_.truncated
  ordinary : (mint at_ sequence).createdAt.isLeap = false
  count : (mint at_ sequence).createdAt.unixNanos = at_.truncated.unixNanos
  number : (mint at_ sequence).number = sequence % sequences

theorem InTime.mintedAt {at_ : Instant} (inTime : InTime at_) (sequence : Nat)
    : MintedAt at_ sequence := by
  obtain ⟨since, before⟩ := inTime.bounds
  obtain ⟨ordinary, nanos⟩ := createdAt_mint since before sequence
  obtain ⟨told, -, -⟩ := (mint at_ sequence).createdAt_spec
  have count : (mint at_ sequence).createdAt.unixNanos = at_.truncated.unixNanos :=
    nanos.trans at_.unixNanos_truncated.symm
  rw [unixMillis_mint since before] at told
  exact
    { millis := told
      truncated := fun plain =>
        Instant.eq_of_unixNanos_eq ordinary (at_.isLeap_truncated.trans plain) count
      ordinary := ordinary
      count := count
      number := number_mint_mod at_ sequence }

/-- Numbers made up of a high part and a low one compare as the pairs of the parts do. -/
theorem compare_mul_add {high other low further size : Nat} (small : low < size)
    (fits : further < size)
    : compare (high * size + low) (other * size + further)
      = (compare high other).then (compare low further) := by
  have above {a b x y : Nat} (lower : a < b) (below : x < size) : a * size + x < b * size + y :=
    calc a * size + x < (a + 1) * size := by rw [Nat.succ_mul]; omega
      _ ≤ b * size := Nat.mul_le_mul_right size lower
      _ ≤ b * size + y := Nat.le_add_right _ _
  rcases Nat.lt_trichotomy high other with lower | rfl | higher
  · rw [Nat.compare_eq_lt.mpr lower, Nat.compare_eq_lt.mpr (above lower small)]
    rfl
  · rw [Nat.compare_eq_eq.mpr rfl]
    simp only [Nat.compare_eq_ite_lt, Nat.add_lt_add_iff_left, Ordering.then]
  · rw [Nat.compare_eq_gt.mpr higher, Nat.compare_eq_gt.mpr (above higher fits)]
    rfl

/-- Identifiers that are minted in time are in the order of the milliseconds, and of the low bits
of the running numbers within one.
-/
theorem InTime.compare_mint {a b : Instant} (inTime : InTime a) (other : InTime b)
    (sequence further : Nat)
    : compare (rank (mint a sequence)) (rank (mint b further))
      = (compare a.unixMillis b.unixMillis).then
          (compare (sequence % sequences) (further % sequences)) := by
  have millis
      : compare a.unixMillis b.unixMillis
        = compare (millisSinceEpoch a) (millisSinceEpoch b) := by
    simp only [inTime.unixMillis_eq, other.unixMillis_eq, Int.compare_eq_ite_lt,
      Nat.compare_eq_ite_lt, Int.ofNat_lt, Nat.add_lt_add_iff_right]
  change compare (mint a sequence).word.toNat (mint b further).word.toNat = _
  rw [millis, word_mint inTime.bounds.2, word_mint other.bounds.2]
  exact compare_mul_add (Nat.mod_lt _ (by decide)) (Nat.mod_lt _ (by decide))

/-- Before its start, time stands still for identifiers; but the leap second right before the start
runs on into it.
-/
theorem mint_of_before {at_ : Instant} (before : at_.Before start)
    (apart : ¬ at_.EndsDayBefore start) (sequence : Nat)
    : mint at_ sequence = mint start sequence := by
  refine mint_congr ?_ sequence
  have day : at_.day < 16436 := by
    simp only [Instant.Before, start, Instant.epoch] at before
    omega
  have early : at_.unixMillis ≤ epochMillis := by
    have most := at_.nano_lt
    have last := at_.second_lt
    unfold Instant.unixMillis epochMillis
    by_cases leap : at_.isLeap = true
    · have late : 1000000000 ≤ at_.nano := of_decide_eq_true leap
      have former : at_.day + 1 ≠ 16436 ∨ at_.second ≠ 86399 := by
        refine Classical.byContradiction fun both => apart ⟨leap, by omega, ?_⟩
        change (16436 : Int) = at_.day + 1
        omega
      omega
    · have short := Instant.not_isLeap_iff.mp (Bool.eq_false_iff.mpr leap)
      omega
  have none_ : millisSinceEpoch start = 0 := by decide
  rw [none_]
  unfold millisSinceEpoch
  omega

-------------------------------------------------------------------------------
-- Identifiers and time
-------------------------------------------------------------------------------

/-- Identifiers go with the time, there and back. Every one is made up again by the instant and the
number that it tells; what is minted in time tells the milliseconds and the low bits of the number,
and is in their order; and before the start of time what is minted is as of the start, but for the
leap second right before it.
-/
theorem goes_with_time
    : (∀ id : MessageId,
        Instant.ofUnixMillis? id.unixMillis = some id.createdAt ∧ mint id.createdAt id.number = id)
      ∧ (∀ at_ sequence, InTime at_ → MintedAt at_ sequence)
      ∧ (∀ a b sequence further,
          InTime a
          → InTime b
          → compare (rank (mint a sequence)) (rank (mint b further))
            = (compare a.unixMillis b.unixMillis).then
                (compare (sequence % sequences) (further % sequences)))
      ∧ (∀ at_ sequence,
          at_.Before start → ¬ at_.EndsDayBefore start → mint at_ sequence = mint start sequence) :=
  ⟨fun id => ⟨id.createdAt_spec.1, id.mint_createdAt⟩,
    fun _ sequence inTime => inTime.mintedAt sequence,
    fun _ _ sequence further inTime other => inTime.compare_mint other sequence further,
    fun _ sequence before apart => mint_of_before before apart sequence⟩

/-- Half a second into the leap second at the end of 2016. -/
def endOf2016 : Instant :=
  ⟨17166, 86399, 1500000000, by decide, by decide, by decide, by decide⟩

/-- Half a second into the leap second in the middle of 2012. -/
def middleOf2012 : Instant :=
  ⟨15521, 86399, 1500000000, by decide, by decide, by decide, by decide⟩

/-- A message of 2016 with a running number of more than 22 bits goes before one of the same
millisecond with a lower running number but higher low bits, and one from before the start is as of
the start.
-/
theorem goes_with_time_in_leap_seconds
    : (InTime endOf2016 ∧ MintedAt endOf2016 4194311)
      ∧ (compare endOf2016.unixMillis endOf2016.unixMillis).then
            (compare (4194311 % sequences) (8 % sequences))
          = .lt
      ∧ compare (rank (mint endOf2016 4194311)) (rank (mint endOf2016 8)) = .lt
      ∧ middleOf2012.Before start
      ∧ ¬ middleOf2012.EndsDayBefore start
      ∧ mint middleOf2012 7 = mint start 7 := by
  have inTime : InTime endOf2016 := ⟨by decide, by decide⟩
  have before : middleOf2012.Before start := by decide
  have apart : ¬ middleOf2012.EndsDayBefore start := fun ends => absurd ends.next (by decide)
  obtain ⟨-, minted, order, early⟩ := goes_with_time
  have lower
      : (compare endOf2016.unixMillis endOf2016.unixMillis).then
            (compare (4194311 % sequences) (8 % sequences))
          = .lt := by
    decide
  exact ⟨⟨inTime, minted endOf2016 4194311 inTime⟩, lower,
    (order endOf2016 endOf2016 4194311 8 inTime inTime).trans lower, before, apart,
    early middleOf2012 7 before apart⟩

/-- Half a second into the leap second right before the start of the time of identifiers. -/
def rightBeforeStart : Instant :=
  ⟨16435, 86399, 1500000000, by decide, by decide, by decide, by decide⟩

/-- A message posted in a leap second is told as of the second after, not of that instant to the
millisecond; and one posted in a leap second right before the start is not as of the start.
-/
theorem leap_seconds_run_on
    : (InTime endOf2016 ∧ (mint endOf2016 7).createdAt ≠ endOf2016.truncated)
      ∧ rightBeforeStart.Before start
      ∧ mint rightBeforeStart 7 ≠ mint start 7 := by
  refine ⟨⟨⟨by decide, by decide⟩, fun same => ?_⟩, by decide, by decide⟩
  have ordinary := (mint endOf2016 7).createdAt_spec.2.1
  rw [same] at ordinary
  exact absurd ordinary (by decide)

end Gatehouse.MessageId
