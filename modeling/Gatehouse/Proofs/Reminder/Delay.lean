import Gatehouse.Proofs.Community.Identifier
import Gatehouse.Proofs.Reminder.Notice

/-! How long the next reminder has to wait. What is on record is read back, and what is left of the
frequency is told from it and the clock: after that time the frequency has passed since the
reminder on record was posted. A record that cannot be read leaves nothing to wait for.
-/

namespace Gatehouse

-------------------------------------------------------------------------------
-- What is left of a period
-------------------------------------------------------------------------------

/-- What is left of a period is the period less the time since the message, which is not more than
the period and counts as none when it is negative.
-/
theorem delayUntilDue_nanos (id : MessageId) (frequency : Duration) (now : Instant)
    : ((delayUntilDue (some id) frequency now).nanos : Int)
      = frequency.nanos - min (frequency.nanos : Int) (max 0 (now.nanosSince id.createdAt)) := by
  have elapsed := now.nanos_getD_since? id.createdAt
  simp only [delayUntilDue, Duration.minus, elapsed]
  omega

/-- Of a period no more is left than the period. -/
theorem delayUntilDue_le (last : Option MessageId) (frequency : Duration) (now : Instant)
    : delayUntilDue last frequency now ≤ frequency := by
  cases last with
  | none => exact Nat.zero_le _
  | some id => exact Nat.sub_le _ _

/-- The whole period is left when it is none, or when no time has passed since the message. -/
theorem delayUntilDue_eq_iff {id : MessageId} {frequency : Duration} {now : Instant}
    : delayUntilDue (some id) frequency now = frequency
      ↔ frequency = .zero ∨ ¬ 0 < now.nanosSince id.createdAt := by
  have left := delayUntilDue_nanos id frequency now
  have same
      : delayUntilDue (some id) frequency now = frequency
        ↔ (delayUntilDue (some id) frequency now).nanos = frequency.nanos := by
    rw [Duration.mk.injEq]
  have none_ : frequency = .zero ↔ frequency.nanos = 0 := by
    rw [Duration.zero, Duration.mk.injEq]
  rw [same, none_]
  omega

/-- What is left of a period since a message at an instant, as the message's identifier tells. It is
the whole period when the message is from the future, unless the instant lies in a leap second at
the end of a day and overtakes the message there; and outside leap seconds the time that is left
ends when the period after the message does, or at once if that is past.
-/
structure IsLeft (frequency : Duration) (id : MessageId) (now : Instant) (left : Duration)
    : Prop where
  nanos
    : (left.nanos : Int)
      = frequency.nanos - min (frequency.nanos : Int) (max 0 (now.nanosSince id.createdAt))
  within : left ≤ frequency
  future
    : now.Before id.createdAt
      → (left = frequency ↔ frequency = .zero ∨ ¬ now.Overtakes id.createdAt)
  due
    : now.isLeap = false
      → ¬ now.Before id.createdAt
      → now.shift? left.nanos
        = (id.createdAt.shift? frequency.nanos).map fun next =>
            if now.Before next then next else now

/-- Outside leap seconds, the time that is left ends at the later of now and a period after the
message.
-/
theorem shift?_delayUntilDue {id : MessageId} {now : Instant} (ordinary : now.isLeap = false)
    (past : ¬ now.Before id.createdAt) (frequency : Duration)
    : now.shift? (delayUntilDue (some id) frequency now).nanos
      = (id.createdAt.shift? frequency.nanos).map fun next =>
          if now.Before next then next else now := by
  obtain ⟨-, created, -⟩ := id.createdAt_spec
  have left := delayUntilDue_nanos id frequency now
  rw [Instant.before_iff_of_ordinary ordinary created] at past
  rw [Instant.nanosSince_of_ordinary ordinary created] at left
  rw [Instant.shift?_eq ordinary, Instant.shift?_eq created]
  by_cases ahead : now.unixNanos < id.createdAt.unixNanos + frequency.nanos
  · have ends
        : now.unixNanos + (delayUntilDue (some id) frequency now).nanos
          = id.createdAt.unixNanos + frequency.nanos := by
      omega
    rw [ends]
    cases made : Instant.ofCount? (id.createdAt.unixNanos + frequency.nanos) with
    | none => rfl
    | some next =>
        obtain ⟨plain, count⟩ := Instant.spec_of_ofCount? made
        have later : now.Before next :=
          (Instant.before_iff_of_ordinary ordinary plain).mpr (count ▸ ahead)
        simp only [Option.map_some, if_pos later]
  · have ends : now.unixNanos + (delayUntilDue (some id) frequency now).nanos = now.unixNanos := by
      omega
    have since := id.createdAt.le_unixNanos
    have before := Instant.unixNanos_lt ordinary
    obtain ⟨next, made, plain, count⟩
        : ∃ next, Instant.ofCount? (id.createdAt.unixNanos + frequency.nanos) = some next
          ∧ next.isLeap = false ∧ next.unixNanos = id.createdAt.unixNanos + frequency.nanos :=
      Instant.exists_ofCount? ⟨by omega, by omega⟩
    have passed : ¬ now.Before next := by
      rw [Instant.before_iff_of_ordinary ordinary plain, count]
      exact ahead
    rw [ends, Instant.ofCount?_unixNanos ordinary, made]
    simp only [Option.map_some, if_neg passed]

/-- What is told to be left is left. -/
theorem isLeft_delayUntilDue (frequency : Duration) (id : MessageId) (now : Instant)
    : IsLeft frequency id now (delayUntilDue (some id) frequency now) where
  nanos := delayUntilDue_nanos id frequency now
  within := delayUntilDue_le (some id) frequency now
  future before := by
    rw [delayUntilDue_eq_iff, Instant.nanosSince_pos_iff id.createdAt_spec.2.1 before]
  due ordinary past := shift?_delayUntilDue ordinary past frequency

-------------------------------------------------------------------------------
-- The record and the delay
-------------------------------------------------------------------------------

/-- Only identifiers that are written in the store are on record. -/
theorem ReminderRecord.stored?_eq_none {store : Store}
    (unreadable : ∀ raw ∈ store.get? key, ∀ id : MessageId, ¬ id.WrittenAs raw)
    : stored? store = none := by
  unfold stored?
  cases held : store.get? key with
  | none => rfl
  | some raw =>
      have refused : (Id.read raw : Except Numeral.Fault MessageId).toOption = none := by
        cases read : (Id.read raw : Except Numeral.Fault MessageId) with
        | error fault => rfl
        | ok id => exact absurd (Id.read_eq_ok_iff.mp read) (unreadable raw held id)
      exact refused

/-- The delay goes by the record. After any identifier was saved it is loaded again, and what is
left of the frequency since its message is told as the delay; and when the store holds nothing, or
a text as which no identifier is written, nothing is loaded and the delay is none.
-/
theorem ReminderSettings.delay_goes_by_record (settings : ReminderSettings) (world : World)
    : (∀ id, ∃ saved left,
        (ReminderRecord.save id).run World.handle world = (.ok (), saved)
        ∧ (ReminderRecord.load.run World.handle saved).1 = .ok (some id)
        ∧ (settings.initialDelay.run World.handle saved).1 = .ok left
        ∧ IsLeft settings.frequency id world.clock left)
      ∧ ((∀ raw ∈ world.store.get? ReminderRecord.key, ∀ id : MessageId, ¬ id.WrittenAs raw)
        → (ReminderRecord.load.run World.handle world).1 = .ok none
          ∧ (settings.initialDelay.run World.handle world).1 = .ok .zero) := by
  constructor
  · intro id
    have recorded := ReminderRecord.stored?_set world.store id
    obtain ⟨noted, loaded⟩ := ReminderRecord.load_run (world.setStored ReminderRecord.key id.text)
    obtain ⟨journal, told⟩ :=
      settings.initialDelay_run (world.setStored ReminderRecord.key id.text)
    refine ⟨_, _, ReminderRecord.save_run id world, ?_, congrArg Prod.fst told, ?_⟩
    · rw [loaded]
      exact congrArg Except.ok recorded
    · change IsLeft _ _ _ (delayUntilDue (ReminderRecord.stored? (world.store.set _ _)) _ _)
      rw [recorded]
      exact isLeft_delayUntilDue settings.frequency id world.clock
  · intro unreadable
    have nothing := ReminderRecord.stored?_eq_none unreadable
    obtain ⟨noted, loaded⟩ := ReminderRecord.load_run world
    obtain ⟨journal, told⟩ := settings.initialDelay_run world
    rw [loaded, told, nothing]
    exact ⟨rfl, rfl⟩

/-- A reminder every hour. -/
def hourly : ReminderSettings := ⟨⟨20⟩, .ofSeconds 3600, "Please verify"⟩

/-- A second short of an hour into 2015. -/
def shortOfAnHour : Instant :=
  { MessageId.start with second := 3599, second_lt := by decide }

/-- The very first identifier. -/
def firstOf2015 : MessageId := ⟨0⟩

/-- The first number that is too large for an identifier. -/
def tooLarge : String := "18446744073709551616"

/-- A number that is too large is no record, and the next reminder is due at once; after the very
first identifier was saved, the next one is due an hour after the start of 2015.
-/
theorem ReminderSettings.delay_goes_by_record_in_first_hour
    : let world := (World.start (.empty shortOfAnHour)).setStored ReminderRecord.key tooLarge
      ((∀ raw ∈ world.store.get? ReminderRecord.key, ∀ id : MessageId, ¬ id.WrittenAs raw)
        ∧ (ReminderRecord.load.run World.handle world).1 = .ok none
        ∧ (hourly.initialDelay.run World.handle world).1 = .ok .zero)
      ∧ ∃ saved left,
          (ReminderRecord.save firstOf2015).run World.handle world = (.ok (), saved)
          ∧ (hourly.initialDelay.run World.handle saved).1 = .ok left
          ∧ world.clock.isLeap = false
          ∧ ¬ world.clock.Before firstOf2015.createdAt
          ∧ world.clock.shift? left.nanos
            = (firstOf2015.createdAt.shift? hourly.frequency.nanos).map fun next =>
                if world.clock.Before next then next else world.clock := by
  intro world
  have unreadable
      : ∀ raw ∈ world.store.get? ReminderRecord.key, ∀ id : MessageId, ¬ id.WrittenAs raw := by
    intro raw held id written
    cases held
    cases Id.read_eq_ok_iff.mpr written
  have goes := hourly.delay_goes_by_record world
  obtain ⟨saved, left, kept, -, told, rest⟩ := goes.1 firstOf2015
  have ordinary : world.clock.isLeap = false := by decide
  have past : ¬ world.clock.Before firstOf2015.createdAt := by decide
  exact ⟨⟨unreadable, goes.2 unreadable⟩, saved, left, kept, told, ordinary, past,
    rest.due ordinary past⟩

/-- An identifier of a message from a fifth of a second into 2017. -/
def earlyIn2017 : MessageId := ⟨264905530592460800⟩

/-- A message from the future does not always count as posted just now: half a second into the leap
second that ends 2016, the message from early in 2017 counts as three tenths of a second old.
-/
theorem ReminderSettings.delay_is_short_in_leap_second
    : let world := World.start (.empty MessageId.endOf2016)
      world.clock.Before earlyIn2017.createdAt
      ∧ ∃ saved,
          (ReminderRecord.save earlyIn2017).run World.handle world = (.ok (), saved)
          ∧ (hourly.initialDelay.run World.handle saved).1 = .ok ⟨3599700000000⟩
          ∧ (⟨3599700000000⟩ : Duration) ≠ hourly.frequency := by
  intro world
  obtain ⟨journal, told⟩ :=
    hourly.initialDelay_run (world.setStored ReminderRecord.key earlyIn2017.text)
  have recorded := ReminderRecord.stored?_set world.store earlyIn2017
  refine ⟨by decide +kernel, _, ReminderRecord.save_run earlyIn2017 world, ?_, by decide⟩
  rw [told]
  change Except.ok (delayUntilDue (ReminderRecord.stored? (world.store.set _ _)) _ _) = _
  rw [recorded]
  exact congrArg Except.ok (by decide +kernel)

end Gatehouse
