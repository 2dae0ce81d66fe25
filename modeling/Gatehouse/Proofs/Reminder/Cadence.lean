import Gatehouse.Proofs.Reminder.Delay
import Gatehouse.Proofs.Reminder.History
import Mathlib.Data.List.Chain
import Mathlib.Logic.Relation

/-! The cadence of the reminder. Over all its lives, two notices one after the other are at
least a period apart, but for what is left over of a millisecond. The first attempt of a life
comes when it is due: at its start, or a period after the notice on record was posted, if that
is later.
-/

namespace Gatehouse

/-- A period lies between two instants, but for what is left over of a millisecond. -/
def Duration.Separates (period : Duration) (earlier later : Instant) : Prop :=
  earlier.unixNanos + period.nanos ≤ later.unixNanos + 1000000

-------------------------------------------------------------------------------
-- What identifiers tell
-------------------------------------------------------------------------------

/-- An identifier tells in which millisecond its message was posted, and that is past. -/
structure MessageId.Tells (id : MessageId) (posted now : Instant) : Prop where
  ordinary : id.createdAt.isLeap = false
  from_ : id.createdAt.unixNanos ≤ posted.unixNanos
  within : posted.unixNanos < id.createdAt.unixNanos + 1000000
  past : posted.unixNanos ≤ now.unixNanos

/-- An identifier minted now tells so. -/
theorem MessageId.tells_mint {now : Instant} (since : startNanos ≤ now.unixNanos)
    (before : now.unixNanos < endNanos) (sequence : Nat)
    : (mint now sequence).Tells now now := by
  obtain ⟨ordinary, count⟩ := createdAt_mint since before sequence
  exact ⟨ordinary, by omega, by omega, Int.le_refl _⟩

/-- What is left of a period since a notice was posted, as far as its identifier tells. -/
theorem MessageId.Tells.delayUntilDue_eq {id : MessageId} {posted now : Instant}
    (tells : id.Tells posted now) (ordinary : now.isLeap = false) (frequency : Duration)
    : ((delayUntilDue (some id) frequency now).nanos : Int)
      = max 0 (id.createdAt.unixNanos + frequency.nanos - now.unixNanos) := by
  have past := Int.le_trans tells.from_ tells.past
  rw [delayUntilDue_nanos, Instant.nanosSince_of_ordinary ordinary tells.ordinary]
  omega

namespace ReminderHistory

variable {settings : ReminderSettings} {h : ReminderHistory}

-------------------------------------------------------------------------------
-- What every history keeps
-------------------------------------------------------------------------------

/-- No attempt comes before a time; at it the first attempt of the life is due and the last
notice is a period ago.
-/
structure Awaits (settings : ReminderSettings) (h : ReminderHistory) (time : Nat) : Prop where
  ahead : h.rehearsal.now ≤ time
  first
    : h.life.attempts = [] → h.rehearsal.unixAt time = h.life.firstDue settings.frequency
  spaced
    : ∀ last ∈ h.sent.getLast?,
      last.unixNanos + settings.frequency.nanos ≤ h.rehearsal.unixAt time + 1000000

/-- How far the present life has come. -/
inductive Poised (settings : ReminderSettings) (h : ReminderHistory) : Phase → Prop
  | opening (fresh : h.life.attempts = []) (startedAt : h.life.startedAt = h.clock)
    (found : h.life.found = h.stored?)
    : Poised settings h (.opening (.ofProgram settings.opening))
  | resting {time : Nat} (fresh : h.life.attempts = []) (awaits : h.Awaits settings time)
    : Poised settings h (.resting time)
  | idle {due : Nat} (awaits : h.Awaits settings due)
    : Poised settings h (.idle ⟨due, settings.frequency⟩)
  | working (awaits : h.Awaits settings h.rehearsal.now)
    : Poised settings h
        (.working ⟨h.rehearsal.now + settings.frequency.nanos, settings.frequency⟩
          (.ofProgram settings.work))
  | stopped (ended : h.life.ended = true) : Poised settings h .stopped

/-- The record names the notice that was sent last, if any was. -/
def Recorded (h : ReminderHistory) : Prop :=
  match h.sent.getLast? with
  | none => h.stored? = none
  | some last => ∃ id, h.stored? = some id ∧ id.Tells last h.clock

/-- What every history keeps. -/
structure Kept (settings : ReminderSettings) (h : ReminderHistory) : Prop where
  positive : 0 < settings.frequency.nanos
  onTime : h.rehearsal.OnTime settings.frequency
  recorded : h.Recorded
  apart : h.sent.IsChain settings.frequency.Separates
  first
    : ∀ at_ ∈ h.life.attempts.head?, at_.unixNanos = h.life.firstDue settings.frequency
  poised : h.Poised settings h.life.phase

/-- A time that is awaited is awaited later on too, up to itself. -/
theorem Awaits.later {after : ReminderHistory} {time : Nat} (awaits : h.Awaits settings time)
    (ahead : after.rehearsal.now ≤ time)
    (count : ∀ moment, after.rehearsal.unixAt moment = h.rehearsal.unixAt moment)
    (attempts : after.life.attempts = h.life.attempts)
    (due : after.life.firstDue settings.frequency = h.life.firstDue settings.frequency)
    (sent : after.sent = h.sent)
    : after.Awaits settings time where
  ahead := ahead
  first fresh := by
    rw [count, due]
    exact awaits.first (attempts ▸ fresh)
  spaced last member := by
    rw [count]
    exact awaits.spaced last (sent ▸ member)

-------------------------------------------------------------------------------
-- Turns
-------------------------------------------------------------------------------

/-- The history after an attempt, at which so many messages were posted. -/
def tried (settings : ReminderSettings) (h : ReminderHistory) (later : Rehearsal) (posted : Nat)
    : ReminderHistory where
  rehearsal := later
  life := { h.life with
    phase := .idle ⟨h.rehearsal.now + settings.frequency.nanos, settings.frequency⟩
    attempts := h.life.attempts ++ [h.clock] }
  sent := h.sent ++ .replicate posted h.clock

/-- What a turn of the present life can do. -/
inductive Turned (settings : ReminderSettings) (h : ReminderHistory) : ReminderHistory → Prop
  | settles {later : Rehearsal} (phase : h.life.phase = .opening (.ofProgram settings.opening))
    (fresh : h.life.attempts = []) (startedAt : h.life.startedAt = h.clock)
    (found : h.life.found = h.stored?) (quiet : h.rehearsal.Quiet later)
    : Turned settings h
        (h.moved later
          (.resting
            (h.rehearsal.now + (delayUntilDue h.stored? settings.frequency h.clock).nanos)))
  | begins (phase : h.life.phase = .resting h.rehearsal.now)
    (awaits : h.Awaits settings h.rehearsal.now)
    : Turned settings h (h.moved h.rehearsal (.idle ⟨h.rehearsal.now, settings.frequency⟩))
  | takes (phase : h.life.phase = .idle ⟨h.rehearsal.now, settings.frequency⟩)
    (awaits : h.Awaits settings h.rehearsal.now)
    : Turned settings h
        (h.moved h.rehearsal
          (.working ⟨h.rehearsal.now + settings.frequency.nanos, settings.frequency⟩
            (.ofProgram settings.work)))
  | tries {later : Rehearsal} (awaits : h.Awaits settings h.rehearsal.now)
    (attempted : h.rehearsal.Attempted later)
    : Turned settings h
        (h.tried settings later
          (later.world.community.sequence - h.rehearsal.world.community.sequence))
  | waits {time : Nat} (awaits : h.Awaits settings time) (ahead : h.rehearsal.now < time)
    : Turned settings h h
  | stops {later : Rehearsal} (ended : h.life.ended = true) (quiet : h.rehearsal.Quiet later)
    : Turned settings h (h.moved later .stopped)

theorem next_of_phase (settings : ReminderSettings) {phase : Phase} (same : h.life.phase = phase)
    : h.next settings = settings.routine.turn h.life.ended phase h.rehearsal :=
  same ▸ rfl

/-- A life that is told to stop while it rests or is idle stops. -/
theorem Turned.of_stop (ended : h.life.ended = true)
    (next
      : h.next settings
        = ⟨(settings.routine.stop h.rehearsal).1, (settings.routine.stop h.rehearsal).2, false⟩)
    : h.Turned settings (h.turn settings) := by
  have quiet : h.rehearsal.Quiet (settings.routine.stop h.rehearsal).2 :=
    .of_journal h.rehearsal _ h.rehearsal.lastSent
  exact turn_of_quiet quiet next ▸ .stops ended quiet

/-- A turn does one of these. -/
theorem Kept.turned (kept : h.Kept settings)
    : h.Turned settings (h.turn settings) := by
  have quiet := Rehearsal.Quiet.refl h.rehearsal
  have poised := kept.poised
  generalize phase : h.life.phase = at_ at poised
  have next := next_of_phase settings phase
  -- What is awaited is never past, so a tick is taken just when it is due; the ticker never lags.
  cases poised with
  | opening fresh startedAt found =>
      obtain ⟨later, quiet, turned⟩ := settings.turn_opening h.life.ended kept.onTime.swift
      have timer := kept.onTime.timer_eq (delayUntilDue_le h.stored? settings.frequency h.clock)
      rw [turn_of_quiet quiet (next.trans turned)]
      exact timer ▸ .settles phase fresh startedAt found quiet
  | @resting time fresh awaits =>
      simp only [Routine.turn] at next
      split at next
      · next ended => exact .of_stop ended next
      · split at next
        · next due =>
          obtain rfl : time = h.rehearsal.now := Nat.le_antisymm due awaits.ahead
          have ticks : Ticker.start? h.rehearsal.now settings.routine.period = some _ :=
            Ticker.start?_eq kept.positive
          rw [ticks] at next
          rw [turn_of_quiet quiet next]
          exact .begins phase awaits
        · next ahead =>
          rw [turn_of_quiet quiet next, ← phase]
          exact .waits awaits (Nat.lt_of_not_le ahead)
  | @idle time awaits =>
      simp only [Routine.turn, kept.onTime.roundUp_eq] at next
      split at next
      · next ended => exact .of_stop ended next
      · split at next
        · next due =>
          obtain rfl : time = h.rehearsal.now := Nat.le_antisymm due awaits.ahead
          rw [kept.onTime.take_eq (Nat.le_refl _)] at next
          rw [turn_of_quiet quiet next]
          exact .takes phase awaits
        · next ahead =>
          rw [turn_of_quiet quiet next, ← phase]
          exact .waits awaits (Nat.lt_of_not_le ahead)
  | working awaits =>
      obtain ⟨later, attempted, turned⟩ :=
        settings.turn_working h.life.ended kept.onTime.swift
          ⟨h.rehearsal.now + settings.frequency.nanos, settings.frequency⟩
      unfold turn
      simp only [next.trans turned, attempted.tries, Nat.add_sub_cancel_left]
      exact .tries awaits attempted
  | stopped ended =>
      rw [turn_of_quiet quiet next]
      exact .stops ended quiet

-------------------------------------------------------------------------------
-- Every step keeps it
-------------------------------------------------------------------------------

/-- At the same moment and with the same record, what is on record tells the same. -/
theorem Recorded.moved (recorded : h.Recorded) {later : Rehearsal}
    (store : later.world.store = h.rehearsal.world.store)
    (clock : h.clock.unixNanos ≤ later.world.clock.unixNanos) (life : ReminderLife)
    : (ReminderHistory.mk later life h.sent).Recorded := by
  unfold Recorded stored? ReminderHistory.clock at recorded ⊢
  simp only [store]
  cases last : h.sent.getLast? with
  | none =>
      rw [last] at recorded
      exact recorded
  | some posted =>
      rw [last] at recorded
      obtain ⟨id, found, tells⟩ := recorded
      exact ⟨id, found, { tells with past := Int.le_trans tells.past clock }⟩

/-- A history moved on within a moment keeps what it kept, if its life is poised. -/
theorem Kept.moved (kept : h.Kept settings) {later : Rehearsal}
    (quiet : h.rehearsal.Quiet later) {phase : Phase}
    (poised : (h.moved later phase).Poised settings phase)
    : (h.moved later phase).Kept settings where
  positive := kept.positive
  onTime := quiet.onTime kept.onTime
  recorded := kept.recorded.moved quiet.store (Int.le_of_eq (quiet.clock ▸ rfl)) _
  apart := kept.apart
  first := kept.first
  poised := poised

/-- What is left of the period is waited for: a life rests until its first attempt is due. -/
theorem Kept.awaits_opening (kept : h.Kept settings) (startedAt : h.life.startedAt = h.clock)
    (found : h.life.found = h.stored?)
    : h.Awaits settings
        (h.rehearsal.now + (delayUntilDue h.stored? settings.frequency h.clock).nanos) := by
  have recorded := kept.recorded
  have ordinary : h.clock.isLeap = false := kept.onTime.ordinary
  have reached (delay : Nat)
      : h.rehearsal.unixAt (h.rehearsal.now + delay) = h.clock.unixNanos + delay :=
    h.rehearsal.unixAt_add delay
  unfold Recorded at recorded
  cases latest : h.sent.getLast? with
  | none =>
      rw [latest] at recorded
      have due : h.life.firstDue settings.frequency = h.clock.unixNanos := by
        unfold ReminderLife.firstDue
        rw [found, recorded, startedAt]
      refine ⟨Nat.le_add_right _ _, fun _ => ?_, fun last member => ?_⟩
      · rw [reached, due, recorded]
        exact Int.add_zero _
      · rw [latest] at member
        cases member
  | some posted =>
      rw [latest] at recorded
      obtain ⟨id, stored, tells⟩ := recorded
      have due
          : h.life.firstDue settings.frequency
            = max h.clock.unixNanos (id.createdAt.unixNanos + settings.frequency.nanos) := by
        unfold ReminderLife.firstDue
        rw [found, stored, startedAt]
      -- The identifier tells less than a millisecond too little, and so much too soon may be due.
      have delay := tells.delayUntilDue_eq ordinary settings.frequency
      have within := tells.within
      rw [stored]
      refine ⟨Nat.le_add_right _ _, fun _ => ?_, fun last member => ?_⟩
      · rw [reached, due]
        omega
      · rw [latest] at member
        cases member
        rw [reached]
        omega

/-- What was sent is not ahead of the clock. -/
theorem Recorded.past (recorded : h.Recorded)
    : ∀ last ∈ h.sent.getLast?, last.unixNanos ≤ h.clock.unixNanos := by
  intro last member
  unfold Recorded at recorded
  rw [Option.mem_def.mp member] at recorded
  obtain ⟨id, -, tells⟩ := recorded
  exact tells.past

/-- After an attempt the record names the last notice, the one on record before or the new one. -/
theorem Kept.recorded_tried (kept : h.Kept settings) {later : Rehearsal}
    (attempted : h.rehearsal.Attempted later)
    : Recorded
        (h.tried settings later
          (later.world.community.sequence - h.rehearsal.world.community.sequence)) := by
  have clock : later.world.clock = h.clock := attempted.clock
  rcases attempted.outcome with ⟨store, sequence⟩ | ⟨⟨number, store⟩, sequence⟩
  · rw [sequence, Nat.sub_self]
    have same := kept.recorded.moved store (Int.le_of_eq (clock ▸ rfl))
      (h.tried settings later 0).life
    unfold tried at same ⊢
    rw [List.replicate_zero, List.append_nil]
    exact same
  · rw [sequence, Nat.add_sub_cancel_left]
    unfold Recorded tried stored? ReminderHistory.clock
    simp only [List.replicate_one, List.getLast?_append, List.getLast?_singleton, Option.some_or,
      store, ReminderRecord.stored?_set, clock]
    rw [kept.onTime.agreed]
    exact ⟨_, rfl, MessageId.tells_mint kept.onTime.since kept.onTime.before number⟩

/-- Notices stay a period apart when one more is posted at a time that was awaited. -/
theorem Awaits.apart {posted : Nat} (awaits : h.Awaits settings h.rehearsal.now)
    (apart : h.sent.IsChain settings.frequency.Separates) (single : posted ≤ 1)
    : (h.sent ++ .replicate posted h.clock).IsChain settings.frequency.Separates := by
  have alone : (List.replicate posted h.clock).IsChain settings.frequency.Separates := by
    obtain rfl | rfl : posted = 0 ∨ posted = 1 := by omega
    · exact .nil
    · exact .singleton _
  refine List.isChain_append.mpr ⟨apart, alone, fun last member at_ new => ?_⟩
  obtain rfl : at_ = h.clock := List.eq_of_mem_replicate (List.mem_of_mem_head? new)
  have spaced := awaits.spaced last member
  rw [h.rehearsal.unixAt_now] at spaced
  exact spaced

/-- An attempt keeps what was kept. -/
theorem Kept.attempt (kept : h.Kept settings) (awaits : h.Awaits settings h.rehearsal.now)
    {later : Rehearsal} (attempted : h.rehearsal.Attempted later)
    : Kept settings
        (h.tried settings later
          (later.world.community.sequence - h.rehearsal.world.community.sequence)) := by
  -- The last notice is not ahead of the clock, so the next tick is due a period after it.
  have single : later.world.community.sequence - h.rehearsal.world.community.sequence ≤ 1 := by
    rcases attempted.outcome with ⟨-, same⟩ | ⟨-, more⟩ <;> omega
  have recorded := kept.recorded_tried attempted
  have clock : later.world.clock = h.clock := attempted.clock
  refine {
    positive := kept.positive
    onTime := attempted.onTime kept.onTime
    recorded := recorded
    apart := awaits.apart kept.apart single
    first := ?first
    poised := .idle ⟨?ahead, ?again, ?spaced⟩ }
  case first =>
    intro at_ member
    change at_ ∈ (h.life.attempts ++ [h.clock]).head? at member
    cases before : h.life.attempts with
    | nil =>
        rw [before] at member
        cases member
        exact h.rehearsal.unixAt_now.symm.trans (awaits.first before)
    | cons earliest rest =>
        rw [before] at member
        exact kept.first at_ (before ▸ member)
  case ahead =>
    exact attempted.now ▸ Nat.le_add_right _ _
  case again =>
    exact fun none => (List.append_ne_nil_of_right_ne_nil _ (List.cons_ne_nil _ _) none).elim
  case spaced =>
    intro last member
    have past := recorded.past last member
    change last.unixNanos ≤ later.world.clock.unixNanos at past
    change _ ≤ later.unixAt _ + 1000000
    rw [attempted.unixAt_eq, h.rehearsal.unixAt_add]
    rw [clock] at past
    unfold ReminderHistory.clock at past
    omega

/-- A turn keeps what was kept. -/
theorem Kept.turn (kept : h.Kept settings)
    : (h.turn settings).Kept settings := by
  have still := Rehearsal.Quiet.refl h.rehearsal
  have turned := kept.turned
  generalize h.turn settings = after at turned
  cases turned with
  | @settles later phase fresh startedAt found quiet =>
      have awaits := kept.awaits_opening startedAt found
      exact kept.moved quiet
        (.resting fresh
          (awaits.later (quiet.now ▸ awaits.ahead) quiet.unixAt_eq rfl rfl rfl))
  | begins phase awaits =>
      exact kept.moved still
        (.idle (awaits.later (Nat.le_refl _) (fun _ => rfl) rfl rfl rfl))
  | takes phase awaits =>
      exact kept.moved still
        (.working (awaits.later (Nat.le_refl _) (fun _ => rfl) rfl rfl rfl))
  | tries awaits attempted => exact kept.attempt awaits attempted
  | waits awaits ahead => exact kept
  | stops ended quiet => exact kept.moved quiet (.stopped ended)

/-- Time that passes while the life waits keeps what was kept. -/
theorem Kept.pass (kept : h.Kept settings) {time : Nat}
    (waits : (h.next settings).goesOn = false)
    (due : ∀ wake ∈ h.life.phase.wake? h.rehearsal.pace, time ≤ wake)
    (later : h.rehearsal.now ≤ time)
    (inside : h.rehearsal.unixAt time < MessageId.endNanos)
    (exact_ : Rehearsal.TimersExact time settings.frequency)
    : Kept settings { h with rehearsal := h.rehearsal.passTo time } := by
  obtain ⟨onTime, now, count⟩ := kept.onTime.passTo later inside exact_
  have store : (h.rehearsal.passTo time).world.store = h.rehearsal.world.store := by
    unfold Rehearsal.passTo
    split <;> rfl
  have clock : h.clock.unixNanos ≤ (h.rehearsal.passTo time).world.clock.unixNanos := by
    have reached := count (h.rehearsal.passTo time).now
    rw [Rehearsal.unixAt_now, now] at reached
    unfold Rehearsal.unixAt at reached
    unfold ReminderHistory.clock
    omega
  refine ⟨kept.positive, onTime, kept.recorded.moved store clock h.life, kept.apart, kept.first,
    ?_⟩
  have poised := kept.poised
  generalize phase : h.life.phase = at_ at poised due
  have next := next_of_phase settings phase
  -- Programs run at once, so only a life that rests, is idle or has stopped waits.
  cases poised with
  | opening fresh startedAt found =>
      obtain ⟨later, -, turned⟩ := settings.turn_opening h.life.ended kept.onTime.swift
      rw [next, turned] at waits
      cases waits
  | resting fresh awaits =>
      exact .resting fresh (awaits.later (now.trans_le (due _ rfl)) count rfl rfl rfl)
  | idle awaits =>
      have before := due _ rfl
      rw [kept.onTime.roundUp_eq] at before
      exact .idle (awaits.later (now.trans_le before) count rfl rfl rfl)
  | working awaits =>
      obtain ⟨later, -, turned⟩ := settings.turn_working h.life.ended kept.onTime.swift _
      rw [next, turned] at waits
      cases waits
  | stopped ended => exact .stopped ended

/-- What changes within a moment but for the record, and a signal to stop, keep what was kept. -/
theorem Kept.carried (kept : h.Kept settings) {later : Rehearsal}
    (same : h.rehearsal.SameMoment later)
    (store : later.world.store = h.rehearsal.world.store) {ended : Bool}
    (still : h.life.ended = true → ended = true)
    : Kept settings { h with rehearsal := later, life := { h.life with ended := ended } } := by
  have clock : h.clock = later.world.clock := same.clock.symm
  have awaited {time : Nat} (awaits : h.Awaits settings time)
      : Awaits settings
          { h with rehearsal := later, life := { h.life with ended := ended } } time :=
    awaits.later (same.now.trans_le awaits.ahead) same.unixAt_eq rfl rfl rfl
  refine ⟨kept.positive, same.onTime kept.onTime,
    kept.recorded.moved store (Int.le_of_eq (clock ▸ rfl)) _, kept.apart, kept.first, ?_⟩
  have poised := kept.poised
  change Poised settings _ h.life.phase
  generalize h.life.phase = at_ at poised
  cases poised with
  | opening fresh startedAt found =>
      exact .opening fresh (startedAt.trans clock)
        (found.trans (congrArg ReminderRecord.stored? store.symm))
  | resting fresh awaits => exact .resting fresh (awaited awaits)
  | idle awaits => exact .idle (awaited awaits)
  | working awaits =>
      rw [← same.now]
      exact .working (awaited (same.now ▸ awaits))
  | stopped ended => exact .stopped (still ended)

/-- Every step keeps what was kept. -/
theorem Step.kept {after : ReminderHistory} (step : Step settings h after)
    (kept : h.Kept settings)
    : after.Kept settings := by
  cases step with
  | revive =>
      refine ⟨kept.positive, kept.onTime, kept.recorded, kept.apart, fun at_ member => ?_,
        .opening rfl rfl rfl⟩
      cases member
  | cutOff =>
      exact ⟨kept.positive, kept.onTime, kept.recorded, kept.apart, kept.first, .stopped rfl⟩
  | signal => exact kept.carried (Rehearsal.Quiet.refl _).toSameMoment rfl fun _ => rfl
  | turn => exact kept.turn
  | pass time waits due later inside exact_ => exact kept.pass waits due later inside exact_
  | @meddle community journal calls lastSent time =>
      have same : h.rehearsal.SameMoment
          { h.rehearsal with
            world := { h.rehearsal.world with community := community, journal := journal }
            calls := calls
            lastSent := lastSent } :=
        ⟨rfl, rfl, rfl, rfl, rfl, time⟩
      exact kept.carried same rfl fun ended => ended

/-- At the beginning nothing was sent and no life is under way. -/
theorem Kept.start {r : Rehearsal} (positive : 0 < settings.frequency.nanos)
    (onTime : r.OnTime settings.frequency)
    (blank : ReminderRecord.stored? r.world.store = none)
    : Kept settings (start r) where
  positive := positive
  onTime := onTime
  recorded := blank
  apart := .nil
  first at_ member := by cases member
  poised := .stopped rfl

/-- Whatever happens keeps what was kept, by induction over the steps. -/
theorem kept_of_steps {r : Rehearsal} (positive : 0 < settings.frequency.nanos)
    (onTime : r.OnTime settings.frequency)
    (blank : ReminderRecord.stored? r.world.store = none)
    (steps : Relation.ReflTransGen (Step settings) (start r) h)
    : h.Kept settings := by
  induction steps with
  | refl => exact .start positive onTime blank
  | tail _ step kept => exact step.kept kept

-------------------------------------------------------------------------------
-- The first attempt
-------------------------------------------------------------------------------

/-- How many turns at most a life takes until it makes an attempt, once that is due. -/
def turnsLeft : Phase → Nat
  | .opening _ => 4
  | .resting _ => 3
  | .idle _ => 2
  | .working .. => 1
  | .stopped | .panicked => 0

/-- The first attempt of the present life is due, and nobody told it to stop. -/
structure Due (settings : ReminderSettings) (h : ReminderHistory) : Prop where
  fresh : h.life.attempts = []
  going : h.life.ended = false
  now : h.clock.unixNanos = h.life.firstDue settings.frequency

/-- A time that is awaited for the first attempt is as far ahead as that. -/
theorem Awaits.ahead_eq {time : Nat} (awaits : h.Awaits settings time)
    (fresh : h.life.attempts = [])
    : h.life.firstDue settings.frequency = h.clock.unixNanos + (time - h.rehearsal.now : Nat) := by
  have due := awaits.first fresh
  have ahead := awaits.ahead
  unfold Rehearsal.unixAt at due
  unfold clock
  omega

/-- While nobody tells a life to stop, no time passes beyond its first attempt. -/
theorem Kept.clock_le (kept : h.Kept settings) (fresh : h.life.attempts = [])
    (going : h.life.ended = false)
    : h.clock.unixNanos ≤ h.life.firstDue settings.frequency := by
  have awaited {time : Nat} (awaits : h.Awaits settings time)
      : h.clock.unixNanos ≤ h.life.firstDue settings.frequency := by
    have due := awaits.ahead_eq fresh
    omega
  have poised := kept.poised
  generalize h.life.phase = phase at poised
  cases poised with
  | opening _ startedAt found =>
      unfold ReminderLife.firstDue
      rw [startedAt]
      split <;> omega
  | resting _ awaits | idle awaits | working awaits => exact awaited awaits
  | stopped ended => cases going.symm.trans ended

/-- When the first attempt is due, a turn makes it or leads on to it at the same moment. -/
theorem Kept.turn_of_due (kept : h.Kept settings) (due : h.Due settings)
    : (h.turn settings).life.attempts = [h.clock]
      ∨ (h.turn settings).Due settings
        ∧ (h.turn settings).clock = h.clock
        ∧ turnsLeft (h.turn settings).life.phase < turnsLeft h.life.phase := by
  have turned := kept.turned
  generalize h.turn settings = after at turned
  cases turned with
  | settles phase fresh startedAt found quiet =>
      have clock := quiet.clock
      exact .inr ⟨⟨due.fresh, due.going, (congrArg _ clock).trans due.now⟩, clock,
        phase ▸ Nat.lt_add_one _⟩
  | begins phase awaits =>
      exact .inr ⟨⟨due.fresh, due.going, due.now⟩, rfl, phase ▸ Nat.lt_add_one _⟩
  | takes phase awaits =>
      exact .inr ⟨⟨due.fresh, due.going, due.now⟩, rfl, phase ▸ Nat.lt_add_one _⟩
  | tries awaits attempted =>
      exact .inl (congrArg (· ++ [h.clock]) due.fresh)
  | waits awaits ahead =>
      have later := awaits.ahead_eq due.fresh
      have now := due.now
      omega
  | stops ended quiet => cases due.going.symm.trans ended

/-- Turns only add attempts. -/
theorem head?_attempts_turns {at_ : Instant} (turns : Nat)
    (first : h.life.attempts.head? = some at_)
    : ((turn settings)^[turns] h).life.attempts.head? = some at_ := by
  induction turns generalizing h with
  | zero => exact first
  | succ turns ih =>
      refine ih ?_
      change (h.life.attempts ++ _).head? = some at_
      rw [List.head?_append, first, Option.some_or]

/-- When the first attempt is due, it is made within so many turns, by induction over them. -/
theorem Kept.attempts_of_due (kept : h.Kept settings) (due : h.Due settings) (turns : Nat)
    (enough : turnsLeft h.life.phase ≤ turns)
    : ((ReminderHistory.turn settings)^[turns] h).life.attempts.head? = some h.clock := by
  induction turns generalizing h with
  | zero =>
      have poised := kept.poised
      have none : turnsLeft h.life.phase = 0 := Nat.le_zero.mp enough
      generalize h.life.phase = phase at poised none
      cases poised with
      | stopped ended => cases due.going.symm.trans ended
      | _ => cases none
  | succ turns ih =>
      rcases kept.turn_of_due due with made | ⟨still, same, fewer⟩
      · exact head?_attempts_turns turns (congrArg List.head? made)
      · rw [← same]
        exact ih kept.turn still (by omega)

-------------------------------------------------------------------------------
-- The cadence
-------------------------------------------------------------------------------

/-- A history keeps the cadence: a period lies between notices one after the other, and in the
present life the first attempt is made when it is due, neither before nor after, unless the life
is told to stop before.
-/
structure KeepsCadence (settings : ReminderSettings) (h : ReminderHistory) : Prop where
  apart : h.sent.IsChain settings.frequency.Separates
  first
    : ∀ at_ ∈ h.life.attempts.head?, at_.unixNanos = h.life.firstDue settings.frequency
  notLater
    : h.life.attempts = []
      → h.life.ended = false
      → h.clock.unixNanos ≤ h.life.firstDue settings.frequency
  made
    : h.life.attempts = []
      → h.life.ended = false
      → h.clock.unixNanos = h.life.firstDue settings.frequency
      → ((turn settings)^[4] h).life.attempts.head? = some h.clock

end ReminderHistory

/-- Notices go out at their period, which is not zero, over all lives of the reminder, whatever is
refused and whenever a life starts or is told to stop, and each life makes its first attempt when
that is due.
-/
theorem ReminderSettings.keeps_cadence {settings : ReminderSettings} {r : Rehearsal}
    {h : ReminderHistory} (positive : 0 < settings.frequency.nanos)
    (onTime : r.OnTime settings.frequency)
    (blank : ReminderRecord.stored? r.world.store = none)
    (steps : Relation.ReflTransGen (ReminderHistory.Step settings) (.start r) h)
    : h.KeepsCadence settings := by
  have kept := ReminderHistory.kept_of_steps positive onTime blank steps
  have few (phase : Phase) : ReminderHistory.turnsLeft phase ≤ 4 := by
    cases phase <;> simp [ReminderHistory.turnsLeft]
  exact {
    apart := kept.apart
    first := kept.first
    notLater := kept.clock_le
    made := fun fresh going now => kept.attempts_of_due ⟨fresh, going, now⟩ 4 (few _) }

/-- A notice every 28 hours. -/
def everyTwentyEightHours : ReminderSettings := ⟨⟨20⟩, .ofSeconds 100800, "Please verify"⟩

/-- The first of June 2024 at noon, and a little more. -/
def littleAfterNoon : Instant :=
  ⟨19875, 43200, 123456789, by decide, by decide, by decide, by decide⟩

/-- A community without members, and a store that is empty. -/
def deserted : Rehearsal :=
  { Rehearsal.start (World.start (.empty littleAfterNoon)) with pace := ⟨1, true⟩ }

/-- A life posts a notice and is told to stop, and 27 hours later a second one posts a notice
when that is due, which is less than a millisecond early for what the identifier of the first
one does not tell.
-/
theorem ReminderSettings.keeps_cadence_over_two_lives
    : ∃ h,
        0 < everyTwentyEightHours.frequency.nanos
        ∧ deserted.OnTime everyTwentyEightHours.frequency
        ∧ ReminderRecord.stored? deserted.world.store = none
        ∧ Relation.ReflTransGen (ReminderHistory.Step everyTwentyEightHours) (.start deserted) h
        ∧ h.sent.map Instant.unixNanos = [1717243200123456789, 1717344000123000000]
        ∧ h.KeepsCadence everyTwentyEightHours := by
  have onTime : deserted.OnTime everyTwentyEightHours.frequency := by
    refine ⟨rfl, rfl, rfl, .of_lt (by decide +kernel), rfl, rfl, ?_, ?_⟩ <;> decide +kernel
  have steps
      : Relation.ReflTransGen (ReminderHistory.Step everyTwentyEightHours) (.start deserted) _ :=
    .head (.revive _) <| .head (.turn _) <| .head (.turn _) <| .head (.turn _) <| .head (.turn _)
    <| .head (.signal _) <| .head (.turn _)
    <| .head (.pass 97200000000000 (by decide +kernel) (by decide +kernel) (by decide +kernel)
      (by decide +kernel) (.of_lt (by decide +kernel)))
    <| .head (.revive _) <| .head (.turn _)
    <| .head (.pass 100799999543211 (by decide +kernel) (by decide +kernel) (by decide +kernel)
      (by decide +kernel) (.of_lt (by decide +kernel)))
    <| .head (.turn _) <| .head (.turn _) <| .single (.turn _)
  have positive : 0 < everyTwentyEightHours.frequency.nanos := by decide
  exact ⟨_, positive, onTime, rfl, steps, by decide +kernel,
    keeps_cadence positive onTime rfl steps⟩

end Gatehouse
