import Gatehouse.Proofs.Reminder.Notice
import Gatehouse.Proofs.Schedule.Promptness
import Gatehouse.Service

/-! The history of the reminder. One life of it follows another over one store. A life starts,
is told to stop and may be cut off at any moment; it takes its turns in between, and time passes
only while it waits, no further than to its next timer. All but the store and the time may
change under it.
-/

namespace Gatehouse

-------------------------------------------------------------------------------
-- What the reminder does at its turns
-------------------------------------------------------------------------------

/-- Messages that were tried to post, as far as calls are noted. -/
def Rehearsal.tries (r : Rehearsal) : Nat := r.calls.countP Call.isSend

/-- Nothing has happened but that the journal has grown. -/
structure Rehearsal.Quiet (r later : Rehearsal) : Prop extends r.SameMoment later where
  store : later.world.store = r.world.store
  tries : later.tries = r.tries
  sequence : later.world.community.sequence = r.world.community.sequence

theorem Rehearsal.Quiet.of_journal (r : Rehearsal) (journal : List Journal.Entry)
    (lastSent : MessageId)
    : r.Quiet { r with world := { r.world with journal := journal }, lastSent := lastSent } :=
  ⟨⟨rfl, rfl, rfl, rfl, rfl, rfl⟩, rfl, rfl, rfl⟩

theorem Rehearsal.Quiet.refl (r : Rehearsal)
    : r.Quiet r :=
  .of_journal r r.world.journal r.lastSent

/-- What an attempt leads to: one message more was tried to post, and it was refused and the
record stays, or it was posted at that moment and is on record.
-/
structure Rehearsal.Attempted (r later : Rehearsal) : Prop extends r.SameMoment later where
  tries : later.tries = r.tries + 1
  outcome
    : (later.world.store = r.world.store
        ∧ later.world.community.sequence = r.world.community.sequence)
      ∨ (∃ sequence,
          later.world.store
            = r.world.store.set ReminderRecord.key
                (MessageId.mint r.world.community.now sequence).text)
        ∧ later.world.community.sequence = r.world.community.sequence + 1

namespace ReminderSettings

/-- What is due is told from the record, and only the journal grows. -/
theorem opening_run (settings : ReminderSettings) (world : World)
    : ∃ journal,
        settings.opening.run World.handle world
          = (some
                (delayUntilDue (ReminderRecord.stored? world.store) settings.frequency world.clock),
              { world with journal := journal }) := by
  obtain ⟨journal, told⟩ := settings.initialDelay_run world
  unfold opening
  rw [Program.run_bind, told]
  exact ⟨journal, rfl⟩

theorem opening_asksOnly {allowed : Effect → Prop} (settings : ReminderSettings)
    (loads : allowed (.load ReminderRecord.key)) (reads : allowed .clock)
    (logs : ∀ entry, allowed (.log entry))
    : settings.opening.AsksOnly allowed := by
  refine .bind (settings.initialDelay_asksOnly loads reads logs) fun told => ?_
  cases told with
  | ok delay => exact .pure _
  | error fault => exact .bind (.ask (logs _)) fun _ => .pure _

/-- At its opening the reminder settles at once how long it rests. -/
theorem turn_opening (settings : ReminderSettings) (ended : Bool) {r : Rehearsal} (swift : r.Swift)
    : ∃ later,
        r.Quiet later
        ∧ settings.routine.turn ended (.opening (.ofProgram settings.opening)) r
          = ⟨.resting
                (r.timer
                  (delayUntilDue (ReminderRecord.stored? r.world.store) settings.frequency
                    r.world.clock)),
              later, true⟩ := by
  obtain ⟨journal, ran⟩ := settings.opening_run r.world
  have calls : settings.opening.exchanges r.world = [] :=
    (settings.opening_asksOnly trivial trivial fun _ => trivial).exchanges r.world
  have prompt : settings.opening.IsPrompt :=
    settings.opening_asksOnly trivial trivial fun _ => trivial
  obtain ⟨lastSent, went⟩ :=
    Pending.goOn_eq settings.opening swift (prompt _ _ (.of_trace _ _ _))
  rw [ran, calls] at went
  have advanced : (Pending.ofProgram settings.opening).advance r = _ := went
  refine ⟨_, .of_journal r journal lastSent, ?_⟩
  simp only [Routine.turn, advanced]
  rfl

/-- A notice is posted and goes on record, or is refused and leaves the record. -/
theorem work_run (settings : ReminderSettings) (world : World)
    : let after := (settings.work.run World.handle world).2
      after.clock = world.clock
        ∧ after.community.now = world.community.now
        ∧ ((after.store = world.store ∧ after.community.sequence = world.community.sequence)
          ∨ (∃ sequence,
              after.store
                = world.store.set ReminderRecord.key
                    (MessageId.mint world.community.now sequence).text)
            ∧ after.community.sequence = world.community.sequence + 1) := by
  obtain ⟨posts, cleared⟩ := world.community.clear_eq (ReminderRecord.stored? world.store)
  intro after
  have same : after = (settings.work.run World.handle world).2 := rfl
  unfold work at same
  rw [Program.run_bind] at same
  cases fails : world.community.sendsFail with
  | true =>
      obtain ⟨journal, fired⟩ := settings.fire_refused fails
      rw [fired, cleared] at same
      rw [same]
      exact ⟨rfl, rfl, .inl ⟨rfl, rfl⟩⟩
  | false =>
      obtain ⟨journal, fired⟩ := settings.fire_sent fails
      rw [fired, cleared] at same
      rw [same]
      exact ⟨rfl, rfl, .inr ⟨⟨_, rfl⟩, rfl⟩⟩

/-- Whether a notice is posted or refused, one message was tried to post. -/
theorem work_sends (settings : ReminderSettings) (world : World)
    : (settings.work.exchanges world).countP (fun exchange => exchange.1.isSend) = 1 := by
  have lasting
      : ∀ fault, (settings.fire.run World.handle world).1 ≠ .error (.store fault) := by
    intro fault
    cases fails : world.community.sendsFail with
    | true =>
        obtain ⟨journal, fired⟩ := settings.fire_refused fails
        rw [fired]
        nofun
    | false =>
        obtain ⟨journal, fired⟩ := settings.fire_sent fails
        rw [fired]
        nofun
  obtain ⟨answer, sole, -⟩ := fire_sends (.of_trace World.handle settings.fire world) lasting
  have whole
      : sendsIn (settings.work.trace World.handle world)
        = [⟨.send settings.channel settings.message, answer⟩] := by
    unfold work
    rw [Program.trace_bind, sendsIn_append, sole]
    generalize (settings.fire.run World.handle world).1 = told
    cases told <;> rfl
  rw [List.countP_eq_length_filter]
  exact congrArg List.length whole

/-- At its work the reminder makes one attempt. -/
theorem turn_working (settings : ReminderSettings) (ended : Bool) {r : Rehearsal}
    (swift : r.Swift) (ticker : Ticker)
    : ∃ later,
        r.Attempted later
        ∧ settings.routine.turn ended (.working ticker (.ofProgram settings.work)) r
          = ⟨.idle ticker, later, true⟩ := by
  obtain ⟨clock, posting, outcome⟩ := settings.work_run r.world
  have prompt : settings.work.IsPrompt := by
    refine .bind (settings.fire_asksOnly trivial (fun _ => trivial) (fun _ => trivial) trivial
      fun _ => trivial) fun told => ?_
    cases told with
    | ok sent => exact .pure _
    | error fault => exact .ask trivial
  obtain ⟨lastSent, went⟩ := Pending.goOn_eq settings.work swift (prompt _ _ (.of_trace _ _ _))
  have advanced : (Pending.ofProgram settings.work).advance r = _ := went
  refine ⟨{ r with
      world := (settings.work.run World.handle r.world).2
      calls := ((settings.work.exchanges r.world).map Sigma.fst).reverse ++ r.calls
      lastSent := lastSent },
    ⟨⟨rfl, rfl, rfl, rfl, clock, posting⟩, ?_, outcome⟩, ?_⟩
  · have one := settings.work_sends r.world
    simp only [Rehearsal.tries, List.countP_append, List.countP_reverse, List.countP_map]
    exact (congrArg (· + _) one).trans (Nat.add_comm _ _)
  · simp only [Routine.turn, advanced]

end ReminderSettings

-------------------------------------------------------------------------------
-- Lives and histories
-------------------------------------------------------------------------------

/-- A life of the reminder so far. -/
structure ReminderLife where
  phase : Phase
  /-- It was told to stop. -/
  ended : Bool
  startedAt : Instant
  /-- The notice that was on record when it started. -/
  found : Option MessageId
  /-- When it tried to post a notice, in order. -/
  attempts : List Instant

/-- When the first attempt of a life is due, in nanoseconds since the start of 1970: at its
start, or a period after the notice that was on record was posted, if that is later.
-/
def ReminderLife.firstDue (life : ReminderLife) (frequency : Duration) : Int :=
  match life.found with
  | none => life.startedAt.unixNanos
  | some id => max life.startedAt.unixNanos (id.createdAt.unixNanos + frequency.nanos)

/-- A history of the reminder so far, with its present life. -/
structure ReminderHistory where
  rehearsal : Rehearsal
  life : ReminderLife
  /-- When notices were posted, in all lives and in order. -/
  sent : List Instant

namespace ReminderHistory

/-- The beginning, when no life has started. -/
def start (r : Rehearsal) : ReminderHistory :=
  ⟨r, ⟨.stopped, true, r.world.clock, none, []⟩, []⟩

/-- What the clock tells. -/
def clock (h : ReminderHistory) : Instant := h.rehearsal.world.clock

/-- What is on record. -/
def stored? (h : ReminderHistory) : Option MessageId :=
  ReminderRecord.stored? h.rehearsal.world.store

/-- A new life starts, in place of the one before. -/
def revive (settings : ReminderSettings) (h : ReminderHistory) : ReminderHistory :=
  { h with life := ⟨settings.routine.start, false, h.clock, h.stored?, []⟩ }

/-- The present life is told to stop. -/
def signal (h : ReminderHistory) : ReminderHistory :=
  { h with life := { h.life with ended := true } }

/-- The present life is cut off. -/
def cutOff (h : ReminderHistory) : ReminderHistory :=
  { h with life := { h.life with phase := .stopped, ended := true } }

/-- What the next turn of the present life leads to. -/
def next (settings : ReminderSettings) (h : ReminderHistory) : Routine.Turn :=
  settings.routine.turn h.life.ended h.life.phase h.rehearsal

/-- The present life takes a turn; each message that it tries to post in it is an attempt, and
each that is posted was sent.
-/
def turn (settings : ReminderSettings) (h : ReminderHistory) : ReminderHistory :=
  let next := h.next settings
  { rehearsal := next.rehearsal
    life := { h.life with
      phase := next.phase
      attempts :=
        h.life.attempts ++ .replicate (next.rehearsal.tries - h.rehearsal.tries) h.clock }
    sent :=
      h.sent
        ++ .replicate
          (next.rehearsal.world.community.sequence - h.rehearsal.world.community.sequence)
          h.clock }

/-- One step of a history. -/
inductive Step (settings : ReminderSettings) : ReminderHistory → ReminderHistory → Prop
  | revive (h : ReminderHistory) : Step settings h (h.revive settings)
  | signal (h : ReminderHistory) : Step settings h h.signal
  | cutOff (h : ReminderHistory) : Step settings h h.cutOff
  | turn (h : ReminderHistory) : Step settings h (h.turn settings)
  /-- Time passes while the life waits, up to its next timer and within the time that
  identifiers tell.
  -/
  | pass {h : ReminderHistory} (time : Nat)
    (waits : (h.next settings).goesOn = false)
    (due : ∀ wake ∈ h.life.phase.wake? h.rehearsal.pace, time ≤ wake)
    (later : h.rehearsal.now ≤ time)
    (inside : h.rehearsal.unixAt time < MessageId.endNanos)
    (exact_ : Rehearsal.TimersExact time settings.frequency)
    : Step settings h { h with rehearsal := h.rehearsal.passTo time }
  /-- The community changes but for its time, and calls and events are forgotten or noted by
  others.
  -/
  | meddle {h : ReminderHistory} {community : Community} (journal : List Journal.Entry)
    (calls : List Call) (lastSent : MessageId)
    (time : community.now = h.rehearsal.world.community.now)
    : Step settings h
        { h with
          rehearsal := { h.rehearsal with
            world := { h.rehearsal.world with community := community, journal := journal }
            calls := calls
            lastSent := lastSent } }

/-- A history with another phase of the present life, in a later state of the rehearsal. -/
def moved (h : ReminderHistory) (later : Rehearsal) (phase : Phase) : ReminderHistory :=
  { h with rehearsal := later, life := { h.life with phase := phase } }

/-- A turn in which nothing happens moves the life on. -/
theorem turn_of_quiet {settings : ReminderSettings} {h : ReminderHistory} {phase : Phase}
    {later : Rehearsal} {goesOn : Bool} (quiet : h.rehearsal.Quiet later)
    (next : h.next settings = ⟨phase, later, goesOn⟩)
    : h.turn settings = h.moved later phase := by
  unfold turn
  simp only [next, quiet.tries, quiet.sequence, Nat.sub_self, List.replicate_zero,
    List.append_nil]
  rfl

end ReminderHistory

end Gatehouse
