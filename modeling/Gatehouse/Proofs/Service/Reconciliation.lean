import Gatehouse.Proofs.Schedule.Alone
import Gatehouse.Proofs.Verification.Round
import Gatehouse.Service
import Mathlib.Data.List.Chain

/-! The reconciliation until it is told to stop. It makes whole passes that follow one another by
a timetable, none of them after the signal, and leaves what the same passes leave when they are
made one by one. With an interval that timers can tell it then returns: main statements
`runs_until_signal` and `Reconciles.returns`.
-/

namespace Gatehouse

open Routine (Completes enoughTurns)

-------------------------------------------------------------------------------
-- Works that are passes
-------------------------------------------------------------------------------

namespace ReconcileSettings

/-- What so many passes make of a world, one after the other, each made alone. -/
def passed (settings : ReconcileSettings) (sink : AuditSink) : Nat → World → World
  | 0, world => world
  | n + 1, world => ((settings.pass sink).run World.handle (settings.passed sink n world)).2

/-- A pass in a community adds one report to the reports if they are kept on file. -/
def Reports (sink : AuditSink) (before after : Community) : Prop :=
  sink = .file → ∃ report, after.reports = before.reports ++ [report]

/-- A pass takes a course at any time in any community, and makes one report. -/
theorem pass_course (settings : ReconcileSettings) (sink : AuditSink) (now : Instant)
    (before : Community)
    : ∃ result after made,
        (settings.pass sink).Course now before result after made
        ∧ Reports sink before after := by
  cases readable : before.listingFailure with
  | none =>
      obtain ⟨report, granted, settled, removing, course, conduct⟩ :=
        settings.pass_readable now sink readable
      obtain ⟨-, -, -, roster, -, drifts⟩ := conduct.removal.loses
      obtain ⟨sequence, posts, scripted, awaits, hub, rfl⟩ := drifts
      refine ⟨_, _, _, course, fun onFile => ⟨report.filed, ?_⟩⟩
      subst onFile
      rfl
  | some failure =>
      refine ⟨_, _, _, settings.pass_unreadable now sink readable, fun onFile =>
        ⟨skipReport failure, ?_⟩⟩
      subst onFile
      rfl

/-- The work of the routine takes the course of a pass, for it only notes what came of it. -/
theorem work_course (settings : ReconcileSettings) (sink : AuditSink) {now : Instant}
    {before after : Community} {result : Except SnapshotUnavailable PassReport}
    {made : List Exchange} (pass : (settings.pass sink).Course now before result after made)
    : (settings.work sink).Course now before () after made := by
  cases result with
  | ok report => exact pass.followed .done
  | error fault => exact pass.followed (.log _ _ _)

/-- So many works of the routine leave what so many passes leave, but for the journal. -/
theorem worked_eq (settings : ReconcileSettings) (sink : AuditSink) (world : World) (n : Nat)
    : ∃ journal,
        (settings.routine sink).worked n world
          = { settings.passed sink n world with journal := journal } := by
  induction n with
  | zero => exact ⟨world.journal, rfl⟩
  | succ n ih =>
      obtain ⟨journal, same⟩ := ih
      obtain ⟨result, after, made, course, -⟩ :=
        settings.pass_course sink (settings.passed sink n world).clock
          (settings.passed sink n world).community
      obtain ⟨-, ⟨first, left⟩, -⟩ := course.ran (settings.passed sink n world)
      obtain ⟨-, ⟨second, worked⟩, -⟩ :=
        (settings.work_course sink course).ran
          { settings.passed sink n world with journal := journal }
      refine ⟨second, ?_⟩
      unfold Routine.worked passed
      rw [same, left]
      exact worked

/-- Each of so many passes makes one report. -/
theorem passed_reports (settings : ReconcileSettings) (sink : AuditSink) (world : World) (n : Nat)
    : Reports sink (settings.passed sink n world).community
        (settings.passed sink (n + 1) world).community := by
  obtain ⟨result, after, made, course, reports⟩ :=
    settings.pass_course sink (settings.passed sink n world).clock
      (settings.passed sink n world).community
  obtain ⟨-, ⟨journal, left⟩, -⟩ := course.ran (settings.passed sink n world)
  have same : (settings.passed sink (n + 1) world).community = after :=
    congrArg World.community left
  unfold Reports
  rw [same]
  exact reports

end ReconcileSettings

-------------------------------------------------------------------------------
-- Timetables
-------------------------------------------------------------------------------

/-- Of two works that follow one another the later one begins no earlier than a period after the
other, but for a little.
-/
def Stint.Apart (period : Nat) (earlier later : Stint) : Prop :=
  earlier.begun + period < Timer.limit
  → earlier.begun + period ≤ later.begun + Ticker.patience

/-- Works by a timetable are apart, by induction over the works: the next is due a period after a
time that is at most a little before the last one began.
-/
theorem Timetable.apart {period due free : Nat} {stints : List Stint}
    (table : Timetable period stints due free)
    : stints.IsChain (Stint.Apart period)
      ∧ ∀ last ∈ stints.getLast?,
        last.begun + period < Timer.limit
        → last.begun + period ≤ due + Ticker.patience := by
  induction table with
  | start => exact ⟨.nil, fun last none => by cases none⟩
  | @next stints due free later stint before named begun inOrder follows ih =>
      obtain ⟨chain, last⟩ := ih
      constructor
      · refine List.isChain_append.mpr ⟨chain, .singleton _, ?_⟩
        intro earlier member next isNext short
        cases isNext
        have bound := last earlier member short
        omega
      · intro earlier member short
        rw [List.getLast?_concat, Option.mem_some_iff] at member
        subst member
        have bound : stint.base ≤ stint.begun ∧ stint.begun ≤ stint.base + Ticker.patience := by
          unfold Stint.base
          split <;> omega
        have follows := follows (by omega)
        omega

-------------------------------------------------------------------------------
-- The reconciliation until a signal
-------------------------------------------------------------------------------

namespace ReconcileSettings

/-- The reconciliation alone in a world, from a state of the signal on; at a time something is done
through the handle.
-/
def performance (settings : ReconcileSettings) (sink : AuditSink) (world : World)
    (signal : Shutdown) (time : Duration) (change : Shutdown → Shutdown) : Performance Unit :=
  .start (.solo (settings.routine sink)) (.ofCues 0 [] (some time) change) signal (.start world)

/-- The reconciliation has returned, at once if it was told to stop before it began, and else with the
signal or at the end of the pass that was under way then; no pass is left that should have begun
before the signal.
-/
structure Returns (signal : Shutdown) (time due free : Nat) (final : Performance Unit)
    : Prop where
  all : signal.hasEnded = false → time ≤ max due free
  endedAt : final.endedAt = some (if signal.hasEnded then 0 else max time free)

/-- The reconciliation has panicked before the signal: the next pass is overdue, so late that timers
cannot tell when the one behind it would be due.
-/
structure BreaksOff (settings : ReconcileSettings) (time due free : Nat)
    (final : Performance Unit) : Prop where
  overdue : Overdue settings.interval.nanos due (max due free)
  inTime : max due free ≤ time
  panicked : final.hasPanicked = true
  now : final.rehearsal.now = max due free

/-- What the reconciliation comes to that is told to stop at a time: whole passes by the timetable
of its interval, each of which made its report, none of them begun after the signal; the world that
as many passes leave one by one; and its return, after all that begin before the signal, unless it
panics at one of these that is overdue.
-/
structure Reconciles (settings : ReconcileSettings) (sink : AuditSink) (world : World)
    (signal : Shutdown) (time : Nat) (passes : List Stint) (due free : Nat)
    (final : Performance Unit) : Prop where
  table : Timetable settings.interval.nanos passes due free
  apart : passes.IsChain (Stint.Apart settings.interval.nanos)
  unbegun : signal.hasEnded = true → passes = []
  begun : ∀ pass ∈ passes, pass.begun ≤ time
  ending : Returns signal time due free final ∨ settings.BreaksOff time due free final
  reports
    : ∀ n,
      n < passes.length
      → Reports sink (settings.passed sink n world).community
          (settings.passed sink (n + 1) world).community
  left
    : ∃ journal,
      final.rehearsal.world
        = { settings.passed sink passes.length world with journal := journal }

/-- As long as timers can tell the end of an interval that begins with the signal, the
reconciliation returns.
-/
theorem Reconciles.returns {settings : ReconcileSettings} {sink : AuditSink} {world : World}
    {signal : Shutdown} {time due free : Nat} {passes : List Stint} {final : Performance Unit}
    (reconciles : settings.Reconciles sink world signal time passes due free final)
    (told : time + settings.interval.nanos < Timer.limit)
    : Returns signal time due free final := by
  refine reconciles.ending.resolve_right fun breaks => ?_
  have far := breaks.overdue.2
  have inTime := breaks.inTime
  omega

end ReconcileSettings

end Gatehouse
