import Gatehouse.Proofs.Schedule.Waiting
import Gatehouse.Schedule.Routine

/-! The timetable of a routine. Its works are whole and follow one another: each begins when it is
due and the one before has ended, whichever is later, and each settles when the next is due. So
it goes on turn by turn until the signal to stop, which lets a work that is under way come to its
end; or until a work should begin late at a time from which nobody can tell when the next is due.
-/

namespace Gatehouse

open Pending (ComesAlong)

-------------------------------------------------------------------------------
-- What is seen of a routine
-------------------------------------------------------------------------------

/-- What is seen of the works of a routine. -/
inductive Moment
  /-- A work begins, and when it was due. -/
  | begins (due time : Nat)
  | ends (time : Nat)
deriving DecidableEq, Repr

namespace Routine

/-- What is seen in a turn: a work begins or ends. -/
def seenIn? (phase : Phase) (next : Turn) : Option Moment :=
  match phase, next.phase with
  | .idle ticker, .working .. => some (.begins ticker.due next.rehearsal.now)
  | .working .., .idle _ => some (.ends next.rehearsal.now)
  | _, _ => none

/-- What is seen in the turns of a routine until it has to wait. -/
def seen (routine : Routine) (ended : Bool) : Nat → Phase → Rehearsal → List Moment
  | 0, _, _ => []
  | turns + 1, phase, r =>
      let next := routine.turn ended phase r
      (seenIn? phase next).toList
        ++ if next.goesOn then routine.seen ended turns next.phase next.rehearsal else []

/-- What so many works make of a world, one after the other, each done alone. -/
def worked (routine : Routine) : Nat → World → World
  | 0, world => world
  | n + 1, world => (routine.work.run World.handle (routine.worked n world)).2

theorem worked_sound (routine : Routine) {world : World} (sound : world.community.hub.Sound)
    (n : Nat)
    : (routine.worked n world).community.hub.Sound := by
  induction n with
  | zero => exact sound
  | succ n ih => exact World.run_sound routine.work ih

end Routine

-------------------------------------------------------------------------------
-- Timetables
-------------------------------------------------------------------------------

/-- A work that was done: when it was due, when it began and when it ended. -/
structure Stint where
  due : Nat
  begun : Nat
  ended : Nat
deriving DecidableEq, Repr

namespace Stint

def moments (stint : Stint) : List Moment := [.begins stint.due stint.begun, .ends stint.ended]

/-- From when the next work is due a period later: from when this one was due, or from when it
began if that was more than a little late.
-/
def base (stint : Stint) : Nat :=
  if stint.begun ≤ stint.due + Ticker.patience then stint.due else stint.begun

end Stint

/-- The works that follow one another by a timetable, when the next one is due, and since when there
is nobody at work. Timers tell no time beyond their limit.
-/
inductive Timetable (period : Nat) : List Stint → Nat → Nat → Prop
  | start : Timetable period [] 0 0
  | next {stints : List Stint} {due free later : Nat} {stint : Stint}
    (before : Timetable period stints due free) (named : stint.due = due)
    (begun : stint.begun = max due free) (inOrder : stint.begun ≤ stint.ended)
    (follows : stint.base + period < Timer.limit → later = stint.base + period)
    : Timetable period (stints ++ [stint]) later stint.ended

/-- By a timetable a work begins before or when nobody has been at work any longer, by induction
over the works.
-/
theorem Timetable.begun_le {period due free : Nat} {stints : List Stint}
    (table : Timetable period stints due free)
    : ∀ stint ∈ stints, stint.begun ≤ free := by
  induction table with
  | start => exact fun stint member => (List.not_mem_nil member).elim
  | next before named begun inOrder follows ih =>
      intro stint member
      rcases List.mem_append.mp member with earlier | last
      · have bound := ih stint earlier
        omega
      · rw [List.mem_singleton.mp last]
        exact inOrder

-------------------------------------------------------------------------------
-- Ticks
-------------------------------------------------------------------------------

/-- A tick is taken late, and timers cannot tell when the next one would be due. -/
def Overdue (period due now : Nat) : Prop :=
  due + Ticker.patience < now ∧ Timer.limit ≤ now + period

namespace Ticker

variable {ticker next : Ticker} {now : Nat}

/-- What a tick that is taken makes of its ticker. -/
inductive Goes (ticker : Ticker) (now : Nat) : Ticker → Prop
  | late (late : ticker.due + patience < now) (told : now + ticker.period.nanos < Timer.limit)
    : Goes ticker now { ticker with due := now + ticker.period.nanos }
  | inTime (inTime : now ≤ ticker.due + patience)
    (told : ticker.due + ticker.period.nanos < Timer.limit)
    : Goes ticker now { ticker with due := ticker.due + ticker.period.nanos }
  /-- Timers cannot tell when the next one should be due. -/
  | astray (inTime : now ≤ ticker.due + patience)
    (far : Timer.limit ≤ ticker.due + ticker.period.nanos)
    : Goes ticker now { ticker with due := now + Timer.farFuture.nanos }

/-- A ticker goes on by a tick that is taken. -/
theorem goes_of_take? (taken : ticker.take? now = some next)
    : ticker.Goes now next := by
  unfold take? Timer.after? at taken
  split at taken
  · next late =>
    split at taken
    · next told =>
      cases taken
      exact .late late told
    · cases taken
  · next inTime =>
    split at taken
    · next told =>
      cases taken
      exact .inTime (Nat.le_of_not_lt inTime) told
    · next far =>
      cases taken
      exact .astray (Nat.le_of_not_lt inTime) (Nat.le_of_not_lt far)

/-- There is no ticker any longer exactly when a tick is taken overdue. -/
theorem take?_eq_none_iff
    : ticker.take? now = none ↔ Overdue ticker.period.nanos ticker.due now := by
  unfold take? Overdue Timer.after?
  split
  · next late =>
    simp only [late, true_and, Option.map_eq_none_iff, ite_eq_right_iff, reduceCtorEq, imp_false,
      Nat.not_lt]
  · next inTime => simp only [inTime, false_and, reduceCtorEq]

theorem Goes.period_eq (goes : ticker.Goes now next)
    : next.period = ticker.period := by
  cases goes <;> rfl

/-- The next tick is due a period after the time that the taken one counts from, if that can be
told.
-/
theorem Goes.due_eq (goes : ticker.Goes now next) {ended : Nat}
    (short : (Stint.mk ticker.due now ended).base + ticker.period.nanos < Timer.limit)
    : next.due = (Stint.mk ticker.due now ended).base + ticker.period.nanos := by
  simp only [Stint.base] at short ⊢
  cases goes with
  | late late told => rw [if_neg (Nat.not_le_of_lt late)]
  | inTime inTime told => rw [if_pos inTime]
  | astray inTime far =>
      rw [if_pos inTime] at short
      exact absurd short (Nat.not_lt_of_le far)

/-- At whole milliseconds, the next tick is due at one. -/
theorem Goes.due_whole (goes : ticker.Goes now next) (whole : WholeMillis ticker.period.nanos)
    (due_whole : WholeMillis ticker.due) (now_whole : WholeMillis now)
    : WholeMillis next.due := by
  cases goes with
  | late => exact Nat.dvd_add now_whole whole
  | inTime => exact Nat.dvd_add due_whole whole
  | astray => exact Nat.dvd_add now_whole Timer.whole_farFuture

/-- The next tick is due at least a millisecond later than the taken one was, or than that was taken
if it was late.
-/
theorem Goes.due_ahead (goes : ticker.Goes now next) (isDue : ticker.due ≤ now)
    (whole : WholeMillis ticker.period.nanos) (positive : 0 < ticker.period.nanos)
    : ticker.due + 1000000 ≤ next.due
      ∧ (ticker.due + patience < now → now + 1000000 ≤ next.due) := by
  have long := Nat.le_of_dvd positive whole
  have far : 1000000 ≤ Timer.farFuture.nanos := by decide
  cases goes <;> dsimp only <;> omega

end Ticker

-------------------------------------------------------------------------------
-- Resting and working
-------------------------------------------------------------------------------

namespace Routine

/-- A routine rests between two works. -/
structure Rests (routine : Routine) (first : World) (stints : List Stint) (due free now : Nat)
    (r : Rehearsal) : Prop where
  stands : r.Stands now
  table : Timetable routine.period.nanos stints due free
  due_whole : WholeMillis due
  free_whole : WholeMillis free
  since : free ≤ now
  until_ : now ≤ max due free
  left : r.world = routine.worked stints.length first

/-- A routine is in the middle of a work, however late that ends. -/
structure Works (routine : Routine) (first : World) (stints : List Stint)
    (due begun next now size : Nat) (pending : Pending Unit) (r : Rehearsal) : Prop where
  stands : r.Stands now
  table
    : ∀ ended,
      begun ≤ ended
      → Timetable routine.period.nanos (stints ++ [⟨due, begun, ended⟩]) next ended
  next_whole : WholeMillis next
  since : begun ≤ now
  comes : pending.ComesTo () (routine.worked (stints.length + 1) first) size r.world

variable {routine : Routine} {first : World} {stints : List Stint}
  {due free next begun now size turns : Nat} {pending : Pending Unit} {r : Rehearsal}

/-- A routine that has not worked yet rests until its first work, which is due at once. -/
theorem Rests.start (stands : r.Stands 0)
    : routine.Rests r.world [] 0 0 0 r where
  stands := stands
  table := .start
  due_whole := Nat.dvd_zero _
  free_whole := Nat.dvd_zero _
  since := Nat.le_refl _
  until_ := Nat.le_refl _
  left := rfl

/-- A work is taken at a whole millisecond. -/
theorem Rests.now_whole (rests : routine.Rests first stints due free now r) (isDue : due ≤ now)
    : now = max due free ∧ WholeMillis now := by
  have since := rests.since
  have until_ := rests.until_
  have isNow : now = max due free := by omega
  refine ⟨isNow, ?_⟩
  rw [isNow]
  rcases Nat.le_total due free with before | before
  · rw [Nat.max_eq_right before]
    exact rests.free_whole
  · rw [Nat.max_eq_left before]
    exact rests.due_whole

/-- When a work is due it begins, and it settles when the next one is due. -/
theorem Rests.turn_due (rests : routine.Rests first stints due free now r)
    (sound : first.community.hub.Sound) (whole : WholeMillis routine.period.nanos)
    (positive : 0 < routine.period.nanos) (isDue : due ≤ now)
    (told : ¬ Overdue routine.period.nanos due now)
    : ∃ next size,
        routine.turn false (.idle ⟨due, routine.period⟩) r
          = ⟨.working ⟨next, routine.period⟩ (.ofProgram routine.work), r, true⟩
        ∧ routine.Works first stints due now next now size (.ofProgram routine.work) r
        ∧ due + 1000000 ≤ next
        ∧ (due + Ticker.patience < now → now + 1000000 ≤ next) := by
  obtain ⟨isNow, now_whole⟩ := rests.now_whole isDue
  have pace := rests.due_whole.roundUp_eq
  obtain ⟨⟨next, period⟩, taken⟩ : ∃ next, (Ticker.mk due routine.period).take? now = some next :=
    Option.ne_none_iff_exists'.mp fun untold => told (Ticker.take?_eq_none_iff.mp untold)
  have goes := Ticker.goes_of_take? taken
  cases goes.period_eq
  have next_whole := goes.due_whole whole rests.due_whole now_whole
  have begins
      : routine.turn false (.idle ⟨due, routine.period⟩) r
        = ⟨.working ⟨next, routine.period⟩ (.ofProgram routine.work), r, true⟩ := by
    simp only [Routine.turn, rests.stands.pace, rests.stands.now, pace, if_pos isDue, taken,
      Bool.false_eq_true, if_false]
  have here : r.world.community.hub.Sound := by
    rw [rests.left]
    exact routine.worked_sound sound _
  refine ⟨next, 2 * (routine.work.trace World.handle r.world).length + 1, begins,
    ⟨rests.stands, ?_, next_whole, Nat.le_refl _, .ready here ?_ (Nat.le_refl _)⟩,
    goes.due_ahead isDue whole positive⟩
  · exact fun ended inOrder => .next rests.table rfl isNow inOrder goes.due_eq
  · rw [rests.left]
    rfl

/-- When a work is overdue, the routine panics before it begins. -/
theorem Rests.turn_overdue (rests : routine.Rests first stints due free now r)
    (overdue : Overdue routine.period.nanos due now)
    : routine.turn false (.idle ⟨due, routine.period⟩) r = ⟨.panicked, r, true⟩ := by
  have isDue : due ≤ now := Nat.le_of_lt (Nat.lt_of_le_of_lt (Nat.le_add_right _ _) overdue.1)
  have untold : (Ticker.mk due routine.period).take? now = none :=
    Ticker.take?_eq_none_iff.mpr overdue
  simp only [Routine.turn, rests.stands.pace, rests.stands.now, rests.due_whole.roundUp_eq,
    if_pos isDue, untold, Bool.false_eq_true, if_false]

/-- Before a work is due, the routine rests. -/
theorem Rests.turn_ahead (rests : routine.Rests first stints due free now r) (ahead : now < due)
    : routine.turn false (.idle ⟨due, routine.period⟩) r
      = ⟨.idle ⟨due, routine.period⟩, r, false⟩ := by
  simp only [Routine.turn, rests.stands.pace, rests.stands.now, rests.due_whole.roundUp_eq,
    if_neg (Nat.not_le_of_lt ahead), Bool.false_eq_true, if_false]

/-- No work has begun after the one that is under way. -/
theorem Works.begun_le (works : routine.Works first stints due begun next now size pending r)
    (last : Nat)
    : ∀ stint ∈ stints ++ [⟨due, begun, last⟩], stint.begun ≤ begun := by
  have bound := (works.table begun (Nat.le_refl _)).begun_le
  intro stint member
  rcases List.mem_append.mp member with earlier | this
  · exact bound stint (List.mem_append_left _ earlier)
  · exact Nat.le_of_eq (congrArg Stint.begun (List.mem_singleton.mp this))

/-- A work comes along in a turn: it ends, or it waits. -/
theorem Works.turn (works : routine.Works first stints due begun next now size pending r)
    {left : Nat}
    (along
      : ComesAlong () (routine.worked (stints.length + 1) first) now left (pending.advance r))
    (now_whole : WholeMillis now) (ended : Bool)
    : (∃ later,
        routine.turn ended (.working ⟨next, routine.period⟩ pending) r
          = ⟨.idle ⟨next, routine.period⟩, later, true⟩
        ∧ routine.Rests first (stints ++ [⟨due, begun, now⟩]) next now now later)
      ∨ ∃ rest later until_,
        routine.turn ended (.working ⟨next, routine.period⟩ pending) r
          = ⟨.working ⟨next, routine.period⟩ rest, later, false⟩
        ∧ routine.Works first stints due begun next now left rest later
        ∧ rest.stage.wake? = some until_
        ∧ WholeMillis until_
        ∧ now < until_ := by
  cases advanced : pending.advance r with
  | mk progress later =>
  rw [advanced] at along
  cases along with
  | finished stands left =>
      refine .inl ⟨later, by simp only [Routine.turn, advanced], stands,
        works.table now works.since, works.next_whole, now_whole, Nat.le_refl _,
        Nat.le_max_right _ _, ?_⟩
      rw [left, List.length_append]
      rfl
  | waiting stands comes wakes whole ahead =>
      exact .inr ⟨_, later, _, by simp only [Routine.turn, advanced],
        ⟨stands, works.table, works.next_whole, works.since, comes⟩, wakes, whole, ahead⟩

-------------------------------------------------------------------------------
-- Turn by turn
-------------------------------------------------------------------------------

/-- A routine keeps to its timetable, and this has been seen so far: it rests, or it waits in the
middle of a work for a time that has not passed.
-/
inductive Keeps (routine : Routine) (first : World) (now : Nat)
    : List Moment → Phase × Rehearsal → Prop
  | resting {stints : List Stint} {due free : Nat} {r : Rehearsal}
    (rests : routine.Rests first stints due free now r)
    : Keeps routine first now (stints.flatMap Stint.moments) (.idle ⟨due, routine.period⟩, r)
  | working {stints : List Stint} {due begun next size until_ : Nat} {pending : Pending Unit}
    {r : Rehearsal} (works : routine.Works first stints due begun next now size pending r)
    (wakes : pending.stage.wake? = some until_) (whole : WholeMillis until_)
    (inTime : now ≤ until_)
    : Keeps routine first now (stints.flatMap Stint.moments ++ [.begins due begun])
        (.working ⟨next, routine.period⟩ pending, r)

theorem Keeps.stands {moments : List Moment} {outcome : Phase × Rehearsal}
    (keeps : routine.Keeps first now moments outcome)
    : outcome.2.Stands now := by
  cases keeps with
  | resting rests => exact rests.stands
  | working works => exact works.stands

/-- A routine that keeps to its timetable has done all that it can at a time. -/
structure Waits (routine : Routine) (first : World) (now : Nat) (moments : List Moment)
    (outcome : Phase × Rehearsal) : Prop where
  keeps : routine.Keeps first now moments outcome
  ahead : ∃ wake, outcome.1.wake? .standing = some wake ∧ now < wake

/-- A routine that has kept to its timetable panics before a work that is overdue. -/
inductive Panics (routine : Routine) (first : World) (now : Nat)
    : List Moment → Phase × Rehearsal → Prop
  | overdue {stints : List Stint} {due free : Nat} {r : Rehearsal}
    (rests : routine.Rests first stints due free now r)
    (overdue : Overdue routine.period.nanos due now)
    : Panics routine first now (stints.flatMap Stint.moments) (.panicked, r)

/-- What a routine that keeps to its timetable comes to at a time: it waits, or it panics. -/
inductive Settles (routine : Routine) (first : World) (now : Nat) (moments : List Moment)
    (outcome : Phase × Rehearsal) : Prop
  | waits (waits : routine.Waits first now moments outcome)
  | panics (panics : routine.Panics first now moments outcome)

theorem Rests.waits (rests : routine.Rests first stints due free now r) (ahead : now < due)
    : routine.Waits first now (stints.flatMap Stint.moments) (.idle ⟨due, routine.period⟩, r) :=
  ⟨.resting rests, due, congrArg some rests.due_whole.roundUp_eq, ahead⟩

theorem Works.waits (works : routine.Works first stints due begun next now size pending r)
    {until_ : Nat} (wakes : pending.stage.wake? = some until_) (whole : WholeMillis until_)
    (ahead : now < until_)
    : routine.Waits first now (stints.flatMap Stint.moments ++ [.begins due begun])
        (.working ⟨next, routine.period⟩ pending, r) :=
  ⟨.working works wakes whole (Nat.le_of_lt ahead), until_, wakes, ahead⟩

/-- A tick that comes at most so many milliseconds late, or more than a little. -/
def Behind (millis due now : Nat) : Prop :=
  now < due + millis * 1000000 ∨ (0 < millis ∧ due + Ticker.patience < now)

/-- However late a tick comes, the ticker catches up with the time in a few ticks. -/
theorem behind_always (due now : Nat)
    : Behind 6 due now := by
  unfold Behind Ticker.patience
  omega

/-- Each tick that is taken brings the ticker closer to the time. -/
theorem Behind.step {millis due next now : Nat} (behind : Behind (millis + 1) due now)
    (later : due + 1000000 ≤ next) (caught : due + Ticker.patience < now → now + 1000000 ≤ next)
    : Behind millis next now := by
  unfold Behind at *
  omega

/-- A routine at work goes on until it waits, or it settles as it does once the work has ended. -/
theorem Works.play (works : routine.Works first stints due begun next now size pending r)
    {left : Nat}
    (along
      : ComesAlong () (routine.worked (stints.length + 1) first) now left (pending.advance r))
    (now_whole : WholeMillis now)
    (onward
      : ∀ later,
        routine.Rests first (stints ++ [⟨due, begun, now⟩]) next now now later
        → routine.Settles first now
            ((stints ++ [Stint.mk due begun now]).flatMap Stint.moments
              ++ routine.seen false turns (.idle ⟨next, routine.period⟩) later)
            (routine.play false turns (.idle ⟨next, routine.period⟩) later))
    : routine.Settles first now
        (stints.flatMap Stint.moments ++ [.begins due begun]
          ++ routine.seen false (turns + 1) (.working ⟨next, routine.period⟩ pending) r)
        (routine.play false (turns + 1) (.working ⟨next, routine.period⟩ pending) r) := by
  unfold Routine.seen Routine.play
  rcases works.turn along now_whole false with
    ⟨later, ends, rests⟩ | ⟨rest, later, until_, waits, works, wakes, whole, ahead⟩
  · have shown := onward later rests
    simpa [ends, seenIn?, rests.stands.now, Stint.moments] using shown
  · have shown := Settles.waits (works.waits wakes whole ahead)
    simpa [waits, seenIn?] using shown

/-- Before a work is due, a routine that rests waits for it. -/
theorem Rests.play_ahead (rests : routine.Rests first stints due free now r) (ahead : now < due)
    : routine.Settles first now
        (stints.flatMap Stint.moments
          ++ routine.seen false (turns + 1) (.idle ⟨due, routine.period⟩) r)
        (routine.play false (turns + 1) (.idle ⟨due, routine.period⟩) r) := by
  have resting := Settles.waits (rests.waits ahead)
  simpa [Routine.seen, Routine.play, rests.turn_ahead ahead, seenIn?] using resting

/-- When a work is overdue, a routine that rests settles with a panic. -/
theorem Rests.play_overdue (rests : routine.Rests first stints due free now r)
    (overdue : Overdue routine.period.nanos due now)
    : routine.Settles first now
        (stints.flatMap Stint.moments
          ++ routine.seen false (turns + 2) (.idle ⟨due, routine.period⟩) r)
        (routine.play false (turns + 2) (.idle ⟨due, routine.period⟩) r) := by
  have ended : routine.turn false .panicked r = ⟨.panicked, r, false⟩ := rfl
  have broken := Settles.panics (.overdue rests overdue)
  simpa [Routine.seen, Routine.play, rests.turn_overdue overdue, ended, seenIn?] using broken

/-- A routine that rests goes on until it settles, by induction over how far it is behind: a work
that ends at once leaves it less behind than before.
-/
theorem Rests.play (rests : routine.Rests first stints due free now r)
    (sound : first.community.hub.Sound) (whole : WholeMillis routine.period.nanos)
    (positive : 0 < routine.period.nanos) {millis : Nat} (behind : Behind millis due now)
    (enough : 2 * millis + 1 ≤ turns)
    : routine.Settles first now
        (stints.flatMap Stint.moments
          ++ routine.seen false turns (.idle ⟨due, routine.period⟩) r)
        (routine.play false turns (.idle ⟨due, routine.period⟩) r) := by
  induction millis generalizing stints due free r turns with
  | zero =>
      obtain ⟨turns, rfl⟩ := Nat.exists_eq_add_of_le' enough
      have ahead : now < due := by
        unfold Behind at behind
        omega
      exact rests.play_ahead ahead
  | succ millis ih =>
      obtain ⟨turns, rfl⟩ : ∃ fewer, turns = fewer + 2 := ⟨turns - 2, by omega⟩
      by_cases isDue : due ≤ now
      · by_cases overdue : Overdue routine.period.nanos due now
        · exact rests.play_overdue overdue
        · obtain ⟨next, size, begins, works, later, caught⟩ :=
            rests.turn_due sound whole positive isDue overdue
          obtain ⟨-, now_whole⟩ := rests.now_whole isDue
          have along := Pending.goOn_comesAlong works.stands works.comes
          have fewer : 2 * millis + 1 ≤ turns := by omega
          have shown := works.play along now_whole fun after rests =>
            ih rests (behind.step later caught) fewer
          unfold Routine.seen Routine.play
          simpa [begins, seenIn?, rests.stands.now, List.append_assoc] using shown
      · exact rests.play_ahead (Nat.lt_of_not_le isDue)

/-- So many turns are enough for a routine to come as far as it can. -/
def enoughTurns : Nat := 16

/-- A routine that keeps to its timetable goes on until it settles. -/
theorem Keeps.play {moments : List Moment} {phase : Phase}
    (keeps : routine.Keeps first now moments (phase, r)) (sound : first.community.hub.Sound)
    (whole : WholeMillis routine.period.nanos) (positive : 0 < routine.period.nanos)
    (enough : enoughTurns ≤ turns)
    : routine.Settles first now (moments ++ routine.seen false turns phase r)
        (routine.play false turns phase r) := by
  unfold enoughTurns at enough
  cases keeps with
  | resting rests =>
      exact rests.play sound whole positive (behind_always _ _) (by omega)
  | @working stints due begun next size until_ pending _ works wakes until_whole inTime =>
      obtain ⟨turns, rfl⟩ : ∃ fewer, turns = fewer + 1 := ⟨turns - 1, by omega⟩
      rcases Nat.eq_or_lt_of_le inTime with rfl | ahead
      · refine works.play (works.comes.advance_due works.stands wakes) until_whole ?_
        intro later rests
        exact rests.play sound whole positive (behind_always _ _) (by omega)
      · have stays := works.comes.advance_ahead works.stands wakes ahead
        have shown := Settles.waits (works.waits wakes until_whole ahead)
        simpa [Routine.seen, Routine.play, Routine.turn, stays, seenIn?] using shown

/-- Time passes while a routine rests, up to when its next work is due. -/
theorem Rests.passTo (rests : routine.Rests first stints due free now r) {later : Nat}
    (ahead : now ≤ later) (inTime : later ≤ due)
    : routine.Rests first stints due free later (r.passTo later) where
  stands := (rests.stands.passTo ahead).1
  table := rests.table
  due_whole := rests.due_whole
  free_whole := rests.free_whole
  since := Nat.le_trans rests.since ahead
  until_ := Nat.le_trans inTime (Nat.le_max_left _ _)
  left := (rests.stands.passTo ahead).2.trans rests.left

/-- Time passes in the middle of a work. -/
theorem Works.passTo (works : routine.Works first stints due begun next now size pending r)
    {later : Nat} (ahead : now ≤ later)
    : routine.Works first stints due begun next later size pending (r.passTo later) where
  stands := (works.stands.passTo ahead).1
  table := works.table
  next_whole := works.next_whole
  since := Nat.le_trans works.since ahead
  comes := (works.stands.passTo ahead).2 ▸ works.comes

/-- Time passes while a routine waits, up to when it goes on. -/
theorem Keeps.passTo {moments : List Moment} {phase : Phase}
    (keeps : routine.Keeps first now moments (phase, r)) {wake later : Nat}
    (wakes : phase.wake? .standing = some wake) (ahead : now ≤ later) (inTime : later ≤ wake)
    : routine.Keeps first later moments (phase, r.passTo later) := by
  cases keeps with
  | resting rests =>
      simp only [Phase.wake?, rests.due_whole.roundUp_eq, Option.some.injEq] at wakes
      exact .resting (rests.passTo ahead (wakes ▸ inTime))
  | working works waits until_whole before =>
      simp only [Phase.wake?, waits, Option.some.injEq] at wakes
      exact .working (works.passTo ahead) waits until_whole (wakes ▸ inTime)

-------------------------------------------------------------------------------
-- Told to stop
-------------------------------------------------------------------------------

/-- A routine that rests stops as soon as it is told to. -/
theorem play_idle_ended (routine : Routine) (ticker : Ticker) (r : Rehearsal)
    (enough : 0 < turns)
    : routine.play true turns (.idle ticker) r = routine.stop r
      ∧ routine.seen true turns (.idle ticker) r = [] := by
  obtain ⟨turns, rfl⟩ := Nat.exists_eq_add_of_le' enough
  exact ⟨rfl, rfl⟩

/-- How a work comes along in a routine that is told to stop: the routine stops when the work has
ended, or it waits within the work.
-/
inductive Finishes (routine : Routine) (first : World) (stints : List Stint)
    (due begun next now size : Nat) : List Moment → Phase × Rehearsal → Prop
  | stopped {r : Rehearsal} (stands : r.Stands now)
    (left
      : r.world
        = (routine.worked (stints.length + 1) first).write ⟨.info, routine.farewell, []⟩)
    : Finishes routine first stints due begun next now size [.ends now] (.stopped, r)
  | working {rest : Pending Unit} {r : Rehearsal} {until_ : Nat}
    (works : routine.Works first stints due begun next now size rest r)
    (wakes : rest.stage.wake? = some until_) (whole : WholeMillis until_) (ahead : now < until_)
    : Finishes routine first stints due begun next now size []
        (.working ⟨next, routine.period⟩ rest, r)

/-- A work that is under way when the routine is told to stop comes along all the same. -/
theorem Works.finishes (works : routine.Works first stints due begun next now size pending r)
    (wakes : pending.stage.wake? = some now) (whole : WholeMillis now) (enough : 2 ≤ turns)
    : routine.Finishes first stints due begun next now (size - 1)
        (routine.seen true turns (.working ⟨next, routine.period⟩ pending) r)
        (routine.play true turns (.working ⟨next, routine.period⟩ pending) r) := by
  obtain ⟨turns, rfl⟩ := Nat.exists_eq_add_of_le' enough
  have along := works.comes.advance_due works.stands wakes
  unfold Routine.seen Routine.play
  rcases works.turn along whole true with
    ⟨later, ends, rests⟩ | ⟨rest, later, until_, waits, works, wakes, whole, ahead⟩
  · obtain ⟨stops, silent⟩ :=
      routine.play_idle_ended ⟨next, routine.period⟩ later (Nat.succ_pos turns)
    have left := rests.left
    rw [List.length_append, List.length_singleton] at left
    simp only [ends, stops, silent, seenIn?, rests.stands.now, if_true, Option.toList,
      List.append_nil, stop]
    exact .stopped ⟨rfl, rests.stands.pace, rests.stands.broken⟩
      (congrArg (World.write · _) left)
  · simp only [waits, seenIn?, Option.toList, List.nil_append, Bool.false_eq_true, if_false]
    exact .working works wakes whole ahead

end Routine

end Gatehouse
