import Gatehouse.Proofs.Schedule.Timetable
import Gatehouse.Performance

/-! The performance of a routine that runs alone until a signal. Before the signal it keeps to its
timetable, up to a work that is overdue; a work that is under way when the signal comes is finished,
no other is begun, and it stops.
-/

namespace Gatehouse

namespace Performance

variable {α : Type} {turns : Nat} {p final : Performance α}

-------------------------------------------------------------------------------
-- What is seen of a performance
-------------------------------------------------------------------------------

/-- What is seen of the first routine in a round. -/
def seenIn (turns : Nat) (p : Performance α) : List Moment :=
  match p.company.routines, p.phases with
  | routine :: _, phase :: _ => routine.seen p.signal.hasEnded turns phase p.rehearsal
  | _, _ => []

/-- What is seen of the first routine until the performance is over, within so many rounds. -/
def seen (turns : Nat) : Nat → Performance α → List Moment
  | 0, _ => []
  | rounds + 1, p =>
      p.seenIn turns ++ if (p.round turns).isOver then [] else seen turns rounds (p.round turns)

/-- A performance comes to an end, and this is seen of it. -/
def Concludes (turns : Nat) (p : Performance α) (moments : List Moment) (final : Performance α)
    : Prop :=
  ∃ rounds, p.run turns rounds = some final ∧ p.seen turns rounds = moments

/-- A performance concludes with the round in which it is over. -/
theorem Concludes.last (ends : (p.round turns).isOver = true)
    : p.Concludes turns (p.seenIn turns) (p.round turns) := by
  refine ⟨1, ?_, ?_⟩
  · simp only [run, ends, if_true]
  · simp only [seen, ends, if_true, List.append_nil]

/-- A performance concludes as it does from its next round on. -/
theorem Concludes.next (going : (p.round turns).isOver = false) {moments : List Moment}
    (rest : (p.round turns).Concludes turns moments final)
    : p.Concludes turns (p.seenIn turns ++ moments) final := by
  obtain ⟨rounds, ends, sees⟩ := rest
  refine ⟨rounds + 1, ?_, ?_⟩
  · simp only [run, going, Bool.false_eq_true, if_false, ends]
  · simp only [seen, going, Bool.false_eq_true, if_false, sees]

end Performance

-------------------------------------------------------------------------------
-- Scripts that give a signal
-------------------------------------------------------------------------------

namespace Script

variable {α : Type} {change : Shutdown → Shutdown} {signal : Shutdown} {r : Rehearsal}
  {time turns : Nat}

/-- A script that waits for a time and gives a signal. -/
def signalAt (time : Nat) (change : Shutdown → Shutdown) : Script α :=
  ⟨none, [.wait time, .signal change], [], []⟩

/-- A script of which nothing is left. -/
def silent : Script α := ⟨none, [], [], []⟩

theorem ofCues_nil (time : Duration)
    : (ofCues 0 [] (some time) change : Script α) = signalAt time.nanos change := by
  unfold ofCues signalAt
  simp

theorem play_signalAt_ahead (ahead : r.now < time) (enough : 0 < turns)
    : (signalAt time change : Script α).play turns signal r
      = ⟨signalAt time change, signal, r, false⟩ := by
  obtain ⟨turns, rfl⟩ := Nat.exists_eq_add_of_le' enough
  simp [play, turn, signalAt, Nat.not_le_of_lt ahead]

theorem play_signalAt_due (due : time ≤ r.now) (enough : 3 ≤ turns)
    : (signalAt time change : Script α).play turns signal r
      = ⟨silent, change signal, r, true⟩ := by
  obtain ⟨turns, rfl⟩ := Nat.exists_eq_add_of_le' enough
  simp [play, turn, signalAt, silent, due]

theorem play_silent (enough : 0 < turns)
    : (silent : Script α).play turns signal r = ⟨silent, signal, r, false⟩ := by
  obtain ⟨turns, rfl⟩ := Nat.exists_eq_add_of_le' enough
  rfl

end Script

-------------------------------------------------------------------------------
-- Rounds
-------------------------------------------------------------------------------

namespace Routine

variable {α : Type} {routine : Routine} {script : Script α} {change : Shutdown → Shutdown}
  {signal : Shutdown} {phase later : Phase} {r after : Rehearsal} {time turns : Nat}

/-- A performance of a routine alone. -/
def alone (routine : Routine) (script : Script α) (signal : Shutdown) (phase : Phase)
    (r : Rehearsal) (endedAt : Option Nat) : Performance α :=
  ⟨.solo routine, [phase], script, signal, r, 0, endedAt⟩

theorem seenIn_alone (endedAt : Option Nat)
    : (routine.alone script signal phase r endedAt).seenIn turns
      = routine.seen signal.hasEnded turns phase r :=
  rfl

/-- What a round comes to when the routine has had its turns. -/
def settle (turns : Nat) (p : Performance α) : Performance α :=
  let last := p.script.play turns p.signal p.rehearsal
  let p := { p with script := last.script, signal := last.signal, rehearsal := last.rehearsal }
  if last.moved || p.isOver then p
  else
    match p.wake? with
    | some time => { p with rehearsal := p.rehearsal.passTo time }
    | none => p

/-- In a round the routine has its turns, and it is noted when it has stopped. -/
theorem round_alone (script : Script α) (endedAt : Option Nat)
    (played : routine.play signal.hasEnded turns phase r = (later, after))
    (sane : later.isPanicked = false)
    : (routine.alone script signal phase r endedAt).round turns
      = settle turns
          (routine.alone script signal later after
            (if endedAt.isNone && later.isStopped then some after.now else endedAt)) := by
  unfold Performance.round alone Company.solo
  simp only [Performance.playRoutines, played, Performance.noteEnd, Performance.hasPanicked, sane,
    List.all_cons, List.all_nil, Bool.and_true, Bool.false_eq_true, if_false]
  split <;> simp only [List.any_cons, sane, List.any_nil, Bool.or_self, Bool.false_eq_true,
    if_false] <;> rfl

/-- A routine that goes on some time has neither stopped nor panicked. -/
theorem going_of_wake? {pace : Pace} {wake : Nat} (wakes : phase.wake? pace = some wake)
    : phase.isStopped = false ∧ phase.isPanicked = false := by
  cases phase with
  | stopped => cases wakes
  | panicked => cases wakes
  | _ => exact ⟨rfl, rfl⟩

/-- As long as it is not noted that the routine has stopped, only its panic ends a performance. -/
theorem isOver_alone (script : Script α)
    : (routine.alone script signal phase r none).isOver = phase.isPanicked := by
  simp [Performance.isOver, Performance.hasPanicked, alone]

/-- In a round in which the routine waits afterwards, nothing has stopped. -/
theorem round_waiting (script : Script α)
    (played : routine.play signal.hasEnded turns phase r = (later, after)) {wake : Nat}
    (wakes : later.wake? after.pace = some wake)
    : (routine.alone script signal phase r none).round turns
      = settle turns (routine.alone script signal later after none) := by
  obtain ⟨going, sane⟩ := going_of_wake? wakes
  have round := round_alone script none played sane
  rw [going, Bool.and_false] at round
  exact round

/-- With the round in which the routine panics the performance breaks off. -/
theorem round_panicked (script : Script α)
    (played : routine.play signal.hasEnded turns phase r = (.panicked, after))
    : (routine.alone script signal phase r none).round turns
      = routine.alone script signal .panicked after none := by
  unfold Performance.round alone Company.solo
  simp only [Performance.playRoutines, played]
  rfl

/-- While the signal is ahead, time passes up to what comes first. -/
theorem settle_ahead {wake : Nat} (wakes : phase.wake? r.pace = some wake) (ahead : r.now < time)
    (enough : 0 < turns)
    : settle turns (routine.alone (.signalAt time change : Script α) signal phase r none)
      = routine.alone (.signalAt time change) signal phase (r.passTo (min time wake)) none := by
  obtain ⟨-, sane⟩ := going_of_wake? wakes
  unfold settle alone
  simp only [Script.play_signalAt_ahead ahead enough]
  simp [Performance.isOver, Performance.hasPanicked, sane, Performance.wake?, wakes,
    Script.signalAt, Script.wake?]

/-- When the routine has stopped before, time passes up to the signal. -/
theorem settle_stopped {endedAt : Nat} (ahead : r.now < time) (enough : 0 < turns)
    : settle turns
        (routine.alone (.signalAt time change : Script α) signal .stopped r (some endedAt))
      = routine.alone (.signalAt time change) signal .stopped (r.passTo time) (some endedAt) := by
  have asleep : [Phase.stopped].filterMap (Phase.wake? r.pace) = [] := rfl
  unfold settle alone
  simp only [Script.play_signalAt_ahead ahead enough]
  simp [Performance.isOver, Performance.hasPanicked, Phase.isPanicked, Performance.wake?, asleep,
    Script.signalAt, Script.wake?, Script.isOver]

/-- When its time has come, the signal is given. -/
theorem settle_due (due : time ≤ r.now) (enough : 3 ≤ turns) (endedAt : Option Nat)
    : settle turns (routine.alone (.signalAt time change : Script α) signal phase r endedAt)
      = routine.alone .silent (change signal) phase r endedAt := by
  unfold settle alone
  simp only [Script.play_signalAt_due due enough, Bool.true_or, if_true]

/-- When the signal has been given, time passes up to when the routine goes on. -/
theorem settle_silent {wake : Nat} (wakes : phase.wake? r.pace = some wake) (enough : 0 < turns)
    : settle turns (routine.alone (.silent : Script α) signal phase r none)
      = routine.alone .silent signal phase (r.passTo wake) none := by
  obtain ⟨-, sane⟩ := going_of_wake? wakes
  unfold settle alone
  simp only [Script.play_silent enough]
  simp [Performance.isOver, Performance.hasPanicked, sane, Performance.wake?, wakes, Script.silent,
    Script.wake?]

/-- When the signal has been given and the routine has stopped, it is over. -/
theorem settle_over {endedAt : Nat} (enough : 0 < turns)
    : settle turns (routine.alone (.silent : Script α) signal .stopped r (some endedAt))
      = routine.alone .silent signal .stopped r (some endedAt) := by
  unfold settle alone
  simp only [Script.play_silent enough]
  rfl

-------------------------------------------------------------------------------
-- After the signal
-------------------------------------------------------------------------------

/-- How the performance of a routine until a signal ends when it has done these works. -/
inductive Ending (routine : Routine) (first : World) (time : Nat) (stints : List Stint)
    (due free : Nat) (final : Performance α) : Prop
  /-- None is left that should have begun before the signal, and it stops. -/
  | stops (all : time ≤ max due free) (endedAt : final.endedAt = some (max time free))
    (left
      : final.rehearsal.world
        = (routine.worked stints.length first).write ⟨.info, routine.farewell, []⟩)
  /-- The next one should have begun before the signal, but is overdue. -/
  | panics (overdue : Overdue routine.period.nanos due (max due free))
    (inTime : max due free ≤ time) (panicked : final.hasPanicked = true)
    (now : final.rehearsal.now = max due free)
    (left : final.rehearsal.world = routine.worked stints.length first)

/-- What the performance of a routine until a signal has come to: the works that it has done by its
timetable, none of which began after the signal, and its ending.
-/
structure Completes (routine : Routine) (first : World) (time : Nat) (stints : List Stint)
    (due free : Nat) (final : Performance α) : Prop where
  table : Timetable routine.period.nanos stints due free
  begun : ∀ stint ∈ stints, stint.begun ≤ time
  ending : routine.Ending first time stints due free final

variable {first : World} {stints : List Stint} {due free begun next now size : Nat}
  {pending : Pending Unit}

/-- When the signal has been given and the routine stops in a round, it is over. -/
theorem concludes_stopping {after : Rehearsal} {moments : List Moment}
    (stops : routine.play signal.hasEnded turns phase r = (.stopped, after))
    (sees : routine.seen signal.hasEnded turns phase r = moments) (enough : 0 < turns)
    : (routine.alone (.silent : Script α) signal phase r none).Concludes turns moments
        (routine.alone .silent signal .stopped after (some after.now)) := by
  have same := (round_alone (.silent : Script α) none stops rfl).trans (settle_over enough)
  have ends
      : ((routine.alone (.silent : Script α) signal phase r none).round turns).isOver = true := by
    rw [same]
    rfl
  have shown := Performance.Concludes.last ends
  rw [same, seenIn_alone, sees] at shown
  exact shown

/-- When the signal has been given and the routine waits after a round, it concludes as it does from
when it goes on.
-/
theorem concludes_waiting {later : Phase} {after : Rehearsal} {moments more : List Moment}
    {final : Performance α} {wake : Nat}
    (waits : routine.play signal.hasEnded turns phase r = (later, after))
    (sees : routine.seen signal.hasEnded turns phase r = moments)
    (wakes : later.wake? after.pace = some wake) (enough : 0 < turns)
    (rest
      : (routine.alone .silent signal later (after.passTo wake) none).Concludes turns more final)
    : (routine.alone (.silent : Script α) signal phase r none).Concludes turns (moments ++ more)
        final := by
  have same := (round_waiting (.silent : Script α) waits wakes).trans (settle_silent wakes enough)
  have going
      : ((routine.alone (.silent : Script α) signal phase r none).round turns).isOver = false := by
    rw [same, isOver_alone]
    exact (going_of_wake? wakes).2
  rw [← same] at rest
  have shown := rest.next going
  rw [seenIn_alone, sees] at shown
  exact shown

/-- A routine that rests when the signal has been given stops in the next round. -/
theorem Rests.concludes (rests : routine.Rests first stints due free now r)
    (ended : signal.hasEnded = true) (enough : 0 < turns)
    : ∃ final : Performance α,
        (routine.alone .silent signal (.idle ⟨due, routine.period⟩) r none).Concludes turns [] final
        ∧ routine.Completes first now stints due free final := by
  obtain ⟨stops, sees⟩ := routine.play_idle_ended ⟨due, routine.period⟩ r enough
  rw [← ended] at stops sees
  refine ⟨_, concludes_stopping stops sees enough, rests.table, ?_, .stops rests.until_ ?_ ?_⟩
  · intro stint member
    exact Nat.le_trans (rests.table.begun_le stint member) rests.since
  · exact congrArg some (rests.stands.now.trans (Nat.max_eq_left rests.since).symm)
  · exact congrArg (World.write · _) rests.left

/-- A routine that has worked since before the signal finishes its work, wait by wait, and stops, by
induction over how often it has yet to wait.
-/
theorem Works.concludes (works : routine.Works first stints due begun next now size pending r)
    (wakes : pending.stage.wake? = some now) (whole : WholeMillis now) (told : begun ≤ time)
    (passed : time ≤ now) (ended : signal.hasEnded = true) (enough : 2 ≤ turns)
    : ∃ last,
        ∃ final : Performance α,
          (routine.alone .silent signal (.working ⟨next, routine.period⟩ pending) r
              none).Concludes turns [.ends last] final
          ∧ routine.Completes first time (stints ++ [⟨due, begun, last⟩]) next last final := by
  induction size using Nat.strongRecOn generalizing now pending r with
  | ind size ih =>
      have comes := works.finishes wakes whole enough
      rw [← ended] at comes
      generalize sees
        : routine.seen signal.hasEnded turns (.working ⟨next, routine.period⟩ pending) r = moments
        at comes
      generalize plays
        : routine.play signal.hasEnded turns (.working ⟨next, routine.period⟩ pending) r = outcome
        at comes
      cases comes with
      | stopped stands left =>
          refine ⟨now, _, concludes_stopping plays sees (by omega), works.table now works.since,
            ?_, .stops (Nat.le_trans passed (Nat.le_max_right _ _)) ?_ ?_⟩
          · intro stint member
            exact Nat.le_trans (works.begun_le now stint member) told
          · exact congrArg some (stands.now.trans (Nat.max_eq_right passed).symm)
          · rw [List.length_append]
            exact left
      | working later wakes whole ahead =>
          obtain ⟨last, final, rest, completes⟩ :=
            ih _ (Nat.sub_lt works.comes.size_pos Nat.one_pos)
              (later.passTo (Nat.le_of_lt ahead)) wakes whole
              (Nat.le_trans passed (Nat.le_of_lt ahead))
          exact ⟨last, final, concludes_waiting plays sees wakes (by omega) rest, completes⟩

/-- A routine that is at work when the signal is given finishes its work and stops. -/
theorem Works.concludes_inTime
    (works : routine.Works first stints due begun next now size pending r) {until_ : Nat}
    (wakes : pending.stage.wake? = some until_) (whole : WholeMillis until_)
    (inTime : now ≤ until_) (told : begun ≤ time) (passed : time ≤ now)
    (ended : signal.hasEnded = true) (enough : 2 ≤ turns)
    : ∃ last,
        ∃ final : Performance α,
          (routine.alone .silent signal (.working ⟨next, routine.period⟩ pending) r
              none).Concludes turns [.ends last] final
          ∧ routine.Completes first time (stints ++ [⟨due, begun, last⟩]) next last final := by
  rcases Nat.eq_or_lt_of_le inTime with rfl | ahead
  · exact works.concludes wakes whole told passed ended enough
  · obtain ⟨turns, rfl⟩ := Nat.exists_eq_add_of_le' enough
    obtain ⟨last, final, rest, completes⟩ :=
      (works.passTo inTime).concludes wakes whole told (Nat.le_trans passed inTime) ended enough
    have stays := works.comes.advance_ahead works.stands wakes ahead
    have plays
        : routine.play signal.hasEnded (turns + 2) (.working ⟨next, routine.period⟩ pending) r
          = (.working ⟨next, routine.period⟩ pending, r) := by
      simp [Routine.play, Routine.turn, stays]
    have sees
        : routine.seen signal.hasEnded (turns + 2) (.working ⟨next, routine.period⟩ pending) r
          = [] := by
      simp [Routine.seen, Routine.turn, stays, seenIn?]
    exact ⟨last, final, concludes_waiting plays sees wakes (by omega) rest, completes⟩

/-- A routine that has kept to its timetable up to the signal finishes what it is at and stops. -/
theorem Keeps.concludes {moments : List Moment}
    (keeps : routine.Keeps first now moments (phase, r)) (ended : signal.hasEnded = true)
    (enough : 2 ≤ turns)
    : ∃ stints due free more,
        ∃ final : Performance α,
          (routine.alone .silent signal phase r none).Concludes turns more final
          ∧ moments ++ more = stints.flatMap Stint.moments
          ∧ routine.Completes first now stints due free final := by
  cases keeps with
  | resting rests =>
      obtain ⟨final, concludes, completes⟩ := rests.concludes ended (Nat.lt_of_succ_lt enough)
      exact ⟨_, _, _, [], final, concludes, List.append_nil _, completes⟩
  | working works wakes whole inTime =>
      obtain ⟨last, final, concludes, completes⟩ :=
        works.concludes_inTime wakes whole inTime works.since (Nat.le_refl _) ended enough
      refine ⟨_, _, _, _, final, concludes, ?_, completes⟩
      simp [Stint.moments]

-------------------------------------------------------------------------------
-- Before the signal
-------------------------------------------------------------------------------

/-- When a work is overdue the performance breaks off. -/
theorem Panics.concludes {moments : List Moment} (inTime : now ≤ time)
    (panics
      : routine.Panics first now (moments ++ routine.seen signal.hasEnded turns phase r)
          (routine.play signal.hasEnded turns phase r))
    : ∃ stints due free more,
        ∃ final : Performance α,
          (routine.alone (.signalAt time change) signal phase r none).Concludes turns more final
          ∧ moments ++ more = stints.flatMap Stint.moments
          ∧ routine.Completes first time stints due free final := by
  generalize sees : moments ++ routine.seen signal.hasEnded turns phase r = shown at panics
  generalize played : routine.play signal.hasEnded turns phase r = outcome at panics
  cases panics with
  | @overdue stints due free after rests overdue =>
      have same := round_panicked (.signalAt time change : Script α) played
      have isDue : due ≤ now := Nat.le_of_lt (Nat.lt_of_le_of_lt (Nat.le_add_right _ _) overdue.1)
      obtain ⟨isNow, -⟩ := rests.now_whole isDue
      have concludes := Performance.Concludes.last (by rw [same]; rfl)
      rw [same, seenIn_alone] at concludes
      refine ⟨stints, due, free, _, _, concludes, sees, rests.table, fun stint member => ?_,
        .panics (isNow ▸ overdue) (isNow ▸ inTime) rfl (isNow ▸ rests.stands.now) rests.left⟩
      exact Nat.le_trans (rests.table.begun_le stint member) (Nat.le_trans rests.since inTime)

/-- A routine keeps to its timetable until the signal, by induction over the time that is left until
then, and goes on from there as it has to.
-/
theorem Settles.concludes {moments : List Moment} (sound : first.community.hub.Sound)
    (whole : WholeMillis routine.period.nanos) (positive : 0 < routine.period.nanos)
    (running : signal.hasEnded = false) (stops : (change signal).hasEnded = true)
    (enough : enoughTurns ≤ turns) (inTime : now ≤ time)
    (settles
      : routine.Settles first now (moments ++ routine.seen signal.hasEnded turns phase r)
          (routine.play signal.hasEnded turns phase r))
    : ∃ stints due free more,
        ∃ final : Performance α,
          (routine.alone (.signalAt time change) signal phase r none).Concludes turns more final
          ∧ moments ++ more = stints.flatMap Stint.moments
          ∧ routine.Completes first time stints due free final := by
  have some_ : 3 ≤ turns := Nat.le_trans (by decide) enough
  induction left : time - now using Nat.strongRecOn generalizing now moments phase r with
  | ind left ih =>
      rcases settles with waits | panics
      · cases played : routine.play signal.hasEnded turns phase r with
        | mk later after =>
        rw [played] at waits
        obtain ⟨wake, wakes, ahead⟩ := waits.ahead
        have stands := waits.keeps.stands
        have paced : later.wake? after.pace = some wake := stands.pace ▸ wakes
        have round := round_waiting (.signalAt time change : Script α) played paced
        rcases Nat.eq_or_lt_of_le inTime with rfl | before
        · have due : now ≤ after.now := Nat.le_of_eq stands.now.symm
          have same := round.trans (settle_due due some_ none)
          obtain ⟨stints, due, free, more, final, rest, shows, completes⟩ :=
            waits.keeps.concludes stops (Nat.le_of_succ_le some_)
          rw [← same] at rest
          refine ⟨stints, due, free, _, final, rest.next ?_, ?_, completes⟩
          · rw [same, isOver_alone]
            exact (going_of_wake? wakes).2
          · rw [seenIn_alone, ← List.append_assoc]
            exact shows
        · have same := round.trans
            (settle_ahead paced (Nat.lt_of_le_of_lt (Nat.le_of_eq stands.now) before) (by omega))
          have later := Nat.le_min.mpr ⟨inTime, Nat.le_of_lt ahead⟩
          have goesOn := (waits.keeps.passTo wakes later (Nat.min_le_right _ _)).play sound whole
            positive enough
          rw [← running] at goesOn
          obtain ⟨stints, due, free, more, final, rest, shows, completes⟩ :=
            ih (time - min time wake) (by omega) (Nat.min_le_left _ _) goesOn rfl
          rw [← same] at rest
          refine ⟨stints, due, free, _, final, rest.next ?_, ?_, completes⟩
          · rw [same, isOver_alone]
            exact (going_of_wake? wakes).2
          · rw [seenIn_alone, ← List.append_assoc]
            exact shows
      · exact panics.concludes inTime

-------------------------------------------------------------------------------
-- From the beginning
-------------------------------------------------------------------------------

/-- A routine that opens without a rest waits for its ticks from its first turn on. -/
theorem turn_start (opens : routine.opening = pure none) (positive : 0 < routine.period.nanos)
    (ended : Bool) (r : Rehearsal)
    : routine.turn ended routine.start r = ⟨.idle ⟨r.now, routine.period⟩, r, true⟩ := by
  have opened : (Pending.ofProgram routine.opening).advance r = (.finished none, r) := by
    rw [opens]
    rfl
  simp only [Routine.turn, Routine.start, opened, Ticker.start?_eq positive, Phase.ofTicker?]

/-- A routine that is not told to stop settles to its timetable, and its first work is due at once.
-/
theorem start_settles (opens : routine.opening = pure none) (stands : r.Stands 0)
    (sound : r.world.community.hub.Sound) (whole : WholeMillis routine.period.nanos)
    (positive : 0 < routine.period.nanos) (enough : enoughTurns ≤ turns)
    : routine.Settles r.world 0 (routine.seen false turns routine.start r)
        (routine.play false turns routine.start r) := by
  obtain ⟨turns, rfl⟩ : ∃ fewer, turns = fewer + 1 :=
    ⟨turns - 1, by unfold enoughTurns at enough; omega⟩
  have fewer : 2 * 6 + 1 ≤ turns := by
    unfold enoughTurns at enough
    omega
  have rests : routine.Rests r.world [] 0 0 0 r := .start stands
  have settles := rests.play sound whole positive (behind_always 0 0) fewer
  unfold Routine.seen Routine.play
  rw [turn_start opens positive, stands.now]
  simpa [seenIn?, Routine.start] using settles

/-- A routine that is told to stop before it begins stops at once. -/
theorem start_stops (opens : routine.opening = pure none) (positive : 0 < routine.period.nanos)
    (r : Rehearsal) (enough : 2 ≤ turns)
    : routine.play true turns routine.start r = routine.stop r
      ∧ routine.seen true turns routine.start r = [] := by
  obtain ⟨turns, rfl⟩ := Nat.exists_eq_add_of_le' enough
  unfold Routine.seen Routine.play
  rw [turn_start opens positive]
  exact ⟨rfl, rfl⟩

/-- When the routine has stopped before, the performance is over with the signal. -/
theorem concludes_stopped (due : time ≤ r.now) (enough : 3 ≤ turns) (endedAt : Nat)
    : (routine.alone (.signalAt time change : Script α) signal .stopped r
          (some endedAt)).Concludes turns []
        (routine.alone .silent (change signal) .stopped r (some endedAt)) := by
  obtain ⟨turns, rfl⟩ := Nat.exists_eq_add_of_le' enough
  have stays : routine.play signal.hasEnded (turns + 3) .stopped r = (.stopped, r) := rfl
  have same := (round_alone (.signalAt time change : Script α) (some endedAt) stays rfl).trans
    (settle_due due enough _)
  have shown := @Performance.Concludes.last α (turns + 3)
    (routine.alone (.signalAt time change) signal .stopped r (some endedAt)) (by rw [same]; rfl)
  rw [same] at shown
  exact shown

/-- A routine that is told to stop before it begins does no work, and the performance is over with
the signal.
-/
theorem concludes_unbegun (opens : routine.opening = pure none)
    (positive : 0 < routine.period.nanos) (stands : r.Stands 0) (ended : signal.hasEnded = true)
    (enough : enoughTurns ≤ turns)
    : ∃ final : Performance α,
        (routine.alone (.signalAt time change) signal routine.start r none).Concludes turns [] final
        ∧ final.endedAt = some 0
        ∧ final.rehearsal.world = r.world.write ⟨.info, routine.farewell, []⟩ := by
  have some_ : 3 ≤ turns := Nat.le_trans (by decide) enough
  obtain ⟨after, stopped, there, left⟩
      : ∃ after : Rehearsal,
          routine.stop r = (.stopped, after)
          ∧ after.Stands 0
          ∧ after.world = r.world.write ⟨.info, routine.farewell, []⟩ :=
    ⟨_, rfl, ⟨stands.now, stands.pace, stands.broken⟩, rfl⟩
  obtain ⟨stops, sees⟩ := start_stops opens positive r (Nat.le_of_succ_le some_)
  rw [← ended, stopped] at stops
  rw [← ended] at sees
  have round := round_alone (.signalAt time change : Script α) none stops rfl
  rw [there.now] at round
  rcases Nat.eq_zero_or_pos time with rfl | ahead
  · have same := round.trans (settle_due (Nat.zero_le _) some_ _)
    have shown := Performance.Concludes.last (by rw [same]; rfl)
    rw [same, seenIn_alone, sees] at shown
    exact ⟨_, shown, rfl, left⟩
  · have same := round.trans
      (settle_stopped (Nat.lt_of_le_of_lt (Nat.le_of_eq there.now) ahead)
        (Nat.lt_of_succ_lt (Nat.lt_of_succ_lt some_)))
    obtain ⟨later, kept⟩ := there.passTo (Nat.zero_le time)
    have rest
        : (routine.alone (.signalAt time change : Script α) signal .stopped (after.passTo time)
            (some 0)).Concludes turns [] _ :=
      concludes_stopped (Nat.le_of_eq later.now.symm) some_ 0
    rw [← same] at rest
    have shown := rest.next (by rw [same]; rfl)
    rw [seenIn_alone, sees] at shown
    exact ⟨_, shown, rfl, kept.trans left⟩

/-- A routine that is not told to stop before it begins keeps to its timetable until the signal. -/
theorem concludes_begun (opens : routine.opening = pure none) (stands : r.Stands 0)
    (sound : r.world.community.hub.Sound) (whole : WholeMillis routine.period.nanos)
    (positive : 0 < routine.period.nanos) (running : signal.hasEnded = false)
    (stops : (change signal).hasEnded = true) (enough : enoughTurns ≤ turns) (time : Nat)
    : ∃ stints due free,
        ∃ final : Performance α,
          (routine.alone (.signalAt time change) signal routine.start r none).Concludes turns
            (stints.flatMap Stint.moments) final
          ∧ routine.Completes r.world time stints due free final := by
  have settles
      : routine.Settles r.world 0 ([] ++ routine.seen signal.hasEnded turns routine.start r)
          (routine.play signal.hasEnded turns routine.start r) := by
    rw [running]
    exact start_settles opens stands sound whole positive enough
  obtain ⟨stints, due, free, more, final, concludes, shows, completes⟩ :=
    settles.concludes sound whole positive running stops enough (Nat.zero_le time)
  rw [List.nil_append] at shows
  exact ⟨stints, due, free, final, shows ▸ concludes, completes⟩

end Routine

end Gatehouse
