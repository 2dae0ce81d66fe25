import Gatehouse.Proofs.Program.Undertaking
import Gatehouse.Proofs.Schedule.Promptness

/-! Programs that wait in company. As long as nobody else changes the world, a program that comes
to its end in turns ends as it would alone, at whatever times it gets its turns: what it waits
for does not come, however often it looks, and when the time of its wait is over it goes on as if
it had never looked.
-/

namespace Gatehouse

-------------------------------------------------------------------------------
-- Looking again
-------------------------------------------------------------------------------

namespace ReactionHub

variable {hub later : ReactionHub} {ticket : Nat} {wait : ReactionWait}

/-- A wait that has found nothing has read all that there is. -/
theorem place_of_nothing (looked : hub.look ticket wait = (.nothing, later))
    : later.place ticket = later.published := by
  unfold look at looked
  split at looked
  · cases looked
  · split at looked
    · cases looked
      have moved (s : Subscription)
          : ((if s.ticket == ticket then { s with next := hub.published } else s).ticket == ticket)
            = (s.ticket == ticket) := by
        split <;> simp_all
      unfold place
      simp only [List.find?_map, Function.comp_def, moved]
      cases found : hub.subscriptions.find? fun s => s.ticket == ticket with
      | none => rfl
      | some s =>
          have its := List.find?_some found
          simp only [Option.map_some, its, if_true]
    · cases looked

/-- When nothing comes, a wait that looks again finds nothing again, and has missed nothing. -/
theorem look_again (sound : hub.Sound) (looked : hub.look ticket wait = (.nothing, later))
    : later.look ticket wait = (.nothing, later) ∧ later.missed ticket = 0 := by
  have place := place_of_nothing looked
  have latest : later = (hub.look ticket wait).2 := by rw [looked]
  have kept : later.Sound := latest ▸ sound.look ticket wait
  have behind := kept.published
  have nothing : later.unread ticket = [] := by
    unfold unread oldest
    rw [place, List.drop_eq_nil_iff]
    omega
  have same
      : (later.subscriptions.map fun s =>
          if s.ticket == ticket then { s with next := later.published } else s)
        = later.subscriptions := by
    unfold look at looked
    split at looked
    · cases looked
    · split at looked
      · cases looked
        simp only [List.map_map]
        refine List.map_congr_left fun s _ => ?_
        simp only [Function.comp_apply]
        split <;> simp_all
      · cases looked
  constructor
  · unfold look
    rw [nothing]
    simp only [List.find?_nil, kept.isOpen, if_true, same]
    exact congrArg (Prod.mk Sighting.nothing) (by rw [← kept.isOpen])
  · unfold missed oldest
    rw [place]
    omega

end ReactionHub

namespace World

variable {world later : World} {ticket : Nat} {wait : ReactionWait}

/-- A look is a look at the hub. -/
theorem look_hub (world : World) (ticket : Nat) (wait : ReactionWait)
    : ((world.look ticket wait).1, (world.look ticket wait).2.community.hub)
      = world.community.hub.look ticket wait := by
  have noted (missed : Nat) : (world.noteMissed missed).community = world.community := by
    unfold noteMissed
    split <;> rfl
  unfold World.look Community.look
  simp only [noted]

/-- When nothing comes, a second look changes nothing, not even the journal. -/
theorem look_again (sound : world.community.hub.Sound)
    (looked : world.look ticket wait = (.nothing, later))
    : later.community.hub.Sound ∧ later.look ticket wait = (.nothing, later) := by
  have found := (world.look_hub ticket wait).symm
  rw [looked] at found
  obtain ⟨again, nothing⟩ := ReactionHub.look_again sound found
  have kept := sound.look ticket wait
  rw [found] at kept
  refine ⟨kept, ?_⟩
  unfold World.look
  rw [nothing]
  change
    ((later.community.hub.look ticket wait).1,
        { later with
          community :=
            { later.community with hub := (later.community.hub.look ticket wait).2 } }) = _
  rw [again]

/-- Every effect leaves the hub in order. -/
theorem handle_sound (effect : Effect) (sound : world.community.hub.Sound)
    : (World.handle effect world).2.community.hub.Sound := by
  rw [World.community_handle]
  exact Operation.hub_sound_actAll _ sound

/-- Every program leaves the hub in order, for what it does is operations. -/
theorem run_sound {α : Type} (p : Program α) {world : World}
    (sound : world.community.hub.Sound)
    : (p.run World.handle world).2.community.hub.Sound := by
  rw [p.community_run]
  exact Operation.hub_sound_actAll _ sound

end World

/-- In a standing pace timers that are due at a whole millisecond go off when they are due. -/
theorem WholeMillis.roundUp_eq {time : Nat} (whole : WholeMillis time)
    : Pace.standing.roundUp time = time :=
  Timer.roundUp_of_whole whole

/-- A wait in a rehearsal is resolved as the hub resolves it, and takes as long, by cases on what it
finds when it looks.
-/
theorem Rehearsal.await_resolves {r : Rehearsal} (standing : r.pace = .standing)
    (wait : ReactionWait)
    : let begun := r.world.beginWait wait.message
      let resolved := begun.2.community.hub.resolveFrom r.now begun.1 wait
      (r.await wait).1 = resolved.1.found
        ∧ (r.await wait).2.now = r.now + resolved.1.time.nanos
        ∧ (r.await wait).2.world.community.hub = resolved.2 := by
  intro begun resolved
  have looked := begun.2.look_hub begun.1 wait
  have timer
      : r.timer wait.timeout = Timer.roundUp Timer.grain (Timer.dueAfter r.now wait.timeout) := by
    unfold Rehearsal.timer
    rw [standing]
    rfl
  unfold await
  cases sighted : begun.2.look begun.1 wait with
  | mk sighting world =>
  rw [sighted] at looked
  simp only [resolved, ReactionHub.resolveFrom, ← looked]
  simp only [begun] at sighted
  cases sighting with
  | nothing =>
      simp [sighted, passTo, standing, Pace.standing, timer, World.giveUp, Community.giveUp,
        World.write, begun]
  | _ => simp [sighted, Duration.zero]

-------------------------------------------------------------------------------
-- Programs in turns
-------------------------------------------------------------------------------

/-- At this time a rehearsal keeps a standing pace, and nothing in it is broken; calls may be slow.
-/
structure Rehearsal.Stands (r : Rehearsal) (now : Nat) : Prop where
  now : r.now = now
  pace : r.pace = .standing
  broken : r.broken = []

namespace Pending

variable {α : Type}

/-- Left to itself in a world, a program under way ends in a value and leaves the world so. The size
bounds how often it has yet to wait: each wait that is over lowers it.
-/
inductive ComesTo (value : α) (after : World) : Nat → Pending α → World → Prop
  | ready {program : Program α} {world : World} {size : Nat}
    (sound : world.community.hub.Sound) (ends : program.run World.handle world = (value, after))
    (bound : 2 * (program.trace World.handle world).length + 1 ≤ size)
    : ComesTo value after size ⟨program, .ready⟩ world
  | delayed {call : Call} {next : call.Reply → Program α} {until_ : Nat} {world : World}
    {size : Nat} (sound : world.community.hub.Sound)
    (ends : (Program.request (.call call) next).run World.handle world = (value, after))
    (bound
      : 2 * ((Program.request (.call call) next).trace World.handle world).length + 1 ≤ size)
    : ComesTo value after size ⟨.request (.call call) next, .delayed until_⟩ world
  | listening {wait : ReactionWait}
    {next : (Call.awaitReaction wait).Reply → Program α} {ticket until_ : Nat} {world : World}
    {size : Nat} (sound : world.community.hub.Sound)
    (quiet : world.look ticket wait = (.nothing, world))
    (ends : (next none).run World.handle (world.giveUp ticket wait.message) = (value, after))
    (bound
      : 2 * ((next none).trace World.handle (world.giveUp ticket wait.message)).length + 2
        ≤ size)
    : ComesTo value after size
        ⟨.request (.call (.awaitReaction wait)) next, .listening ticket until_⟩ world

/-- How a program comes along in a turn at a time: it ends as it should, or it waits for a later
time.
-/
inductive ComesAlong (value : α) (after : World) (now size : Nat)
    : Progress α × Rehearsal → Prop
  | finished {later : Rehearsal} (stands : later.Stands now) (ended : later.world = after)
    : ComesAlong value after now size (.finished value, later)
  | waiting {pending : Pending α} {later : Rehearsal} {until_ : Nat} (stands : later.Stands now)
    (comes : pending.ComesTo value after size later.world)
    (wakes : pending.stage.wake? = some until_) (whole : WholeMillis until_)
    (ahead : now < until_)
    : ComesAlong value after now size (.waiting pending, later)

end Pending

namespace Rehearsal

/-- How a call fares whose time has come: the world answers it, or it is a wait that finds nothing
yet.
-/
inductive Fares (world : World) (now : Nat)
    : (call : Call) → Attempt (.call call) × Rehearsal → Prop
  | answered {call : Call} {reply : call.Reply} {later : Rehearsal} (stands : later.Stands now)
    (alone : World.handle (.call call) world = (reply, later.world))
    : Fares world now call (.answered reply, later)
  | listening {wait : ReactionWait} {ticket until_ : Nat} {later : Rehearsal}
    (stands : later.Stands now) (sound : later.world.community.hub.Sound)
    (quiet : later.world.look ticket wait = (.nothing, later.world))
    (alone
      : World.handle (.call (.awaitReaction wait)) world
        = (none, later.world.giveUp ticket wait.message))
    (whole : WholeMillis until_) (ahead : now < until_)
    : Fares world now (.awaitReaction wait) (.waiting (.listening ticket until_), later)

variable {r : Rehearsal} {now : Nat}

/-- In a standing pace time passes and nothing else. -/
theorem Stands.passTo (stands : r.Stands now) {later : Nat} (ahead : now ≤ later)
    : (r.passTo later).Stands later ∧ (r.passTo later).world = r.world := by
  have reached : r.now + (later - r.now) = later := by
    rw [stands.now]
    omega
  unfold Rehearsal.passTo
  simp only [stands.pace, Pace.standing, Bool.false_eq_true, if_false, reached]
  exact ⟨⟨rfl, rfl, stands.broken⟩, trivial⟩

/-- Where nothing is broken, an effect is answered as in the world, and no time passes. -/
theorem Stands.answer (stands : r.Stands now) (effect : Effect)
    : ∃ reply later,
        r.answer effect = (reply, later)
        ∧ later.Stands now
        ∧ World.handle effect r.world = (reply, later.world) := by
  obtain ⟨lastSent, answered⟩ := answer_eq stands.broken effect
  exact ⟨_, _, answered, ⟨stands.now, stands.pace, stands.broken⟩, rfl⟩

/-- A wait that begins finds at once what it finds alone, or goes on. -/
theorem Stands.carryOut_fares (stands : r.Stands now) (sound : r.world.community.hub.Sound)
    (call : Call)
    : Fares r.world now call (r.carryOut call) := by
  obtain ⟨reply, later, answered, there, alone⟩ := stands.answer (.call call)
  cases call with
  | awaitReaction wait =>
      have begun : (r.world.beginWait wait.message).2.community.hub.Sound :=
        sound.subscribe.publishAll _
      have alone : World.handle (.call (.awaitReaction wait)) r.world = r.world.await wait := rfl
      have later (world : World) : { r with world := world }.Stands now :=
        ⟨stands.now, stands.pace, stands.broken⟩
      unfold carryOut listen
      unfold World.await at alone
      cases looked
          : (r.world.beginWait wait.message).2.look (r.world.beginWait wait.message).1 wait with
      | mk sighting world =>
          simp only [looked] at alone ⊢
          cases sighting with
          | nothing =>
              dsimp only
              split
              · exact .answered (later _) alone
              · next running =>
                obtain ⟨kept, quiet⟩ := World.look_again begun looked
                have whole : WholeMillis (r.timer wait.timeout) := by
                  unfold timer
                  rw [stands.pace]
                  exact Timer.whole_roundUp _
                have ahead : now < r.timer wait.timeout := by
                  rw [← stands.now]
                  exact Nat.lt_of_not_le running
                exact .listening (later _) kept quiet alone whole ahead
          | _ => exact .answered (later _) alone
  | _ =>
      simp only [carryOut, answered]
      exact .answered there alone

/-- How a call comes along in a turn: its time has come, or it is slow. -/
theorem Stands.attempt_fares (stands : r.Stands now) (sound : r.world.community.hub.Sound)
    (call : Call)
    : Fares r.world now call (r.attempt (.call call) .ready)
      ∨ ∃ later until_,
        r.attempt (.call call) .ready = (.waiting (.delayed until_), later)
        ∧ later.Stands now
        ∧ later.world = r.world
        ∧ WholeMillis until_
        ∧ now < until_ := by
  have noted : (r.note call).Stands now := ⟨stands.now, stands.pace, stands.broken⟩
  unfold attempt attemptCall
  dsimp only
  split
  · exact .inl (noted.carryOut_fares sound call)
  · next slow =>
    refine .inr ⟨_, _, rfl, noted, rfl, ?_, ?_⟩
    · unfold timer
      rw [noted.pace]
      exact Timer.whole_roundUp _
    · rw [← noted.now]
      exact Nat.lt_of_not_le slow

end Rehearsal

namespace Pending

open Rehearsal (Fares)

variable {α : Type} {value : α} {after : World} {now size : Nat}

namespace ComesTo

variable {pending : Pending α} {world : World}

theorem sound (comes : pending.ComesTo value after size world)
    : world.community.hub.Sound := by
  cases comes <;> assumption

theorem size_pos (comes : pending.ComesTo value after size world)
    : 0 < size := by
  cases comes <;> omega

theorem mono (comes : pending.ComesTo value after size world) {larger : Nat}
    (le : size ≤ larger)
    : pending.ComesTo value after larger world := by
  cases comes with
  | ready sound ends bound => exact .ready sound ends (Nat.le_trans bound le)
  | delayed sound ends bound => exact .delayed sound ends (Nat.le_trans bound le)
  | listening sound quiet ends bound =>
      exact .listening sound quiet ends (Nat.le_trans bound le)

variable {effect : Effect} {next : effect.Reply → Program α}

/-- When the world answers the next effect, the rest of the program is left. -/
theorem answered (comes : (Pending.mk (.request effect next) .ready).ComesTo value after size world)
    {reply : effect.Reply} {later : World} (alone : World.handle effect world = (reply, later))
    : (Pending.mk (next reply) .ready).ComesTo value after (size - 2) later := by
  cases comes with
  | ready sound ends bound =>
      have kept := World.handle_sound effect sound
      unfold Program.run at ends
      unfold Program.trace at bound
      rw [alone] at kept ends bound
      simp only [List.length_cons] at bound
      exact .ready kept ends (by omega)

/-- When the next effect is a wait that finds nothing yet, the rest of the program is left for the
time when it is over.
-/
theorem listens {wait : ReactionWait} {next : (Call.awaitReaction wait).Reply → Program α}
    (comes
      : (Pending.mk (.request (.call (.awaitReaction wait)) next) .ready).ComesTo value after size
          world)
    {ticket until_ : Nat} {later : World} (sound : later.community.hub.Sound)
    (quiet : later.look ticket wait = (.nothing, later))
    (alone
      : World.handle (.call (.awaitReaction wait)) world
        = (none, later.giveUp ticket wait.message))
    : (Pending.mk (.request (.call (.awaitReaction wait)) next) (.listening ticket until_)).ComesTo
        value after (size - 1) later := by
  cases comes with
  | ready earlier ends bound =>
      unfold Program.run at ends
      unfold Program.trace at bound
      rw [alone] at ends bound
      simp only [List.length_cons] at bound
      exact .listening sound quiet ends (by omega)

end ComesTo

theorem ComesAlong.mono {outcome : Progress α × Rehearsal}
    (along : ComesAlong value after now size outcome) {larger : Nat} (le : size ≤ larger)
    : ComesAlong value after now larger outcome := by
  cases along with
  | finished stands ended => exact .finished stands ended
  | waiting stands comes wakes whole ahead =>
      exact .waiting stands (comes.mono le) wakes whole ahead

/-- When the time of a call has come, the program goes on behind it if the rest does. -/
theorem goOn_of_fares {made : Call} {next : made.Reply → Program α} {world : World}
    (comes : (Pending.mk (.request (.call made) next) .ready).ComesTo value after size world)
    {stage : Stage} {r : Rehearsal} (fares : Fares world now made (r.attempt (.call made) stage))
    (rest
      : ∀ reply later,
        later.Stands now
        → (Pending.mk (next reply) .ready).ComesTo value after (size - 2) later.world
        → ComesAlong value after now (size - 2) (goOn (next reply) .ready later))
    : ComesAlong value after now (size - 1) (goOn (.request (.call made) next) stage r) := by
  unfold goOn
  generalize r.attempt (.call made) stage = attempted at fares ⊢
  cases fares with
  | answered stands alone =>
      exact (rest _ _ stands (comes.answered alone)).mono (by omega)
  | listening stands sound quiet alone whole ahead =>
      exact .waiting stands (comes.listens sound quiet alone) rfl whole ahead

/-- A program that is ready comes along in a turn, by induction over the program. -/
theorem goOn_comesAlong {program : Program α} {r : Rehearsal} (stands : r.Stands now)
    (comes : (Pending.mk program .ready).ComesTo value after size r.world)
    : ComesAlong value after now size (goOn program .ready r) := by
  induction program generalizing r size with
  | done result =>
      cases comes with
      | ready sound ends bound =>
          cases ends
          exact .finished stands rfl
  | request effect next ih =>
      have atOnce
          (plain : r.attempt effect .ready = (.answered (r.answer effect).1, (r.answer effect).2))
          : ComesAlong value after now size (goOn (.request effect next) .ready r) := by
        obtain ⟨reply, later, answered, there, alone⟩ := stands.answer effect
        rw [answered] at plain
        unfold goOn
        rw [plain]
        exact (ih reply there (comes.answered alone)).mono (Nat.sub_le _ _)
      cases effect with
      | call made =>
          rcases stands.attempt_fares comes.sound made with fares | slow
          · have along := goOn_of_fares comes fares fun reply _ there left => ih reply there left
            exact along.mono (Nat.sub_le _ _)
          · obtain ⟨later, until_, slow, there, same, whole, ahead⟩ := slow
            unfold goOn
            rw [slow]
            cases comes with
            | ready sound ends bound =>
                exact .waiting there (same ▸ .delayed sound ends bound) rfl whole ahead
      | _ => exact atOnce rfl

section Turns

variable {pending : Pending α} {r : Rehearsal}

/-- Before its time has come, a program stays where it is. -/
theorem ComesTo.advance_ahead (comes : pending.ComesTo value after size r.world)
    (stands : r.Stands now) {until_ : Nat} (wakes : pending.stage.wake? = some until_)
    (ahead : now < until_)
    : pending.advance r = (.waiting pending, r) := by
  have running : ¬ until_ ≤ r.now := by
    rw [stands.now]
    exact Nat.not_le_of_lt ahead
  cases comes with
  | ready => cases wakes
  | delayed =>
      cases wakes
      simp only [advance, goOn, Rehearsal.attempt, Rehearsal.attemptCall, if_neg running]
  | listening sound quiet =>
      cases wakes
      simp only [advance, goOn, Rehearsal.attempt, Rehearsal.attemptCall, Rehearsal.listen, quiet,
        if_neg running]

/-- When its time has come, a program comes along, with one wait less before it. -/
theorem ComesTo.advance_due (comes : pending.ComesTo value after size r.world)
    (stands : r.Stands now) (wakes : pending.stage.wake? = some now)
    : ComesAlong value after now (size - 1) (pending.advance r) := by
  have due : now ≤ r.now := Nat.le_of_eq stands.now.symm
  cases comes with
  | ready => cases wakes
  | @delayed call next _ _ _ sound ends bound =>
      cases wakes
      refine goOn_of_fares (.ready sound ends bound) ?_ fun reply later there left =>
        goOn_comesAlong there left
      simp only [Rehearsal.attempt, Rehearsal.attemptCall, if_pos due]
      exact stands.carryOut_fares sound call
  | listening sound quiet ends bound =>
      cases wakes
      simp only [advance, goOn, Rehearsal.attempt, Rehearsal.attemptCall, Rehearsal.listen, quiet,
        if_pos due]
      have left := Nat.le_sub_one_of_lt bound
      exact goOn_comesAlong ⟨stands.now, stands.pace, stands.broken⟩
        (.ready (sound.unsubscribe _) ends left)

end Turns

end Pending

end Gatehouse
