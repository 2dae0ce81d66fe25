import Gatehouse.Proofs.Program.Conversation
import Gatehouse.Proofs.Time.Elapsed
import Gatehouse.Proofs.Time.Timer
import Gatehouse.Rehearsal.Pending
import Gatehouse.Schedule.Ticker

/-! Rehearsals on time. Where nothing is slow or broken and timers go off when they are due, a
program that waits for nobody runs at once, as it does in the world alone, and the clocks tell
how much time has passed.
-/

namespace Gatehouse

open Program (AsksOnly exchangesOf)

/-- An effect that waits for nobody. -/
def Effect.IsPrompt : Effect → Prop
  | .call (.awaitReaction _) => False
  | _ => True

/-- Whatever it is answered, a program waits for nobody. -/
abbrev Program.IsPrompt {α : Type} (p : Program α) : Prop := p.AsksOnly Effect.IsPrompt

/-- With a period that is not zero there is a ticker. -/
theorem Ticker.start?_eq {now : Nat} {period : Duration} (positive : 0 < period.nanos)
    : start? now period = some ⟨now, period⟩ :=
  if_neg (by simpa [Duration.isZero] using Nat.ne_of_gt positive)

namespace Rehearsal

-------------------------------------------------------------------------------
-- Time
-------------------------------------------------------------------------------

/-- Timers that run no longer than a duration go off when they are due. -/
def TimersExact (now : Nat) (longest : Duration) : Prop :=
  ∀ d ≤ longest, Timer.dueAfter now d = now + d.nanos

/-- Timers are exact that are over before the longest time that timers can run. -/
theorem TimersExact.of_lt {now : Nat} {longest : Duration}
    (short : now + longest.nanos < Timer.limit)
    : TimersExact now longest := by
  intro d shorter
  have shorter : d.nanos ≤ longest.nanos := shorter
  exact Timer.dueAfter_eq (by omega)

/-- Nothing is slow or broken, timers of a length go off when they are due, and both clocks tell
the same ordinary time, one that identifiers can tell.
-/
structure OnTime (r : Rehearsal) (longest : Duration) : Prop where
  pace : r.pace = ⟨1, true⟩
  delays : r.delays = []
  broken : r.broken = []
  exact_ : TimersExact r.now longest
  agreed : r.world.community.now = r.world.clock
  /-- Identifiers from within a leap second tell the milliseconds of the second after it. -/
  ordinary : r.world.clock.isLeap = false
  since : MessageId.startNanos ≤ r.world.clock.unixNanos
  before : r.world.clock.unixNanos < MessageId.endNanos

/-- What the clock tells when so many nanoseconds have passed. -/
def unixAt (r : Rehearsal) (time : Nat) : Int :=
  r.world.clock.unixNanos + ((time : Int) - r.now)

@[simp] theorem unixAt_now (r : Rehearsal)
    : r.unixAt r.now = r.world.clock.unixNanos := by
  unfold unixAt
  omega

theorem unixAt_add (r : Rehearsal) (nanos : Nat)
    : r.unixAt (r.now + nanos) = r.world.clock.unixNanos + nanos := by
  unfold unixAt
  omega

/-- The same moment: as much time has passed, the clocks tell the same, and nothing else is slow or
broken.
-/
structure SameMoment (r later : Rehearsal) : Prop where
  now : later.now = r.now
  pace : later.pace = r.pace
  delays : later.delays = r.delays
  broken : later.broken = r.broken
  clock : later.world.clock = r.world.clock
  posting : later.world.community.now = r.world.community.now

theorem SameMoment.onTime {r later : Rehearsal} {longest : Duration}
    (same : r.SameMoment later) (timely : r.OnTime longest)
    : later.OnTime longest where
  pace := same.pace.trans timely.pace
  delays := same.delays.trans timely.delays
  broken := same.broken.trans timely.broken
  exact_ := same.now ▸ timely.exact_
  agreed := same.posting.trans (timely.agreed.trans same.clock.symm)
  ordinary := same.clock ▸ timely.ordinary
  since := same.clock ▸ timely.since
  before := same.clock ▸ timely.before

theorem SameMoment.unixAt_eq {r later : Rehearsal} (same : r.SameMoment later) (time : Nat)
    : later.unixAt time = r.unixAt time := by
  unfold unixAt
  rw [same.clock, same.now]

namespace OnTime

variable {r : Rehearsal} {longest : Duration}

/-- A timer goes off when it is due. -/
theorem roundUp_eq (timely : r.OnTime longest) (time : Nat)
    : r.pace.roundUp time = time := by
  rw [timely.pace]
  simp [Pace.roundUp, Timer.roundUp]

theorem timer_eq (timely : r.OnTime longest) {d : Duration} (short : d ≤ longest)
    : r.timer d = r.now + d.nanos := by
  unfold timer
  rw [timely.roundUp_eq, timely.exact_ d short]

/-- When a tick is taken just when it is due, the next one is due a period later. -/
theorem take_eq (timely : r.OnTime longest) {period : Duration} (short : period ≤ longest)
    : (Ticker.mk r.now period).take? r.now = some ⟨r.now + period.nanos, period⟩ := by
  unfold Ticker.take?
  rw [if_neg (Nat.not_lt.mpr (Nat.le_add_right _ _))]
  exact congrArg (fun due => some (Ticker.mk due period)) (timely.exact_ period short)

/-- While identifiers can tell the time, it passes as it should. -/
theorem passTo (timely : r.OnTime longest) {time : Nat} (later : r.now ≤ time)
    (inside : r.unixAt time < MessageId.endNanos) (exact_ : TimersExact time longest)
    : (r.passTo time).OnTime longest
      ∧ (r.passTo time).now = time
      ∧ ∀ moment, (r.passTo time).unixAt moment = r.unixAt moment := by
  have bounded : r.world.clock.unixNanos + (time - r.now : Nat) < Instant.endNanos := by
    have limit := MessageId.endNanos_le
    unfold unixAt at inside
    omega
  obtain ⟨at_, moved, ordinary, count⟩ := Instant.shift?_of_ordinary timely.ordinary bounded
  have clock : moveClock r.world.clock (time - r.now) = at_ := by
    unfold moveClock
    rw [moved]
    rfl
  have reached : r.now + (time - r.now) = time := by omega
  have passed
      : r.passTo time
        = { r with
            now := time
            world := { r.world with
              clock := at_
              community := { r.world.community with now := at_ } } } := by
    unfold Rehearsal.passTo
    simp only [timely.pace, timely.agreed, clock, reached, if_true]
  rw [passed]
  refine ⟨{
    pace := timely.pace
    delays := timely.delays
    broken := timely.broken
    exact_ := exact_
    agreed := rfl
    ordinary := ordinary
    since := ?_
    before := ?_ }, rfl, fun moment => ?_⟩
  · have start := timely.since
    change _ ≤ at_.unixNanos
    omega
  · unfold unixAt at inside
    change at_.unixNanos < _
    omega
  · unfold unixAt
    dsimp only
    omega

end OnTime

-------------------------------------------------------------------------------
-- Programs
-------------------------------------------------------------------------------

/-- Nothing is slow or broken, and a timer that runs for no time goes off at once. -/
structure Swift (r : Rehearsal) : Prop where
  delays : r.delays = []
  broken : r.broken = []
  atOnce : r.timer .zero ≤ r.now

theorem OnTime.swift {r : Rehearsal} {longest : Duration} (timely : r.OnTime longest)
    : r.Swift :=
  ⟨timely.delays, timely.broken, Nat.le_of_eq (timely.timer_eq (Nat.zero_le _))⟩

/-- Where nothing is broken, the world answers, and at most the last identifier is kept. -/
theorem answer_eq {r : Rehearsal} (whole : r.broken = []) (effect : Effect)
    : ∃ lastSent,
        r.answer effect
          = ((World.handle effect r.world).1,
              { r with world := (World.handle effect r.world).2, lastSent := lastSent }) := by
  have kept (later : Rehearsal) (reply : effect.Reply)
      : ∃ lastSent, later.keepSent effect reply = { later with lastSent := lastSent } := by
    unfold keepSent
    split <;> exact ⟨_, rfl⟩
  have unhindered : r.brokenReply? effect = none := by
    have sound (point : Point) : r.isBroken point = false := by
      simp [isBroken, whole]
    unfold brokenReply?
    cases effect <;> simp [sound]
  obtain ⟨lastSent, same⟩ :=
    kept { r with world := (World.handle effect r.world).2 } (World.handle effect r.world).1
  refine ⟨lastSent, ?_⟩
  unfold answer
  rw [unhindered, ← same]

namespace Swift

variable {r : Rehearsal}

/-- An effect that waits for nobody is answered at once by the world, and noted if it is a call. -/
theorem attempt_eq (swift : r.Swift) {effect : Effect} (prompt : effect.IsPrompt)
    : ∃ lastSent,
        r.attempt effect .ready
          = (.answered (World.handle effect r.world).1,
              { r with
                world := (World.handle effect r.world).2
                calls :=
                  ((exchangesOf [⟨effect, (World.handle effect r.world).1⟩]).map Sigma.fst).reverse
                    ++ r.calls
                lastSent := lastSent }) := by
  have plain := answer_eq swift.broken effect
  cases effect with
  | call made =>
      have noted : (r.note made).Swift := ⟨swift.delays, swift.broken, swift.atOnce⟩
      obtain ⟨lastSent, answered⟩ := answer_eq noted.broken (.call made)
      have idle : (r.note made).delayOf (Point.ofCall made) = .zero := by
        simp [note, delayOf, swift.delays]
      refine ⟨lastSent, ?_⟩
      simp only [attempt, attemptCall, idle, if_pos noted.atOnce]
      cases made with
      | awaitReaction wait => exact prompt.elim
      | _ =>
          simp only [carryOut, answered]
          rfl
  | _ =>
      obtain ⟨lastSent, answered⟩ := plain
      refine ⟨lastSent, ?_⟩
      simp only [attempt, answered]
      rfl

end Swift

end Rehearsal

/-- A program that waits for nobody runs at once as it does in the world, and its calls are
noted, by induction over the program.
-/
theorem Pending.goOn_eq {α : Type} (p : Program α) {r : Rehearsal} (swift : r.Swift)
    (prompt : ∀ exchange ∈ p.trace World.handle r.world, exchange.1.IsPrompt)
    : ∃ lastSent,
        goOn p .ready r
          = (.finished (p.run World.handle r.world).1,
              { r with
                world := (p.run World.handle r.world).2
                calls := ((p.exchanges r.world).map Sigma.fst).reverse ++ r.calls
                lastSent := lastSent }) := by
  induction p generalizing r with
  | done value => exact ⟨r.lastSent, rfl⟩
  | request effect next ih =>
      obtain ⟨first, answered⟩ := swift.attempt_eq (prompt _ List.mem_cons_self)
      obtain ⟨last, rest⟩ :=
        ih (World.handle effect r.world).1
          (r := { r with
            world := (World.handle effect r.world).2
            calls :=
              ((exchangesOf [⟨effect, (World.handle effect r.world).1⟩]).map Sigma.fst).reverse
                ++ r.calls
            lastSent := first })
          ⟨swift.delays, swift.broken, swift.atOnce⟩
          fun exchange member => prompt exchange (List.mem_cons_of_mem _ member)
      have made
          : (Program.request effect next).exchanges r.world
            = exchangesOf [⟨effect, (World.handle effect r.world).1⟩]
              ++ (next (World.handle effect r.world).1).exchanges
                (World.handle effect r.world).2 :=
        List.filterMap_append (l := [_])
      refine ⟨last, ?_⟩
      unfold goOn
      rw [answered, made, List.map_append, List.reverse_append, List.append_assoc]
      exact rest

end Gatehouse
