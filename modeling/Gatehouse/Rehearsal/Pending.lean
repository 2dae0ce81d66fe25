import Gatehouse.Rehearsal

/-! Programs in company. Of a program that runs beside others it is kept how far its next effect has
come; whenever it gets its turn, it goes on until it has to wait again.
-/

namespace Gatehouse

/-- How far an effect has come. -/
inductive Stage
  | ready
  /-- The call is noted and takes until a time. -/
  | delayed (until_ : Nat)
  /-- The wait has begun and lasts until a time. -/
  | listening (ticket : Nat) (until_ : Nat)
deriving DecidableEq, Repr

/-- When an effect goes on though nothing else happens. -/
def Stage.wake? : Stage → Option Nat
  | ready => none
  | delayed time | listening _ time => some time

/-- What has come of an effect: its answer, or a further stage. -/
inductive Attempt (effect : Effect)
  | answered (reply : effect.Reply)
  | waiting (stage : Stage)

namespace Rehearsal

/-- Go on with a wait that has begun. -/
def listen (r : Rehearsal) (wait : ReactionWait) (ticket until_ : Nat)
    : Attempt (.call (.awaitReaction wait)) × Rehearsal :=
  match r.world.look ticket wait with
  | (.found token actor, world) => (.answered (some (token, actor)), { r with world := world })
  | (.over, world) => (.answered none, { r with world := world })
  | (.nothing, world) =>
      if until_ ≤ r.now then
        (.answered none, { r with world := world.giveUp ticket wait.message })
      else (.waiting (.listening ticket until_), { r with world := world })

/-- Go on with a call when the time that it takes is over. -/
def carryOut (r : Rehearsal) : (call : Call) → Attempt (.call call) × Rehearsal
  | .awaitReaction wait =>
      let (ticket, world) := r.world.beginWait wait.message
      { r with world := world }.listen wait ticket (r.timer wait.timeout)
  | call =>
      let (reply, r) := r.answer (.call call)
      (.answered reply, r)

/-- Go on with a call, or with what has come of it. -/
def attemptCall (r : Rehearsal) (call : Call) : Stage → Attempt (.call call) × Rehearsal
  | .ready =>
      let r := r.note call
      let time := r.timer (r.delayOf (Point.ofCall call))
      if time ≤ r.now then r.carryOut call else (.waiting (.delayed time), r)
  | .delayed time =>
      if time ≤ r.now then r.carryOut call else (.waiting (.delayed time), r)
  | .listening ticket time =>
      match call with
      | .awaitReaction wait => r.listen wait ticket time
      | call => r.carryOut call

def attempt (r : Rehearsal) (effect : Effect) (stage : Stage)
    : Attempt effect × Rehearsal :=
  match effect with
  | .call call => r.attemptCall call stage
  | effect =>
      let (reply, r) := r.answer effect
      (.answered reply, r)

end Rehearsal

/-- A program under way. -/
structure Pending (α : Type) where
  program : Program α
  stage : Stage

namespace Pending

variable {α : Type}

def ofProgram (program : Program α) : Pending α := ⟨program, .ready⟩

/-- What has come of a program: its value, or what is left of it. -/
inductive Progress (α : Type)
  | finished (value : α)
  | waiting (pending : Pending α)

/-- Go on with a program until it has finished or has to wait. -/
def goOn : Program α → Stage → Rehearsal → Progress α × Rehearsal
  | .done value, _, r => (.finished value, r)
  | .request effect next, stage, r =>
      match r.attempt effect stage with
      | (.answered reply, r) => goOn (next reply) .ready r
      | (.waiting stage, r) => (.waiting ⟨.request effect next, stage⟩, r)

def advance (pending : Pending α) (r : Rehearsal) : Progress α × Rehearsal :=
  goOn pending.program pending.stage r

end Pending

end Gatehouse
