import Gatehouse.Rehearsal.Pending
import Gatehouse.Schedule.Ticker

/-! Routines: what is done again and again until shutdown. A routine first settles how long it
rests, then does its work at every tick. Whether it shall stop is asked while it rests and before
each tick, never within the work. Without a ticker it panics.
-/

namespace Gatehouse

structure Routine where
  /-- Tells how long to rest before the ticker starts; without a rest it starts in any case. -/
  opening : Program (Option Duration)
  work : Program Unit
  period : Duration
  /-- What the journal says when the routine stops. -/
  farewell : String

inductive Phase
  | opening (pending : Pending (Option Duration))
  | resting (until_ : Nat)
  | idle (ticker : Ticker)
  | working (ticker : Ticker) (pending : Pending Unit)
  | stopped
  /-- There was no ticker to be had. -/
  | panicked

namespace Phase

/-- Ticks are waited for, if there is a ticker. -/
def ofTicker? : Option Ticker → Phase
  | some ticker => idle ticker
  | none => panicked

def isStopped : Phase → Bool
  | stopped => true
  | _ => false

def isPanicked : Phase → Bool
  | panicked => true
  | _ => false

/-- When the routine goes on though nothing else happens. -/
def wake? (pace : Pace) : Phase → Option Nat
  | opening pending => pending.stage.wake?
  | resting time => some time
  | idle ticker => some (pace.roundUp ticker.due)
  | working _ pending => pending.stage.wake?
  | stopped | panicked => none

end Phase

namespace Routine

def start (routine : Routine) : Phase := .opening (.ofProgram routine.opening)

def stop (routine : Routine) (r : Rehearsal) : Phase × Rehearsal :=
  (.stopped, { r with world := r.world.write ⟨.info, routine.farewell, []⟩ })

/-- What a turn of a routine leads to. -/
structure Turn where
  phase : Phase
  rehearsal : Rehearsal
  /-- The routine can go on at once. -/
  goesOn : Bool

/-- One turn of a routine; `ended` tells whether the signal to stop was given. -/
def turn (routine : Routine) (ended : Bool) (phase : Phase) (r : Rehearsal) : Turn :=
  match phase with
  | .opening pending =>
      match pending.advance r with
      | (.finished (some delay), r) => ⟨.resting (r.timer delay), r, true⟩
      | (.finished none, r) => ⟨.ofTicker? (Ticker.start? r.now routine.period), r, true⟩
      | (.waiting pending, r) => ⟨.opening pending, r, false⟩
  | .resting time =>
      if ended then
        let (phase, r) := routine.stop r
        ⟨phase, r, false⟩
      else if time ≤ r.now then ⟨.ofTicker? (Ticker.start? r.now routine.period), r, true⟩
      else ⟨phase, r, false⟩
  | .idle ticker =>
      if ended then
        let (phase, r) := routine.stop r
        ⟨phase, r, false⟩
      else if r.pace.roundUp ticker.due ≤ r.now then
        match ticker.take? r.now with
        | some ticker => ⟨.working ticker (.ofProgram routine.work), r, true⟩
        | none => ⟨.panicked, r, true⟩
      else ⟨phase, r, false⟩
  | .working ticker pending =>
      match pending.advance r with
      | (.finished _, r) => ⟨.idle ticker, r, true⟩
      | (.waiting pending, r) => ⟨.working ticker pending, r, false⟩
  | .stopped | .panicked => ⟨phase, r, false⟩

/-- Turns of a routine until it has to wait, at most so many. -/
def play (routine : Routine) (ended : Bool) : Nat → Phase → Rehearsal → Phase × Rehearsal
  | 0, phase, r => (phase, r)
  | turns + 1, phase, r =>
      let next := routine.turn ended phase r
      if next.goesOn then routine.play ended turns next.phase next.rehearsal
      else (next.phase, next.rehearsal)

end Routine

end Gatehouse
