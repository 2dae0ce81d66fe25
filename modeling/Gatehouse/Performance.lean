import Gatehouse.Schedule.Routine
import Gatehouse.Schedule.Shutdown

/-! Performances: routines that run side by side in a rehearsal while a script acts on it and in the
end gives the signal to stop. At each moment the routines go on in their order as far as they can,
then the script; when all wait, time passes to the next timer. A routine that panics takes the
others with it, and the performance breaks off.
-/

namespace Gatehouse

/-- Something that is done to a rehearsal, with a result. -/
inductive Act (α : Type)
  | instant (change : Rehearsal → α × Rehearsal)
  /-- A program, whose result also depends on how long it took. -/
  | conduct (program : Rehearsal → Program (Duration → α))
  | pause (time : Duration) (result : α)

/-- Do something when nothing else happens meanwhile. -/
def Act.perform {α : Type} (act : Act α) (r : Rehearsal) : α × Rehearsal :=
  match act with
  | instant change => change r
  | conduct program =>
      let (result, time, r) := r.perform (program r)
      (result time, r)
  | pause time result => (result, r.passTo (r.timer time))

/-- Acts that begin at a time after the beginning. -/
structure Cue (α : Type) where
  time : Duration
  acts : List (Act α)

inductive Direction (α : Type)
  | wait (until_ : Nat)
  | act (act : Act α)
  | closeCue
  | signal (change : Shutdown → Shutdown)

/-- What a script is in the middle of. -/
inductive Underway (α : Type)
  | conducting (pending : Pending (Duration → α)) (begun : Nat)
  | pausing (until_ : Nat) (result : α)

structure Script (α : Type) where
  underway : Option (Underway α)
  directions : List (Direction α)
  /-- The results of the cue that is being played, newest first. -/
  results : List α
  /-- The results of the cues before, newest first. -/
  closed : List (List α)

namespace Script

variable {α : Type}

/-- The script of cues, with the signal at a time or behind the last cue. -/
def ofCues (origin : Nat) (cues : List (Cue α)) (signalTime : Option Duration)
    (signal : Shutdown → Shutdown) : Script α where
  underway := none
  directions :=
    cues.flatMap (fun cue =>
      .wait (origin + cue.time.nanos) :: cue.acts.map .act ++ [.closeCue])
    ++ (signalTime.toList.map fun time => .wait (origin + time.nanos)) ++ [.signal signal]
  results := []
  closed := []

def finish (script : Script α) (result : α) : Script α :=
  { script with underway := none, results := result :: script.results }

/-- Everything has been played. -/
def isOver (script : Script α) : Bool := script.underway.isNone && script.directions.isEmpty

/-- When the script goes on though nothing else happens. -/
def wake? (script : Script α) : Option Nat :=
  match script.underway, script.directions with
  | some (.conducting pending _), _ => pending.stage.wake?
  | some (.pausing time _), _ => some time
  | none, .wait time :: _ => some time
  | none, _ => none

/-- Go on with what the script is in the middle of. The last result tells whether it is done. -/
def goOn (script : Script α) (underway : Underway α) (r : Rehearsal)
    : Script α × Rehearsal × Bool :=
  match underway with
  | .conducting pending begun =>
      match pending.advance r with
      | (.finished result, r) => (script.finish (result ⟨r.now - begun⟩), r, true)
      | (.waiting pending, r) =>
          ({ script with underway := some (.conducting pending begun) }, r, false)
  | .pausing time result =>
      if time ≤ r.now then (script.finish result, r, true) else (script, r, false)

/-- Begin an act. -/
def take (script : Script α) (act : Act α) (r : Rehearsal) : Script α × Rehearsal :=
  match act with
  | .instant change =>
      let (result, r) := change r
      (script.finish result, r)
  | .conduct program =>
      ({ script with underway := some (.conducting (.ofProgram (program r)) r.now) }, r)
  | .pause time result =>
      ({ script with underway := some (.pausing (r.timer time) result) }, r)

def closeCue (script : Script α) : Script α :=
  { script with results := [], closed := script.results.reverse :: script.closed }

/-- What a turn of a script leads to. -/
structure Turn (α : Type) where
  script : Script α
  signal : Shutdown
  rehearsal : Rehearsal
  /-- The script has done something; else it has to wait. -/
  moved : Bool

def turn (script : Script α) (signal : Shutdown) (r : Rehearsal) : Turn α :=
  match script.underway with
  | some underway =>
      let (script, r, done) := script.goOn underway r
      ⟨script, signal, r, done⟩
  | none =>
      match script.directions with
      | [] => ⟨script, signal, r, false⟩
      | .wait time :: rest =>
          if time ≤ r.now then ⟨{ script with directions := rest }, signal, r, true⟩
          else ⟨script, signal, r, false⟩
      | .act act :: rest =>
          let (script, r) := { script with directions := rest }.take act r
          ⟨script, signal, r, true⟩
      | .closeCue :: rest => ⟨{ script with directions := rest }.closeCue, signal, r, true⟩
      | .signal change :: rest => ⟨{ script with directions := rest }, change signal, r, true⟩

/-- Turns of a script until it has to wait, at most so many; `moved` tells whether there was one. -/
def play (turns : Nat) (script : Script α) (signal : Shutdown) (r : Rehearsal) : Turn α :=
  match turns with
  | 0 => ⟨script, signal, r, true⟩
  | turns + 1 =>
      let next := script.turn signal r
      if next.moved then
        { next.script.play turns next.signal next.rehearsal with moved := true }
      else next

end Script

/-- Routines that run together, with what the journal says before and after. -/
structure Company where
  routines : List Routine
  opening : Option String
  closing : Option String

/-- A company of one. -/
def Company.solo (routine : Routine) : Company := ⟨[routine], none, none⟩

structure Performance (α : Type) where
  company : Company
  /-- The phases of the routines, in their order. -/
  phases : List Phase
  script : Script α
  signal : Shutdown
  rehearsal : Rehearsal
  origin : Nat
  /-- When the last routine stopped. -/
  endedAt : Option Nat

namespace Performance

variable {α : Type}

/-- Write a line to the journal, if there is one. -/
def announce (r : Rehearsal) : Option String → Rehearsal
  | none => r
  | some text => { r with world := r.world.write ⟨.info, text, []⟩ }

/-- The beginning of a performance; the signal to stop may have been given before. -/
def start (company : Company) (script : Script α) (signal : Shutdown) (r : Rehearsal)
    : Performance α where
  company := company
  phases := company.routines.map Routine.start
  script := script
  signal := signal
  rehearsal := announce r company.opening
  origin := r.now
  endedAt := none

def playRoutines (ended : Bool) (turns : Nat)
    : List Routine → List Phase → Rehearsal → List Phase × Rehearsal
  | routine :: routines, phase :: phases, r =>
      let (phase, r) := routine.play ended turns phase r
      if phase.isPanicked then (phase :: phases, r)
      else
        let (phases, r) := playRoutines ended turns routines phases r
        (phase :: phases, r)
  | _, _, r => ([], r)

/-- Note when the last routine has stopped. -/
def noteEnd (p : Performance α) : Performance α :=
  if p.endedAt.isNone && p.phases.all Phase.isStopped then
    { p with
      endedAt := some p.rehearsal.now
      rehearsal := announce p.rehearsal p.company.closing }
  else p

def hasPanicked (p : Performance α) : Bool := p.phases.any Phase.isPanicked

def isOver (p : Performance α) : Bool := p.hasPanicked || (p.endedAt.isSome && p.script.isOver)

/-- When something goes on though all wait now. -/
def wake? (p : Performance α) : Option Nat :=
  (p.script.wake?.toList ++ p.phases.filterMap (Phase.wake? p.rehearsal.pace)).min?

/-- One round: the routines, then the script, then time passes if all wait. -/
def round (turns : Nat) (p : Performance α) : Performance α :=
  let (phases, r) := playRoutines p.signal.hasEnded turns p.company.routines p.phases p.rehearsal
  let p := { p with phases := phases, rehearsal := r }.noteEnd
  if p.hasPanicked then p
  else
    let last := p.script.play turns p.signal p.rehearsal
    let p := { p with script := last.script, signal := last.signal, rehearsal := last.rehearsal }
    if last.moved || p.isOver then p
    else
      match p.wake? with
      | some time => { p with rehearsal := p.rehearsal.passTo time }
      | none => p

/-- The end of a performance, when it is over within so many rounds. -/
def run (turns : Nat) : Nat → Performance α → Option (Performance α)
  | 0, _ => none
  | rounds + 1, p =>
      let p := p.round turns
      if p.isOver then some p else run turns rounds p

def elapsed (p : Performance α) : Duration := ⟨p.endedAt.getD p.rehearsal.now - p.origin⟩

/-- The results of the script, cue by cue. -/
def results (p : Performance α) : List (List α) := p.script.closed.reverse

end Performance

end Gatehouse
