import Gatehouse.Time.Timer
import Gatehouse.World

/-! A rehearsal of the service: a world in memory with a time of its own, which passes only while
everything waits. Calls are noted, and they can be slowed down and broken. A program runs in it
either alone or in company, where its effects come as far as they can at each moment.
-/

namespace Gatehouse

/-- Where a rehearsal can interfere. -/
inductive Point
  | list
  | count
  | addRole
  | removeRole
  | kick
  | send
  | delete
  | edit
  | react
  | clear
  | await
  | direct
  | report
  | get
  | set
deriving DecidableEq, Repr

namespace Point

def all : List Point :=
  [list, count, addRole, removeRole, kick, send, delete, edit, react, clear, await, direct, report,
    get, set]

def name : Point → String
  | list => "list"
  | count => "count"
  | addRole => "add_role"
  | removeRole => "remove_role"
  | kick => "kick"
  | send => "send"
  | delete => "delete"
  | edit => "edit"
  | react => "react"
  | clear => "clear"
  | await => "await"
  | direct => "direct"
  | report => "report"
  | get => "get"
  | set => "set"

def ofCall : Call → Point
  | .listMembers => list
  | .countMembers => count
  | .addRole .. => addRole
  | .removeRole .. => removeRole
  | .kick .. => kick
  | .send .. => send
  | .delete .. => delete
  | .edit .. => edit
  | .react .. => react
  | .clearReactions .. => clear
  | .awaitReaction _ => await
  | .sendDirect .. => direct

/-- The failure of what was broken here. -/
def failure (point : Point) : CallFailure := ⟨.other, point.name ++ " broken"⟩

end Point

/-- The failed answer to a call; a wait cannot fail. -/
def Call.failed? : (call : Call) → CallFailure → Option call.Reply
  | .listMembers, f => some (.error f)
  | .countMembers, f => some (.error f)
  | .addRole .., f => some (.error f)
  | .removeRole .., f => some (.error f)
  | .kick .., f => some (.error f)
  | .send .., f => some (.error f)
  | .delete .., f => some (.error f)
  | .edit .., f => some (.error f)
  | .react .., f => some (.error f)
  | .clearReactions .., f => some (.error f)
  | .awaitReaction _, _ => none
  | .sendDirect .., f => some (.error f)

/-- How the time of a rehearsal passes. -/
structure Pace where
  /-- Timers go off at multiples of so many nanoseconds. -/
  grain : Nat
  /-- The clocks of the world follow the time; else they stand still. -/
  flows : Bool
deriving DecidableEq, Repr

/-- Timers go off at whole milliseconds, and clocks stand still. -/
def Pace.standing : Pace := ⟨Timer.grain, false⟩

/-- When a timer goes off that is due at a time. -/
def Pace.roundUp (pace : Pace) (time : Nat) : Nat := Timer.roundUp pace.grain time

structure Rehearsal where
  world : World
  /-- Nanoseconds that have passed. -/
  now : Nat
  pace : Pace
  delays : List (Point × Duration)
  broken : List Point
  /-- The calls that were made, newest first. -/
  calls : List Call
  /-- The message that was posted last. -/
  lastSent : MessageId

namespace Rehearsal

/-- A rehearsal in which nothing is slow or broken. -/
def start (world : World) : Rehearsal :=
  ⟨world, 0, .standing, [], [], [], ⟨0⟩⟩

def onWorld (r : Rehearsal) (change : World → World) : Rehearsal :=
  { r with world := change r.world }

def onCommunity (r : Rehearsal) (change : Community → Community) : Rehearsal :=
  r.onWorld (·.onCommunity change)

def setClock (r : Rehearsal) (at_ : Instant) : Rehearsal :=
  r.onWorld ({ · with clock := at_ })

/-- The calls that were made, in order; they are forgotten. -/
def takeCalls (r : Rehearsal) : List Call × Rehearsal :=
  (r.calls.reverse, { r with calls := [] })

/-- The journal, in order; it begins anew. -/
def takeJournal (r : Rehearsal) : List Journal.Entry × Rehearsal :=
  (r.world.journal.reverse, r.onWorld ({ · with journal := [] }))

/-- When a timer goes off that runs for a duration from now. -/
def timer (r : Rehearsal) (d : Duration) : Nat :=
  r.pace.roundUp (Timer.dueAfter r.now d)

def moveClock (at_ : Instant) (nanos : Nat) : Instant := (at_.shift? nanos).getD at_

/-- Let time pass up to a time, which may already be past. -/
def passTo (r : Rehearsal) (time : Nat) : Rehearsal :=
  let nanos := time - r.now
  let world := r.world
  if r.pace.flows then
    { r with
      now := r.now + nanos
      world := { world with
        clock := moveClock world.clock nanos
        community := { world.community with now := moveClock world.community.now nanos } } }
  else { r with now := r.now + nanos }

def isBroken (r : Rehearsal) (point : Point) : Bool := r.broken.contains point

def delayOf (r : Rehearsal) (point : Point) : Duration :=
  match r.delays.find? fun entry => entry.1 = point with
  | some entry => entry.2
  | none => .zero

def note (r : Rehearsal) (call : Call) : Rehearsal := { r with calls := call :: r.calls }

/-- Keep the identifier of a message that was posted. -/
def keepSent (r : Rehearsal) : (effect : Effect) → effect.Reply → Rehearsal
  | .call (.send ..), .ok id => { r with lastSent := id }
  | _, _ => r

/-- The answer to an effect that is broken. -/
def brokenReply? (r : Rehearsal) : (effect : Effect) → Option effect.Reply
  | .call call =>
      let point := Point.ofCall call
      if r.isBroken point then call.failed? point.failure else none
  | .file _ => if r.isBroken .report then some (.error Point.report.failure) else none
  | .load key => if r.isBroken .get then some (.error (.corrupt key "broken")) else none
  | .save key value => if r.isBroken .set then some (.error (.corrupt key value)) else none
  | .clock | .log _ => none

/-- Answer an effect at once: from what is broken, or from the world. -/
def answer (r : Rehearsal) (effect : Effect) : effect.Reply × Rehearsal :=
  match r.brokenReply? effect with
  | some reply => (reply, r)
  | none =>
      let (reply, world) := World.handle effect r.world
      (reply, { r with world := world }.keepSent effect reply)

/-- Wait for a reaction when nothing else happens meanwhile. -/
def await (r : Rehearsal) (wait : ReactionWait) : Option (String × MemberId) × Rehearsal :=
  let (ticket, world) := r.world.beginWait wait.message
  match world.look ticket wait with
  | (.found token actor, world) => (some (token, actor), { r with world := world })
  | (.over, world) => (none, { r with world := world })
  | (.nothing, world) =>
      let r := { r with world := world }.passTo (r.timer wait.timeout)
      (none, { r with world := r.world.giveUp ticket wait.message })

/-- Answer an effect in the time that it takes, when nothing else happens meanwhile. -/
def handle : Program.Handler Rehearsal
  | .call call, r =>
      let r := (r.note call).passTo (r.timer (r.delayOf (Point.ofCall call)))
      match call with
      | .awaitReaction wait => r.await wait
      | call => r.answer (.call call)
  | effect, r => r.answer effect

/-- Perform a program alone, and tell how long it took. -/
def perform {α : Type} (r : Rehearsal) (program : Program α) : α × Duration × Rehearsal :=
  let (value, after) := program.run handle r
  (value, ⟨after.now - r.now⟩, after)

end Rehearsal

end Gatehouse
