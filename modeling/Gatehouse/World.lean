import Gatehouse.Community

/-! The world of the service: a community, a store, a clock and a journal, all held in memory. It
answers every effect of a program at once; a wait that finds nothing ends unanswered.
-/

namespace Gatehouse

/-- All that the service runs in. -/
structure World where
  community : Community
  store : Store
  clock : Instant
  /-- The journal, newest entry first. -/
  journal : List Journal.Entry
deriving DecidableEq

namespace World

/-- A world with an empty store, at the time of its community. -/
def start (community : Community) : World :=
  ⟨community, .empty, community.now, []⟩

def write (world : World) (entry : Journal.Entry) : World :=
  { world with journal := entry :: world.journal }

def onCommunity (world : World) (change : Community → Community) : World :=
  { world with community := change world.community }

/-- Change what the store holds under a key. -/
def setStored (world : World) (key value : String) : World :=
  { world with store := world.store.set key value }

def beginWait (world : World) (message : MessageId) : Nat × World :=
  let (ticket, community) := world.community.beginWait message
  (ticket, { world with community := community })

/-- Note how many reactions a wait has missed, if any. -/
def noteMissed (world : World) (missed : Nat) : World :=
  if missed = 0 then world
  else
    world.write ⟨.warn, "reaction waiter lagged, some events were dropped",
      [("skipped", Numeral.text missed)]⟩

/-- Look whether a wait has what it is for. -/
def look (world : World) (ticket : Nat) (wait : ReactionWait) : Sighting × World :=
  let world := world.noteMissed (world.community.hub.missed ticket)
  let (sighting, community) := world.community.look ticket wait
  (sighting, { world with community := community })

/-- End a wait that has found nothing in its time. -/
def giveUp (world : World) (ticket : Nat) (message : MessageId) : World :=
  { world with community := world.community.giveUp ticket }.write
    ⟨.debug, "no qualifying reaction before timeout", [("message", message.text)]⟩

/-- Wait for a reaction when nothing else happens meanwhile. -/
def await (world : World) (wait : ReactionWait) : Option (String × MemberId) × World :=
  let (ticket, world) := world.beginWait wait.message
  match world.look ticket wait with
  | (.found token actor, world) => (some (token, actor), world)
  | (.over, world) => (none, world)
  | (.nothing, world) => (none, world.giveUp ticket wait.message)

/-- Answer a call at once. -/
def call (world : World) (call : Call) : call.Reply × World :=
  match call with
  | .awaitReaction wait => world.await wait
  | other =>
      let (reply, community) := world.community.answer other
      (reply, { world with community := community })

/-- Answer an effect at once. -/
def handle : Program.Handler World
  | .call call, world => world.call call
  | .file report, world =>
      (.ok (), { world with community := world.community.fileReport report })
  | .clock, world => (world.clock, world)
  | .load key, world => (.ok (world.store.get? key), world)
  | .save key value, world => (.ok (), { world with store := world.store.set key value })
  | .log entry, world => ((), world.write entry)

end World

end Gatehouse
