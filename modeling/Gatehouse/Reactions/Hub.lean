import Gatehouse.Community.Call
import Gatehouse.Time.Timer

/-! The hub that hands reactions to those who wait for them. All waits read from one ring of the
last reactions, each from its own place; a wait that falls behind the ring goes on with the oldest
reaction that is still there.
-/

namespace Gatehouse

structure Subscription where
  ticket : Nat
  /-- The number of the next reaction it reads. -/
  next : Nat
deriving DecidableEq, Repr

structure ReactionHub where
  /-- How many reactions the ring keeps. -/
  capacity : Nat
  /-- How many reactions have been handed out so far. -/
  published : Nat
  /-- The last of them, oldest first. -/
  ring : List Reaction
  subscriptions : List Subscription
  nextTicket : Nat
  isOpen : Bool
deriving DecidableEq

/-- What a wait finds when it looks. -/
inductive Sighting
  | found (token : String) (actor : MemberId)
  /-- Nothing has come that it is for. -/
  | nothing
  /-- Nothing has come that it is for, and nothing more can come. -/
  | over
deriving DecidableEq

/-- What a wait has come to in the end. -/
structure Resolution where
  /-- The token that was found, and who gave it. -/
  found : Option (String × MemberId)
  /-- How long it took. -/
  time : Duration
deriving DecidableEq

namespace ReactionHub

/-- More reactions than this no ring can be made for: half of what a word of 64 bits counts to. -/
def most : Nat := Nat.pow 2 63 - 1

/-- An open hub whose ring keeps at least so many reactions: their number rounded up to a power
of two. There is no ring for none, and none for too many.
-/
def ofCapacity? (capacity : Nat) : Option ReactionHub :=
  if capacity = 0 ∨ most < capacity then none
  else some ⟨capacity.nextPowerOfTwo, 0, [], [], 0, true⟩

def defaultCapacity : Nat := 256

def standard : ReactionHub := ⟨defaultCapacity, 0, [], [], 0, true⟩

def waiters (hub : ReactionHub) : Nat := hub.subscriptions.length

/-- Subscribe a wait; it reads what is handed out from now on. -/
def subscribe (hub : ReactionHub) : Nat × ReactionHub :=
  (hub.nextTicket,
    { hub with
      nextTicket := hub.nextTicket + 1
      subscriptions := hub.subscriptions ++ [⟨hub.nextTicket, hub.published⟩] })

def unsubscribe (hub : ReactionHub) (ticket : Nat) : ReactionHub :=
  { hub with subscriptions := hub.subscriptions.filter fun s => s.ticket != ticket }

/-- Hand a reaction to all who wait, and tell how many those are. -/
def publish (hub : ReactionHub) (reaction : Reaction) : Nat × ReactionHub :=
  if hub.isOpen && hub.waiters > 0 then
    let longer := hub.ring ++ [reaction]
    (hub.waiters,
      { hub with
        published := hub.published + 1
        ring := longer.drop (longer.length - hub.capacity) })
  else (0, hub)

def publishAll (hub : ReactionHub) (reactions : List Reaction) : ReactionHub :=
  reactions.foldl (fun hub reaction => (hub.publish reaction).2) hub

/-- Close the hub: what has been handed out can still be read. -/
def close (hub : ReactionHub) : ReactionHub := { hub with isOpen := false }

/-- The number of the oldest reaction in the ring. -/
def oldest (hub : ReactionHub) : Nat := hub.published - hub.ring.length

/-- The place from which a subscription reads. -/
def place (hub : ReactionHub) (ticket : Nat) : Nat :=
  match hub.subscriptions.find? fun s => s.ticket == ticket with
  | some s => s.next
  | none => hub.published

/-- The reactions that a subscription has not read and the ring still keeps. -/
def unread (hub : ReactionHub) (ticket : Nat) : List Reaction :=
  hub.ring.drop (hub.place ticket - hub.oldest)

/-- How many reactions a subscription has missed. -/
def missed (hub : ReactionHub) (ticket : Nat) : Nat :=
  hub.oldest - hub.place ticket

/-- Read all that there is for a subscription, up to the first reaction that the wait is for. -/
def look (hub : ReactionHub) (ticket : Nat) (wait : ReactionWait) : Sighting × ReactionHub :=
  match (hub.unread ticket).find? wait.accepts with
  | some reaction => (.found reaction.token reaction.actor, hub.unsubscribe ticket)
  | none =>
      if hub.isOpen then
        (.nothing,
          { hub with
            subscriptions := hub.subscriptions.map fun s =>
              if s.ticket == ticket then { s with next := hub.published } else s })
      else (.over, hub.unsubscribe ticket)

/-- Resolve a wait from a time on when nothing else happens meanwhile. It is answered or over at
once, or it ends unanswered when its timer goes off.
-/
def resolveFrom (hub : ReactionHub) (now ticket : Nat) (wait : ReactionWait)
    : Resolution × ReactionHub :=
  match hub.look ticket wait with
  | (.found token actor, hub) => (⟨some (token, actor), .zero⟩, hub)
  | (.over, hub) => (⟨none, .zero⟩, hub)
  | (.nothing, hub) =>
      let end_ := Timer.roundUp Timer.grain (Timer.dueAfter now wait.timeout)
      (⟨none, ⟨end_ - now⟩⟩, hub.unsubscribe ticket)

/-- Resolve a wait from the beginning on. -/
def resolve (hub : ReactionHub) (ticket : Nat) (wait : ReactionWait) : Resolution × ReactionHub :=
  hub.resolveFrom 0 ticket wait

end ReactionHub

end Gatehouse
