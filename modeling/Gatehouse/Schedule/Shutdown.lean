/-! The shutdown signal. One handle triggers it and may go away; any number of receivers watch it.
A receiver that waits looks at the signal, and looks again only when it has changed since its last
look or the handle is gone.
-/

namespace Gatehouse

structure Shutdown where
  isTriggered : Bool
  version : Nat
  /-- The handle is gone. -/
  isOrphan : Bool
  /-- The version that each receiver has seen last. -/
  seen : List Nat
deriving DecidableEq, Repr

namespace Shutdown

def fresh : Shutdown := ⟨false, 0, false, [0]⟩

def trigger (signal : Shutdown) : Shutdown :=
  if signal.isOrphan then signal
  else { signal with isTriggered := true, version := signal.version + 1 }

/-- Let the handle go. -/
def drop (signal : Shutdown) : Shutdown := { signal with isOrphan := true }

/-- A new receiver has number `seen.length`; the handle gives it what is there now. -/
def subscribe? (signal : Shutdown) : Option Shutdown :=
  if signal.isOrphan then none
  else some { signal with seen := signal.seen ++ [signal.version] }

/-- A copy of a receiver has seen what the receiver has seen. -/
def clone? (signal : Shutdown) (receiver : Nat) : Option Shutdown :=
  signal.seen[receiver]?.map fun version => { signal with seen := signal.seen ++ [version] }

/-- The signal was triggered or can never be: nobody has to wait any longer. -/
def hasEnded (signal : Shutdown) : Bool := signal.isTriggered || signal.isOrphan

/-- A receiver that waits looks at the signal. It tells whether the wait is over. -/
def look (signal : Shutdown) (receiver : Nat) : Bool × Shutdown :=
  (signal.isTriggered || signal.isOrphan,
    { signal with seen := signal.seen.set receiver signal.version })

/-- Something has happened since a receiver's last look. -/
def hasNews (signal : Shutdown) (receiver : Nat) : Bool :=
  signal.isOrphan || signal.seen[receiver]? ≠ some signal.version

/-- A receiver that has looked before gets its turn: it looks again when there is news. -/
def resume (signal : Shutdown) (receiver : Nat) : Bool × Shutdown :=
  if signal.hasNews receiver then signal.look receiver else (false, signal)

/-- What is done through the handle while a receiver waits. -/
inductive Meanwhile
  | nothing
  | trigger (after : Nat)
  | drop (after : Nat)

/-- Wait for the signal, at most for a time, while something is done through the handle. It tells
whether the wait ended in time, and how long it takes until both are over.
-/
def await (signal : Shutdown) (receiver limit : Nat) (meanwhile : Meanwhile)
    : (Bool × Nat) × Shutdown :=
  let (ended, signal) := signal.look receiver
  let acted (after : Nat) (later : Shutdown) : (Bool × Nat) × Shutdown :=
    if ended then ((true, after), later)
    else if after ≤ limit then
      let (ended, later) := later.resume receiver
      ((ended, if ended then after else max limit after), later)
    else ((false, max limit after), later)
  match meanwhile with
  | .nothing => ((ended, if ended then 0 else limit), signal)
  | .trigger after => acted after signal.trigger
  | .drop after => acted after signal.drop

end Shutdown

end Gatehouse
