import Gatehouse.Community.MessageId
import Gatehouse.Program

/-! The record of the last reminder, which is one identifier in the store. What does not read as
an identifier counts as no record.
-/

namespace Gatehouse.ReminderRecord

def key : String := "last_reminder"

/-- The last reminder, if one is on record. -/
def load : Program (Except StoreFault (Option MessageId)) := do
  match ← Program.load key with
  | .error fault => pure (.error fault)
  | .ok none => pure (.ok none)
  | .ok (some raw) =>
      match Id.read raw with
      | .ok id => pure (.ok (some id))
      | .error _ =>
          Program.log .warn "Ignoring unreadable reminder id" [("value", raw)]
          pure (.ok none)

/-- The last reminder that a store has on record. -/
def stored? (store : Store) : Option MessageId :=
  (store.get? key).bind fun raw => (Id.read raw).toOption

def save (id : MessageId) : Program (Except StoreFault Unit) :=
  Program.save key id.text

end Gatehouse.ReminderRecord
