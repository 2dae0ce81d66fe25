import Gatehouse.Reminder.Record
import Gatehouse.Time.Duration.Text

/-! The reminder notice. It is posted anew at a fixed frequency, and the one before is deleted, so
only the newest stands in its channel. The record of the newest tells when the next one is due.
-/

namespace Gatehouse

structure ReminderSettings where
  channel : ChannelId
  frequency : Duration
  message : String
deriving DecidableEq

inductive ReminderFault
  | store (fault : StoreFault)
  | send (failure : CallFailure)
deriving DecidableEq

def ReminderFault.message : ReminderFault → String
  | .store fault => "Reminder store error: " ++ fault.message
  | .send failure => "Failed to send reminder: " ++ failure.text

/-- The built-in text, to everyone who holds the pending role. -/
def defaultReminderMessage (pendingRole : RoleId) (days : Nat) : String :=
  pendingRole.mention ++ "\n\nWelcome! Please read the rules in this channel and accept them to "
    ++ "gain permission to send messages in the community!\n\nYou will be removed if you don't "
    ++ "verify within `" ++ Numeral.text days ++ "` days."

/-- How long to wait for the next reminder: what is left of the frequency since the last one was
posted. One from the future was posted just now.
-/
def delayUntilDue (last : Option MessageId) (frequency : Duration) (now : Instant) : Duration :=
  match last with
  | none => .zero
  | some id => frequency.minus ((now.since? id.createdAt).getD .zero)

namespace ReminderSettings

/-- The delay before the first reminder, from the record. -/
def initialDelay (settings : ReminderSettings) : Program (Except ReminderFault Duration) := do
  match ← ReminderRecord.load with
  | .error fault => pure (.error (.store fault))
  | .ok last =>
      if last.isNone then
        Program.log .trace "No previous reminder recorded, firing without delay" []
      let now ← Program.now
      let delay := delayUntilDue last settings.frequency now
      Program.log .trace "Time until next reminder" [("delay", delay.text)]
      pure (.ok delay)

/-- Delete the reminder before; one that cannot be deleted is left. -/
def deletePrevious (settings : ReminderSettings) : Option MessageId → Program Unit
  | none => pure ()
  | some previous => do
      Program.log .debug "Deleting previous reminder" [("message", previous.text)]
      match ← Program.call (.delete settings.channel previous) with
      | .ok _ => pure ()
      | .error failure =>
          Program.log .debug "Previous reminder could not be deleted"
            [("message", previous.text), ("error", failure.text)]

/-- Post the reminder in place of the one before. It goes on record once it is posted. -/
def fire (settings : ReminderSettings) : Program (Except ReminderFault MessageId) := do
  match ← ReminderRecord.load with
  | .error fault => pure (.error (.store fault))
  | .ok previous =>
      settings.deletePrevious previous
      match ← Program.call (.send settings.channel settings.message) with
      | .error failure => pure (.error (.send failure))
      | .ok sent =>
          match ← ReminderRecord.save sent with
          | .error fault => pure (.error (.store fault))
          | .ok _ =>
              Program.log .info "Sent verification reminder" [("message", sent.text)]
              pure (.ok sent)

end ReminderSettings

end Gatehouse
