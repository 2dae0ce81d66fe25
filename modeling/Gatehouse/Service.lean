import Gatehouse.Performance
import Gatehouse.Reminder.Notice
import Gatehouse.Verification.Pass

/-! The routines of the service: the reconciliation at its interval, and the reminder at its
frequency once it is due. A failed pass or reminder is tried again at the next tick.
-/

namespace Gatehouse

/-- One pass of the routine; its report has gone to the sink. -/
def ReconcileSettings.work (settings : ReconcileSettings) (sink : AuditSink) : Program Unit := do
  match ← settings.pass sink with
  | .ok _ => pure ()
  | .error fault =>
      Program.log .debug "Verification cycle aborted, retrying next period"
        [("error", fault.message)]

/-- The reconciliation, which begins at once. -/
def ReconcileSettings.routine (settings : ReconcileSettings) (sink : AuditSink) : Routine where
  opening := pure none
  work := settings.work sink
  period := settings.interval
  farewell := "Reconciliation task stopped"

/-- The delay before the first reminder, none at all when the record cannot be read. -/
def ReminderSettings.opening (settings : ReminderSettings) : Program (Option Duration) := do
  match ← settings.initialDelay with
  | .ok delay => pure (some delay)
  | .error fault =>
      Program.log .warn "Could not read reminder record, firing without delay"
        [("error", fault.message)]
      pure (some .zero)

def ReminderSettings.work (settings : ReminderSettings) : Program Unit := do
  match ← settings.fire with
  | .ok _ => pure ()
  | .error fault =>
      Program.log .warn "Reminder not sent, retrying next period" [("error", fault.message)]

/-- The reminder, which begins when the next one is due. -/
def ReminderSettings.routine (settings : ReminderSettings) : Routine where
  opening := settings.opening
  work := settings.work
  period := settings.frequency
  farewell := "Reminder task stopped"

def serviceCompany (reconcile : ReconcileSettings) (sink : AuditSink)
    (reminder : ReminderSettings) : Company where
  routines := [reconcile.routine sink, reminder.routine]
  opening := some "Starting verification service"
  closing := some "Verification service stopped"

end Gatehouse
