import Gatehouse.Reminder.Notice
import Gatehouse.Time.Instant.Text

/-! The reminder as people ask for it: which one is on record, when it was posted and when the next
one is due.
-/

namespace Gatehouse

/-- When a reminder is due, in words. -/
def dueText (delay : Duration) : String :=
  if delay.isZero then "now" else "in " ++ delay.text

/-- The record of the last reminder and what follows from it. -/
def reminderStatusText (last : Option MessageId) (frequency : Duration) (now : Instant)
    : String :=
  match last with
  | none => "No reminder recorded, the next one goes out immediately.\n"
  | some id =>
      "Last reminder: " ++ id.text ++ "\nSent at: " ++ id.createdAt.offsetText
        ++ "\nNext reminder: " ++ dueText (delayUntilDue last frequency now) ++ "\n"

end Gatehouse
