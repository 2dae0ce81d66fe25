import Gatehouse.Time.Instant.Text
import Gatehouse.Verification.Pass

/-! What a pass over a membership would do, without doing it: who would be warned, who would be
removed, and whether the gate would ask before the removal.
-/

namespace Gatehouse

/-- A pass that was only thought through. -/
structure Preview where
  asOf : Instant
  /-- How many members were looked at. -/
  total : Nat
  classification : Classification
  policy : Policy
  /-- The gate would ask before a removal of this size. -/
  asks : Bool

/-- Think a pass over a membership through. -/
def ReconcileSettings.preview (settings : ReconcileSettings) (now : Instant)
    (members : List Member) : Preview :=
  let classification := settings.policy.classify now members
  { asOf := now
    total := members.length
    classification := classification
    policy := settings.policy
    asks := needsConfirmation classification.needsRemoval.size members.length
      settings.gate.threshold }

namespace Preview

/-- The members of a batch, one on a line. -/
def listText (batch : Batch) : String :=
  if batch.isEmpty then "  (none)\n"
  else String.join (batch.members.toList.map fun member => "  " ++ member.text ++ "\n")

def batchText (heading : String) (days : Nat) (batch : Batch) : String :=
  heading ++ " after " ++ Numeral.text days ++ " days: " ++ Numeral.text batch.size
    ++ " members\n" ++ listText batch

/-- How much of the membership the removal covers, and whether the gate would ask. -/
def removalText (preview : Preview) : String :=
  let removal := preview.classification.needsRemoval
  let share := removalShare removal.size preview.total
  let verdict := if preview.asks then "reviewer confirmation required" else "automatic"
  if removal.isEmpty then ""
  else "\nRemoval covers " ++ percentText share ++ "% of the population: " ++ verdict ++ "\n"

def text (preview : Preview) : String :=
  let policy := preview.policy
  "🔍 " ++ Numeral.text preview.total ++ " members as of " ++ preview.asOf.offsetText ++ "\n\n"
    ++ batchText ("Pending role " ++ policy.pendingRole.mention) policy.warningAfter.days
      preview.classification.needsWarning
    ++ batchText "Removal" policy.removalAfter.days preview.classification.needsRemoval
    ++ preview.removalText

end Preview

end Gatehouse
