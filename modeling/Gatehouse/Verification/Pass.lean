import Gatehouse.Audit
import Gatehouse.Verification.Classification
import Gatehouse.Verification.Execution
import Gatehouse.Verification.Gate

/-! One reconciliation pass: list the members, warn those who are due a warning, remove those who
are due removal when the gate permits it, and report. A pass that cannot list the members changes
nothing and reports that instead.
-/

namespace Gatehouse

structure ReconcileSettings where
  policy : Policy
  gate : GateSettings
  interval : Duration

/-- What happened to the removal batch. -/
inductive RemovalOutcome
  /-- Nobody was due removal, and the gate was not asked. -/
  | noCandidates
  /-- The gate refused; without a decision the prompt could not be posted. -/
  | notAuthorized (requested : Nat) (decision : Option Decision)
  | executed (decision : Decision) (tally : Tally)
deriving DecidableEq

structure PassReport where
  startedAt : Instant
  classification : Classification
  /-- None when nobody was due a warning. -/
  warning : Option Tally
  removal : RemovalOutcome
  pendingRole : RoleId
deriving DecidableEq

namespace PassReport

def title : String := "Verification system"

def removalLine (report : PassReport) : String :=
  match report.removal with
  | .noCandidates => "Found no members to be removed."
  | .notAuthorized requested _ =>
      "Not authorized to remove `" ++ Numeral.text requested ++ "` members."
  | .executed _ tally => "Removed `" ++ tally.text ++ "` members."

def warningLine (report : PassReport) : String :=
  let role := report.pendingRole.mention
  match report.warning with
  | none => "Found no members to be assigned the " ++ role ++ " role."
  | some tally => "Assigned " ++ role ++ " role to `" ++ tally.text ++ "` members."

def text (report : PassReport) : String :=
  report.removalLine ++ "\n" ++ report.warningLine

/-- Nobody was due anything. -/
def isQuiet (report : PassReport) : Bool :=
  report.classification.needsWarning.isEmpty && report.classification.needsRemoval.isEmpty

/-- A warning when something was refused or failed. -/
def severity (report : PassReport) : Severity :=
  let warningFailed := match report.warning with
    | some tally => tally.failed > 0
    | none => false
  let removalTroubled := match report.removal with
    | .noCandidates => false
    | .notAuthorized .. => true
    | .executed _ tally => tally.failed > 0
  if warningFailed || removalTroubled then .warning else .info

end PassReport

/-- The members could not be listed. -/
structure SnapshotUnavailable where
  failure : CallFailure
deriving DecidableEq

def SnapshotUnavailable.message (fault : SnapshotUnavailable) : String :=
  "Membership snapshot unavailable: " ++ fault.failure.text

namespace ReconcileSettings

/-- The reason given for acting on a member. -/
def reason (days : Nat) : String :=
  "Member has not verified in " ++ Numeral.text days ++ " days"

/-- Deliver a report of the pass; a failed delivery is noted and stops nothing. -/
def emit (sink : AuditSink) (text : String) (severity : Severity) : Program Unit := do
  match ← sink.deliver ⟨PassReport.title, text, severity⟩ with
  | .ok _ => pure ()
  | .error failure =>
      Program.log .warn "Failed to deliver verification report" [("error", failure.text)]

/-- Warn the members who are due a warning. -/
def warn (settings : ReconcileSettings) (batch : Batch) : Program (Option Tally) :=
  if batch.isEmpty then pure none
  else do
    let tally ← assignRole batch.members settings.policy.pendingRole
      (reason settings.policy.warningAfter.days)
    pure (some tally)

/-- Remove the members who are due removal, if the gate permits it. -/
def remove (settings : ReconcileSettings) (batch : Batch) (total : Nat)
    : Program RemovalOutcome :=
  if batch.isEmpty then pure .noCandidates
  else do
    let days := settings.policy.removalAfter.days
    match ← settings.gate.authorize batch.size total days with
    | .error failure =>
        Program.log .warn "Could not post confirmation prompt, not removing anyone"
          [("error", failure.text)]
        pure (.notAuthorized batch.size none)
    | .ok decision =>
        if !decision.permits then
          Program.log .debug "Removal batch vetoed" [("decision", decision.text)]
          pure (.notAuthorized batch.size (some decision))
        else
          let tally ← removeMembers batch.members (reason days)
          pure (.executed decision tally)

/-- Act on the members of a listing. -/
def act (settings : ReconcileSettings) (sink : AuditSink) (startedAt : Instant)
    (members : List Member) : Program PassReport := do
  let total := members.length
  let classification := settings.policy.classify startedAt members
  let due := [("warning", Numeral.text classification.needsWarning.size),
    ("removal", Numeral.text classification.needsRemoval.size)]
  Program.log .debug "classified membership snapshot" due
  Program.log .info "Classified members" (("total", Numeral.text total) :: due)
  let warning ← settings.warn classification.needsWarning
  let removal ← settings.remove classification.needsRemoval total
  let report : PassReport :=
    ⟨startedAt, classification, warning, removal, settings.policy.pendingRole⟩
  emit sink report.text report.severity
  Program.log .info "Verification cycle finished" []
  pure report

def pass (settings : ReconcileSettings) (sink : AuditSink)
    : Program (Except SnapshotUnavailable PassReport) := do
  let startedAt ← Program.now
  Program.log .info "Running verification cycle" []
  match ← Program.call .listMembers with
  | .error failure =>
      Program.log .warn "Membership snapshot unavailable, skipping cycle"
        [("error", failure.text)]
      emit sink ("Skipped verification cycle: membership snapshot unavailable ("
        ++ failure.text ++ ").") .warning
      pure (.error ⟨failure⟩)
  | .ok members => return .ok (← settings.act sink startedAt members)

end ReconcileSettings

end Gatehouse
