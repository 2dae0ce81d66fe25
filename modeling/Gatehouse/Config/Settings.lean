import Gatehouse.Config
import Gatehouse.Decimal.Shortest
import Gatehouse.Reminder.Notice
import Gatehouse.Verification.Admission
import Gatehouse.Verification.Pass

/-! The settings that the service runs on. They come from a configuration whose durations can be
read and whose parts agree; the first thing that is wrong is reported.
-/

namespace Gatehouse

/-- How the parts of a configuration can disagree. -/
inductive Config.Disagreement
  | removalNotLater
  | thresholdOutside (threshold : Float)
  | zero (field : String)
  | sameTokens
  | sameRoles

inductive Config.Refusal
  | duration (field : String) (fault : Duration.Fault)
  | disagreement (disagreement : Config.Disagreement)

namespace Config

def Disagreement.text : Disagreement → String
  | removalNotLater => "policy.removal_after must be longer than policy.warning_after"
  | thresholdOutside threshold =>
      "policy.confirmation_threshold must be between 0 and 1, got "
        ++ String.ofList (Decimal.plainText threshold)
  | zero field => field ++ " must be greater than zero"
  | sameTokens => "policy.approve_token and policy.deny_token must differ"
  | sameRoles => "roles.pending and roles.verified must differ"

def Refusal.message : Refusal → String
  | duration field fault => "Invalid duration for '" ++ field ++ "': " ++ fault.message
  | disagreement reason => "Invalid configuration: " ++ reason.text

end Config

structure Settings where
  community : CommunityId
  reconcile : ReconcileSettings
  reminder : ReminderSettings
  admission : AdmissionSettings
  auditChannel : Option ChannelId
  storePath : String

namespace Config

def readDuration (field text : String) : Except Refusal Duration :=
  (Duration.read text).mapError (.duration field)

/-- Read the duration of a field that may not be zero. -/
def readPeriod (field text : String) : Except Refusal Duration := do
  let period ← readDuration field text
  if period.isZero then throw (.disagreement (.zero field)) else pure period

/-- A condition that a configuration has to meet. -/
def require (condition : Bool) (disagreement : Disagreement) : Except Refusal Unit :=
  if condition then pure () else throw (.disagreement disagreement)

/-- The threshold is a share; what is not a number is none. -/
def isShare (threshold : Float) : Bool := 0.0 ≤ threshold && threshold ≤ 1.0

/-- Roles that do not count as verification: the configured ones and the one everyone holds. -/
def baselineRoles (config : Config) : OrderedSet RoleId :=
  (OrderedSet.ofList config.roles.baseline).insert config.community.everyone

/-- The settings of a configuration, or the first thing that is wrong with it. -/
def settings (config : Config) : Except Refusal Settings := do
  let warningAfter ← readDuration "policy.warning_after" config.policy.warningAfter
  let removalAfter ← readDuration "policy.removal_after" config.policy.removalAfter
  require (warningAfter < removalAfter) .removalNotLater
  let threshold := config.policy.confirmationThreshold
  require (isShare threshold) (.thresholdOutside threshold)
  let timeout ← readPeriod "policy.confirmation_timeout" config.policy.confirmationTimeout
  let interval ← readPeriod "policy.reconcile_interval" config.policy.reconcileInterval
  let frequency ← readPeriod "reminder.frequency" config.reminder.frequency
  require (config.policy.approveToken ≠ config.policy.denyToken) .sameTokens
  require (config.roles.pending ≠ config.roles.verified) .sameRoles
  let policy : Policy :=
    ⟨warningAfter, removalAfter, config.roles.pending, config.baselineRoles⟩
  let gate : GateSettings :=
    { threshold := threshold
      timeout := timeout
      reviewChannel := config.channels.review
      reviewerRole := config.roles.reviewers
      approveToken := config.policy.approveToken
      denyToken := config.policy.denyToken }
  let message := config.reminder.message.getD
    (defaultReminderMessage config.roles.pending removalAfter.days)
  return {
    community := config.community
    reconcile := ⟨policy, gate, interval⟩
    reminder := ⟨config.channels.reminder, frequency, message⟩
    admission := .ofRoles config.roles.verified config.roles.pending
    auditChannel := config.channels.audit
    storePath := config.storePath }

end Config

end Gatehouse
