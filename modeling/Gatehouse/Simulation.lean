import Gatehouse.Config.Settings
import Gatehouse.Reminder.Notice
import Gatehouse.Time.Instant.Text
import Gatehouse.Verification.Pass
import Gatehouse.World

/-! A simulation of the service: one reconciliation pass and one reminder in a world made from a
list of members. The prompt, if there is one, is answered as was asked for beforehand, or not at
all; then the gate does not wait for an answer either.
-/

namespace Gatehouse

/-- How the prompt of a simulation is answered. -/
inductive ScriptedAnswer
  | approve
  | deny
  | unanswered
deriving DecidableEq, Repr

structure Simulation where
  pass : Except SnapshotUnavailable PassReport
  reminder : MessageId

namespace Simulation

/-- The reviewer in whose name a prompt is answered. -/
def reviewer : MemberId := ⟨0⟩

/-- Put the answer in place: as a reaction to come, or as a gate that does not wait. -/
def prepare (gate : GateSettings) (answer : ScriptedAnswer) (community : Community)
    : GateSettings × Community :=
  match answer with
  | .approve => (gate, community.script ⟨gate.approveToken, reviewer, false, true⟩)
  | .deny => (gate, community.script ⟨gate.denyToken, reviewer, false, true⟩)
  | .unanswered => ({ gate with timeout := .zero }, community)

/-- The sink of the reports: the channel for them, or the journal when there is none. -/
def sinkOf (settings : Settings) : AuditSink :=
  match settings.auditChannel with
  | some channel => .channel channel
  | none => .journal

/-- The world of a simulation, with the last reminder on record. -/
def worldOf (community : Community) (last : Option MessageId) : World :=
  let world := World.start community
  match last with
  | none => world
  | some id => world.setStored ReminderRecord.key id.text

def program (reconcile : ReconcileSettings) (sink : AuditSink) (reminder : ReminderSettings)
    : Program (Except ReminderFault Simulation) := do
  let pass ← reconcile.pass sink
  match ← reminder.fire with
  | .error fault => pure (.error fault)
  | .ok sent => pure (.ok ⟨pass, sent⟩)

def run (settings : Settings) (answer : ScriptedAnswer) (now : Instant) (members : List Member)
    (last : Option MessageId) : Except ReminderFault Simulation :=
  let (gate, community) := prepare settings.reconcile.gate answer (.ofMembers now members)
  let reconcile := { settings.reconcile with gate := gate }
  ((program reconcile (sinkOf settings) settings.reminder).run World.handle
    (worldOf community last)).1

/-- What the pass did, the lines of its report indented. -/
def passText : Except SnapshotUnavailable PassReport → String
  | .ok report =>
      "🧪 Reconciliation\n" ++ String.join ((AuditSink.lines report.text.toList).map fun line =>
        "  " ++ String.ofList line ++ "\n")
  | .error fault => "🧪 Reconciliation skipped: " ++ fault.message ++ "\n"

def text (simulation : Simulation) : String :=
  passText simulation.pass ++ "🧪 Reminder sent as message " ++ simulation.reminder.text ++ " at "
    ++ simulation.reminder.createdAt.offsetText ++ "\n"

end Simulation

end Gatehouse
