import Gatehouse.Proofs.Verification.Accounts
import Gatehouse.Proofs.Verification.Consultation
import Gatehouse.Proofs.Verification.Round

/-! What a pass does after its listing, whatever it is answered. The listing settles the batches:
the warning batch is carried out, and the removal batch is carried out if the gate that is consulted
about it permits, and is otherwise left alone: main statement `act_goesBy`. So it is settled on
whom anything is attempted, each member once and in order.
-/

namespace Gatehouse

open Program (Converses AsksOnly exchangesOf)
open GateSettings (Consulted)

-------------------------------------------------------------------------------
-- Attempts
-------------------------------------------------------------------------------

/-- What a call attempts, and on whom. -/
def Exchange.attempt? : Exchange → Option (Action × MemberId)
  | ⟨.addRole id _ _, _⟩ => some (.assignPendingRole, id)
  | ⟨.kick id _, _⟩ => some (.remove, id)
  | _ => none

/-- All that is attempted in calls, in order. -/
def attemptsIn (made : List Exchange) : List (Action × MemberId) :=
  made.filterMap Exchange.attempt?

@[simp] theorem attemptsIn_append {made more : List Exchange}
    : attemptsIn (made ++ more) = attemptsIn made ++ attemptsIn more :=
  List.filterMap_append

/-- A batch that was carried out was attempted on each member, by induction over the members and
what came of them.
-/
theorem CarriedOut.attempts {members : OrderedSet MemberId}
    {exchange : MemberId → Outcome Unit → Exchange} {made : List Exchange} {tally : Tally}
    (carried : CarriedOut members exchange made tally) {kind : Action}
    (each : ∀ id outcome, (exchange id outcome).attempt? = some (kind, id))
    : attemptsIn made = members.toList.map fun id => (kind, id) := by
  obtain ⟨outcomes, length, rfl, -⟩ := carried
  replace length : outcomes.length = members.toList.length := length
  generalize members.toList = ids at length
  unfold attemptsIn
  induction ids generalizing outcomes with
  | nil => rfl
  | cons id rest ih =>
      obtain ⟨outcome, more, rfl⟩ := List.exists_cons_of_length_eq_add_one length
      rw [List.zipWith_cons_cons, List.filterMap_cons, each, ih more (Nat.succ.inj length)]
      rfl

/-- The gate attempts nothing while it is consulted. -/
theorem GateSettings.Consulted.attempts {settings : GateSettings} {candidates total days : Nat}
    {made : List Exchange} {verdict : Outcome Decision}
    (consulted : settings.Consulted candidates total days made verdict)
    : attemptsIn made = [] := by
  cases consulted <;> rfl

-------------------------------------------------------------------------------
-- The report
-------------------------------------------------------------------------------

/-- An effect that attempts nothing on a member. -/
def Effect.IsIdle : Effect → Prop
  | .call (.addRole ..) | .call (.kick ..) => False
  | _ => True

/-- Nothing is attempted by a program that asks only for idle effects. -/
theorem Program.AsksOnly.attemptsIn_eq_nil {α : Type} {p : Program α}
    (idle : p.AsksOnly Effect.IsIdle) {said : List (Sigma Effect.Reply)} {value : α}
    (conversation : p.Converses said value)
    : attemptsIn (exchangesOf said) = [] := by
  refine List.filterMap_eq_nil_iff.mpr fun made member => ?_
  obtain ⟨exchange, listed, called⟩ := List.mem_filterMap.mp member
  have here := idle said value conversation exchange listed
  obtain ⟨effect, reply⟩ := exchange
  cases effect with
  | call call =>
      cases called
      cases call with
      | addRole id role reason | kick id reason => exact here.elim
      | _ => rfl
  | _ => cases called

theorem Program.log_idle (level : Journal.Level) (message : String)
    (fields : List (String × String))
    : (Program.log level message fields).AsksOnly Effect.IsIdle :=
  .ask trivial

theorem AuditSink.deliver_idle (sink : AuditSink) (report : Report)
    : (sink.deliver report).AsksOnly Effect.IsIdle := by
  have logged (lines : List (List Char))
      : (AuditSink.logLines report lines).AsksOnly Effect.IsIdle := by
    induction lines with
    | nil => exact .pure _
    | cons line rest ih => exact .bind (Program.log_idle _ _ _) fun _ => ih
  cases sink with
  | file => exact .ask trivial
  | journal => exact .bind (logged _) fun _ => .pure _
  | channel destination =>
      refine .bind (logged _) fun _ => .bind (.ask trivial) fun posted => ?_
      cases posted with
      | ok _ => exact .pure _
      | error failure => exact .pure _

namespace ReconcileSettings

theorem emit_idle (sink : AuditSink) (text : String) (severity : Severity)
    : (emit sink text severity).AsksOnly Effect.IsIdle := by
  refine .bind (sink.deliver_idle _) fun outcome => ?_
  cases outcome with
  | ok _ => exact .pure _
  | error failure => exact Program.log_idle _ _ _

-------------------------------------------------------------------------------
-- A pass after its listing
-------------------------------------------------------------------------------

/-- The calls by which a pass warns a batch, and what it reports of it. -/
inductive Warns (settings : ReconcileSettings) (batch : Batch)
    : List Exchange → Option Tally → Prop
  | nobody (empty : batch.isEmpty = true) : settings.Warns batch [] none
  | carried {made : List Exchange} {tally : Tally} (due : batch.isEmpty = false)
    (carried
      : CarriedOut batch.members
          (fun id outcome =>
            ⟨.addRole id settings.policy.pendingRole (reason settings.policy.warningAfter.days),
              outcome⟩)
          made tally)
    : settings.Warns batch made (some tally)

/-- The calls by which a pass deals with a removal batch, and what it reports of it: the gate is
consulted, and the batch is carried out exactly when the gate's decision permits it.
-/
inductive Removes (settings : ReconcileSettings) (batch : Batch) (total : Nat)
    : List Exchange → RemovalOutcome → Prop
  /-- There is nobody to ask about. -/
  | nobody (empty : batch.isEmpty = true) : settings.Removes batch total [] .noCandidates
  /-- The gate could not ask. -/
  | unposted {made : List Exchange} {failure : CallFailure} (due : batch.isEmpty = false)
    (consulted
      : settings.gate.Consulted batch.size total settings.policy.removalAfter.days made
          (.error failure))
    : settings.Removes batch total made (.notAuthorized batch.size none)
  | vetoed {made : List Exchange} {decision : Decision} (due : batch.isEmpty = false)
    (consulted
      : settings.gate.Consulted batch.size total settings.policy.removalAfter.days made
          (.ok decision))
    (vetoes : decision.permits = false)
    : settings.Removes batch total made (.notAuthorized batch.size (some decision))
  | executed {asked kicked : List Exchange} {decision : Decision} {tally : Tally}
    (due : batch.isEmpty = false)
    (consulted
      : settings.gate.Consulted batch.size total settings.policy.removalAfter.days asked
          (.ok decision))
    (permits : decision.permits = true)
    (carried
      : CarriedOut batch.members
          (fun id outcome => ⟨.kick id (reason settings.policy.removalAfter.days), outcome⟩)
          kicked tally)
    : settings.Removes batch total (asked ++ kicked) (.executed decision tally)

/-- A pass goes by a listing in the calls that it makes after it: the batches are those of the
listing, first the warning batch is dealt with, then the removal batch, and the rest is the report.
-/
structure GoesBy (settings : ReconcileSettings) (startedAt : Instant) (members : List Member)
    (made : List Exchange) (report : PassReport) : Prop where
  classified : report.classification = settings.policy.classify startedAt members
  calls
    : ∃ warned removed reported,
      made = warned ++ (removed ++ reported)
      ∧ settings.Warns report.classification.needsWarning warned report.warning
      ∧ settings.Removes report.classification.needsRemoval members.length removed report.removal
      ∧ attemptsIn reported = []

variable {settings : ReconcileSettings} {said : List (Sigma Effect.Reply)} {batch : Batch}
  {total : Nat}

/-- Every conversation of warning a batch carries it out. -/
theorem warns_of_converses {warning : Option Tally}
    (conversation : (settings.warn batch).Converses said warning)
    : settings.Warns batch (exchangesOf said) warning := by
  unfold warn at conversation
  split at conversation
  · next empty =>
    obtain ⟨rfl, rfl⟩ := conversation.of_pure
    exact .nobody empty
  · next due =>
    obtain ⟨earlier, tally, later, rfl, assigning, ended⟩ := conversation.of_bind
    obtain ⟨rfl, rfl⟩ := ended.of_pure
    rw [List.append_nil]
    exact .carried (eq_false_of_ne_true due)
      (carriedOut_of_noted (fun _ _ _ single => exchangesOf_call single) assigning)

/-- Every conversation of removing a batch consults the gate and does what it decides, by cases on
the verdict.
-/
theorem removes_of_converses {outcome : RemovalOutcome}
    (conversation : (settings.remove batch total).Converses said outcome)
    : settings.Removes batch total (exchangesOf said) outcome := by
  unfold remove at conversation
  split at conversation
  · next empty =>
    obtain ⟨rfl, rfl⟩ := conversation.of_pure
    exact .nobody empty
  · next due =>
    have due := eq_false_of_ne_true due
    obtain ⟨earlier, verdict, later, rfl, asking, rest⟩ := conversation.of_bind
    have consulted := GateSettings.consulted_of_converses asking
    rw [Program.exchangesOf_append]
    cases verdict with
    | error failure =>
        obtain ⟨_, _, noting, ended⟩ := rest.of_inward (Program.log_inward _ _ _)
        obtain ⟨rfl, rfl⟩ := ended.of_pure
        rw [noting, Program.exchangesOf_nil, List.append_nil]
        exact .unposted due consulted
    | ok decision =>
        dsimp only at rest
        split at rest
        · next vetoes =>
          obtain ⟨_, _, noting, ended⟩ := rest.of_inward (Program.log_inward _ _ _)
          obtain ⟨rfl, rfl⟩ := ended.of_pure
          rw [noting, Program.exchangesOf_nil, List.append_nil]
          exact .vetoed due consulted (by simpa using vetoes)
        · next permits =>
          obtain ⟨kicking, tally, _, rfl, removing, ended⟩ := rest.of_bind
          obtain ⟨rfl, rfl⟩ := ended.of_pure
          rw [List.append_nil]
          exact .executed due consulted (by simpa using permits)
            (carriedOut_of_noted (fun _ _ _ single => exchangesOf_call single) removing)

/-- Acting on a listing, whatever is answered, goes by the listing. -/
theorem act_goesBy {sink : AuditSink} {startedAt : Instant} {members : List Member}
    {report : PassReport}
    (conversation : (settings.act sink startedAt members).Converses said report)
    : settings.GoesBy startedAt members (exchangesOf said) report := by
  unfold act at conversation
  obtain ⟨_, _, first, conversation⟩ := conversation.of_inward (Program.log_inward _ _ _)
  obtain ⟨_, _, second, conversation⟩ := conversation.of_inward (Program.log_inward _ _ _)
  obtain ⟨warned, warning, _, rfl, warns, conversation⟩ := conversation.of_bind
  obtain ⟨removed, removal, _, rfl, removes, conversation⟩ := conversation.of_bind
  obtain ⟨reported, _, _, rfl, reports, conversation⟩ := conversation.of_bind
  obtain ⟨_, _, last, ended⟩ := conversation.of_inward (Program.log_inward _ _ _)
  obtain ⟨rfl, rfl⟩ := ended.of_pure
  refine ⟨rfl, exchangesOf warned, exchangesOf removed, exchangesOf reported, ?_,
    warns_of_converses warns, removes_of_converses removes,
    (emit_idle _ _ _).attemptsIn_eq_nil reports⟩
  simp only [first, second, last, Program.exchangesOf_append, Program.exchangesOf_nil,
    List.append_nil]

/-- What a pass attempts when its report has come out so. -/
def attempts (report : PassReport) : List (Action × MemberId) :=
  (report.classification.needsWarning.members.toList.map fun id => (.assignPendingRole, id))
    ++ (report.removal.released report.classification.needsRemoval).map fun id => (.remove, id)

/-- Warning is attempted on the whole batch. -/
theorem Warns.attempts {made : List Exchange} {warning : Option Tally}
    (warns : settings.Warns batch made warning)
    : attemptsIn made = batch.members.toList.map fun id => (.assignPendingRole, id) := by
  cases warns with
  | nobody empty =>
      rw [Batch.toList_of_isEmpty empty]
      rfl
  | carried due carried => exact carried.attempts fun _ _ => rfl

/-- Removal is attempted on the whole batch if it is executed, and otherwise on nobody. -/
theorem Removes.attempts {made : List Exchange} {outcome : RemovalOutcome}
    (removes : settings.Removes batch total made outcome)
    : attemptsIn made = (outcome.released batch).map fun id => (.remove, id) := by
  cases removes with
  | nobody empty => rfl
  | unposted due consulted => exact consulted.attempts
  | vetoed due consulted vetoes => exact consulted.attempts
  | executed due consulted permits carried =>
      rw [attemptsIn_append, consulted.attempts, List.nil_append]
      exact carried.attempts fun _ _ => rfl

/-- A pass that goes by a listing attempts what its report tells. -/
theorem GoesBy.attempts {startedAt : Instant} {members : List Member} {made : List Exchange}
    {report : PassReport} (goesBy : settings.GoesBy startedAt members made report)
    : attemptsIn made = attempts report := by
  obtain ⟨warned, removed, reported, rfl, warns, removes, silent⟩ := goesBy.calls
  rw [attemptsIn_append, attemptsIn_append, warns.attempts, removes.attempts, silent,
    List.append_nil]
  rfl

end ReconcileSettings

end Gatehouse
