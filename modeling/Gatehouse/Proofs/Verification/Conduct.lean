import Gatehouse.Proofs.Verification.Attempts
import Gatehouse.Proofs.Verification.Prompt
import Gatehouse.Verification.Pass

/-! One pass in a world, taken as a whole. A pass that cannot list the members only reports so;
any other classifies the members it lists, grants the pending role, takes one exit of the gate,
removes if that permits it, and reports.
-/

namespace Gatehouse

-------------------------------------------------------------------------------
-- Delivering a report
-------------------------------------------------------------------------------

namespace AuditSink

/-- A community after a sink has taken a report. -/
def receive (sink : AuditSink) (report : Report) (before : Community) : Community :=
  match sink with
  | file => before.fileReport report
  | journal => before
  | channel destination => (before.send destination (render report)).2

def exchanges (sink : AuditSink) (report : Report) (before : Community) : List Exchange :=
  match sink with
  | file | journal => []
  | channel destination =>
      [⟨.send destination (render report), (before.send destination (render report)).1⟩]

/-- A sink adds to the reports or the messages and changes nothing else. -/
theorem receive_eq (sink : AuditSink) (report : Report) (before : Community)
    : ∃ sequence posts reports,
        sink.receive report before
          = { before with sequence := sequence, posts := posts, reports := reports } := by
  cases sink with
  | file => exact ⟨_, _, _, rfl⟩
  | journal => exact ⟨_, _, _, rfl⟩
  | channel destination =>
      simp only [receive, Community.send]
      split
      · exact ⟨_, _, _, rfl⟩
      · exact ⟨_, _, _, rfl⟩

theorem logLines_course (now : Instant) (before : Community) (report : Report)
    (lines : List (List Char))
    : (logLines report lines).Course now before () before [] := by
  induction lines with
  | nil => exact .done
  | cons line rest ih => exact .after_log ih

/-- A sink takes a report by its calls, and the outcome may be a failed message. -/
theorem deliver_course (now : Instant) (before : Community) (sink : AuditSink) (report : Report)
    : ∃ outcome,
        (sink.deliver report).Course now before outcome (sink.receive report before)
          (sink.exchanges report before) := by
  have logged := logLines_course now before report (lines report.text.toList)
  cases sink with
  | file => exact ⟨_, .file report⟩
  | journal => exact ⟨_, logged.followed .done⟩
  | channel destination =>
      have sent := Program.Course.call now before (.send destination (render report))
      simp only [Community.answer] at sent
      simp only [receive, exchanges]
      cases answered : (before.send destination (render report)).1 with
      | ok post =>
          rw [answered] at sent
          exact ⟨.ok (), logged.bind (sent.bind (f := fun _ => _) .done)⟩
      | error failure =>
          rw [answered] at sent
          exact ⟨.error failure, logged.bind (sent.bind (f := fun _ => _) .done)⟩

end AuditSink

/-- A report of a pass reaches the sink; a failed delivery is at most noted. -/
theorem ReconcileSettings.emit_course (now : Instant) (before : Community) (sink : AuditSink)
    (text : String) (severity : Severity)
    : (emit sink text severity).Course now before ()
        (sink.receive ⟨PassReport.title, text, severity⟩ before)
        (sink.exchanges ⟨PassReport.title, text, severity⟩ before) := by
  obtain ⟨outcome, delivered⟩ :=
    sink.deliver_course now before ⟨PassReport.title, text, severity⟩
  cases outcome with
  | ok _ => exact delivered.followed .done
  | error failure => exact delivered.followed (.log _ _ _)

-------------------------------------------------------------------------------
-- Acting on the batches
-------------------------------------------------------------------------------

namespace Batch

/-- What a pass says of its warnings: nothing when the batch is empty, and otherwise what came
of the batch.
-/
def Told (batch : Batch) (failures : OrderedMap MemberId FailureCode) : Option Tally → Prop
  | none => batch.isEmpty = true
  | some tally => batch.isEmpty = false ∧ tally.Tells batch.members failures

/-- What a pass says of its removals: that there was nobody to remove when the batch is empty, and
otherwise that it was not authorized or what came of the batch.
-/
def Fared (batch : Batch) (failures : OrderedMap MemberId FailureCode)
    : RemovalOutcome → Prop
  | .noCandidates => batch.isEmpty = true
  | .notAuthorized requested _ => batch.isEmpty = false ∧ requested = batch.size
  | .executed _ tally => batch.isEmpty = false ∧ tally.Tells batch.members failures

theorem toList_of_isEmpty {batch : Batch} (empty : batch.isEmpty = true)
    : batch.members.toList = [] :=
  List.isEmpty_iff.mp empty

end Batch

namespace ReconcileSettings

/-- The calls that warn a batch, with the answers that injected failures give them. -/
def grants (settings : ReconcileSettings) (batch : Batch) (before : Community)
    : List Exchange :=
  batch.members.toList.map fun id =>
    ⟨.addRole id settings.policy.pendingRole (reason settings.policy.warningAfter.days),
      injected before.roleFailures (grantAttempt settings.policy.pendingRole) id⟩

/-- The calls that remove a batch, with the answers that injected failures give them. -/
def kicks (settings : ReconcileSettings) (batch : Batch) (before : Community)
    : List Exchange :=
  batch.members.toList.map fun id =>
    ⟨.kick id (reason settings.policy.removalAfter.days),
      injected before.kickFailures kickAttempt id⟩

/-- Warning a batch of members who are there grants the pending role to those for whom no failure is
injected.
-/
theorem warn_course (now : Instant) (before : Community) (settings : ReconcileSettings)
    (batch : Batch) (present : ∀ id ∈ batch.members, (before.member? id).isSome)
    : ∃ warning roster,
        (settings.warn batch).Course now before warning { before with members := roster }
          (settings.grants batch before)
        ∧ batch.Told before.roleFailures warning
        ∧ before.members.Granted roster settings.policy.pendingRole
            (unhindered before.roleFailures batch.members.toList) := by
  unfold warn grants
  cases empty : batch.isEmpty with
  | true =>
      rw [Batch.toList_of_isEmpty empty]
      exact ⟨none, before.members, .done, empty, Roster.granted_nil⟩
  | false =>
      obtain ⟨tally, roster, course, tells, granted⟩ := assignRole_course now before
        present settings.policy.pendingRole (reason settings.policy.warningAfter.days)
      exact ⟨some tally, roster, course.followed .done, ⟨empty, tells⟩, granted⟩

/-- How a removal batch fares: what is said of it, in what community it leaves and by what calls. -/
inductive Removal (settings : ReconcileSettings) (batch : Batch) (total : Nat) (now : Instant)
    (before : Community)
    : RemovalOutcome → Community → List Exchange → Prop
  /-- There is nobody to remove, and the gate is not asked. -/
  | nobody (empty : batch.isEmpty = true)
    : settings.Removal batch total now before .noCandidates before []
  /-- The gate cannot ask, and nobody is removed. -/
  | unposted {failure : CallFailure} {after : Community} {made : List Exchange}
    (due : batch.isEmpty = false)
    (passage
      : settings.gate.Passage batch.size total settings.policy.removalAfter.days now before
          (.error failure) after made)
    : settings.Removal batch total now before (.notAuthorized batch.size none) after made
  /-- The gate vetoes, and nobody is removed. -/
  | vetoed {decision : Decision} {after : Community} {made : List Exchange}
    (due : batch.isEmpty = false)
    (passage
      : settings.gate.Passage batch.size total settings.policy.removalAfter.days now before
          (.ok decision) after made)
    (vetoes : decision.permits = false)
    : settings.Removal batch total now before (.notAuthorized batch.size (some decision)) after
        made
  /-- The gate permits, and those for whom no failure is injected are removed. -/
  | executed {decision : Decision} {tally : Tally} {middle : Community} {roster : Roster}
    {made : List Exchange} (due : batch.isEmpty = false)
    (passage
      : settings.gate.Passage batch.size total settings.policy.removalAfter.days now before
          (.ok decision) middle made)
    (permits : decision.permits = true)
    (tells : tally.Tells batch.members before.kickFailures)
    (dismissed
      : before.members.Dismissed roster
          (unhindered before.kickFailures batch.members.toList))
    : settings.Removal batch total now before (.executed decision tally)
        { middle with
          members := roster
          kicked := before.kicked ++ unhindered before.kickFailures batch.members.toList }
        (made ++ settings.kicks batch before)

/-- What is said of a removal batch is so, however it fares. -/
theorem Removal.fared {settings : ReconcileSettings} {batch : Batch} {total : Nat}
    {now : Instant} {before after : Community} {outcome : RemovalOutcome}
    {made : List Exchange}
    (removal : settings.Removal batch total now before outcome after made)
    : batch.Fared before.kickFailures outcome := by
  cases removal with
  | nobody empty => exact empty
  | unposted due passage => exact ⟨due, rfl⟩
  | vetoed due passage vetoes => exact ⟨due, rfl⟩
  | executed due passage permits tells dismissed => exact ⟨due, tells⟩

/-- A removal batch of members who are there fares in one of these ways. Witness: the verdict of
the gate decides which one.
-/
theorem remove_course (now : Instant) (before : Community) (settings : ReconcileSettings)
    (batch : Batch) (total : Nat) (present : ∀ id ∈ batch.members, (before.member? id).isSome)
    : ∃ outcome after made,
        (settings.remove batch total).Course now before outcome after made
        ∧ settings.Removal batch total now before outcome after made := by
  unfold remove
  cases empty : batch.isEmpty with
  | true => exact ⟨_, _, _, .done, .nobody empty⟩
  | false =>
      obtain ⟨verdict, middle, made, passage⟩ :=
        settings.gate.authorize_passage batch.size total settings.policy.removalAfter.days now
          before
      cases verdict with
      | error failure =>
          exact ⟨_, _, _, passage.course.followed (.after_log .done), .unposted empty passage⟩
      | ok decision =>
          cases permits : decision.permits with
          | false =>
              refine ⟨_, _, _, passage.course.followed ?_, .vetoed empty passage permits⟩
              simp only [permits, Bool.not_false, if_true]
              exact .after_log .done
          | true =>
              obtain ⟨sequence, posts, scripted, awaits, hub, rfl⟩ := passage.exit.drifts
              obtain ⟨tally, roster, removed, tells, dismissed⟩ :=
                removeMembers_course now
                  { before with
                    sequence := sequence
                    posts := posts
                    scripted := scripted
                    awaits := awaits
                    hub := hub }
                  present (reason settings.policy.removalAfter.days)
              refine ⟨_, _, _, passage.course.bind ?_,
                .executed empty passage permits tells dismissed⟩
              simp only [permits, Bool.not_true, Bool.false_eq_true, if_false]
              exact removed.followed .done

-------------------------------------------------------------------------------
-- The whole pass
-------------------------------------------------------------------------------

/-- The report of a pass that could not list the members. -/
def skipReport (failure : CallFailure) : Report :=
  ⟨PassReport.title,
    "Skipped verification cycle: membership snapshot unavailable (" ++ failure.text ++ ").",
    .warning⟩

end ReconcileSettings

/-- The report of a pass as it is delivered. -/
def PassReport.filed (report : PassReport) : Report :=
  ⟨PassReport.title, report.text, report.severity⟩

/-- Of the members of a community those are due something whose record is. -/
theorem Community.mem_whoIsDue {community : Community} {policy : Policy} {now : Instant}
    {due : Due} {id : MemberId}
    : id ∈ policy.whoIsDue now community.memberList due
      ↔ ∃ record, community.member? id = some record ∧ policy.due now record = due := by
  rw [Policy.mem_whoIsDue]
  constructor
  · intro named
    obtain ⟨record, listed, isDue, rfl⟩ := named
    exact ⟨record, Roster.mem_toList.mp listed, isDue⟩
  · intro found
    obtain ⟨record, found, isDue⟩ := found
    have own : record.id = id := Roster.id_of_find? found
    subst own
    exact ⟨record, Roster.mem_toList.mpr found, isDue, rfl⟩

namespace ReconcileSettings

/-- How a pass over members that can be listed is conducted: it classifies them at its instant,
grants the pending role, and lets the removal batch fare as it does.
-/
structure Conduct (settings : ReconcileSettings) (now : Instant) (before : Community)
    (report : PassReport) (granted : Roster) (settled : Community) (removing : List Exchange)
    : Prop where
  startedAt : report.startedAt = now
  pendingRole : report.pendingRole = settings.policy.pendingRole
  classified : report.classification = settings.policy.classify now before.memberList
  warned : report.classification.needsWarning.Told before.roleFailures report.warning
  grants
    : before.members.Granted granted settings.policy.pendingRole
        (unhindered before.roleFailures
          report.classification.needsWarning.members.toList)
  removal
    : settings.Removal report.classification.needsRemoval before.memberList.length now
        { before with members := granted } report.removal settled removing

/-- A pass that cannot list the members only reports so. -/
theorem pass_unreadable {before : Community} {failure : CallFailure} (now : Instant)
    (settings : ReconcileSettings) (sink : AuditSink)
    (unreadable : before.listingFailure = some failure)
    : (settings.pass sink).Course now before (.error ⟨failure⟩)
        (sink.receive (skipReport failure) before)
        (⟨.listMembers, .error failure⟩ :: sink.exchanges (skipReport failure) before) := by
  have listed := Program.Course.call now before .listMembers
  simp only [Community.answer, Community.listing, unreadable] at listed
  have emitted := emit_course now before sink (skipReport failure).text .warning
  exact Program.Course.clock.bind
    (.after_log (listed.bind (.after_log (emitted.followed .done))))

/-- Acting on the members of a community is conducted and reported. Witness: every member of a
batch is there, so the attempts on the batches fail only as injected.
-/
theorem act_course (now : Instant) (before : Community) (settings : ReconcileSettings)
    (sink : AuditSink)
    : ∃ report granted settled removing,
        (settings.act sink now before.memberList).Course now before report
          (sink.receive report.filed settled)
          (settings.grants report.classification.needsWarning before
            ++ (removing ++ sink.exchanges report.filed settled))
        ∧ settings.Conduct now before report granted settled removing := by
  let due := settings.policy.classify now before.memberList
  have present {what : Due} {id : MemberId}
      (isDue : id ∈ settings.policy.whoIsDue now before.memberList what)
      : (before.member? id).isSome := by
    obtain ⟨record, found, -⟩ := Community.mem_whoIsDue.mp isDue
    exact Option.isSome_iff_exists.mpr ⟨record, found⟩
  obtain ⟨warning, granted, warned, told, grants⟩ :=
    settings.warn_course now before due.needsWarning fun _ => present
  obtain ⟨removal, settled, removing, removed, fared⟩ :=
    settings.remove_course now { before with members := granted } due.needsRemoval
      before.memberList.length fun id isDue =>
        (grants.isSome_find? id).trans (present isDue)
  let report : PassReport := ⟨now, due, warning, removal, settings.policy.pendingRole⟩
  have emitted := emit_course now settled sink report.text report.severity
  exact ⟨report, granted, settled, removing,
    .after_log (.after_log
      (warned.bind (removed.bind (emitted.followed (.after_log .done))))),
    rfl, rfl, rfl, told, grants, fared⟩

/-- A pass over members that can be listed lists them and acts on them. -/
theorem pass_readable {before : Community} (now : Instant) (settings : ReconcileSettings)
    (sink : AuditSink) (readable : before.listingFailure = none)
    : ∃ report granted settled removing,
        (settings.pass sink).Course now before (.ok report) (sink.receive report.filed settled)
          (⟨.listMembers, .ok before.memberList⟩
            :: (settings.grants report.classification.needsWarning before
              ++ (removing ++ sink.exchanges report.filed settled)))
        ∧ settings.Conduct now before report granted settled removing := by
  have listed := Program.Course.call now before .listMembers
  simp only [Community.answer, Community.listing, readable] at listed
  obtain ⟨report, granted, settled, removing, acted, conduct⟩ :=
    settings.act_course now before sink
  exact ⟨report, granted, settled, removing,
    Program.Course.clock.bind (.after_log (listed.bind (acted.followed .done))), conduct⟩

end ReconcileSettings

end Gatehouse
