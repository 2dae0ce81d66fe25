import Gatehouse.Proofs.Verification.Round

/-! The effect of a pass that puts its report on file. Over members that can be listed the
roster changes by the grants and removals that go well, and the report tells exactly that
change; over members that cannot, nothing changes but for one report.
-/

namespace Gatehouse

-------------------------------------------------------------------------------
-- Counting members
-------------------------------------------------------------------------------

/-- The members of a community with a property are as many as a list of their identifiers is long.
Witness: neither the listing nor that list names anyone twice.
-/
theorem Community.countP_memberList {community : Community} {ids : List MemberId}
    {has : Member → Bool} (nodup : ids.Nodup)
    (those
      : ∀ id, id ∈ ids ↔ ∃ record, community.member? id = some record ∧ has record = true)
    : community.memberList.countP has = ids.length := by
  have named : ((community.memberList.filter has).map Member.id).Nodup :=
    community.members.nodup_ids.sublist (List.filter_sublist.map _)
  have same : ∀ id, id ∈ (community.memberList.filter has).map Member.id ↔ id ∈ ids := by
    intro id
    rw [those id, List.mem_map]
    constructor
    · intro named
      obtain ⟨record, listed, rfl⟩ := named
      obtain ⟨listed, holds⟩ := List.mem_filter.mp listed
      exact ⟨record, Roster.mem_toList.mp listed, holds⟩
    · intro known
      obtain ⟨record, found, holds⟩ := known
      have own : record.id = id := Roster.id_of_find? found
      subst own
      exact ⟨record, List.mem_filter.mpr ⟨Roster.mem_toList.mpr found, holds⟩, rfl⟩
  rw [List.countP_eq_length_filter, ← List.length_map Member.id]
  exact ((List.perm_ext_iff_of_nodup named nodup).mpr same).length_eq

-------------------------------------------------------------------------------
-- The verdict and what is said of the removal batch
-------------------------------------------------------------------------------

/-- What is said of a removal batch follows the verdict of the gate: nothing of an empty batch,
a refusal when the gate cannot ask or vetoes, and otherwise what came of the removals.
-/
def RemovalOutcome.Follows (outcome : RemovalOutcome) (batch : Batch)
    (failures : OrderedMap MemberId FailureCode) (verdict : Outcome Decision) : Prop :=
  if batch.isEmpty then outcome = .noCandidates
  else match verdict with
    | .error _ => outcome = .notAuthorized batch.size none
    | .ok decision =>
        if decision.permits then
          ∃ tally, outcome = .executed decision tally ∧ tally.Tells batch.members failures
        else outcome = .notAuthorized batch.size (some decision)

namespace Round

/-- The verdict of the gate on a batch, once a roster stands. -/
def verdict (round : Round) (batch : Batch) (roster : Roster) : Outcome Decision :=
  ((round.settings.gate.authorize batch.size round.before.community.memberList.length
      round.settings.policy.removalAfter.days).run World.handle
    { round.before with
        community := { round.before.community with members := roster } }).1

/-- What is said of a removal batch follows the verdict that the gate gives after the grants. -/
theorem follows_verdict {round : Round} {batch : Batch} {roster : Roster}
    {outcome : RemovalOutcome} {after : Community} {made : List Exchange}
    (removal
      : round.settings.Removal batch round.before.community.memberList.length
          round.before.clock { round.before.community with members := roster } outcome after
          made)
    : outcome.Follows batch round.before.community.kickFailures
        (round.verdict batch roster) := by
  have given {verdict : Outcome Decision} {after : Community} {made : List Exchange}
      (passage
        : round.settings.gate.Passage batch.size round.before.community.memberList.length
            round.settings.policy.removalAfter.days round.before.clock
            { round.before.community with members := roster } verdict after made)
      : round.verdict batch roster = verdict :=
    (passage.course.ran
      { round.before with
        community := { round.before.community with members := roster } }).1
  unfold RemovalOutcome.Follows
  cases removal with
  | nobody empty => rw [if_pos empty]
  | unposted due passage =>
      rw [given passage, due]
      rfl
  | vetoed due passage vetoes =>
      rw [given passage, due]
      simp [vetoes]
  | executed due passage permits tells dismissed =>
      rw [given passage, due]
      simpa [permits] using tells

-------------------------------------------------------------------------------
-- The effect
-------------------------------------------------------------------------------

/-- The effect of a pass that files its report over members that can be listed, and the truth of
that report.
-/
structure Effect (round : Round) (report : PassReport) : Prop where
  classified
    : report.classification
      = round.settings.policy.classify round.before.clock round.before.community.memberList
  /-- The unhindered members of the removal batch are gone if the removal was executed, those of the
  warning batch hold the pending role as well, and no other record has changed. -/
  members
    : ∀ id,
        round.after.community.member? id
          = if id ∈ unhindered round.before.community.kickFailures
                (report.removal.released report.classification.needsRemoval) then none
            else (round.before.community.member? id).map fun record =>
              if id ∈ unhindered round.before.community.roleFailures
                  report.classification.needsWarning.members.toList then
                record.grant round.settings.policy.pendingRole
              else record
  kicked
    : round.after.community.kicked
      = round.before.community.kicked
        ++ unhindered round.before.community.kickFailures
          (report.removal.released report.classification.needsRemoval)
  ascending
    : Ascending
        (unhindered round.before.community.kickFailures
          (report.removal.released report.classification.needsRemoval))
  reports
    : round.after.community.reports = round.before.community.reports ++ [report.filed]
  frame
    : { round.before.community with
          members := round.after.community.members
          kicked := round.after.community.kicked
          reports := round.after.community.reports }.DriftsTo round.after.community
  world
    : ∃ journal,
        round.after
          = { round.before with community := round.after.community, journal := journal }
  warned
    : report.classification.needsWarning.Told round.before.community.roleFailures
        report.warning
  warnedCount
    : ∀ tally,
        report.warning = some tally
        → tally.succeeded
          = round.before.community.memberList.countP fun record =>
            !record.holds round.settings.policy.pendingRole
              && (round.after.community.member? record.id).any
                (·.holds round.settings.policy.pendingRole)
  gate
    : ∃ roster,
        round.before.community.members.Granted roster round.settings.policy.pendingRole
          (unhindered round.before.community.roleFailures
            report.classification.needsWarning.members.toList)
        ∧ report.removal.Follows report.classification.needsRemoval
          round.before.community.kickFailures
          (round.verdict report.classification.needsRemoval roster)
  removedCount
    : ∀ decision tally,
        report.removal = .executed decision tally
        → tally.succeeded
          = round.before.community.memberList.countP fun record =>
            (round.after.community.member? record.id).isNone
  severity
    : report.severity = .info
      ↔ (∀ id ∈ report.classification.needsWarning.members,
            ∃ record,
              round.after.community.member? id = some record
              ∧ record.holds round.settings.policy.pendingRole = true)
        ∧ ∀ id ∈ report.classification.needsRemoval.members,
          round.after.community.member? id = none

/-- As many members hold the pending role anew as the round has granted it to. -/
theorem countP_granted (round : Round)
    : (round.before.community.memberList.countP fun record =>
        !record.holds round.settings.policy.pendingRole
          && (round.after.community.member? record.id).any
            (·.holds round.settings.policy.pendingRole))
      = round.granted.length := by
  refine Community.countP_memberList round.change.grantedOnce fun id => ?_
  rw [mem_granted]
  constructor
  · intro given
    obtain ⟨record, later, found, lacks, kept, holds⟩ := given
    have own : record.id = id := Roster.id_of_find? found
    exact ⟨record, found, by rw [own, kept, lacks]; exact holds⟩
  · intro counted
    obtain ⟨record, found, anew⟩ := counted
    have own : record.id = id := Roster.id_of_find? found
    obtain ⟨lacks, holds⟩ := Bool.and_eq_true_iff.mp anew
    rw [own] at holds
    cases kept : round.after.community.member? id with
    | none =>
        rw [kept] at holds
        cases holds
    | some later =>
        rw [kept] at holds
        exact ⟨record, later, found, (Bool.not_eq_true' _).mp lacks, rfl, holds⟩

/-- As many members are gone as the round has removed. -/
theorem countP_removed (round : Round)
    : (round.before.community.memberList.countP fun record =>
        (round.after.community.member? record.id).isNone)
      = round.removed.length := by
  refine Community.countP_memberList round.change.removedOnce fun id => ?_
  rw [mem_removed]
  constructor
  · intro removed
    obtain ⟨record, found, gone⟩ := removed
    have own : record.id = id := Roster.id_of_find? found
    exact ⟨record, found, by rw [own, gone]; rfl⟩
  · intro counted
    obtain ⟨record, found, gone⟩ := counted
    have own : record.id = id := Roster.id_of_find? found
    rw [own] at gone
    exact ⟨record, found, Option.isNone_iff_eq_none.mp gone⟩

/-- A report is no warning exactly when no warning failed and no removal was refused or failed. -/
theorem severity_eq_info_iff {report : PassReport}
    : report.severity = .info
      ↔ (∀ tally, report.warning = some tally → tally.failed = 0)
        ∧ (∀ requested decision, report.removal ≠ .notAuthorized requested decision)
        ∧ ∀ decision tally, report.removal = .executed decision tally → tally.failed = 0 := by
  unfold PassReport.severity
  cases report.warning with
  | none =>
      cases report.removal with
      | noCandidates => simp
      | notAuthorized requested decision => simp
      | executed decision tally => simp
  | some warned =>
      cases report.removal with
      | noCandidates => simp
      | notAuthorized requested decision => simp
      | executed decision tally => simp

namespace Conducted

variable {round : Round} {report : PassReport} {granted : Roster} {settled : Community}
  {removing : List Exchange}

/-- Someone who was due a warning holds the pending role afterwards exactly when no failure was
injected for it.
-/
theorem holds_pending_iff (conducted : round.Conducted report granted settled removing)
    {id : MemberId} (isDue : id ∈ report.classification.needsWarning.members)
    : (∃ record,
          round.after.community.member? id = some record
          ∧ record.holds round.settings.policy.pendingRole = true)
      ↔ round.before.community.roleFailures.find? id = none := by
  obtain ⟨record, found, warned⟩ := conducted.mem_needsWarning.mp isDue
  have given : id ∈ round.granted
      ↔ round.before.community.roleFailures.find? id = none := by
    rw [conducted.granted_eq, mem_unhindered, OrderedSet.mem_toList]
    exact and_iff_right isDue
  rw [← given, Round.mem_granted]
  constructor
  · intro kept
    obtain ⟨later, kept, holds⟩ := kept
    exact ⟨record, later, found, Policy.not_holds_of_due_warning warned, kept, holds⟩
  · intro given
    obtain ⟨_, later, -, -, kept, holds⟩ := given
    exact ⟨later, kept, holds⟩

/-- The warnings went without failure exactly when everyone who was due one holds the pending
role.
-/
theorem warnings_fine_iff (conducted : round.Conducted report granted settled removing)
    : (∀ tally, report.warning = some tally → tally.failed = 0)
      ↔ ∀ id ∈ report.classification.needsWarning.members,
          ∃ record,
            round.after.community.member? id = some record
            ∧ record.holds round.settings.policy.pendingRole = true := by
  have fine
      : (∀ tally, report.warning = some tally → tally.failed = 0)
        ↔ ∀ id ∈ report.classification.needsWarning.members,
            round.before.community.roleFailures.find? id = none := by
    have told := conducted.conduct.warned
    cases warning : report.warning with
    | none =>
        rw [warning] at told
        have nobody := OrderedSet.isEmpty_iff.mp told
        exact ⟨fun _ id isDue => absurd isDue (nobody id), fun _ _ none => nomatch none⟩
    | some tally =>
        rw [warning] at told
        rw [← told.2.failed_eq_zero_iff]
        exact ⟨fun all => all tally rfl, fun zero _ same => Option.some.inj same ▸ zero⟩
  rw [fine]
  exact forall_congr' fun id =>
    forall_congr' fun isDue => (conducted.holds_pending_iff isDue).symm

/-- The removals were executed without failure exactly when everyone who was due removal is gone. -/
theorem removals_fine_iff (conducted : round.Conducted report granted settled removing)
    : ((∀ requested decision, report.removal ≠ .notAuthorized requested decision)
        ∧ ∀ decision tally, report.removal = .executed decision tally → tally.failed = 0)
      ↔ ∀ id ∈ report.classification.needsRemoval.members,
          round.after.community.member? id = none := by
  have fared := conducted.conduct.removal.fared
  have gone {id : MemberId} (isDue : id ∈ report.classification.needsRemoval.members)
      : round.after.community.member? id = none ↔ id ∈ round.removed := by
    obtain ⟨record, found, -⟩ := conducted.mem_needsRemoval.mp isDue
    rw [Round.mem_removed]
    exact ⟨fun gone => ⟨record, found, gone⟩, fun ⟨_, _, gone⟩ => gone⟩
  have removed := conducted.removed_eq.2
  cases outcome : report.removal with
  | noCandidates =>
      rw [outcome] at fared
      have nobody := OrderedSet.isEmpty_iff.mp fared
      exact ⟨fun _ id isDue => absurd isDue (nobody id), fun _ => ⟨nofun, nofun⟩⟩
  | notAuthorized requested decision =>
      -- Somebody was due removal and is still there.
      rw [outcome] at fared removed
      obtain ⟨id, isDue⟩ := OrderedSet.exists_mem_of_isEmpty_eq_false fared.1
      refine ⟨fun fine => absurd rfl (fine.1 requested decision), fun all => ?_⟩
      have removedThat := (gone isDue).mp (all id isDue)
      rw [removed] at removedThat
      cases removedThat
  | executed decision tally =>
      rw [outcome] at fared removed
      have unhindered : tally.failed = 0
          ↔ ∀ id ∈ report.classification.needsRemoval.members, id ∈ round.removed := by
        rw [fared.2.failed_eq_zero_iff, removed]
        refine forall_congr' fun id => forall_congr' fun isDue => ?_
        rw [mem_unhindered]
        exact (and_iff_right isDue).symm
      constructor
      · intro fine id isDue
        obtain ⟨-, fine⟩ := fine
        exact (gone isDue).mpr (unhindered.mp (fine decision tally rfl) id isDue)
      · refine fun all => ⟨nofun, fun _ _ same => ?_⟩
        cases same
        exact unhindered.mpr fun id isDue => (gone isDue).mp (all id isDue)

/-- A round that is conducted and files its report has that effect. -/
theorem effect (conducted : round.Conducted report granted settled removing)
    (files : round.sink = .file)
    : round.Effect report := by
  obtain ⟨-, -, -, roster, dismissed, drifts⟩ := conducted.conduct.removal.loses
  obtain ⟨same, released⟩ := conducted.removed_eq
  obtain ⟨journal, after⟩ := conducted.after
  rw [files] at after
  rw [← same, released] at drifts
  obtain ⟨sequence, posts, scripted, awaits, hub, settles⟩ := drifts
  rw [settles] at after
  refine
    { classified := conducted.conduct.classified
      members := fun id => ?_
      kicked := by rw [after]; rfl
      ascending := ?_
      reports := by rw [after]; rfl
      frame := by rw [after]; exact ⟨_, _, _, _, _, rfl⟩
      world := ⟨journal, by rw [after]⟩
      warned := conducted.conduct.warned
      warnedCount := fun tally warning => ?_
      gate := ⟨granted, conducted.conduct.grants, follows_verdict conducted.conduct.removal⟩
      removedCount := fun decision tally outcome => ?_
      severity := ?_ }
  · rw [← released, ← conducted.granted_eq]
    exact round.change.members id
  · have sublist := report.removal.released_sublist report.classification.needsRemoval
    exact (OrderedSet.ascending _).sublist (List.filter_sublist.trans sublist)
  · have told := conducted.conduct.warned
    rw [warning] at told
    rw [countP_granted, conducted.granted_eq, told.2.succeeded,
      List.countP_eq_length_filter]
    rfl
  · have fared := conducted.conduct.removal.fared
    rw [outcome] at fared released
    rw [countP_removed, released, fared.2.succeeded, List.countP_eq_length_filter]
    rfl
  · rw [severity_eq_info_iff, conducted.warnings_fine_iff, conducted.removals_fine_iff]

end Conducted

/-- A pass that files its report. Where the members cannot be listed, it fails and only reports so;
otherwise it returns its report and has the effect that the report tells.
-/
theorem pass_effect (settings : ReconcileSettings) (before : World)
    : let round : Round := ⟨settings, .file, before⟩
      match before.community.listingFailure with
      | some failure =>
          round.result = .error ⟨failure⟩
          ∧ ∃ journal,
              round.after
                = { before with
                    community :=
                      before.community.fileReport (ReconcileSettings.skipReport failure)
                    journal := journal }
      | none => ∃ report, round.result = .ok report ∧ round.Effect report := by
  intro round
  split
  · next failure unreadable =>
    obtain ⟨result, after, -⟩ := round.skipped unreadable
    exact ⟨result, after⟩
  · next readable =>
    obtain ⟨report, granted, settled, removing, conducted⟩ := round.conducted readable
    exact ⟨report, conducted.result, conducted.effect rfl⟩

end Round

end Gatehouse
