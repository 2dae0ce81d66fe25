import Gatehouse.Proofs.Verification.Conduct

/-! Passes in a world. A round is a pass with the world that it begins in. Whatever the listing,
the gate and the injected failures do, the calls of a round that go well say exactly what became
of the members.
-/

namespace Gatehouse

-------------------------------------------------------------------------------
-- What calls did to members
-------------------------------------------------------------------------------

namespace Exchange

/-- The member whom a call has given a role. -/
def granted? : Exchange → Option MemberId
  | ⟨.addRole id _ _, .ok _⟩ => some id
  | _ => none

/-- The member whom a call has failed to give a role. -/
def refused? : Exchange → Option MemberId
  | ⟨.addRole id _ _, .error _⟩ => some id
  | _ => none

/-- The member whom a call has removed. -/
def removed? : Exchange → Option MemberId
  | ⟨.kick id _, .ok _⟩ => some id
  | _ => none

end Exchange

def grantedBy (made : List Exchange) : List MemberId := made.filterMap Exchange.granted?

def refusedBy (made : List Exchange) : List MemberId := made.filterMap Exchange.refused?

def removedBy (made : List Exchange) : List MemberId := made.filterMap Exchange.removed?

theorem grantedBy_append {made more : List Exchange}
    : grantedBy (made ++ more) = grantedBy made ++ grantedBy more :=
  List.filterMap_append

theorem refusedBy_append {made more : List Exchange}
    : refusedBy (made ++ more) = refusedBy made ++ refusedBy more :=
  List.filterMap_append

theorem removedBy_append {made more : List Exchange}
    : removedBy (made ++ more) = removedBy made ++ removedBy more :=
  List.filterMap_append

section Calls

variable {settings : ReconcileSettings} {batch : Batch} {before : Community}

/-- Members picked out when no failure is injected for them are the unhindered ones. -/
theorem filterMap_eq_unhindered {failures : OrderedMap MemberId FailureCode}
    {ids : List MemberId} {pick : MemberId → Option MemberId}
    (picks : ∀ id, pick id = if failures.find? id = none then some id else none)
    : ids.filterMap pick = unhindered failures ids := by
  have guarded : pick = Option.guard fun id => decide (failures.find? id = none) := by
    funext id
    simp only [picks, Option.guard, decide_eq_true_eq]
  rw [guarded, List.filterMap_eq_filter]
  rfl

/-- The grants of a batch that go well are those to unhindered members. -/
theorem grantedBy_grants
    : grantedBy (settings.grants batch before)
      = unhindered before.roleFailures batch.members.toList := by
  unfold grantedBy ReconcileSettings.grants
  rw [List.filterMap_map]
  refine filterMap_eq_unhindered fun id => ?_
  simp only [Function.comp_apply, injected]
  cases before.roleFailures.find? id <;> rfl

/-- The grants of a batch that fail are those to members for whom a failure is injected. -/
theorem mem_refusedBy_grants {id : MemberId}
    : id ∈ refusedBy (settings.grants batch before)
      ↔ id ∈ batch.members ∧ before.roleFailures.find? id ≠ none := by
  unfold refusedBy ReconcileSettings.grants
  rw [List.filterMap_map, List.mem_filterMap]
  simp only [Function.comp_apply, injected]
  constructor
  · intro picked
    obtain ⟨other, listed, refused⟩ := picked
    cases fails : before.roleFailures.find? other with
    | none =>
        rw [fails] at refused
        cases refused
    | some code =>
        rw [fails] at refused
        cases refused
        exact ⟨OrderedSet.mem_toList.mp listed, by simp [fails]⟩
  · intro hindered
    obtain ⟨member, fails⟩ := hindered
    obtain ⟨code, fails⟩ := Option.ne_none_iff_exists'.mp fails
    exact ⟨id, OrderedSet.mem_toList.mpr member, by rw [fails]; rfl⟩

/-- The removals of a batch that go well are those of unhindered members. -/
theorem removedBy_kicks
    : removedBy (settings.kicks batch before)
      = unhindered before.kickFailures batch.members.toList := by
  unfold removedBy ReconcileSettings.kicks
  rw [List.filterMap_map]
  refine filterMap_eq_unhindered fun id => ?_
  simp only [Function.comp_apply, injected]
  cases before.kickFailures.find? id <;> rfl

theorem removedBy_grants
    : removedBy (settings.grants batch before) = [] := by
  simp [removedBy, ReconcileSettings.grants, Exchange.removed?]

/-- Calls that neither change roles nor remove anyone. -/
structure Harmless (made : List Exchange) : Prop where
  granted : grantedBy made = []
  refused : refusedBy made = []
  removed : removedBy made = []

theorem kicks_grant_nothing
    : grantedBy (settings.kicks batch before) = []
      ∧ refusedBy (settings.kicks batch before) = [] := by
  simp [grantedBy, refusedBy, ReconcileSettings.kicks, Exchange.granted?, Exchange.refused?]

/-- The calls on the way through the gate are harmless. -/
theorem GateSettings.Exit.harmless {gate : GateSettings} {candidates total days : Nat}
    {after : Community} {verdict : Outcome Decision} {made : List Exchange}
    (exit : gate.Exit candidates total days before verdict after made)
    : Harmless made := by
  cases exit with
  | automatic small => exact ⟨rfl, rfl, rfl⟩
  | unposted large fails => exact ⟨rfl, rfl, rfl⟩
  | answered large sends heard => exact ⟨rfl, rfl, rfl⟩

/-- The calls that deliver a report are harmless. -/
theorem AuditSink.exchanges_harmless (sink : AuditSink) (report : Report) (before : Community)
    : Harmless (sink.exchanges report before) := by
  cases sink with
  | file => exact ⟨rfl, rfl, rfl⟩
  | journal => exact ⟨rfl, rfl, rfl⟩
  | channel destination => exact ⟨rfl, rfl, rfl⟩

end Calls

-------------------------------------------------------------------------------
-- What a conduct does to the members
-------------------------------------------------------------------------------

/-- The members of a batch who are let go by what is said of it. -/
def RemovalOutcome.released (batch : Batch) : RemovalOutcome → List MemberId
  | .executed .. => batch.members.toList
  | .noCandidates | .notAuthorized .. => []

/-- Those who are released are members of the batch, none of them twice. -/
theorem RemovalOutcome.released_sublist (outcome : RemovalOutcome) (batch : Batch)
    : (outcome.released batch).Sublist batch.members.toList := by
  cases outcome with
  | noCandidates | notAuthorized requested decision => exact List.nil_sublist _
  | executed decision tally => exact List.Sublist.refl _

/-- Members were removed from a community and kept as kicked, and nothing else has changed but
messages, kept reactions and the hub.
-/
def Community.Loses (before after : Community) (ids : List MemberId) : Prop :=
  ∃ roster,
    before.members.Dismissed roster ids
    ∧ { before with members := roster, kicked := before.kicked ++ ids }.DriftsTo after

theorem Community.DriftsTo.loses {before after : Community} (drifts : before.DriftsTo after)
    : before.Loses after [] := by
  refine ⟨before.members, Roster.dismissed_nil, ?_⟩
  rw [List.append_nil]
  exact drifts

/-- Of a removal batch those are lost who are released and unhindered, and the calls say so. -/
theorem ReconcileSettings.Removal.loses {settings : ReconcileSettings} {batch : Batch}
    {total : Nat} {now : Instant} {before after : Community} {outcome : RemovalOutcome}
    {made : List Exchange}
    (removal : settings.Removal batch total now before outcome after made)
    : grantedBy made = []
      ∧ refusedBy made = []
      ∧ removedBy made = unhindered before.kickFailures (outcome.released batch)
      ∧ before.Loses after (removedBy made) := by
  cases removal with
  | nobody empty => exact ⟨rfl, rfl, rfl, (Community.DriftsTo.refl before).loses⟩
  | unposted due passage | vetoed due passage vetoes =>
      have harmless := passage.exit.harmless
      exact ⟨harmless.granted, harmless.refused, harmless.removed,
        harmless.removed ▸ passage.exit.drifts.loses⟩
  | @executed decision tally middle roster asked due passage permits tells dismissed =>
      have harmless := passage.exit.harmless
      obtain ⟨ungranted, unrefused⟩ : _ ∧ refusedBy (settings.kicks batch before) = [] :=
        kicks_grant_nothing
      have all : removedBy (asked ++ settings.kicks batch before)
          = unhindered before.kickFailures batch.members.toList := by
        rw [removedBy_append, harmless.removed, removedBy_kicks, List.nil_append]
      obtain ⟨sequence, posts, scripted, awaits, hub, rfl⟩ := passage.exit.drifts
      refine ⟨?_, ?_, all, ?_⟩
      · rw [grantedBy_append, harmless.granted, ungranted, List.nil_append]
      · rw [refusedBy_append, harmless.refused, unrefused, List.nil_append]
      · rw [all]
        exact ⟨roster, dismissed, sequence, posts, scripted, awaits, hub, rfl⟩

-------------------------------------------------------------------------------
-- Rounds
-------------------------------------------------------------------------------

/-- A pass with the world that it begins in. -/
structure Round where
  settings : ReconcileSettings
  sink : AuditSink
  before : World

namespace Round

def program (round : Round) : Program (Except SnapshotUnavailable PassReport) :=
  round.settings.pass round.sink

def result (round : Round) : Except SnapshotUnavailable PassReport :=
  (round.program.run World.handle round.before).1

def after (round : Round) : World :=
  (round.program.run World.handle round.before).2

def exchanges (round : Round) : List Exchange := round.program.exchanges round.before

/-- The members whom the pass gives the pending role. -/
def granted (round : Round) : List MemberId := grantedBy round.exchanges

/-- The members whom the pass fails to give the pending role. -/
def refused (round : Round) : List MemberId := refusedBy round.exchanges

def removed (round : Round) : List MemberId := removedBy round.exchanges

/-- What a record says a member is due when the round begins. -/
def due (round : Round) (record : Member) : Due :=
  round.settings.policy.due round.before.clock record

/-- A member is there when the round begins, and its record says that this is due. -/
def IsDue (round : Round) (what : Due) (id : MemberId) : Prop :=
  ∃ record, round.before.community.member? id = some record ∧ round.due record = what

/-- Only one thing is due to a member, as it has one record. -/
theorem IsDue.unique {round : Round} {id : MemberId} {what other : Due}
    (first : round.IsDue what id) (second : round.IsDue other id)
    : what = other := by
  obtain ⟨record, found, isDue⟩ := first
  obtain ⟨same, again, alsoDue⟩ := second
  rw [found] at again
  cases again
  exact isDue.symm.trans alsoDue

/-- What a round changes: it grants the pending role to members who are due a warning and
removes members who are due removal, each at most once, and nothing else changes but messages,
kept reactions, the hub, reports and the journal.
-/
structure Change (round : Round) : Prop where
  warned : ∀ id ∈ round.granted, round.IsDue .warning id
  overdue : ∀ id ∈ round.removed, round.IsDue .removal id
  grantedOnce : round.granted.Nodup
  removedOnce : round.removed.Nodup
  members
    : ∀ id,
        round.after.community.member? id
          = if id ∈ round.removed then none
            else (round.before.community.member? id).map fun record =>
              if id ∈ round.granted then record.grant round.settings.policy.pendingRole
              else record
  frame
    : ∃ reports journal,
        { round.before.community with
            members := round.after.community.members
            kicked := round.before.community.kicked ++ round.removed
            reports := reports }.DriftsTo round.after.community
        ∧ round.after
          = { round.before with community := round.after.community, journal := journal }

/-- A round over members that can be listed is conducted as its report says. -/
structure Conducted (round : Round) (report : PassReport) (granted : Roster)
    (settled : Community) (removing : List Exchange)
    : Prop where
  result : round.result = .ok report
  conduct
    : round.settings.Conduct round.before.clock round.before.community report granted settled
        removing
  after
    : ∃ journal,
        round.after
          = { round.before with
              community := round.sink.receive report.filed settled
              journal := journal }
  exchanges
    : round.exchanges
      = ⟨.listMembers, .ok round.before.community.memberList⟩
        :: (round.settings.grants report.classification.needsWarning round.before.community
          ++ (removing ++ round.sink.exchanges report.filed settled))

/-- A round over members that can be listed is conducted. -/
theorem conducted (round : Round)
    (readable : round.before.community.listingFailure = none)
    : ∃ report granted settled removing,
        round.Conducted report granted settled removing := by
  obtain ⟨report, granted, settled, removing, course, conduct⟩ :=
    round.settings.pass_readable round.before.clock round.sink readable
  obtain ⟨result, after, exchanges⟩ := course.ran round.before
  exact ⟨report, granted, settled, removing, result, conduct, after, exchanges⟩

namespace Conducted

variable {round : Round} {report : PassReport} {granted : Roster} {settled : Community}
  {removing : List Exchange}

/-- Due a warning are the members whose records say so. -/
theorem mem_needsWarning (conducted : round.Conducted report granted settled removing)
    {id : MemberId}
    : id ∈ report.classification.needsWarning.members ↔ round.IsDue .warning id := by
  rw [conducted.conduct.classified]
  exact Community.mem_whoIsDue

/-- Due removal are the members whose records say so. -/
theorem mem_needsRemoval (conducted : round.Conducted report granted settled removing)
    {id : MemberId}
    : id ∈ report.classification.needsRemoval.members ↔ round.IsDue .removal id := by
  rw [conducted.conduct.classified]
  exact Community.mem_whoIsDue

/-- In a batch are the members whose records are due something. -/
theorem mem_batches (conducted : round.Conducted report granted settled removing)
    {id : MemberId}
    : id ∈ report.classification.needsWarning.members
        ∨ id ∈ report.classification.needsRemoval.members
      ↔ ∃ record,
          round.before.community.member? id = some record ∧ round.due record ≠ .nothing := by
  rw [conducted.mem_needsWarning, conducted.mem_needsRemoval]
  constructor
  · intro batched
    rcases batched with ⟨record, found, isDue⟩ | ⟨record, found, isDue⟩
    · exact ⟨record, found, by simp [isDue]⟩
    · exact ⟨record, found, by simp [isDue]⟩
  · intro isDue
    obtain ⟨record, found, something⟩ := isDue
    cases isDue : round.due record with
    | nothing => exact absurd isDue something
    | warning => exact .inl ⟨record, found, isDue⟩
    | removal => exact .inr ⟨record, found, isDue⟩

/-- What is picked from the calls of the round is picked from the grants, from what is done to
remove, and from the delivery of the report.
-/
theorem filterMap_exchanges {α : Type}
    (conducted : round.Conducted report granted settled removing) (pick : Exchange → Option α)
    (listing : ∀ answer, pick ⟨.listMembers, answer⟩ = none)
    : round.exchanges.filterMap pick
      = (round.settings.grants report.classification.needsWarning
            round.before.community).filterMap pick
        ++ (removing.filterMap pick
          ++ (round.sink.exchanges report.filed settled).filterMap pick) := by
  rw [conducted.exchanges, List.filterMap_cons_none (listing _), List.filterMap_append,
    List.filterMap_append]

/-- The round grants the pending role to the unhindered members who are due a warning. -/
theorem granted_eq (conducted : round.Conducted report granted settled removing)
    : round.granted
      = unhindered round.before.community.roleFailures
          report.classification.needsWarning.members.toList := by
  obtain ⟨nothing, -⟩ := conducted.conduct.removal.loses
  have picked : round.granted = grantedBy _ ++ (grantedBy _ ++ grantedBy _) :=
    conducted.filterMap_exchanges Exchange.granted? fun _ => rfl
  rw [picked, grantedBy_grants, nothing, (round.sink.exchanges_harmless _ _).granted,
    List.append_nil, List.append_nil]

/-- The round fails to grant the pending role to the members who are due a warning and for whom
a failure is injected.
-/
theorem mem_refused (conducted : round.Conducted report granted settled removing)
    {id : MemberId}
    : id ∈ round.refused
      ↔ id ∈ report.classification.needsWarning.members
        ∧ round.before.community.roleFailures.find? id ≠ none := by
  obtain ⟨-, nothing, -⟩ := conducted.conduct.removal.loses
  have picked : round.refused = refusedBy _ ++ (refusedBy _ ++ refusedBy _) :=
    conducted.filterMap_exchanges Exchange.refused? fun _ => rfl
  rw [picked, nothing, (round.sink.exchanges_harmless _ _).refused, List.append_nil,
    List.append_nil]
  exact mem_refusedBy_grants

/-- The round removes the unhindered members who are released. -/
theorem removed_eq (conducted : round.Conducted report granted settled removing)
    : round.removed = removedBy removing
      ∧ round.removed
        = unhindered round.before.community.kickFailures
            (report.removal.released report.classification.needsRemoval) := by
  obtain ⟨-, -, those, -⟩ := conducted.conduct.removal.loses
  have picked : round.removed = removedBy _ ++ (removedBy _ ++ removedBy _) :=
    conducted.filterMap_exchanges Exchange.removed? fun _ => rfl
  rw [removedBy_grants, (round.sink.exchanges_harmless _ _).removed, List.nil_append,
    List.append_nil] at picked
  exact ⟨picked, picked.trans those⟩

/-- A conducted round changes what its calls say. -/
theorem change (conducted : round.Conducted report granted settled removing)
    : round.Change := by
  obtain ⟨-, -, -, roster, dismissed, sequence, posts, scripted, awaits, hub, settles⟩ :=
    conducted.conduct.removal.loses
  obtain ⟨journal, after⟩ := conducted.after
  obtain ⟨same, released⟩ := conducted.removed_eq
  have grants := conducted.conduct.grants
  rw [← conducted.granted_eq] at grants
  rw [← same] at dismissed settles
  obtain ⟨sequence', posts', reports, received⟩ := round.sink.receive_eq report.filed settled
  rw [received, settles] at after
  have sublist := report.removal.released_sublist report.classification.needsRemoval
  refine ⟨fun id given => ?_, fun id gone => ?_, ?_, ?_, fun id => ?_, reports, journal, ?_⟩
  · rw [conducted.granted_eq, mem_unhindered] at given
    exact conducted.mem_needsWarning.mp given.1
  · rw [released, mem_unhindered] at gone
    exact conducted.mem_needsRemoval.mp (sublist.subset gone.1)
  · rw [conducted.granted_eq]
    exact (OrderedSet.nodup_toList _).filter _
  · rw [released]
    exact ((OrderedSet.nodup_toList _).sublist sublist).filter _
  · rw [after]
    exact (dismissed id).trans (by rw [grants id]; rfl)
  · rw [after]
    exact ⟨⟨_, _, _, _, _, rfl⟩, rfl⟩

end Conducted

/-- A round that cannot list the members only reports so. -/
theorem skipped (round : Round) {failure : CallFailure}
    (unreadable : round.before.community.listingFailure = some failure)
    : round.result = .error ⟨failure⟩
      ∧ (∃ journal,
          round.after
            = { round.before with
                community :=
                  round.sink.receive (ReconcileSettings.skipReport failure)
                    round.before.community
                journal := journal })
      ∧ round.exchanges
        = ⟨.listMembers, .error failure⟩
          :: round.sink.exchanges (ReconcileSettings.skipReport failure)
            round.before.community :=
  (round.settings.pass_unreadable round.before.clock round.sink unreadable).ran round.before

/-- The calls of a round that cannot list the members are harmless. -/
theorem skipped_harmless (round : Round) {failure : CallFailure}
    (unreadable : round.before.community.listingFailure = some failure)
    : Harmless round.exchanges := by
  obtain ⟨-, -, exchanges⟩ := round.skipped unreadable
  have reporting :=
    round.sink.exchanges_harmless (ReconcileSettings.skipReport failure)
      round.before.community
  rw [exchanges]
  exact ⟨reporting.granted, reporting.refused, reporting.removed⟩

/-- A round that returned a report was conducted as that report says. -/
theorem conducted_of_result {round : Round} {report : PassReport}
    (returned : round.result = .ok report)
    : ∃ granted settled removing, round.Conducted report granted settled removing := by
  cases readable : round.before.community.listingFailure with
  | none =>
      obtain ⟨other, granted, settled, removing, done⟩ := round.conducted readable
      have same := done.result
      rw [returned] at same
      cases same
      exact ⟨granted, settled, removing, done⟩
  | some failure =>
      obtain ⟨failed, -⟩ := round.skipped readable
      rw [returned] at failed
      cases failed

/-- Every round changes what its calls say. -/
theorem change (round : Round)
    : round.Change := by
  cases readable : round.before.community.listingFailure with
  | none =>
      obtain ⟨report, granted, settled, removing, conducted⟩ := round.conducted readable
      exact conducted.change
  | some failure =>
      obtain ⟨-, ⟨journal, after⟩, -⟩ := round.skipped readable
      obtain ⟨sequence, posts, reports, received⟩ :=
        round.sink.receive_eq (ReconcileSettings.skipReport failure) round.before.community
      have granted : round.granted = [] := (round.skipped_harmless readable).granted
      have removed : round.removed = [] := (round.skipped_harmless readable).removed
      rw [received] at after
      refine ⟨?_, ?_, ?_, ?_, fun id => ?_, reports, journal, ?_⟩
      · simp [granted]
      · simp [removed]
      · simp [granted]
      · simp [removed]
      · simp only [granted, removed, after, List.not_mem_nil, if_false, Option.map_id']
        rfl
      · rw [after, removed, List.append_nil]
        exact ⟨⟨_, _, _, _, _, rfl⟩, rfl⟩

/-- Removed are exactly the members who are gone afterwards. -/
theorem mem_removed {round : Round} {id : MemberId}
    : id ∈ round.removed
      ↔ ∃ record,
          round.before.community.member? id = some record
          ∧ round.after.community.member? id = none := by
  have after := round.change.members id
  constructor
  · intro gone
    obtain ⟨record, found, -⟩ := round.change.overdue id gone
    rw [if_pos gone] at after
    exact ⟨record, found, after⟩
  · intro lost
    obtain ⟨record, found, gone⟩ := lost
    refine Decidable.byContradiction fun stays => ?_
    rw [if_neg stays, found, gone] at after
    cases after

/-- Nobody is granted a role and removed by one round, for nobody is due both. -/
theorem not_removed_of_granted {round : Round} {id : MemberId} (given : id ∈ round.granted)
    : id ∉ round.removed := by
  intro gone
  cases (round.change.warned id given).unique (round.change.overdue id gone)

/-- Granted the pending role are exactly the members who hold it afterwards and did not before. -/
theorem mem_granted {round : Round} {id : MemberId}
    : id ∈ round.granted
      ↔ ∃ record later,
          round.before.community.member? id = some record
          ∧ record.holds round.settings.policy.pendingRole = false
          ∧ round.after.community.member? id = some later
          ∧ later.holds round.settings.policy.pendingRole = true := by
  have after := round.change.members id
  constructor
  · intro given
    obtain ⟨record, found, warned⟩ := round.change.warned id given
    rw [if_neg (not_removed_of_granted given), found, Option.map_some, if_pos given] at after
    exact ⟨record, _, found, Policy.not_holds_of_due_warning warned, after,
      Member.holds_grant.mpr (.inl rfl)⟩
  · intro anew
    obtain ⟨record, later, found, lacks, kept, holds⟩ := anew
    refine Decidable.byContradiction fun spared => ?_
    rw [kept, found, Option.map_some, if_neg spared] at after
    split at after
    · cases after
    · cases after
      rw [lacks] at holds
      cases holds

end Round

end Gatehouse
