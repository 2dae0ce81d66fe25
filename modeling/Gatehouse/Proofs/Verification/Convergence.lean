import Gatehouse.Proofs.Verification.Round

/-! Passes in turn with nothing between them. A second pass at the same time takes up just what
the first has left undone. Over any passes, at whatever times, nobody is given the pending role
twice and nobody is removed twice.
-/

namespace Gatehouse

-------------------------------------------------------------------------------
-- A second pass at the same time
-------------------------------------------------------------------------------

namespace Round

/-- The pass that follows at once in the world that a round leaves. -/
def next (round : Round) : Round := ⟨round.settings, round.sink, round.after⟩

/-- No time passes between a round and the next. -/
theorem clock_next (round : Round)
    : round.next.before.clock = round.before.clock := by
  obtain ⟨reports, journal, -, world⟩ := round.change.frame
  have same := congrArg World.clock world
  exact same

/-- A round changes neither what fails nor whether the members can be listed. -/
theorem failures_next (round : Round)
    : round.next.before.community.listingFailure = round.before.community.listingFailure
      ∧ round.next.before.community.roleFailures = round.before.community.roleFailures
      ∧ round.next.before.community.kickFailures = round.before.community.kickFailures := by
  obtain ⟨reports, journal, ⟨sequence, posts, scripted, awaits, hub, drifts⟩, -⟩ :=
    round.change.frame
  have after : round.next.before.community = _ := drifts
  rw [after]
  exact ⟨rfl, rfl, rfl⟩

/-- The next round at the same time finds due what the round found due and did not do. Witness: the
pending role settles a warning and leaves a removal due.
-/
theorem isDue_next (round : Round) (what : Due) (something : what ≠ .nothing) (id : MemberId)
    : round.next.IsDue what id
      ↔ id ∉ round.granted ∧ id ∉ round.removed ∧ round.IsDue what id := by
  have after : round.next.before.community.member? id = _ := round.change.members id
  have same (record : Member) : round.next.due record = round.due record := by
    unfold due
    rw [round.clock_next]
    rfl
  simp only [IsDue, same]
  by_cases gone : id ∈ round.removed
  · rw [after, if_pos gone]
    exact ⟨fun ⟨_, found, _⟩ => (nomatch found), fun ⟨_, stays, _⟩ => absurd gone stays⟩
  · rw [if_neg gone] at after
    by_cases given : id ∈ round.granted
    · obtain ⟨record, found, warned⟩ := round.change.warned id given
      rw [found, Option.map_some, if_pos given] at after
      constructor
      · intro again
        obtain ⟨later, kept, isDue⟩ := again
        rw [after] at kept
        cases kept
        -- Who holds the pending role and is not overdue is due nothing.
        unfold due at isDue warned
        rw [Policy.due_grant_pending, if_pos warned] at isDue
        exact absurd isDue.symm something
      · intro undone
        obtain ⟨spared, -⟩ := undone
        exact absurd given spared
    · simp only [if_neg given, Option.map_id'] at after
      rw [after]
      exact ⟨fun isDue => ⟨given, gone, isDue⟩, fun ⟨_, _, isDue⟩ => isDue⟩

/-- What the next pass at the same time takes up again: the warnings that failed, and the
removals that were not made, which are all of them unless removals were executed.
-/
structure Retries (round : Round) (first second : PassReport) : Prop where
  sameTime : second.startedAt = first.startedAt
  warnings
    : ∀ id,
        id ∈ second.classification.needsWarning.members
          ↔ id ∈ first.classification.needsWarning.members ∧ id ∈ round.refused
  removals
    : ∀ id,
        id ∈ second.classification.needsRemoval.members
          ↔ id ∈ first.classification.needsRemoval.members ∧ id ∉ round.removed
  stopped
    : (∀ decision tally, first.removal ≠ .executed decision tally)
      → second.classification.needsRemoval = first.classification.needsRemoval
  /-- Without injected failures, and with the removal permitted or nobody to remove, nothing is
  left to take up.
  -/
  settles
    : (∀ id, round.before.community.roleFailures.find? id = none)
      → (∀ id, round.before.community.kickFailures.find? id = none)
      → (∀ requested decision, first.removal ≠ .notAuthorized requested decision)
      → second.isQuiet = true
        ∧ round.next.after.community.members = round.after.community.members

section Conducted

variable {round : Round} {first : PassReport} {granted : Roster} {settled : Community}
  {removing : List Exchange}

/-- Of those due a warning, the round refuses the ones to whom it does not grant the pending
role.
-/
theorem Conducted.refused_iff (conducted : round.Conducted first granted settled removing)
    {id : MemberId} (isDue : id ∈ first.classification.needsWarning.members)
    : id ∈ round.refused ↔ id ∉ round.granted := by
  rw [conducted.mem_refused, conducted.granted_eq, mem_unhindered, OrderedSet.mem_toList,
    and_iff_right isDue, and_iff_right isDue]

/-- Without injected failures, when removals are executed or there is nobody to remove, everyone due
removal is removed.
-/
theorem Conducted.all_removed (conducted : round.Conducted first granted settled removing)
    (unhindering : ∀ id, round.before.community.kickFailures.find? id = none)
    (permitted : ∀ requested decision, first.removal ≠ .notAuthorized requested decision)
    {id : MemberId} (isDue : id ∈ first.classification.needsRemoval.members)
    : id ∈ round.removed := by
  have fared := conducted.conduct.removal.fared
  rw [conducted.removed_eq.2, mem_unhindered]
  refine ⟨?_, unhindering id⟩
  cases outcome : first.removal with
  | noCandidates =>
      rw [outcome] at fared
      exact absurd isDue (OrderedSet.isEmpty_iff.mp fared id)
  | notAuthorized requested decision => exact absurd outcome (permitted requested decision)
  | executed decision tally => exact isDue

end Conducted

/-- The pass that follows at once retries. Witness: the next round finds due what this one has
not done, and what it has not done the calls say.
-/
theorem retries {round : Round} (readable : round.before.community.listingFailure = none)
    : ∃ first second,
        round.result = .ok first
        ∧ round.next.result = .ok second
        ∧ round.Retries first second := by
  obtain ⟨first, granted, settled, removing, done⟩ := round.conducted readable
  obtain ⟨listing, roleFailures, kickFailures⟩ := round.failures_next
  obtain ⟨second, granted', settled', removing', then'⟩ :=
    round.next.conducted (listing.trans readable)
  have warnings (id : MemberId)
      : id ∈ second.classification.needsWarning.members
        ↔ id ∈ first.classification.needsWarning.members ∧ id ∈ round.refused := by
    rw [then'.mem_needsWarning, round.isDue_next .warning nofun id, ← done.mem_needsWarning]
    constructor
    · intro undone
      obtain ⟨spared, -, isDue⟩ := undone
      exact ⟨isDue, (done.refused_iff isDue).mpr spared⟩
    · intro failed
      obtain ⟨isDue, refused⟩ := failed
      refine ⟨(done.refused_iff isDue).mp refused, ?_, isDue⟩
      -- Removed were members who are due removal, and this one is due a warning.
      intro gone
      cases (done.mem_needsWarning.mp isDue).unique (round.change.overdue id gone)
  have removals (id : MemberId)
      : id ∈ second.classification.needsRemoval.members
        ↔ id ∈ first.classification.needsRemoval.members ∧ id ∉ round.removed := by
    rw [then'.mem_needsRemoval, round.isDue_next .removal nofun id, ← done.mem_needsRemoval]
    constructor
    · intro undone
      obtain ⟨-, stays, isDue⟩ := undone
      exact ⟨isDue, stays⟩
    · intro waits
      obtain ⟨isDue, stays⟩ := waits
      refine ⟨?_, stays, isDue⟩
      intro given
      cases (done.mem_needsRemoval.mp isDue).unique (round.change.warned id given)
  refine ⟨first, second, done.result, then'.result, ?_, warnings, removals, ?_, ?_⟩
  · rw [then'.conduct.startedAt, done.conduct.startedAt, round.clock_next]
  · intro stopped
    have nobody : round.removed = [] := by
      rw [done.removed_eq.2]
      cases outcome : first.removal with
      | noCandidates | notAuthorized requested decision => rfl
      | executed decision tally => exact absurd outcome (stopped decision tally)
    have same : second.classification.needsRemoval.members
        = first.classification.needsRemoval.members :=
      OrderedSet.ext fun id => by simp [removals, nobody]
    rw [done.conduct.classified, then'.conduct.classified] at same ⊢
    exact congrArg (Batch.mk .remove) same
  · intro roles kicks permitted
    have noWarnings (id : MemberId)
        : id ∉ second.classification.needsWarning.members := by
      intro again
      exact (done.mem_refused.mp ((warnings id).mp again).2).2 (roles id)
    have noRemovals (id : MemberId)
        : id ∉ second.classification.needsRemoval.members := by
      intro again
      obtain ⟨isDue, stays⟩ := (removals id).mp again
      exact stays (done.all_removed kicks permitted isDue)
    constructor
    · exact Bool.and_eq_true_iff.mpr
        ⟨OrderedSet.isEmpty_iff.mpr noWarnings, OrderedSet.isEmpty_iff.mpr noRemovals⟩
    · refine Roster.ext fun id => (round.next.change.members id).trans ?_
      have spared : id ∉ round.next.granted := fun given =>
        noWarnings id (then'.mem_needsWarning.mpr (round.next.change.warned id given))
      have stays : id ∉ round.next.removed := fun gone =>
        noRemovals id (then'.mem_needsRemoval.mpr (round.next.change.overdue id gone))
      simp only [if_neg stays, if_neg spared, Option.map_id']
      rfl

end Round

-------------------------------------------------------------------------------
-- Any passes in turn
-------------------------------------------------------------------------------

namespace ReconcileSettings

/-- Passes in turn from a world, each begun at its instant in the world that the one before
leaves.
-/
def rounds (settings : ReconcileSettings) (sink : AuditSink) (world : World)
    : List Instant → List Round
  | [] => []
  | at_ :: later =>
      let round : Round := ⟨settings, sink, { world with clock := at_ }⟩
      round :: settings.rounds sink round.after later

/-- What passes have done stands in a community: nobody was given the pending role twice and
everyone who was given it holds it as long as it is there; nobody was removed twice and nobody
who was is there.
-/
structure Settled (settings : ReconcileSettings) (community : Community)
    (given gone : List MemberId)
    : Prop where
  givenOnce : given.Nodup
  goneOnce : gone.Nodup
  holds
    : ∀ id ∈ given, ∀ record,
        community.member? id = some record
        → record.holds settings.policy.pendingRole = true
  absent : ∀ id ∈ gone, community.member? id = none

theorem Settled.start (settings : ReconcileSettings) (community : Community)
    : settings.Settled community [] [] :=
  ⟨.nil, .nil, nofun, nofun⟩

/-- What a round does stands with what was done before. Witness: whoever was given the pending
role holds it and whoever was removed is not there, so the round does neither to them again.
-/
theorem Settled.step {round : Round} {given gone : List MemberId}
    (settled : round.settings.Settled round.before.community given gone)
    : round.settings.Settled round.after.community (given ++ round.granted)
        (gone ++ round.removed) := by
  constructor
  · refine List.nodup_append.mpr ⟨settled.givenOnce, round.change.grantedOnce, ?_⟩
    intro id earlier other again same
    subst same
    obtain ⟨record, later, found, lacks, -⟩ := Round.mem_granted.mp again
    rw [settled.holds id earlier record found] at lacks
    cases lacks
  · refine List.nodup_append.mpr ⟨settled.goneOnce, round.change.removedOnce, ?_⟩
    intro id earlier other again same
    subst same
    obtain ⟨record, found, -⟩ := Round.mem_removed.mp again
    rw [settled.absent id earlier] at found
    cases found
  · intro id member later kept
    rcases List.mem_append.mp member with earlier | now
    · -- A round takes no role away, so the pending role has stayed.
      rw [round.change.members id] at kept
      split at kept
      · cases kept
      · obtain ⟨record, found, rfl⟩ := Option.map_eq_some_iff.mp kept
        have holds := settled.holds id earlier record found
        split
        · exact Member.holds_grant.mpr (.inr holds)
        · exact holds
    · obtain ⟨record, same, -, -, found, holds⟩ := Round.mem_granted.mp now
      rw [kept] at found
      cases found
      exact holds
  · intro id member
    rcases List.mem_append.mp member with earlier | now
    · rw [round.change.members id, settled.absent id earlier]
      split <;> rfl
    · exact (Round.mem_removed.mp now).choose_spec.2

/-- What passes in turn do stands with what was done before, by induction over the passes. -/
theorem Settled.run {settings : ReconcileSettings} {world : World}
    {given gone : List MemberId} (settled : settings.Settled world.community given gone)
    (sink : AuditSink) (instants : List Instant)
    : (given ++ (settings.rounds sink world instants).flatMap Round.granted).Nodup
      ∧ (gone ++ (settings.rounds sink world instants).flatMap Round.removed).Nodup := by
  induction instants generalizing world given gone with
  | nil => simpa [rounds] using ⟨settled.givenOnce, settled.goneOnce⟩
  | cons at_ later ih =>
      let round : Round := ⟨settings, sink, { world with clock := at_ }⟩
      have before : round.settings.Settled round.before.community given gone := settled
      have rest := ih before.step
      simpa only [rounds, List.flatMap_cons, List.append_assoc] using rest

end ReconcileSettings

/-- How passes converge in a world: the second of two at one time takes up what the first has
left undone, and over any passes nobody is given the pending role twice and nobody is removed
twice.
-/
structure ReconcileSettings.Converges (settings : ReconcileSettings) (sink : AuditSink)
    (world : World)
    : Prop where
  retries
    : let round : Round := ⟨settings, sink, world⟩
      ∃ first second,
        round.result = .ok first
        ∧ round.next.result = .ok second
        ∧ round.Retries first second
  once
    : ∀ instants,
        ((settings.rounds sink world instants).flatMap Round.granted).Nodup
        ∧ ((settings.rounds sink world instants).flatMap Round.removed).Nodup

/-- Passes converge in every world in which the members can be listed. -/
theorem ReconcileSettings.passes_converge {world : World} (settings : ReconcileSettings)
    (sink : AuditSink) (readable : world.community.listingFailure = none)
    : settings.Converges sink world where
  retries := Round.retries readable
  once := fun instants => (Settled.start settings world.community).run sink instants

/-- Passes converge for a member who is due removal and a reviewer who approves it. -/
theorem ReconcileSettings.passes_converge_for_one_member
    : let at_ : Instant :=
        ⟨40, 0, 0, by decide, by decide, by decide, by decide⟩
      let settings : ReconcileSettings :=
        ⟨⟨.ofSeconds 259200, .ofSeconds 2592000, ⟨900⟩, ∅⟩,
          ⟨0.1, .ofSeconds 300, ⟨30⟩, none, "yes", "no"⟩, .ofSeconds 1800⟩
      let world :=
        World.start ((Community.ofMembers at_ [⟨⟨7⟩, some .epoch, ∅, false⟩]).script
          ⟨"yes", ⟨8⟩, false, true⟩)
      world.community.listingFailure = none ∧ settings.Converges .journal world :=
  ⟨rfl, passes_converge _ _ rfl⟩

end Gatehouse
