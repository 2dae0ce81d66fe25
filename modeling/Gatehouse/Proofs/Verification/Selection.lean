import Gatehouse.Proofs.Community.Membership
import Gatehouse.Proofs.Snapshot.Repetition

/-! Whom a classification selects. The removal batch holds exactly the identifiers of unsettled
records past the removal horizon, and the warning batch those between the horizons that do not hold
the pending role, in whatever order the members are listed: main statement `classify_selects`.
-/

namespace Gatehouse

namespace Policy

/-- A record that a horizon can apply to: of no bot, with a known join date that is so long ago and
not in the future, and without a role that counts as verification.
-/
structure Unsettled (policy : Policy) (now : Instant) (member : Member) (elapsed : Int)
    : Prop where
  human : member.bot = false
  joined : ∃ joined, member.joinedAt = some joined ∧ now.nanosSince joined = elapsed
  unverified : ∀ role ∈ member.roles, role ∈ policy.baselineRoles ∨ role = policy.pendingRole
  begun : 0 ≤ elapsed

variable {policy : Policy} {now : Instant} {member : Member}

theorem isUnverified_iff
    : policy.isUnverified member = true
      ↔ ∀ role ∈ member.roles, role ∈ policy.baselineRoles ∨ role = policy.pendingRole := by
  simp only [isUnverified, List.all_eq_true, OrderedSet.mem_toList, isNeutral, Bool.or_eq_true,
    decide_eq_true_eq, OrderedSet.contains_iff, or_comm]

/-- Somebody's age is the time since a known join date that is not in the future. -/
theorem age?_eq_some_iff {age : Duration}
    : age? now member = some age
      ↔ member.bot = false
        ∧ ∃ joined, member.joinedAt = some joined ∧ now.nanosSince joined = age.nanos := by
  have since (joined : Instant)
      : now.since? joined = some age ↔ now.nanosSince joined = age.nanos := by
    unfold Instant.since?
    dsimp only
    by_cases future : now.nanosSince joined < 0
    · rw [if_pos future]
      exact ⟨nofun, fun same => by omega⟩
    · rw [if_neg future, Option.some.injEq]
      constructor
      · rintro rfl
        exact (Int.toNat_of_nonneg (by omega)).symm
      · intro same
        exact congrArg Duration.mk (by omega)
  unfold age?
  cases member.bot with
  | true => exact ⟨nofun, fun human => nomatch human.1⟩
  | false =>
      simp only [Bool.false_eq_true, if_false, true_and, Option.bind_eq_some_iff]
      exact exists_congr fun joined => and_congr_right fun _ => since joined

/-- The unsettled are the unverified who have an age, and that age is the time elapsed. -/
theorem exists_unsettled_iff {late : Int → Prop}
    : (∃ elapsed, policy.Unsettled now member elapsed ∧ late elapsed)
      ↔ ∃ age : Duration,
          age? now member = some age ∧ policy.isUnverified member = true ∧ late age.nanos := by
  constructor
  · rintro ⟨elapsed, ⟨human, ⟨joined, known, rfl⟩, unverified, begun⟩, past⟩
    have whole := Int.toNat_of_nonneg begun
    refine ⟨⟨(now.nanosSince joined).toNat⟩, ?_, isUnverified_iff.mpr unverified, ?_⟩
    · exact age?_eq_some_iff.mpr ⟨human, joined, known, whole.symm⟩
    · rwa [whole]
  · rintro ⟨age, old, unverified, past⟩
    obtain ⟨human, known⟩ := age?_eq_some_iff.mp old
    exact ⟨age.nanos, ⟨human, known, isUnverified_iff.mp unverified, by omega⟩, past⟩

/-- What the unverified of an age are due, the age told in nanoseconds. -/
theorem due_of_age {age : Duration} (old : age? now member = some age)
    (unverified : policy.isUnverified member = true)
    : policy.due now member
      = if policy.removalAfter.nanos < age.nanos then .removal
        else if policy.warningAfter.nanos < age.nanos ∧ member.holds policy.pendingRole = false then
          .warning
        else .nothing := by
  have late
      : (policy.warningAfter < age && !member.holds policy.pendingRole) = true
        ↔ policy.warningAfter.nanos < age.nanos ∧ member.holds policy.pendingRole = false := by
    rw [Bool.and_eq_true_iff, decide_eq_true_iff, Bool.not_eq_true']
    exact .rfl
  rw [due, old]
  simp only [unverified, Bool.not_true, Bool.false_eq_true, if_false, late]
  rfl

/-- Something is due to the unsettled whose time is late, when that holds of the unverified who have
an age.
-/
theorem due_iff_of_age {due : Due} {late : Int → Prop} (something : due ≠ .nothing)
    (tells
      : ∀ age : Duration,
          age? now member = some age
          → policy.isUnverified member = true
          → (policy.due now member = due ↔ late age.nanos))
    : policy.due now member = due
      ↔ ∃ elapsed, policy.Unsettled now member elapsed ∧ late elapsed := by
  rw [exists_unsettled_iff]
  constructor
  · rintro rfl
    obtain ⟨age, old, unverified, -⟩ := due_ne_nothing_iff.mp something
    exact ⟨age, old, unverified, (tells age old unverified).mp rfl⟩
  · rintro ⟨age, old, unverified, past⟩
    exact (tells age old unverified).mpr past

/-- Removal is due to the unsettled past the removal horizon. -/
theorem due_removal_iff
    : policy.due now member = .removal
      ↔ ∃ elapsed, policy.Unsettled now member elapsed ∧ policy.removalAfter.nanos < elapsed := by
  refine due_iff_of_age (by decide) fun age old unverified => ?_
  rw [due_of_age old unverified, Int.ofNat_lt]
  split_ifs with overdue late
  · exact ⟨fun _ => overdue, fun _ => rfl⟩
  · exact ⟨nofun, fun past => absurd past overdue⟩
  · exact ⟨nofun, fun past => absurd past overdue⟩

/-- A warning is due to the unsettled past the first horizon only, unless they hold the pending
role.
-/
theorem due_warning_iff
    : policy.due now member = .warning
      ↔ ∃ elapsed,
          policy.Unsettled now member elapsed
          ∧ policy.warningAfter.nanos < elapsed
          ∧ elapsed ≤ policy.removalAfter.nanos
          ∧ policy.pendingRole ∉ member.roles := by
  refine due_iff_of_age (by decide) fun age old unverified => ?_
  have free : policy.pendingRole ∉ member.roles ↔ member.holds policy.pendingRole = false := by
    rw [← Bool.not_eq_true]
    exact not_congr OrderedSet.contains_iff.symm
  rw [due_of_age old unverified, Int.ofNat_lt, Int.ofNat_le, free]
  split_ifs with overdue late
  · exact ⟨nofun, fun past => absurd past.2.1 (Nat.not_le.mpr overdue)⟩
  · exact ⟨fun _ => ⟨late.1, Nat.le_of_not_lt overdue, late.2⟩, fun _ => rfl⟩
  · exact ⟨nofun, fun past => absurd ⟨past.1, past.2.2⟩ late⟩

/-- What a classification says of the members it was made of. -/
structure Selects (policy : Policy) (now : Instant) (members : List Member)
    (classification : Classification)
    : Prop where
  removal
    : ∀ id,
        id ∈ classification.needsRemoval.members
          ↔ ∃ member ∈ members,
              member.id = id
              ∧ ∃ elapsed,
                  policy.Unsettled now member elapsed ∧ policy.removalAfter.nanos < elapsed
  warning
    : ∀ id,
        id ∈ classification.needsWarning.members
          ↔ ∃ member ∈ members,
              member.id = id
              ∧ ∃ elapsed,
                  policy.Unsettled now member elapsed
                  ∧ policy.warningAfter.nanos < elapsed
                  ∧ elapsed ≤ policy.removalAfter.nanos
                  ∧ policy.pendingRole ∉ member.roles
  reordered : ∀ others, members.Perm others → policy.classify now others = classification
  disjoint
    : (members.map Member.id).Nodup
      → ∀ id, id ∈ classification.needsWarning.members → id ∉ classification.needsRemoval.members
  pendingSpared
    : (members.map Member.id).Nodup
      → ∀ member ∈ members,
          policy.pendingRole ∈ member.roles
          → member.id ∉ classification.needsWarning.members

/-- Among identifiers of their own, nobody is due two things. -/
theorem not_mem_whoIsDue {members : List Member} (distinct : (members.map Member.id).Nodup)
    (listed : member ∈ members) {due : Due} (other : policy.due now member ≠ due)
    : member.id ∉ policy.whoIsDue now members due := by
  intro isDue
  obtain ⟨record, present, same, named⟩ := mem_whoIsDue.mp isDue
  rw [List.inj_on_of_nodup_map distinct present listed named] at same
  exact other same

/-- A classification selects by record and horizon alone: whoever is unsettled past the removal
horizon, and whoever is between the horizons without the pending role. The order of the list does
not matter, and where no identifier is listed twice, as in every listing of a community and in every
snapshot that is read, nobody is in both batches and no holder of the pending role is warned.
-/
theorem classify_selects (policy : Policy) (now : Instant) (members : List Member)
    : policy.Selects now members (policy.classify now members)
      ∧ (∀ (community : Community) (listed : List Member),
          (community.answer .listMembers).1 = .ok listed → (listed.map Member.id).Nodup)
      ∧ ∀ (text : String) (listed : List Member),
          Snapshot.read text = .ok listed → (listed.map Member.id).Nodup := by
  refine ⟨?_, fun community listed answered => ?_, fun text listed => Snapshot.nodup_of_read⟩
  · refine
      { removal := fun id => ?_
        warning := fun id => ?_
        reordered := fun others same => classify_congr (fun _ => same.mem_iff.symm) policy now
        disjoint := fun distinct id warned => ?_
        pendingSpared := fun distinct member listed holds => ?_ }
    · simp only [classify, mem_whoIsDue, due_removal_iff]
      exact exists_congr fun _ => and_congr_right fun _ => and_comm
    · simp only [classify, mem_whoIsDue, due_warning_iff]
      exact exists_congr fun _ => and_congr_right fun _ => and_comm
    · obtain ⟨member, listed, isDue, rfl⟩ := mem_whoIsDue.mp warned
      exact not_mem_whoIsDue distinct listed (by rw [isDue]; decide)
    · refine not_mem_whoIsDue distinct listed fun isDue => ?_
      obtain ⟨_, -, -, -, free⟩ := due_warning_iff.mp isDue
      exact free holds
  · simp only [Community.answer, Community.listing] at answered
    split at answered
    · cases answered
    · cases answered
      exact community.members.nodup_ids

end Policy

end Gatehouse
