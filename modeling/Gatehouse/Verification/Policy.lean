import Gatehouse.Community.Member
import Gatehouse.Time.Duration

/-! Who has to verify and until when. A member is unverified as long as it holds nothing beyond
the baseline roles and the pending role; the time since it joined then decides what it is due.
-/

namespace Gatehouse

structure Policy where
  warningAfter : Duration
  removalAfter : Duration
  /-- The role of members who have been warned. -/
  pendingRole : RoleId
  /-- Roles that do not count as verification. -/
  baselineRoles : OrderedSet RoleId
deriving DecidableEq

/-- What a member is due. -/
inductive Due
  | nothing
  | warning
  | removal
deriving DecidableEq, Repr

namespace Policy

/-- The role does not count as verification. -/
def isNeutral (policy : Policy) (role : RoleId) : Bool :=
  role = policy.pendingRole || policy.baselineRoles.contains role

/-- The member holds no role that counts as verification. -/
def isUnverified (policy : Policy) (member : Member) : Bool :=
  member.roles.toList.all policy.isNeutral

/-- How long the member has been around; none for a bot, for an unknown join date and for one
in the future.
-/
def age? (now : Instant) (member : Member) : Option Duration :=
  if member.bot then none else member.joinedAt.bind now.since?

/-- What a member is due at an instant. Both horizons have to be passed, not just reached, and a
member who holds the pending role is not warned again.
-/
def due (policy : Policy) (now : Instant) (member : Member) : Due :=
  match age? now member with
  | none => .nothing
  | some age =>
      if !policy.isUnverified member then .nothing
      else if policy.removalAfter < age then .removal
      else if policy.warningAfter < age && !member.holds policy.pendingRole then .warning
      else .nothing

/-- Due something is whoever is unverified and past a horizon; past the first one only, as long as
it does not hold the pending role.
-/
theorem due_ne_nothing_iff {policy : Policy} {now : Instant} {member : Member}
    : policy.due now member ≠ .nothing
      ↔ ∃ age,
          age? now member = some age
          ∧ policy.isUnverified member = true
          ∧ (policy.removalAfter < age
            ∨ policy.warningAfter < age ∧ member.holds policy.pendingRole = false) := by
  unfold due
  cases age? now member with
  | none => simp
  | some age =>
      cases policy.isUnverified member with
      | false => simp
      | true =>
          by_cases overdue : policy.removalAfter < age
          · simp [overdue]
          · by_cases late : policy.warningAfter < age
            · cases holds : member.holds policy.pendingRole <;> simp [overdue, late]
            · simp [overdue, late]

/-- Someone who is due a warning does not hold the pending role. -/
theorem not_holds_of_due_warning {policy : Policy} {now : Instant} {member : Member}
    (isDue : policy.due now member = .warning)
    : member.holds policy.pendingRole = false := by
  unfold due at isDue
  split at isDue
  · cases isDue
  · split at isDue
    · cases isDue
    · split at isDue
      · cases isDue
      · split at isDue
        · next old => exact (Bool.not_eq_true' _).mp (Bool.and_eq_true_iff.mp old).2
        · cases isDue

/-- The pending role does not count as verification, so granting it verifies nobody. -/
theorem isUnverified_grant_pending {policy : Policy} {member : Member}
    : policy.isUnverified (member.grant policy.pendingRole) = policy.isUnverified member := by
  have neutral : policy.isNeutral policy.pendingRole = true := by simp [isNeutral]
  apply Bool.eq_iff_iff.mpr
  simp only [isUnverified, Member.grant, List.all_eq_true, OrderedSet.mem_toList,
    OrderedSet.mem_insert]
  exact ⟨fun all role held => all role (.inr held),
    fun all role held => held.elim (fun same => same ▸ neutral) (all role)⟩

/-- Whoever is given the pending role is not due a warning any more, and is due removal as before.
-/
theorem due_grant_pending {policy : Policy} {now : Instant} {member : Member}
    : policy.due now (member.grant policy.pendingRole)
      = if policy.due now member = .warning then .nothing else policy.due now member := by
  have holds : (member.grant policy.pendingRole).holds policy.pendingRole = true :=
    Member.holds_grant.mpr (.inl rfl)
  have age : age? now (member.grant policy.pendingRole) = age? now member := rfl
  unfold due
  rw [age, isUnverified_grant_pending, holds]
  cases age? now member with
  | none => rfl
  | some age =>
      simp only [Bool.not_true, Bool.and_false, Bool.false_eq_true, if_false]
      split
      · rfl
      · split
        · rfl
        · split <;> rfl

end Policy

end Gatehouse
