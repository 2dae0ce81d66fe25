import Gatehouse.Identity
import Gatehouse.Ordered.Set
import Gatehouse.Time.Instant

/-! Members of a community as they are at one moment.
-/

namespace Gatehouse

/-- A member with the roles it holds; a join date may be unknown. -/
structure Member where
  id : MemberId
  joinedAt : Option Instant
  roles : OrderedSet RoleId
  bot : Bool
deriving DecidableEq

namespace Member

def holds (member : Member) (role : RoleId) : Bool :=
  member.roles.contains role

def grant (member : Member) (role : RoleId) : Member :=
  { member with roles := member.roles.insert role }

def revoke (member : Member) (role : RoleId) : Member :=
  { member with roles := member.roles.erase role }

/-- A role is held after a grant when it was granted or held before. -/
theorem holds_grant {member : Member} {role other : RoleId}
    : (member.grant role).holds other = true ↔ other = role ∨ member.holds other = true := by
  simp only [holds, grant, OrderedSet.contains_iff, OrderedSet.mem_insert]

/-- A role is held after it was revoked when it is another one that was held before. -/
theorem holds_revoke {member : Member} {role other : RoleId}
    : (member.revoke role).holds other = true ↔ other ≠ role ∧ member.holds other = true := by
  simp only [holds, revoke, OrderedSet.contains_iff, OrderedSet.mem_erase]

end Member

end Gatehouse
