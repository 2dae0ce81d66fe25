import Mathlib.Data.List.Nodup
import Gatehouse.Community
import Gatehouse.Verification.Classification

/-! A membership given as a list. A community made from members with identifiers of their own
has just these members, so whoever goes through the list and whoever goes through the community
find the same.
-/

namespace Gatehouse

/-- Of records put in place one after another, each with an identifier of its own, every one is
found, and whoever is not among them is found as before, by induction over the records.
-/
theorem Roster.find?_foldl_add {roster : Roster} {members : List Member}
    (distinct : (members.map Member.id).Nodup) (id : MemberId)
    : (members.foldl add roster).find? id
      = (members.find? fun member => member.id = id).or (roster.find? id) := by
  induction members generalizing roster with
  | nil => rfl
  | cons member rest ih =>
      obtain ⟨new, others⟩ := List.nodup_cons.mp distinct
      rw [List.foldl_cons, ih others, find?_add]
      by_cases same : member.id = id
      · subst same
        have absent : (rest.find? fun other => other.id = member.id) = none := by
          refine List.find?_eq_none.mpr fun other listed same => new ?_
          exact List.mem_map.mpr ⟨other, listed, of_decide_eq_true same⟩
        simp [absent]
      · simp [same]

namespace Community

/-- A community of given members is an empty one with these members, by induction over them. -/
theorem ofMembers_eq (now : Instant) (members : List Member)
    : ofMembers now members = { empty now with members := members.foldl Roster.add ∅ } := by
  have added (community : Community)
      : members.foldl addMember community
        = { community with members := members.foldl Roster.add community.members } := by
    induction members generalizing community with
    | nil => rfl
    | cons member rest ih => exact ih (community.addMember member)
  exact added (empty now)

theorem now_ofMembers (now : Instant) (members : List Member)
    : (ofMembers now members).now = now := by
  rw [ofMembers_eq]
  rfl

variable {members : List Member}

/-- The members of a community of members with identifiers of their own are those given. -/
theorem mem_memberList_ofMembers (distinct : (members.map Member.id).Nodup) (now : Instant)
    {record : Member}
    : record ∈ (ofMembers now members).memberList ↔ record ∈ members := by
  unfold memberList
  rw [ofMembers_eq, Roster.mem_toList, Roster.find?_foldl_add distinct]
  simp only [Roster.find?_empty, Option.or_none]
  constructor
  · exact List.mem_of_find?_eq_some
  · intro listed
    have some : (members.find? fun member => member.id = record.id).isSome = true :=
      List.find?_isSome.mpr ⟨record, listed, decide_eq_true rfl⟩
    obtain ⟨member, found⟩ := Option.isSome_iff_exists.mp some
    have same : member.id = record.id := by simpa using List.find?_some found
    rw [found, List.inj_on_of_nodup_map distinct (List.mem_of_find?_eq_some found) listed same]

/-- There are as many of them as were given. -/
theorem length_memberList_ofMembers (distinct : (members.map Member.id).Nodup) (now : Instant)
    : (ofMembers now members).memberList.length = members.length := by
  have listed : (ofMembers now members).memberList.Nodup :=
    (Roster.nodup_ids _).of_map
  exact ((List.perm_ext_iff_of_nodup listed distinct.of_map).mpr fun record =>
    mem_memberList_ofMembers distinct now).length_eq

end Community

/-- Lists with the same members have the same batches. -/
theorem Policy.classify_congr {left right : List Member}
    (same : ∀ record, record ∈ left ↔ record ∈ right) (policy : Policy) (now : Instant)
    : policy.classify now left = policy.classify now right := by
  have due (what : Due) : policy.whoIsDue now left what = policy.whoIsDue now right what :=
    OrderedSet.ext fun id => by simp only [mem_whoIsDue, same]
  unfold classify
  rw [due .warning, due .removal]

end Gatehouse
