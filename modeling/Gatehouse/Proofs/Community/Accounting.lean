import Gatehouse.Proofs.Program.Undertaking

/-! Every member is accounted for. Over any run from an empty community, someone comes as often as it
is removed, and once more if it is there in the end. So nobody gets lost, whatever fails in between,
and nobody is on record as removed who was not there.
-/

namespace Gatehouse

-------------------------------------------------------------------------------
-- Coming and going
-------------------------------------------------------------------------------

/-- Someone is a member of a community. -/
def Community.isThere (community : Community) (id : MemberId) : Bool :=
  (community.member? id).isSome

/-- An operation adds someone who is not there. -/
def Operation.arrives (id : MemberId) (community : Community) : Operation → Bool
  | .join member => decide (member.id = id) && !community.isThere id
  | _ => false

namespace Community

/-- Someone is there after a record was put in place when the record is its own, or as before. -/
theorem isThere_addMember (community : Community) (record : Member) (id : MemberId)
    : (community.addMember record).isThere id
      = (decide (record.id = id) || community.isThere id) := by
  change ((community.members.add record).find? id).isSome = _
  rw [Roster.find?_add]
  by_cases own : record.id = id
  · rw [if_pos own, decide_eq_true own]
    rfl
  · rw [if_neg own, decide_eq_false own]
    rfl

/-- Someone is there after a member was taken off when it is another one and was there. -/
theorem isThere_remove (community : Community) (id other : MemberId)
    : { community with members := community.members.remove id }.isThere other
      = (decide (id ≠ other) && community.isThere other) := by
  change ((community.members.remove id).find? other).isSome = _
  rw [Roster.find?_remove]
  by_cases own : id = other
  · rw [if_pos own, decide_eq_false (not_not_intro own)]
    rfl
  · rw [if_neg own, decide_eq_true own]
    rfl

/-- What an operation does to who is there: it adds a member, who may be there already, or takes
one who is there and records it as removed, or it leaves all of that as it is.
-/
inductive Turnover (before : Community) : Operation → Community → Prop
  | comes (member : Member) : before.Turnover (.join member) (before.addMember member)
  | goes {id : MemberId} {reason : String} {after : Community}
    (present : before.isThere id = true)
    (there : ∀ other, after.isThere other = (decide (id ≠ other) && before.isThere other))
    (kicked : after.kicked = before.kicked ++ [id])
    : before.Turnover (.call (.kick id reason)) after
  | stays {operation : Operation} {after : Community}
    (nobody : ∀ id, operation.arrives id before = false)
    (there : ∀ id, after.isThere id = before.isThere id)
    (kicked : after.kicked = before.kicked)
    : before.Turnover operation after

variable {before after : Community}

/-- Nobody was taken and no removal was recorded, or one member was taken who was there and its
removal, and no other one, was recorded.
-/
def RecordsRemoval (before after : Community) : Prop :=
  (after.kicked = before.kicked ∧ ∀ id, before.isThere id = true → after.isThere id = true)
  ∨ ∃ id,
      after.kicked = before.kicked ++ [id]
      ∧ before.isThere id = true
      ∧ ∀ other, after.isThere other = true ↔ id ≠ other ∧ before.isThere other = true

theorem Turnover.recordsRemoval {operation : Operation}
    (turnover : before.Turnover operation after)
    : before.RecordsRemoval after := by
  cases turnover with
  | comes member =>
      refine .inl ⟨rfl, fun id present => ?_⟩
      rw [isThere_addMember, present, Bool.or_true]
  | goes present there kicked =>
      refine .inr ⟨_, kicked, present, fun other => ?_⟩
      rw [there, Bool.and_eq_true, decide_eq_true_iff]
  | stays _ there kicked => exact .inl ⟨kicked, fun id present => (there id).trans present⟩

theorem Turnover.of_eq {operation : Operation}
    (nobody : ∀ id, operation.arrives id before = false)
    (members : after.members = before.members) (kicked : after.kicked = before.kicked)
    : before.Turnover operation after :=
  .stays nobody (fun id => by rw [isThere, member?, members]; rfl) kicked

/-- A call brings nobody in, and takes someone out only as a removal. -/
theorem Moves.turnover {call : Call} (moves : before.Moves call after)
    : before.Turnover (.call call) after := by
  have nobody (id : MemberId) : (Operation.call call).arrives id before = false := rfl
  cases moves with
  | nothing | posted | altered | told => exact .of_eq nobody rfl rfl
  | waited =>
      rw [before.await_eq]
      exact .of_eq nobody rfl rfl
  -- Changed roles are put in place of the record that was found, so nobody comes by them.
  | @recorded _ id _ changed found own =>
      refine .stays nobody (fun other => (before.isThere_addMember _ other).trans ?_) rfl
      by_cases same : changed.id = other
      · have there : before.isThere other = true := by
          rw [← same, own, isThere, found]
          rfl
        rw [there, Bool.or_true]
      · rw [decide_eq_false same, Bool.false_or]
  | removed found =>
      exact .goes (by rw [isThere, found]; rfl) (before.isThere_remove _) rfl

end Community

/-- Every operation does one of these to who is there. -/
theorem Operation.turnover (operation : Operation) (community : Community)
    : community.Turnover operation (operation.act community) := by
  cases operation with
  | call call => exact (community.answer_moves call).turnover
  | join member => exact .comes member
  | _ => exact .of_eq (fun _ => rfl) rfl rfl

-------------------------------------------------------------------------------
-- The account
-------------------------------------------------------------------------------

/-- How often someone is added in a run of operations while it is not there. -/
def arrivals (id : MemberId) : Community → List Operation → Nat
  | _, [] => 0
  | community, operation :: later =>
      (operation.arrives id community).toNat + arrivals id (operation.act community) later

namespace Community

/-- How often someone has come as a community tells: as often as it was removed, and once more if
it is there.
-/
def timesCome (community : Community) (id : MemberId) : Nat :=
  community.kicked.count id + (community.isThere id).toNat

@[simp] theorem timesCome_empty (now : Instant) (id : MemberId)
    : (empty now).timesCome id = 0 := rfl

/-- An operation by which someone arrives makes it come once more, and no other one does. -/
theorem timesCome_act (operation : Operation) (community : Community) (id : MemberId)
    : (operation.act community).timesCome id
      = community.timesCome id + (operation.arrives id community).toNat := by
  have turnover := operation.turnover community
  generalize operation.act community = after at turnover ⊢
  unfold timesCome
  cases turnover with
  | comes member =>
      rw [isThere_addMember]
      change community.kicked.count id + _ = _
      cases there : community.isThere id <;> simp [Operation.arrives, there]
  | @goes gone reason _ present there kicked =>
      rw [there, kicked, List.count_append, Nat.add_assoc]
      change _ = _ + _ + 0
      by_cases same : gone = id
      · subst same
        simp [present]
      · simp [same]
  | stays nobody there kicked =>
      rw [there, kicked, nobody]
      rfl

/-- Over a run of operations someone comes as often as it arrives, by induction over them. -/
theorem timesCome_actAll (operations : List Operation) (community : Community) (id : MemberId)
    : (Operation.actAll operations community).timesCome id
      = community.timesCome id + arrivals id community operations := by
  induction operations generalizing community with
  | nil => rfl
  | cons operation later ih =>
      rw [Operation.actAll_cons, ih, timesCome_act, Nat.add_assoc]
      rfl

end Community

-------------------------------------------------------------------------------
-- Listing
-------------------------------------------------------------------------------

/-- The records of a roster are listed by ascending identifier. -/
theorem Roster.ascending_toList (roster : Roster)
    : roster.toList.Pairwise fun a b => rank a.id < rank b.id := by
  refine List.pairwise_map.mpr (roster.records.ascending.imp_of_mem ?_)
  intro first second listed later lower
  rwa [roster.keyed (OrderedMap.find?_eq_some_iff.mpr listed),
    roster.keyed (OrderedMap.find?_eq_some_iff.mpr later)]

/-- What a listing that succeeds tells: everyone who is there, by ascending identifier, and as many
as are counted.
-/
structure Community.Lists (community : Community) (members : List Member) : Prop where
  ascending : members.Pairwise fun a b => rank a.id < rank b.id
  counted : (community.answer .countMembers).1 = .ok members.length
  complete : ∀ record, record ∈ members ↔ community.member? record.id = some record

/-- A listing succeeds when a count does, and both look at the same members. -/
theorem Community.lists_of_answer {community : Community} {members : List Member}
    (listed : (community.answer .listMembers).1 = .ok members)
    : community.Lists members := by
  change community.listing community.memberList = .ok members at listed
  unfold listing at listed
  split at listed
  · cases listed
  · next able =>
    cases listed
    refine ⟨community.members.ascending_toList, ?_, fun record => Roster.mem_toList⟩
    change community.listing community.members.size = _
    rw [listing, able]
    exact congrArg Except.ok (List.length_map _).symm

-------------------------------------------------------------------------------
-- Runs
-------------------------------------------------------------------------------

/-- How the members of a community to which operations have led are accounted for. -/
structure Accounted (start : Community) (operations : List Operation) (last : Community)
    : Prop where
  /-- Every record stands under the identifier of its member. -/
  keyed : ∀ entry ∈ last.members.records.entries, entry.2.id = entry.1
  listed : ∀ members, (last.answer .listMembers).1 = .ok members → last.Lists members
  /-- Someone was added while it was away as often as it was removed, and once more if it is
  there.
  -/
  balanced
    : ∀ id,
      arrivals id start operations = last.kicked.count id + (last.isThere id).toNat
  /-- Each operation records who was taken by it, and nobody else. -/
  recorded
    : ∀ earlier operation later,
      operations = earlier ++ operation :: later
      → let before := Operation.actAll earlier start
        before.RecordsRemoval (operation.act before)

namespace Undertaking

/-- Whatever is undertaken in a community that begins empty, its members are accounted for. -/
theorem members_accounted_for (world : World) (now : Instant) (undertakings : List Undertaking)
    : let start := { world with community := .empty now }
      Accounted (.empty now) (operationsIn start undertakings)
        (run start undertakings).community := by
  intro start
  rw [community_run]
  refine ⟨?_, ?_, ?_, ?_⟩
  · exact fun entry listed => Roster.keyed _ (OrderedMap.find?_eq_some_iff.mpr listed)
  · exact fun members listed => Community.lists_of_answer listed
  · intro id
    have come := Community.timesCome_actAll (operationsIn start undertakings) (.empty now) id
    rw [Community.timesCome_empty, Nat.zero_add] at come
    exact come.symm
  · exact fun earlier operation later _ => (operation.turnover _).recordsRemoval

end Undertaking

end Gatehouse
