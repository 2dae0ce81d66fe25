import Gatehouse.Snapshot

/-! Who is listed twice. The first member that stands behind one with its own identifier is found
when there is such a member, and a snapshot that is read lists nobody twice.
-/

namespace Gatehouse.Snapshot

/-- Nobody is found to be listed again exactly when nobody is, by induction along the list. -/
theorem firstDuplicate?_eq_none_iff {seen : OrderedSet MemberId} {members : List Member}
    : firstDuplicate? seen members = none
      ↔ (∀ member ∈ members, member.id ∉ seen) ∧ (members.map Member.id).Nodup := by
  induction members generalizing seen with
  | nil => simp [firstDuplicate?]
  | cons member rest ih =>
      rw [firstDuplicate?]
      by_cases before : member.id ∈ seen
      · rw [if_pos (OrderedSet.contains_iff.mpr before)]
        exact ⟨nofun, fun none_ => absurd before (none_.1 member List.mem_cons_self)⟩
      · have new : ¬ seen.contains member.id = true := fun found =>
          before (OrderedSet.contains_iff.mp found)
        rw [if_neg new, ih, List.map_cons, List.nodup_cons]
        simp only [OrderedSet.mem_insert, not_or, List.mem_map, not_exists, not_and,
          List.forall_mem_cons]
        constructor
        · rintro ⟨others, distinct⟩
          exact ⟨⟨before, fun other listed => (others other listed).2⟩,
            fun other listed => (others other listed).1, distinct⟩
        · rintro ⟨⟨-, others⟩, apart, distinct⟩
          exact ⟨fun other listed => ⟨apart other listed, others other listed⟩, distinct⟩

/-- Who is found to be listed again is the first whose identifier is among those seen or listed
before, by induction along the list.
-/
theorem exists_of_firstDuplicate? {seen : OrderedSet MemberId} {members : List Member}
    {id : MemberId} (found : firstDuplicate? seen members = some id)
    : ∃ earlier member later,
        members = earlier ++ member :: later
        ∧ member.id = id
        ∧ (member.id ∈ seen ∨ member.id ∈ earlier.map Member.id)
        ∧ (∀ other ∈ earlier, other.id ∉ seen)
        ∧ (earlier.map Member.id).Nodup := by
  induction members generalizing seen with
  | nil => cases found
  | cons member rest ih =>
      rw [firstDuplicate?] at found
      split at found
      · next before =>
        cases found
        exact ⟨[], member, rest, rfl, rfl, .inl (OrderedSet.contains_iff.mp before),
          List.forall_mem_nil _, .nil⟩
      · next new =>
        obtain ⟨earlier, repeated, later, rfl, rfl, again, others, distinct⟩ := ih found
        have fresh : member.id ∉ seen := fun before => new (OrderedSet.contains_iff.mpr before)
        simp only [OrderedSet.mem_insert, not_or] at again others
        refine ⟨member :: earlier, repeated, later, rfl, rfl, ?_, ?_, ?_⟩
        · rcases again with (same | before) | listed
          · exact .inr (List.mem_map.mpr ⟨member, List.mem_cons_self, same.symm⟩)
          · exact .inl before
          · exact .inr (List.mem_cons_of_mem _ listed)
        · exact List.forall_mem_cons.mpr ⟨fresh, fun other listed => (others other listed).2⟩
        · refine List.nodup_cons.mpr ⟨fun listed => ?_, distinct⟩
          obtain ⟨other, member_, same⟩ := List.mem_map.mp listed
          exact (others other member_).1 same

/-- A list without repetition has nobody listed again. -/
theorem firstDuplicate?_of_nodup {members : List Member}
    (distinct : (members.map Member.id).Nodup)
    : firstDuplicate? ∅ members = none :=
  firstDuplicate?_eq_none_iff.mpr ⟨fun _ _ => OrderedSet.not_mem_empty, distinct⟩

/-- In a list with repetition, the first member whose identifier is listed before it is found. -/
theorem firstDuplicate?_of_not_nodup {members : List Member}
    (repeats : ¬ (members.map Member.id).Nodup)
    : ∃ earlier member later,
        members = earlier ++ member :: later
        ∧ (earlier.map Member.id).Nodup
        ∧ member.id ∈ earlier.map Member.id
        ∧ firstDuplicate? ∅ members = some member.id := by
  cases found : firstDuplicate? ∅ members with
  | none => exact absurd (firstDuplicate?_eq_none_iff.mp found).2 repeats
  | some id =>
      obtain ⟨earlier, member, later, rfl, rfl, again, -, distinct⟩ :=
        exists_of_firstDuplicate? found
      exact ⟨earlier, member, later, rfl, distinct,
        again.resolve_left OrderedSet.not_mem_empty, rfl⟩

/-- A snapshot that is read lists nobody twice. -/
theorem nodup_of_read {text : String} {members : List Member} (found : read text = .ok members)
    : (members.map Member.id).Nodup := by
  unfold read at found
  split at found
  · cases found
  · split at found
    · cases found
    · next distinct =>
      cases found
      exact (firstDuplicate?_eq_none_iff.mp distinct).2

end Gatehouse.Snapshot
