import Gatehouse.Community.Member
import Gatehouse.Ordered.Map

/-! The members of a community, each kept under its own identifier. Changing the record of one
member leaves the records of all others as they are.
-/

namespace Gatehouse

/-- The records of members, each under the identifier that it names. -/
structure Roster where
  records : OrderedMap MemberId Member
  keyed : ∀ {id : MemberId} {record : Member}, records.find? id = some record → record.id = id

namespace Roster

instance : DecidableEq Roster := fun left right =>
  decidable_of_iff (left.records = right.records) ⟨
    fun same => by cases left; cases right; cases same; rfl,
    fun same => same ▸ rfl⟩

def empty : Roster := ⟨∅, fun found => nomatch found⟩

instance : EmptyCollection Roster := ⟨empty⟩

instance : Inhabited Roster := ⟨empty⟩

def find? (roster : Roster) (id : MemberId) : Option Member := roster.records.find? id

/-- Put a record in its place; an earlier one of the same member gives way. -/
def add (roster : Roster) (record : Member) : Roster where
  records := roster.records.insert record.id record
  keyed {id found} h := by
    rw [OrderedMap.find?_insert] at h
    split at h
    · next same => rw [← Option.some.inj h, same]
    · exact roster.keyed h

def remove (roster : Roster) (id : MemberId) : Roster where
  records := roster.records.erase id
  keyed {other found} h := by
    rw [OrderedMap.find?_erase] at h
    split at h
    · cases h
    · exact roster.keyed h

def size (roster : Roster) : Nat := roster.records.size

def toList (roster : Roster) : List Member := roster.records.values

@[simp] theorem find?_empty {id : MemberId}
    : (∅ : Roster).find? id = none := rfl

/-- A record that is found is that of the member looked for. -/
theorem id_of_find? {roster : Roster} {id : MemberId} {record : Member}
    (found : roster.find? id = some record)
    : record.id = id :=
  roster.keyed found

/-- A record put in place is found, and every other member is found as before. -/
theorem find?_add {roster : Roster} {record : Member} {id : MemberId}
    : (roster.add record).find? id = if record.id = id then some record else roster.find? id :=
  OrderedMap.find?_insert

/-- A member taken off is not found, and every other member is found as before. -/
theorem find?_remove {roster : Roster} {id other : MemberId}
    : (roster.remove id).find? other = if id = other then none else roster.find? other :=
  OrderedMap.find?_erase

/-- The records of a roster are those that are found under their own identifier. -/
theorem mem_toList {roster : Roster} {record : Member}
    : record ∈ roster.toList ↔ roster.find? record.id = some record := by
  simp only [toList, OrderedMap.values, List.mem_map]
  constructor
  · rintro ⟨⟨id, value⟩, entry, rfl⟩
    have found := OrderedMap.find?_eq_some_iff.mpr entry
    have same : value.id = id := roster.keyed found
    subst same
    exact found
  · intro found
    exact ⟨(record.id, record), OrderedMap.find?_eq_some_iff.mp found, rfl⟩

/-- No member is on a roster twice. -/
theorem nodup_ids (roster : Roster)
    : (roster.toList.map Member.id).Nodup := by
  have keys : roster.toList.map Member.id = roster.records.keys := by
    simp only [toList, OrderedMap.values, OrderedMap.keys, List.map_map]
    exact List.map_congr_left fun entry listed =>
      roster.keyed (OrderedMap.find?_eq_some_iff.mpr listed)
  rw [keys]
  exact roster.records.nodup_keys

/-- Rosters on which everyone is found alike are equal. -/
theorem ext {left right : Roster} (same : ∀ id, left.find? id = right.find? id)
    : left = right := by
  have records := OrderedMap.ext same
  cases left
  cases right
  cases records
  rfl

/-- Of two records of one member the one put in place last stays. -/
theorem add_add {roster : Roster} {first second : Member} (same : first.id = second.id)
    : (roster.add first).add second = roster.add second := by
  refine ext fun id => ?_
  simp only [find?_add, same]
  split <;> rfl

/-- Putting in place what is there changes nothing. -/
theorem add_of_find? {roster : Roster} {record : Member}
    (found : roster.find? record.id = some record)
    : roster.add record = roster := by
  refine ext fun id => ?_
  rw [find?_add]
  split
  · next same => rw [← same, found]
  · rfl

end Roster

end Gatehouse
