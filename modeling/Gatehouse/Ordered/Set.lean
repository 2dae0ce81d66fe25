import Gatehouse.Ordered.Rank

/-! Finite sets kept as ascending lists without repeats. The list is determined by the members,
so sets with the same members are equal, and every traversal goes by ascending rank.
-/

namespace Gatehouse

variable {α : Type} [Ranked α]

/-- Ranks strictly ascend along the list. -/
def Ascending (items : List α) : Prop :=
  items.Pairwise fun a b => rank a < rank b

/-- Put `a` at its place in an ascending list; a value that is already there stays alone. -/
def insertAscending (a : α) : List α → List α
  | [] => [a]
  | b :: rest =>
      if rank a < rank b then a :: b :: rest
      else if rank b < rank a then b :: insertAscending a rest
      else b :: rest

/-- Insertion adds exactly the inserted value, by induction over the list. -/
theorem mem_insertAscending {a x : α} {items : List α}
    : x ∈ insertAscending a items ↔ x = a ∨ x ∈ items := by
  induction items with
  | nil => simp [insertAscending]
  | cons b rest ih =>
      unfold insertAscending
      split
      · simp
      · split
        · simp [ih, or_left_comm]
        · have same : a = b := rank_inj.mp (by omega)
          simp [same]

/-- Insertion keeps a list ascending, by induction over the list. -/
theorem Ascending.insertAscending {a : α} {items : List α} (h : Ascending items)
    : Ascending (insertAscending a items) := by
  induction items with
  | nil => simp [Ascending, Gatehouse.insertAscending]
  | cons b rest ih =>
      have ⟨below, tail⟩ := List.pairwise_cons.mp h
      unfold Gatehouse.insertAscending
      split
      · next lower =>
        refine List.pairwise_cons.mpr ⟨?_, h⟩
        intro x member
        rcases List.mem_cons.mp member with rfl | later
        · exact lower
        · exact Nat.lt_trans lower (below x later)
      · split
        · next higher =>
          refine List.pairwise_cons.mpr ⟨?_, ih tail⟩
          intro x member
          rcases mem_insertAscending.mp member with rfl | later
          · exact higher
          · exact below x later
        · exact h

/-- A finite set, listed by ascending rank. -/
structure OrderedSet (α : Type) [Ranked α] where
  toList : List α
  ascending : Ascending toList

namespace OrderedSet

instance : Membership α (OrderedSet α) where
  mem s a := a ∈ s.toList

theorem mem_toList {s : OrderedSet α} {a : α}
    : a ∈ s.toList ↔ a ∈ s := Iff.rfl

def empty : OrderedSet α := ⟨[], .nil⟩

instance : EmptyCollection (OrderedSet α) := ⟨empty⟩

instance : Inhabited (OrderedSet α) := ⟨empty⟩

instance [DecidableEq α] : DecidableEq (OrderedSet α) := fun s t =>
  if h : s.toList = t.toList then
    .isTrue (by cases s; cases t; cases h; rfl)
  else
    .isFalse fun same => h (same ▸ rfl)

def insert (a : α) (s : OrderedSet α) : OrderedSet α :=
  ⟨insertAscending a s.toList, s.ascending.insertAscending⟩

def erase (a : α) (s : OrderedSet α) : OrderedSet α :=
  ⟨s.toList.filter fun b => rank b != rank a, s.ascending.filter _⟩

def contains (s : OrderedSet α) (a : α) : Bool :=
  s.toList.any fun b => rank b == rank a

def ofList (items : List α) : OrderedSet α :=
  items.foldl (fun s a => s.insert a) empty

def size (s : OrderedSet α) : Nat := s.toList.length

def isEmpty (s : OrderedSet α) : Bool := s.toList.isEmpty

@[simp] theorem contains_iff {s : OrderedSet α} {a : α}
    : s.contains a = true ↔ a ∈ s := by
  simp only [contains, List.any_eq_true, beq_iff_eq, rank_inj, exists_eq_right]
  exact Iff.rfl

@[simp] theorem not_mem_empty {a : α}
    : ¬ a ∈ (∅ : OrderedSet α) :=
  List.not_mem_nil

@[simp] theorem mem_insert {s : OrderedSet α} {a x : α}
    : x ∈ s.insert a ↔ x = a ∨ x ∈ s :=
  mem_insertAscending

@[simp] theorem mem_erase {s : OrderedSet α} {a x : α}
    : x ∈ s.erase a ↔ x ≠ a ∧ x ∈ s := by
  change x ∈ s.toList.filter _ ↔ x ≠ a ∧ x ∈ s.toList
  simp only [List.mem_filter, bne_iff_ne, ne_eq, rank_inj, and_comm]

/-- A fold of insertions holds what it started from and what it was given. -/
theorem mem_foldl_insert {items : List α} {s : OrderedSet α} {x : α}
    : x ∈ items.foldl (fun t a => t.insert a) s ↔ x ∈ items ∨ x ∈ s := by
  induction items generalizing s with
  | nil => simp
  | cons a rest ih =>
      rw [List.foldl_cons, ih, mem_insert, List.mem_cons]
      constructor
      · rintro (h | h | h)
        · exact .inl (.inr h)
        · exact .inl (.inl h)
        · exact .inr h
      · rintro ((h | h) | h)
        · exact .inr (.inl h)
        · exact .inl h
        · exact .inr (.inr h)

/-- The set of a list has the members of the list. -/
@[simp] theorem mem_ofList {items : List α} {x : α}
    : x ∈ ofList items ↔ x ∈ items := by
  rw [ofList, mem_foldl_insert]
  exact ⟨fun h => h.resolve_right List.not_mem_nil, .inl⟩

theorem nodup_toList (s : OrderedSet α)
    : s.toList.Nodup := by
  refine s.ascending.imp fun lower => ?_
  rintro rfl
  exact Nat.lt_irrefl _ lower

/-- A set is empty exactly when it has no member. -/
theorem isEmpty_iff {s : OrderedSet α}
    : s.isEmpty = true ↔ ∀ a, ¬ a ∈ s := by
  rw [isEmpty, List.isEmpty_iff, List.eq_nil_iff_forall_not_mem]
  exact Iff.rfl

/-- A set that is not empty has a member. -/
theorem exists_mem_of_isEmpty_eq_false {s : OrderedSet α} (full : s.isEmpty = false)
    : ∃ a, a ∈ s := by
  refine Classical.byContradiction fun none => ?_
  rw [isEmpty_iff.mpr fun a member => none ⟨a, member⟩] at full
  cases full

end OrderedSet

/-- Ascending lists with the same members are equal, by comparing their heads. -/
theorem Ascending.eq_of_mem_iff {left right : List α} (hl : Ascending left)
    (hr : Ascending right) (same : ∀ a, a ∈ left ↔ a ∈ right)
    : left = right := by
  induction left generalizing right with
  | nil =>
      symm
      exact List.eq_nil_iff_forall_not_mem.mpr fun a member =>
        List.not_mem_nil ((same a).mpr member)
  | cons a rest ih =>
      cases right with
      | nil => exact absurd ((same a).mp List.mem_cons_self) List.not_mem_nil
      | cons b more =>
          have ⟨belowLeft, tailLeft⟩ := List.pairwise_cons.mp hl
          have ⟨belowRight, tailRight⟩ := List.pairwise_cons.mp hr
          have heads : a = b := by
            rcases List.mem_cons.mp ((same a).mp List.mem_cons_self) with eq | later
            · exact eq
            · rcases List.mem_cons.mp ((same b).mpr List.mem_cons_self) with eq | earlier
              · exact eq.symm
              · have := belowRight a later
                have := belowLeft b earlier
                omega
          subst heads
          refine congrArg (a :: ·) (ih tailLeft tailRight fun x => ?_)
          constructor
          · intro member
            rcases List.mem_cons.mp ((same x).mp (List.mem_cons_of_mem a member)) with rfl | h
            · exact absurd (belowLeft x member) (Nat.lt_irrefl _)
            · exact h
          · intro member
            rcases List.mem_cons.mp ((same x).mpr (List.mem_cons_of_mem a member)) with rfl | h
            · exact absurd (belowRight x member) (Nat.lt_irrefl _)
            · exact h

/-- Sets with the same members are equal. -/
theorem OrderedSet.ext {s t : OrderedSet α} (same : ∀ a, a ∈ s ↔ a ∈ t)
    : s = t := by
  have lists := s.ascending.eq_of_mem_iff t.ascending same
  cases s
  cases t
  cases lists
  rfl

end Gatehouse
