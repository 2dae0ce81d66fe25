import Gatehouse.Ordered.Set

/-! Finite maps kept as key-value lists with strictly ascending keys. The entries are determined
by what each key maps to, so maps that answer every question alike are equal.
-/

namespace Gatehouse

variable {κ ν : Type} [Ranked κ]

/-- The keys of the entries strictly ascend. -/
def AscendingKeys (entries : List (κ × ν)) : Prop :=
  entries.Pairwise fun a b => rank a.1 < rank b.1

/-- Set what a key maps to in a list of entries with ascending keys. -/
def insertEntry (key : κ) (value : ν) : List (κ × ν) → List (κ × ν)
  | [] => [(key, value)]
  | (k, v) :: rest =>
      if rank key < rank k then (key, value) :: (k, v) :: rest
      else if rank k < rank key then (k, v) :: insertEntry key value rest
      else (key, value) :: rest

/-- Every key after an insertion is the inserted one or was there before. -/
theorem mem_keys_insertEntry {key k : κ} {value : ν} {entries : List (κ × ν)}
    (h : k ∈ (insertEntry key value entries).map Prod.fst)
    : k = key ∨ k ∈ entries.map Prod.fst := by
  induction entries with
  | nil => simpa [insertEntry] using h
  | cons head rest ih =>
      obtain ⟨headKey, headValue⟩ := head
      unfold insertEntry at h
      split at h
      · simpa using h
      · split at h
        · simp only [List.map_cons, List.mem_cons] at h ⊢
          rcases h with h | h
          · exact .inr (.inl h)
          · exact (ih h).imp id .inr
        · simp only [List.map_cons, List.mem_cons] at h ⊢
          exact h.imp id .inr

/-- Insertion keeps keys ascending, by induction over the entries. -/
theorem AscendingKeys.insertEntry {key : κ} {value : ν} {entries : List (κ × ν)}
    (h : AscendingKeys entries)
    : AscendingKeys (insertEntry key value entries) := by
  induction entries with
  | nil => simp [AscendingKeys, Gatehouse.insertEntry]
  | cons head rest ih =>
      obtain ⟨headKey, headValue⟩ := head
      have ⟨below, tail⟩ := List.pairwise_cons.mp h
      unfold Gatehouse.insertEntry
      split
      · next lower =>
        refine List.pairwise_cons.mpr ⟨?_, h⟩
        intro entry member
        rcases List.mem_cons.mp member with rfl | later
        · exact lower
        · exact Nat.lt_trans lower (below entry later)
      · split
        · next higher =>
          refine List.pairwise_cons.mpr ⟨?_, ih tail⟩
          intro entry member
          rcases mem_keys_insertEntry (List.mem_map_of_mem (f := Prod.fst) member)
            with same | old
          · change rank headKey < rank entry.1
            rw [same]
            exact higher
          · obtain ⟨other, present, eq⟩ := List.mem_map.mp old
            change rank headKey < rank entry.1
            rw [← eq]
            exact below other present
        · next notLower notHigher =>
          have same : rank key = rank headKey := by omega
          refine List.pairwise_cons.mpr ⟨?_, tail⟩
          intro entry member
          change rank key < rank entry.1
          rw [same]
          exact below entry member

/-- A finite map, listed by ascending rank of its keys. -/
structure OrderedMap (κ ν : Type) [Ranked κ] where
  entries : List (κ × ν)
  ascending : AscendingKeys entries

namespace OrderedMap

def empty : OrderedMap κ ν := ⟨[], .nil⟩

instance : EmptyCollection (OrderedMap κ ν) := ⟨empty⟩

instance : Inhabited (OrderedMap κ ν) := ⟨empty⟩

instance [DecidableEq κ] [DecidableEq ν] : DecidableEq (OrderedMap κ ν) := fun m n =>
  if h : m.entries = n.entries then
    .isTrue (by cases m; cases n; cases h; rfl)
  else
    .isFalse fun same => h (same ▸ rfl)

/-- What a key maps to in a list of entries. -/
def lookup (key : κ) : List (κ × ν) → Option ν
  | [] => none
  | (k, v) :: rest => if rank k = rank key then some v else lookup key rest

def find? (m : OrderedMap κ ν) (key : κ) : Option ν := lookup key m.entries

def contains (m : OrderedMap κ ν) (key : κ) : Bool := (m.find? key).isSome

def insert (key : κ) (value : ν) (m : OrderedMap κ ν) : OrderedMap κ ν :=
  ⟨insertEntry key value m.entries, m.ascending.insertEntry⟩

def erase (key : κ) (m : OrderedMap κ ν) : OrderedMap κ ν :=
  ⟨m.entries.filter fun entry => rank entry.1 != rank key, m.ascending.filter _⟩

def size (m : OrderedMap κ ν) : Nat := m.entries.length

def keys (m : OrderedMap κ ν) : List κ := m.entries.map Prod.fst

def values (m : OrderedMap κ ν) : List ν := m.entries.map Prod.snd

/-- Looking up in a list after an insertion, by induction over the entries. -/
theorem lookup_insertEntry {key k : κ} {value : ν} {entries : List (κ × ν)}
    : lookup k (insertEntry key value entries)
      = if rank key = rank k then some value else lookup k entries := by
  induction entries with
  | nil => simp [insertEntry, lookup]
  | cons head rest ih =>
      obtain ⟨headKey, headValue⟩ := head
      unfold insertEntry
      split
      · simp [lookup]
      · split
        · simp only [lookup, ih]
          by_cases same : rank headKey = rank k
          · rw [if_pos same, if_neg (by omega), if_pos same]
          · rw [if_neg same, if_neg same]
        · simp only [lookup]
          split
          · rfl
          · rw [if_neg (by omega)]

/-- An inserted key maps to the inserted value and every other key to what it did before. -/
theorem find?_insert [DecidableEq κ] {m : OrderedMap κ ν} {key k : κ} {value : ν}
    : (m.insert key value).find? k = if key = k then some value else m.find? k := by
  simp only [find?, insert, lookup_insertEntry, rank_inj]

@[simp] theorem find?_empty {k : κ}
    : (∅ : OrderedMap κ ν).find? k = none := rfl

/-- Looking up in a list after a removal, by induction over the entries. -/
theorem lookup_filter {key k : κ} {entries : List (κ × ν)}
    : lookup k (entries.filter fun entry => rank entry.1 != rank key)
      = if rank key = rank k then none else lookup k entries := by
  induction entries with
  | nil => simp [lookup]
  | cons head rest ih =>
      obtain ⟨headKey, headValue⟩ := head
      by_cases same : rank headKey = rank key
      · simp only [List.filter_cons, same, bne_self_eq_false, Bool.false_eq_true, if_false,
          lookup, ih]
        split <;> rfl
      · have kept : (rank headKey != rank key) = true := by simpa using same
        simp only [List.filter_cons, kept, if_true, lookup, ih]
        split
        · next eq => rw [if_neg (by omega)]
        · rfl

/-- A removed key maps to nothing and every other key to what it did before. -/
theorem find?_erase [DecidableEq κ] {m : OrderedMap κ ν} {key k : κ}
    : (m.erase key).find? k = if key = k then none else m.find? k := by
  simp only [find?, erase, lookup_filter, rank_inj]

/-- A key below the head of an ascending list is not in the list. -/
theorem lookup_eq_none_of_below {k : κ} {entries : List (κ × ν)}
    (below : ∀ entry ∈ entries, rank k < rank entry.1)
    : lookup k entries = none := by
  induction entries with
  | nil => rfl
  | cons head rest ih =>
      have first := below head List.mem_cons_self
      simp only [lookup]
      rw [if_neg (by omega)]
      exact ih fun entry member => below entry (List.mem_cons_of_mem _ member)

/-- An entry of an ascending list is what its key maps to. -/
theorem lookup_eq_some_iff {k : κ} {v : ν} {entries : List (κ × ν)}
    (h : AscendingKeys entries)
    : lookup k entries = some v ↔ (k, v) ∈ entries := by
  induction entries with
  | nil => simp [lookup]
  | cons head rest ih =>
      obtain ⟨headKey, headValue⟩ := head
      have ⟨below, tail⟩ := List.pairwise_cons.mp h
      simp only [lookup]
      split
      · next same =>
        have same := rank_inj.mp same
        subst same
        simp only [Option.some.injEq, List.mem_cons, Prod.mk.injEq, true_and]
        constructor
        · exact fun eq => .inl eq.symm
        · rintro (eq | later)
          · exact eq.symm
          · exact absurd (below _ later) (Nat.lt_irrefl _)
      · next differs =>
        rw [ih tail]
        simp only [List.mem_cons, Prod.mk.injEq]
        constructor
        · exact .inr
        · rintro (⟨eq, _⟩ | later)
          · exact absurd (eq ▸ rfl) differs
          · exact later

/-- A key maps to a value exactly when the pair is an entry. -/
theorem find?_eq_some_iff {m : OrderedMap κ ν} {k : κ} {v : ν}
    : m.find? k = some v ↔ (k, v) ∈ m.entries :=
  lookup_eq_some_iff m.ascending

theorem nodup_keys (m : OrderedMap κ ν)
    : m.keys.Nodup := by
  refine List.pairwise_map.mpr (m.ascending.imp fun lower same => ?_)
  rw [same] at lower
  exact Nat.lt_irrefl _ lower

/-- Lists of ascending entries that map every key alike are equal, by comparing heads. -/
theorem entries_eq_of_lookup_eq {left right : List (κ × ν)} (hl : AscendingKeys left)
    (hr : AscendingKeys right) (same : ∀ k, lookup k left = lookup k right)
    : left = right := by
  induction left generalizing right with
  | nil =>
      cases right with
      | nil => rfl
      | cons head rest =>
          have := same head.1
          simp [lookup] at this
  | cons head rest ih =>
      cases right with
      | nil =>
          have := same head.1
          simp [lookup] at this
      | cons other more =>
          obtain ⟨k, v⟩ := head
          obtain ⟨l, w⟩ := other
          have ⟨belowLeft, tailLeft⟩ := List.pairwise_cons.mp hl
          have ⟨belowRight, tailRight⟩ := List.pairwise_cons.mp hr
          have keys : rank k = rank l := by
            rcases Nat.lt_trichotomy (rank k) (rank l) with lower | eq | higher
            · have found := same k
              simp only [lookup, if_true] at found
              rw [if_neg (by omega), lookup_eq_none_of_below fun entry member =>
                Nat.lt_trans lower (belowRight entry member)] at found
              cases found
            · exact eq
            · have found := same l
              simp only [lookup, if_true] at found
              rw [if_neg (by omega), lookup_eq_none_of_below fun entry member =>
                Nat.lt_trans higher (belowLeft entry member)] at found
              cases found
          have keys := rank_inj.mp keys
          subst keys
          have values := same k
          simp only [lookup, if_true, Option.some.injEq] at values
          subst values
          refine congrArg ((k, v) :: ·) (ih tailLeft tailRight fun x => ?_)
          by_cases eq : rank k = rank x
          · have eq := rank_inj.mp eq
            subst eq
            rw [lookup_eq_none_of_below belowLeft, lookup_eq_none_of_below belowRight]
          · have found := same x
            simpa only [lookup, if_neg eq] using found

/-- Maps that map every key alike are equal. -/
theorem ext {m n : OrderedMap κ ν} (same : ∀ k, m.find? k = n.find? k)
    : m = n := by
  have lists := entries_eq_of_lookup_eq m.ascending n.ascending same
  cases m
  cases n
  cases lists
  rfl

end OrderedMap

end Gatehouse
