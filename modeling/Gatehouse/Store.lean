/-! A store of texts by key, as a value. What is set is found under its key until the key is set
again; no key changes what another one holds.
-/

namespace Gatehouse

inductive StoreFault
  | database
  | directory
  | corrupt (key value : String)
deriving DecidableEq, Repr

/-- The sentence that reports a fault of a store. -/
def StoreFault.message : StoreFault → String
  | .database => "Database error"
  | .directory => "Failed to create store directory"
  | .corrupt key value => "Corrupt value for key '" ++ key ++ "': " ++ value

/-- Texts by key, in the order in which the keys were first set. -/
structure Store where
  entries : List (String × String)
deriving DecidableEq, Repr

namespace Store

def empty : Store := ⟨[]⟩

instance : Inhabited Store := ⟨empty⟩

/-- The text of a key among entries. -/
def lookup (key : String) : List (String × String) → Option String
  | [] => none
  | (k, v) :: rest => if k = key then some v else lookup key rest

/-- Set the text of a key among entries, in its place or at the end. -/
def replace (key value : String) : List (String × String) → List (String × String)
  | [] => [(key, value)]
  | (k, v) :: rest => if k = key then (k, value) :: rest else (k, v) :: replace key value rest

def get? (store : Store) (key : String) : Option String := lookup key store.entries

def set (store : Store) (key value : String) : Store := ⟨replace key value store.entries⟩

/-- Looking up among entries after one was set, by induction over the entries. -/
theorem lookup_replace {key k value : String} {entries : List (String × String)}
    : lookup k (replace key value entries)
      = if key = k then some value else lookup k entries := by
  induction entries with
  | nil => simp [replace, lookup]
  | cons head rest ih =>
      obtain ⟨headKey, headValue⟩ := head
      unfold replace
      split
      · next same =>
        subst same
        simp only [lookup]
        split <;> rfl
      · next differs =>
        simp only [lookup, ih]
        split
        · next eq =>
          subst eq
          rw [if_neg (Ne.symm differs)]
        · rfl

/-- A key that was set holds what it was set to, every other key what it held before. -/
theorem get?_set {store : Store} {key k value : String}
    : (store.set key value).get? k = if key = k then some value else store.get? k :=
  lookup_replace

@[simp] theorem get?_empty {k : String}
    : empty.get? k = none := rfl

end Store

end Gatehouse
