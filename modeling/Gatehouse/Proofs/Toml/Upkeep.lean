import Gatehouse.Proofs.Toml.Document

/-! What is set in a document stays. Lines add to a document and open tables in it, but no line
changes a text that an earlier one has set, at whatever depth.
-/

namespace Gatehouse.Toml

namespace Entries

/-- The text under a path of keys, through tables. -/
def text? : List String → Entries → Option String
  | [], _ => none
  | key :: path, entries =>
      match entries.find? key with
      | some (.string text) => if path.isEmpty then some text else none
      | some (.table _ inner) => text? path inner
      | _ => none

/-- Every text of the first entries is one of the second, under the same path. -/
def Keeps (before after : Entries) : Prop :=
  ∀ path text, before.text? path = some text → after.text? path = some text

theorem find?_append_of_some {key : String} {entries : Entries} {value : Value}
    (found : entries.find? key = some value) (more : Entries)
    : Entries.find? key (entries ++ more) = some value := by
  induction entries with
  | nil => cases found
  | cons entry entries ih =>
      obtain ⟨name, held⟩ := entry
      rw [List.cons_append, find?]
      rw [find?] at found
      split at found
      · next same => rwa [if_pos same]
      · next other =>
        rw [if_neg other]
        exact ih found

theorem find?_set {key name : String} {entries : Entries} {value : Value}
    : (entries.set name value).find? key
      = if name = key then some value else entries.find? key := by
  induction entries with
  | nil => simp [set, find?]
  | cons entry entries ih =>
      obtain ⟨first, held⟩ := entry
      rw [set]
      by_cases same : first = name
      · subst same
        rw [if_pos rfl, find?, find?]
        split <;> rfl
      · rw [if_neg same, find?, find?, ih]
        by_cases here : first = key
        · subst here
          rw [if_pos rfl, if_neg (Ne.symm same)]
          simp
        · rw [if_neg here]
          simp [here]

namespace Keeps

variable {entries inner changed : Entries} {name : String}

/-- Entries at the end change no text. -/
theorem append (entries more : Entries)
    : Keeps entries (entries ++ more) := by
  intro path text found
  cases path with
  | nil => cases found
  | cons key path =>
      rw [text?] at found ⊢
      cases held : entries.find? key with
      | none =>
          rw [held] at found
          cases found
      | some value =>
          rw [find?_append_of_some held]
          rwa [held] at found

/-- A value in the place of another keeps the texts of all other keys, and those of its own when
there were none or they are kept.
-/
theorem set {value : Value}
    (own
      : ∀ path text,
          entries.text? (name :: path) = some text
          → (entries.set name value).text? (name :: path) = some text)
    : Keeps entries (entries.set name value) := by
  intro path text found
  cases path with
  | nil => cases found
  | cons key path =>
      by_cases same : name = key
      · subst same
        exact own path text found
      · rw [text?, find?_set, if_neg same]
        rwa [text?] at found

/-- A table that keeps its texts keeps them in its place. -/
theorem set_table {origin next : Origin} (held : entries.find? name = some (.table origin inner))
    (keeps : Keeps inner changed)
    : Keeps entries (entries.set name (.table next changed)) := by
  refine set fun path text found => ?_
  rw [text?, held] at found
  rw [text?, find?_set, if_pos rfl]
  exact keeps path text found

/-- Where tables stand under one name there are no texts to keep. -/
theorem set_tables {elements next : List Entries}
    (held : entries.find? name = some (.tables elements))
    : Keeps entries (entries.set name (.tables next)) := by
  refine set fun path text found => ?_
  rw [text?, held] at found
  cases found

end Keeps

variable {entries after : Entries} {name : String}

theorem add?_keeps {value : Value} (added : entries.add? name value = some after)
    : Keeps entries after := by
  unfold add? at added
  split at added
  · cases added
  · cases added
    exact .append entries _

/-- An entry under a dotted key keeps what is set, by induction along the key. -/
theorem addDotted?_keeps {value : Value} {path : List String}
    (added : entries.addDotted? name value path = some after)
    : Keeps entries after := by
  induction path generalizing entries after with
  | nil => exact add?_keeps added
  | cons key path ih =>
      rw [addDotted?] at added
      split at added
      · obtain ⟨inner, -, same⟩ := Option.bind_eq_some_iff.mp added
        cases same
        exact .append entries _
      · next origin inner held =>
        split at added
        · obtain ⟨changed, later, same⟩ := Option.bind_eq_some_iff.mp added
          cases same
          exact .set_table held (ih later)
        · cases added
      · next elements held =>
        split at added
        · obtain ⟨last, -, same⟩ := Option.bind_eq_some_iff.mp added
          cases same
          exact .set_tables held
        · cases added
      · cases added

/-- A change that keeps what is set does so wherever a header's path leads, by induction along the
path.
-/
theorem change?_keeps {change : Entries → Option Entries}
    (keeps : ∀ {before after}, change before = some after → Keeps before after)
    {path : List String} (changed : entries.change? change path = some after)
    : Keeps entries after := by
  induction path generalizing entries after with
  | nil => exact keeps changed
  | cons key path ih =>
      rw [change?] at changed
      split at changed
      · obtain ⟨inner, -, same⟩ := Option.bind_eq_some_iff.mp changed
        cases same
        exact .append entries _
      · next origin inner held =>
        split at changed
        · cases changed
        · obtain ⟨next, later, same⟩ := Option.bind_eq_some_iff.mp changed
          cases same
          exact .set_table held (ih later)
      · next elements held =>
        split at changed
        · obtain ⟨last, -, same⟩ := Option.bind_eq_some_iff.mp changed
          cases same
          exact .set_tables held
        · cases changed
      · cases changed

theorem openTable?_keeps (opened : entries.openTable? name = some after)
    : Keeps entries after := by
  unfold openTable? at opened
  split at opened
  · cases opened
    exact .append entries _
  · next inner held =>
    cases opened
    exact .set_table held fun _ _ found => found
  · cases opened

theorem openElement?_keeps (opened : entries.openElement? name = some after)
    : Keeps entries after := by
  unfold openElement? at opened
  split at opened
  · cases opened
    exact .append entries _
  · next elements held =>
    cases opened
    exact .set_tables held
  · cases opened

end Entries

/-- A line keeps the texts that are set, by cases on its kind. -/
theorem Draft.add?_keeps {draft next : Draft} {line : Line} (added : draft.add? line = some next)
    : draft.entries.Keeps next.entries := by
  cases line with
  | table path name =>
      obtain ⟨entries, changed, rfl⟩ := Option.map_eq_some_iff.mp added
      exact Entries.change?_keeps Entries.openTable?_keeps changed
  | element path name =>
      obtain ⟨entries, changed, rfl⟩ := Option.map_eq_some_iff.mp added
      exact Entries.change?_keeps Entries.openElement?_keeps changed
  | entry path name value =>
      obtain ⟨entries, changed, rfl⟩ := Option.map_eq_some_iff.mp added
      exact Entries.change?_keeps Entries.addDotted?_keeps changed

/-- Further lines keep the texts that are set, by induction over them. -/
theorem foldlM_keeps {draft last : Draft} {lines : List Line}
    (added : lines.foldlM Draft.add? draft = some last)
    : draft.entries.Keeps last.entries := by
  induction lines generalizing draft with
  | nil =>
      cases added
      exact fun _ _ found => found
  | cons line lines ih =>
      rw [List.foldlM_cons] at added
      obtain ⟨next, first, later⟩ := Option.bind_eq_some_iff.mp added
      intro path text found
      exact ih later path text (Draft.add?_keeps first path text found)

end Gatehouse.Toml
