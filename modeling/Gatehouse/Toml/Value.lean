/-! TOML documents as values. A document is put together from its lines in order: headers open
tables, and entries go into the table that was opened last. How a table came about decides what may
be added to it later.
-/

namespace Gatehouse.Toml

/-- How a table came about. -/
inductive Origin
  /-- Written in braces; nothing is added to it. -/
  | inline
  /-- Opened by its own header. -/
  | header
  /-- Named on the way by the header of a table inside it. -/
  | implied
  /-- Named on the way by a dotted key. -/
  | dotted
deriving DecidableEq, Repr

/-- A value of a document; a table has no key twice. -/
inductive Value
  | string (text : String)
  | integer (number : Int)
  | float (number : Float)
  | boolean (value : Bool)
  /-- A date, a time of day or both. -/
  | moment
  | array (items : List Value)
  | table (origin : Origin) (entries : List (String × Value))
  /-- Tables that were opened under one name, in order. -/
  | tables (elements : List (List (String × Value)))

abbrev Entries := List (String × Value)

namespace Entries

def find? (key : String) : Entries → Option Value
  | [] => none
  | (k, v) :: rest => if k = key then some v else find? key rest

/-- Set the value of a key, in its place or at the end. -/
def set (key : String) (value : Value) : Entries → Entries
  | [] => [(key, value)]
  | (k, v) :: rest => if k = key then (k, value) :: rest else (k, v) :: set key value rest

/-- Add a key that is not there yet. -/
def add? (key : String) (value : Value) (entries : Entries) : Option Entries :=
  match entries.find? key with
  | some _ => none
  | none => some (entries ++ [(key, value)])

/-- Add an entry under a dotted key. The tables on the way may not have been opened by headers of
their own, and the last of them has to come from a dotted key too.
-/
def addDotted? (key : String) (value : Value) : List String → Entries → Option Entries
  | [], entries => entries.add? key value
  | name :: path, entries =>
      match entries.find? name with
      | none => do
          let inner ← addDotted? key value path []
          return entries ++ [(name, .table .dotted inner)]
      | some (.table origin inner) =>
          if origin = .dotted || (origin = .implied && !path.isEmpty) then do
            let inner ← addDotted? key value path inner
            return entries.set name (.table origin inner)
          else none
      | some (.tables elements) =>
          match path, elements.getLast? with
          | _ :: _, some last => do
              let last ← addDotted? key value path last
              return entries.set name (.tables (elements.dropLast ++ [last]))
          | _, _ => none
      | some _ => none

/-- Change the table that a header's path leads to. Tables on the way are made when they are
missing; of tables under one name the last is entered.
-/
def change? (change : Entries → Option Entries) : List String → Entries → Option Entries
  | [], entries => change entries
  | name :: path, entries =>
      match entries.find? name with
      | none => do
          let inner ← change? change path []
          return entries ++ [(name, .table .implied inner)]
      | some (.table origin inner) =>
          if origin = .inline then none
          else do
            let inner ← change? change path inner
            return entries.set name (.table origin inner)
      | some (.tables elements) =>
          match elements.getLast? with
          | some last => do
              let last ← change? change path last
              return entries.set name (.tables (elements.dropLast ++ [last]))
          | none => none
      | some _ => none

/-- Open a table that is not there yet, or that was only implied so far. -/
def openTable? (name : String) (entries : Entries) : Option Entries :=
  match entries.find? name with
  | none => some (entries ++ [(name, .table .header [])])
  | some (.table .implied inner) => some (entries.set name (.table .header inner))
  | some _ => none

/-- Open one more of the tables under a name. -/
def openElement? (name : String) (entries : Entries) : Option Entries :=
  match entries.find? name with
  | none => some (entries ++ [(name, .tables [[]])])
  | some (.tables elements) => some (entries.set name (.tables (elements ++ [[]])))
  | some _ => none

def inline? (pairs : List ((List String × String) × Value)) : Option Entries :=
  pairs.foldlM (fun entries pair => entries.addDotted? pair.1.2 pair.2 pair.1.1) []

end Entries

/-- A line of a document. A path stands before the last name, which comes separately. -/
inductive Line
  | table (path : List String) (name : String)
  | element (path : List String) (name : String)
  | entry (path : List String) (name : String) (value : Value)

/-- A document as far as it has been put together. -/
structure Draft where
  entries : Entries
  /-- The path of the table that entries go into. -/
  current : List String

namespace Draft

def empty : Draft := ⟨[], []⟩

def add? (draft : Draft) : Line → Option Draft
  | .table path name =>
      (draft.entries.change? (·.openTable? name) path).map (⟨·, path ++ [name]⟩)
  | .element path name =>
      (draft.entries.change? (·.openElement? name) path).map (⟨·, path ++ [name]⟩)
  | .entry path name value =>
      (draft.entries.change? (·.addDotted? name value path) draft.current).map
        (⟨·, draft.current⟩)

end Draft

def document? (lines : List Line) : Option Entries :=
  (lines.foldlM Draft.add? .empty).map Draft.entries

end Gatehouse.Toml
