import Gatehouse.Store

/-! A tree of files as a value: what can be read at a path, and what the tree is after a file was
written, a directory made or a store opened. A path is walked name by name; every name but the last
has to be that of a directory.
-/

namespace Gatehouse

/-- A path as it is written, taken apart. -/
structure FilePath where
  isAbsolute : Bool
  /-- The names on the way, dots left out. -/
  names : List String
  /-- The path ends in a slash or a dot, so it can only lead to a directory. -/
  toDirectory : Bool
  /-- The path can be walked at all: it is not empty, and no part of it is too long or holds a
  zero character. -/
  isWalkable : Bool
deriving DecidableEq, Repr

namespace FilePath

def parts (text : List Char) : List (List Char) :=
  text.foldr
    (fun c parts =>
      if c = '/' then [] :: parts
      else
        match parts with
        | [] => [[c]]
        | part :: rest => (c :: part) :: rest)
    [[]]

def maxName : Nat := 255

def maxPath : Nat := 4095

def ofString (text : String) : FilePath :=
  let names := (parts text.toList).map String.ofList
  { isAbsolute := text.toList.head? = some '/'
    names := names.filter fun name => name ≠ "" && name ≠ "."
    toDirectory := names.getLast? = some "" || names.getLast? = some "."
    isWalkable := !text.isEmpty && !text.toList.contains '\x00' && text.utf8ByteSize ≤ maxPath
      && names.all fun name => name.utf8ByteSize ≤ maxName }

/-- The path to the directory that a path's last name stands in. -/
def parent (path : FilePath) : FilePath :=
  { path with names := path.names.dropLast, toDirectory := true }

end FilePath

/-- A place in a tree, as the names from the working directory to it; above the working directory
these are double dots. Places that do not depend on the working directory have a slash for their
first name.
-/
abbrev Place := List String

/-- What stands at a place. A store is kept in a file of its own kind; the contents of a file that
is not text are not told.
-/
inductive FileNode
  | directory
  | text (content : String)
  | binary
  | database (store : Store)
deriving DecidableEq

/-- What stands in the way of a directory or a file that is to be made. -/
inductive Obstacle
  /-- The path leads through nothing. -/
  | missing
  /-- A file stands where the directory is to be. -/
  | occupied
  /-- The path leads through a file. -/
  | notDirectory
  /-- A directory stands where the file is to be. -/
  | directory
deriving DecidableEq, Repr

/-- An obstacle in the words of the system, with its number. -/
def Obstacle.text : Obstacle → String
  | missing => "No such file or directory (os error 2)"
  | occupied => "File exists (os error 17)"
  | notDirectory => "Not a directory (os error 20)"
  | directory => "Is a directory (os error 21)"

structure Files where
  nodes : List (Place × FileNode)

namespace Files

def empty : Files := ⟨[]⟩

/-- Places that are always directories: the first one of all, the working directory, and those
above it.
-/
def isGround (place : Place) : Bool := place = ["/"] || place.all (· = "..")

def node? (files : Files) (place : Place) : Option FileNode :=
  if isGround place then some .directory
  else (files.nodes.find? fun entry => entry.1 = place).map Prod.snd

def put (files : Files) (place : Place) (node : FileNode) : Files :=
  ⟨(place, node) :: files.nodes⟩

/-- What was put at a place stands there, and nothing else has changed. -/
theorem node?_put {files : Files} {place p : Place} {node : FileNode}
    (h : isGround place = false)
    : (files.put place node).node? p = if place = p then some node else files.node? p := by
  unfold node? put
  by_cases same : place = p
  · subst same
    simp [h]
  · simp [same]

def isDirectory (files : Files) (place : Place) : Bool :=
  files.node? place = some .directory

/-- Where no directory stands, something can be put. -/
theorem isGround_eq_false {files : Files} {place : Place} (h : files.isDirectory place = false)
    : isGround place = false := by
  cases ground : isGround place with
  | false => rfl
  | true => simp [isDirectory, node?, ground] at h

/-- Where paths begin. -/
def origin (path : FilePath) : Place := if path.isAbsolute then ["/"] else []

/-- The place one name further. Nothing is above the first place of all. -/
def enter (place : Place) (name : String) : Place :=
  if name ≠ ".." then place ++ [name]
  else if place = ["/"] then place
  else if isGround place then place ++ [name]
  else place.dropLast

/-- Walk names from a place; there has to be a directory before each name. -/
def walk (files : Files) (place : Place) : List String → Option Place
  | [] => some place
  | name :: rest =>
      if files.isDirectory place then files.walk (enter place name) rest else none

/-- What is put where no directory stands changes no walk, by induction over its names. -/
theorem walk_put {files : Files} {place start found : Place} {node : FileNode}
    {names : List String} (h : files.isDirectory place = false)
    (walked : files.walk start names = some found)
    : (files.put place node).walk start names = some found := by
  induction names generalizing start with
  | nil => exact walked
  | cons name rest ih =>
      unfold walk at walked ⊢
      split at walked
      · next directory =>
        have apart : place ≠ start := fun same => by simp [same, directory] at h
        rw [if_pos (by simpa [isDirectory, node?_put (isGround_eq_false h), apart] using directory)]
        exact ih walked
      · contradiction

/-- The place that a path leads to, where something may or may not stand. -/
def locate? (files : Files) (path : FilePath) : Option Place :=
  if path.isWalkable then files.walk (origin path) path.names else none

def look? (files : Files) (path : FilePath) : Option FileNode :=
  match (files.locate? path).bind files.node? with
  | some .directory => some .directory
  | some node => if path.toDirectory then none else some node
  | none => none

def contains (files : Files) (path : FilePath) : Bool := (files.look? path).isSome

def readText? (files : Files) (path : FilePath) : Option String :=
  match files.look? path with
  | some (.text content) => some content
  | _ => none

/-- Make directories along names, where there are none yet. -/
def makeDirectories (files : Files) (place : Place) : List String → Except Obstacle Files
  | [] => if files.isDirectory place then .ok files else .error .occupied
  | name :: rest =>
      if !files.isDirectory place then .error .notDirectory
      else
        let next := enter place name
        match files.node? next with
        | none => (files.put next .directory).makeDirectories next rest
        | some _ => files.makeDirectories next rest

/-- Make the directory that a path's last name is to stand in, and those above it. -/
def makeParent (files : Files) (path : FilePath) : Except Obstacle Files :=
  let parent := path.parent
  if parent.names.isEmpty then .ok files
  else if path.isWalkable then files.makeDirectories (origin path) parent.names
  else .error .missing

/-- Put a file at a path, over a file that stands there. -/
def write? (files : Files) (path : FilePath) (content : String) : Option Files :=
  match files.locate? path with
  | none => none
  | some place =>
      if path.toDirectory || files.isDirectory place then none
      else some (files.put place (.text content))

/-- A file that was written holds what was written. -/
theorem readText?_of_write? {files after : Files} {path : FilePath} {content : String}
    (h : files.write? path content = some after)
    : after.readText? path = some content := by
  unfold write? at h
  split at h
  · contradiction
  · next place located =>
    split at h
    · contradiction
    · next free =>
      cases h
      simp only [Bool.or_eq_true, not_or, Bool.not_eq_true] at free
      obtain ⟨file, free⟩ := free
      have walkable : path.isWalkable = true := by
        cases walkable : path.isWalkable with
        | true => rfl
        | false => simp [locate?, walkable] at located
      rw [locate?, if_pos walkable] at located
      have again : (files.put place (.text content)).locate? path = some place := by
        rw [locate?, if_pos walkable]
        exact walk_put free located
      simp [readText?, look?, again, node?_put (isGround_eq_false free), file]

/-- Write a file, with the directories above it. The directories stay when the file cannot be
written.
-/
def writeWithParents (files : Files) (path : FilePath) (content : String) : Bool × Files :=
  match files.makeParent path with
  | .error _ => (false, files)
  | .ok files =>
      match files.write? path content with
      | none => (false, files)
      | some files => (true, files)

/-- Open a file for writing at its end: it is made when there is none. -/
def touch (files : Files) (path : FilePath) : Except Obstacle Files :=
  match files.locate? path with
  | none => .error .missing
  | some place =>
      if path.toDirectory || files.isDirectory place then .error .directory
      else if (files.node? place).isSome then .ok files
      else .ok (files.put place (.text ""))

/-- A store that is open, with the place where it is kept. A store without one is lost when it is
closed.
-/
structure OpenStore where
  place : Option Place
  store : Store

/-- A store that is not kept. -/
def OpenStore.unkept : OpenStore := ⟨none, .empty⟩

/-- The store at a place where a store is or can be made: an empty file is an empty store. -/
def storeAt (files : Files) (place : Place) : Except StoreFault Store :=
  match files.node? place with
  | none => .ok .empty
  | some (.text content) => if content.isEmpty then .ok .empty else .error .database
  | some (.database store) => .ok store
  | some .directory | some .binary => .error .database

/-- Open the store that a path leads to, and make it and the directories above it when they are
missing. The empty path and the name for memory lead to a store that is not kept.
-/
def openStore (files : Files) (text : String) : Except StoreFault (OpenStore × Files) :=
  if text = "" ∨ text = ":memory:" then .ok (.unkept, files)
  else
    let path := FilePath.ofString text
    match files.makeParent path with
    | .error _ => .error .directory
    | .ok files =>
        match files.locate? path with
        | none => .error .database
        | some place =>
            match files.storeAt place with
            | .error fault => .error fault
            | .ok store => .ok (⟨some place, store⟩, files.put place (.database store))

def keep (files : Files) (opened : OpenStore) : Files :=
  match opened.place with
  | none => files
  | some place => files.put place (.database opened.store)

/-- Put something at a path, with the directories above it, whatever stood there. -/
def place? (files : Files) (path : FilePath) (node : FileNode) : Option Files := do
  let files ← (files.makeParent path).toOption
  let place ← files.locate? path
  return files.put place node

end Files

end Gatehouse
