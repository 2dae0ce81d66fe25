import Gatehouse.Command
import Gatehouse.Store.Document
import Std.Time.DateTime.Timestamp

/-! The program on the command line. It looks at the files that a command can come to use, runs the
command on what it has seen, and writes what has changed.
-/

namespace Gatehouse.Disk

/-- A place as a path of the system. -/
def pathText : Place → String
  | "/" :: names => "/" ++ "/".intercalate names
  | names => "/".intercalate names

/-- What a file with these bytes is: a text, a store that is not empty, or neither. -/
def nodeOf (bytes : ByteArray) : FileNode :=
  match String.fromUTF8? bytes with
  | none => .binary
  | some content =>
      match Store.read? content with
      | some store => if store.entries.isEmpty then .text content else .database store
      | none => .text content

def look (place : Place) : IO (Option FileNode) := do
  match ← (IO.FS.readBinFile (pathText place)).toBaseIO with
  | .ok bytes => return some (nodeOf bytes)
  | .error (.inappropriateType ..) => return some .directory
  | .error _ => return none

/-- Look at the places on the way from a place along names. -/
def survey (files : Files) (place : Place) : List String → IO Files
  | [] => return files
  | name :: rest => do
      let next := Files.enter place name
      if Files.isGround next then survey files next rest
      else
        match ← look next with
        | none => return files
        | some node => survey (files.put next node) next rest

/-- Look at the places on the way of each path. -/
def surveyAll (files : Files) (paths : List String) : IO Files :=
  paths.foldlM (fun files path =>
    let path := FilePath.ofString path
    survey files (Files.origin path) path.names) files

def write (place : Place) : FileNode → IO Unit
  | .directory => IO.FS.createDirAll (pathText place)
  | .text content => IO.FS.writeFile (pathText place) content
  | .database store => IO.FS.writeFile (pathText place) store.text
  | .binary => return

/-- Write what was put into a tree of files since an earlier time. -/
def writeNew (before after : Files) : IO Unit := do
  let count := after.nodes.length - before.nodes.length
  for (place, node) in (after.nodes.take count).reverse do
    write place node

/-- The paths of the store and the log file in a configuration, if there is one. -/
def configuredPaths (place : Command.Surroundings) (files : Files) (path : String)
    : List String :=
  match Config.load files (.ofString path) place.directories.storeFile with
  | .ok config => config.storePath :: config.logging.file.toList
  | .error _ => []

def surroundings : IO Command.Surroundings := do
  let now ← Std.Time.Timestamp.now
  return {
    directories := ⟨(← IO.getEnv "HOME").getD "", ← IO.getEnv "XDG_CONFIG_HOME",
      ← IO.getEnv "XDG_DATA_HOME"⟩
    now := (Instant.ofUnixMillis? now.toMillisecondsSinceUnixEpoch.val).getD .epoch }

/-- Run a command on the files of the system. -/
def run (command : Command) : IO UInt32 := do
  let place ← surroundings
  let configPath := place.configPath command.config
  let seen ← surveyAll .empty (configPath :: command.members.toList)
  let seen ← surveyAll seen (configuredPaths place seen configPath)
  let (ended, desk) := command.run place seen
  writeNew seen desk.files
  IO.print desk.printed
  match ended with
  | .ok _ => return 0
  | .error fault =>
      IO.eprintln ("Error: " ++ fault.message)
      return 1

end Gatehouse.Disk

def main (args : List String) : IO UInt32 := do
  match Gatehouse.Command.read args with
  | .ok command => Gatehouse.Disk.run command
  | .error usage =>
      if usage.isMistake then
        IO.eprint usage.text
        return 2
      else
        IO.print usage.text
        return 0
