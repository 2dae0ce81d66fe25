import Gatehouse.Config.Document
import Gatehouse.Config.Settings
import Gatehouse.Config.Template
import Gatehouse.Files

/-! Configuration files. Loading a file gives a configuration whose settings are in order; saving
and creating make the directories above the file.
-/

namespace Gatehouse.Config

/-- Why a configuration file cannot be used. -/
inductive Fault
  | read
  | parse
  | serialize
  | write
  | refused (refusal : Refusal)

/-- Load the configuration at a path and check it. -/
def load (files : Files) (path : FilePath) (storePath : String) : Except Fault Config :=
  match files.readText? path with
  | none => .error .read
  | some text =>
      match read? storePath text with
      | none => .error .parse
      | some config =>
          match config.settings with
          | .error refusal => .error (.refused refusal)
          | .ok _ => .ok config

/-- Write a text to a path, with the directories above it. -/
def writeText (files : Files) (path : FilePath) (text : String) : Except Fault Unit × Files :=
  match files.writeWithParents path text with
  | (true, files) => (.ok (), files)
  | (false, files) => (.error .write, files)

/-- Save a configuration. One that cannot be written down leaves the file as it is. -/
def save (config : Config) (files : Files) (path : FilePath) : Except Fault Unit × Files :=
  match config.text? with
  | none => (.error .serialize, files)
  | some text => writeText files path text

def createDefault (files : Files) (path : FilePath) (storePath : String)
    : Except Fault Unit × Files :=
  writeText files path (template storePath)

/-- A configuration that was loaded has settings. -/
theorem settings_of_load {files : Files} {path : FilePath} {storePath : String} {config : Config}
    (h : load files path storePath = .ok config)
    : ∃ settings, config.settings = .ok settings := by
  unfold load at h
  split at h
  · contradiction
  · split at h
    · contradiction
    · split at h
      · contradiction
      · next settings found =>
        cases h
        exact ⟨settings, found⟩

end Gatehouse.Config
