import Gatehouse.Command.Line
import Gatehouse.Config.File
import Gatehouse.Reminder.Status
import Gatehouse.Snapshot.File
import Gatehouse.Verification.Preview

/-! What the commands do. A command prints, reads and changes files, and may fail on the way; what
was printed and written before stays.
-/

namespace Gatehouse.Command

inductive Fault
  | configMissing (path : String)
  | configExists (path : String)
  | config (path : String) (fault : Config.Fault)
  | logDirectory (obstacle : Obstacle)
  | logFile (path : String) (obstacle : Obstacle)
  | snapshot (path : String) (fault : Snapshot.FileFault)
  /-- The text is no date and time. -/
  | now (text : String)
  | store (fault : StoreFault)
  | reminder (fault : ReminderFault)

/-- What is wrong with the configuration at a path. -/
def configFaultText (path : String) : Config.Fault → String
  | .read => "Failed to read config file '" ++ path ++ "'"
  | .parse => "Failed to parse config file '" ++ path ++ "'"
  | .serialize => "Failed to serialize config"
  | .write => "Failed to write config file '" ++ path ++ "'"
  | .refused refusal => refusal.message

/-- What is wrong with the snapshot at a path. -/
def snapshotFaultText (path : String) : Snapshot.FileFault → String
  | .read => "Failed to read snapshot '" ++ path ++ "'"
  | .content .unreadable => "Failed to parse snapshot '" ++ path ++ "'"
  | .content (.duplicate member) => Snapshot.duplicateText member
  | .write => "Failed to write snapshot '" ++ path ++ "'"

/-- The sentence that reports the failure of a command. -/
def Fault.message : Fault → String
  | configMissing path =>
      "Config file '" ++ path ++ "' not found. Run `warden init` to create one."
  | configExists path => "Config file '" ++ path ++ "' already exists (use --force to overwrite)"
  | config path fault => configFaultText path fault
  | logDirectory obstacle => obstacle.text
  | logFile path obstacle => "Failed to open log file '" ++ path ++ "': " ++ obstacle.text
  | snapshot path fault => snapshotFaultText path fault
  | now text => "Invalid --now '" ++ text ++ "'"
  | store fault => fault.message
  | reminder fault => fault.message

/-- What a command works on: files, and what it has printed. -/
structure Desk where
  files : Files
  printed : String

/-- A piece of a command's work. -/
abbrev Errand := ExceptT Fault (StateM Desk)

namespace Errand

def print (text : String) : Errand Unit :=
  modify fun desk => { desk with printed := desk.printed ++ text }

def files : Errand Files := return (← get).files

def setFiles (files : Files) : Errand Unit := modify fun desk => { desk with files := files }

/-- Go on with a value, or fail in the terms of commands. -/
def ofExcept {ε α : Type} (fault : ε → Fault) (value : Except ε α) : Errand α :=
  ExceptT.mk (pure (value.mapError fault))

end Errand

structure Surroundings where
  directories : UserDirectories
  now : Instant

/-- The configuration file that a command is to use. -/
def Surroundings.configPath (place : Surroundings) (given : Option String) : String :=
  given.getD place.directories.configFile

namespace Errand

def loadConfig (place : Surroundings) (path : String) : Errand Config := do
  let tree ← files
  if !tree.contains (.ofString path) then throw (.configMissing path)
  ofExcept (.config path) (Config.load tree (.ofString path) place.directories.storeFile)

/-- The settings of the configuration at a path. -/
def settingsOf (path : String) (config : Config) : Errand Settings :=
  ofExcept (.config path ∘ .refused) config.settings

def openLog (logging : Config.LoggingSection) : Errand Unit := do
  match logging.file with
  | none => pure ()
  | some path =>
      setFiles (← ofExcept .logDirectory ((← files).makeParent (.ofString path)))
      setFiles (← ofExcept (.logFile path) ((← files).touch (.ofString path)))

def loadSnapshot (path : String) : Errand (List Member) := do
  ofExcept (.snapshot path) (Snapshot.load (← files) (.ofString path))

def isPresent (path : String) : Errand Bool := return (← files).contains (.ofString path)

/-- The last reminder on record in the store at a path. -/
def lastReminder (path : String) : Errand (Option MessageId) := do
  let (opened, tree) ← ofExcept .store ((← files).openStore path)
  setFiles tree
  return ReminderRecord.stored? opened.store

/-- The instant that was given, or the present one. -/
def instantOf (place : Surroundings) : Option String → Errand Instant
  | none => pure place.now
  | some text =>
      match Instant.readStrict? text.toList with
      | some now => pure now
      | none => throw (.now text)

/-- Create a configuration file for a start. -/
def create (place : Surroundings) (config storePath : Option String) (overwrite : Bool)
    : Errand Unit := do
  let path := place.configPath config
  let store := storePath.getD place.directories.storeFile
  if (← isPresent path) && !overwrite then throw (.configExists path)
  let (written, tree) := Config.createDefault (← files) (.ofString path) store
  setFiles tree
  ofExcept (.config path) written
  print ("📝 Created configuration: " ++ path ++ "\n   Store: " ++ store ++ "\n\n"
    ++ "Edit the guild, role and channel ids before running warden.\n")

/-- Tell what a pass over a snapshot would do. -/
def check (place : Surroundings) (members : String) (config now : Option String)
    : Errand Unit := do
  let path := place.configPath config
  let config ← loadConfig place path
  openLog config.logging
  let settings ← settingsOf path config
  let snapshot ← loadSnapshot members
  let now ← instantOf place now
  print (settings.reconcile.preview now snapshot).text

/-- Simulate the service on a snapshot. The store is only looked at. -/
def simulate (place : Surroundings) (members : String) (config : Option String)
    (answer : ScriptedAnswer) : Errand Unit := do
  let path := place.configPath config
  let config ← loadConfig place path
  openLog config.logging
  let settings ← settingsOf path config
  let snapshot ← loadSnapshot members
  let last ← if ← isPresent settings.storePath then lastReminder settings.storePath else pure none
  let simulation ← ofExcept .reminder (Simulation.run settings answer place.now snapshot last)
  print simulation.text

/-- Tell which reminder is on record and when the next one is due. -/
def reminderStatus (place : Surroundings) (config : Option String) : Errand Unit := do
  let path := place.configPath config
  let config ← loadConfig place path
  let settings ← settingsOf path config
  print ("📊 Reminder status\nStore: " ++ settings.storePath ++ "\n\n")
  if ← isPresent settings.storePath then
    let last ← lastReminder settings.storePath
    print (reminderStatusText last settings.reminder.frequency place.now)
  else print "No store yet, the first reminder goes out immediately.\n"

def version : Errand Unit :=
  print (versionLine ++ "Member verification reconciliation service\n")

end Errand

def errand (place : Surroundings) : Command → Errand Unit
  | .init config storePath overwrite => Errand.create place config storePath overwrite
  | .check members config now => Errand.check place members config now
  | .simulate members config answer => Errand.simulate place members config answer
  | .reminderStatus config => Errand.reminderStatus place config
  | .version => Errand.version

/-- Run a command on files: how it ends, and what it leaves behind. -/
def run (command : Command) (place : Surroundings) (files : Files)
    : Except Fault Unit × Desk :=
  (command.errand place).run ⟨files, ""⟩

end Gatehouse.Command
