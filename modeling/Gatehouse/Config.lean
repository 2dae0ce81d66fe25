import Gatehouse.Identity

/-! The configuration of the service, section by section. Durations stand as they are written; what
a file leaves out has the default given here.
-/

namespace Gatehouse

/-- Directories of the user, from the environment. -/
structure UserDirectories where
  home : String
  configHome : Option String
  dataHome : Option String
deriving DecidableEq

namespace UserDirectories

def join (directory path : String) : String :=
  if directory.isEmpty || directory.toList.getLast? = some '/' then directory ++ path
  else directory ++ "/" ++ path

/-- A directory that was set counts when it is absolute; else its place under the home stands. -/
def base (directories : UserDirectories) (set : Option String) (fallback : String) : String :=
  match set with
  | some path =>
      if path.toList.head? = some '/' then path else join directories.home fallback
  | none => join directories.home fallback

def configFile (directories : UserDirectories) : String :=
  join (directories.base directories.configHome ".config") "warden/config.toml"

def storeFile (directories : UserDirectories) : String :=
  join (directories.base directories.dataHome ".local/share") "warden/warden.db"

end UserDirectories

namespace Config

structure RolesSection where
  /-- The role of members who have not verified. -/
  pending : RoleId
  /-- Roles that do not count as verification, beside the one that everyone holds. -/
  baseline : List RoleId
  /-- The role that is granted on acceptance. -/
  verified : RoleId
  /-- The role that is called to a prompt. -/
  reviewers : Option RoleId
deriving DecidableEq

structure ChannelsSection where
  /-- The channel of prompts. -/
  review : ChannelId
  /-- The channel of the reminder. -/
  reminder : ChannelId
  /-- The channel of reports. -/
  audit : Option ChannelId
deriving DecidableEq

structure PolicySection where
  warningAfter : String
  removalAfter : String
  confirmationThreshold : Float
  confirmationTimeout : String
  reconcileInterval : String
  approveToken : String
  denyToken : String
deriving BEq

structure ReminderSection where
  frequency : String
  /-- The text of the reminder, if it is not the built-in one. -/
  message : Option String
deriving DecidableEq

structure LoggingSection where
  level : String
  file : Option String
deriving DecidableEq

def PolicySection.standard : PolicySection where
  warningAfter := "3days"
  removalAfter := "30days"
  confirmationThreshold := 0.0
  confirmationTimeout := "5m"
  reconcileInterval := "30m"
  approveToken := "✅"
  denyToken := "❌"

def ReminderSection.standard : ReminderSection := ⟨"28h", none⟩

def LoggingSection.standard : LoggingSection := ⟨"info", none⟩

end Config

structure Config where
  community : CommunityId
  roles : Config.RolesSection
  channels : Config.ChannelsSection
  policy : Config.PolicySection
  reminder : Config.ReminderSection
  storePath : String
  logging : Config.LoggingSection
deriving BEq

/-- A configuration with defaults for all that has one. -/
def Config.ofIds (community : CommunityId) (pending verified : RoleId)
    (review reminder : ChannelId) (storePath : String) : Config where
  community := community
  roles := ⟨pending, [], verified, none⟩
  channels := ⟨review, reminder, none⟩
  policy := .standard
  reminder := .standard
  storePath := storePath
  logging := .standard

end Gatehouse
