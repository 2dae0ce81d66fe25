import Gatehouse.Config

/-! The configuration file that is written for a start: every field with its default and a comment,
and numbers to be replaced for the identifiers.
-/

namespace Gatehouse.Config

/-- The template up to the place of the store. -/
def templateHead : String :=
  "# Warden Configuration\n"
    ++ "#\n"
    ++ "# Replace the ids below with the ids of your community, roles and channels.\n"
    ++ "\n"
    ++ "[guild]\n"
    ++ "# Community id (also the id of the role every member holds)\n"
    ++ "id = 1\n"
    ++ "\n"
    ++ "[roles]\n"
    ++ "# Role given to members who have not verified after `warning_after`\n"
    ++ "pending = 2\n"
    ++ "\n"
    ++ "# Roles that do not count as verification (the guild role is always included)\n"
    ++ "baseline = []\n"
    ++ "\n"
    ++ "# Role granted when a member accepts the rules\n"
    ++ "verified = 3\n"
    ++ "\n"
    ++ "# Role mentioned on confirmation prompts (optional)\n"
    ++ "# reviewers = 4\n"
    ++ "\n"
    ++ "[channels]\n"
    ++ "# Where removal confirmation prompts are posted\n"
    ++ "review = 10\n"
    ++ "\n"
    ++ "# Where the recurring reminder is posted\n"
    ++ "reminder = 11\n"
    ++ "\n"
    ++ "# Where reports are mirrored (optional)\n"
    ++ "# audit = 12\n"
    ++ "\n"
    ++ "[policy]\n"
    ++ "# Unverified members get the pending role after this long\n"
    ++ "warning_after = \"3days\"\n"
    ++ "\n"
    ++ "# Unverified members are removed after this long\n"
    ++ "removal_after = \"30days\"\n"
    ++ "\n"
    ++ "# Share of the population (0.0 - 1.0) below which removal needs no confirmation.\n"
    ++ "# 0.0 means every removal batch must be confirmed.\n"
    ++ "confirmation_threshold = 0.0\n"
    ++ "\n"
    ++ "# How long reviewers have to answer a prompt\n"
    ++ "confirmation_timeout = \"5m\"\n"
    ++ "\n"
    ++ "# Time between reconciliation passes\n"
    ++ "reconcile_interval = \"30m\"\n"
    ++ "\n"
    ++ "approve_token = \"" ++ PolicySection.standard.approveToken ++ "\"\n"
    ++ "deny_token = \"" ++ PolicySection.standard.denyToken ++ "\"\n"
    ++ "\n"
    ++ "[reminder]\n"
    ++ "# Time between reminders\n"
    ++ "frequency = \"28h\"\n"
    ++ "\n"
    ++ "# Override the reminder text (optional)\n"
    ++ "# message = \"...\"\n"
    ++ "\n"
    ++ "[store]\n"
    ++ "# SQLite database holding the last reminder id\n"
    ++ "path = \""

/-- The template behind the place of the store. -/
def templateTail : String :=
  "\"\n"
    ++ "\n"
    ++ "[logging]\n"
    ++ "# Log level: trace, debug, info, warn, error\n"
    ++ "level = \"info\"\n"
    ++ "\n"
    ++ "# Log file path (optional, logs to stderr if not specified)\n"
    ++ "# file = \"/var/log/warden/warden.log\"\n"

/-- The template for a place of the store, which stands in it as it is. -/
def template (storePath : String) : String :=
  templateHead ++ storePath ++ templateTail

end Gatehouse.Config
