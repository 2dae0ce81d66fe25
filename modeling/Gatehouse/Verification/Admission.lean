import Gatehouse.Program

/-! Members who join and members who accept the rules. The change of roles is required; the
private message is sent if it can be.
-/

namespace Gatehouse

structure AdmissionSettings where
  verifiedRole : RoleId
  pendingRole : RoleId
  welcomeMessage : String
  verifiedMessage : String
deriving DecidableEq

namespace AdmissionSettings

def defaultWelcome : String :=
  "Hello! Welcome to the community!\n\nIn order to send messages, you first have to accept our "
    ++ "rules. Please read them in the verification channel. Thank you!"

def defaultVerified : String :=
  "Thanks for verifying yourself!\n\nYou can now send messages in the community. "
    ++ "Welcome aboard!"

/-- Admission with the messages that are built in. -/
def ofRoles (verifiedRole pendingRole : RoleId) : AdmissionSettings :=
  ⟨verifiedRole, pendingRole, defaultWelcome, defaultVerified⟩

def reason : String := "Accepted the rules"

/-- Send a private message; a failure is noted and stops nothing. -/
def tell (member : MemberId) (text note : String) : Program Unit := do
  match ← Program.call (.sendDirect member text) with
  | .ok _ => pure ()
  | .error failure =>
      Program.log .info note [("member", member.text), ("error", failure.text)]

/-- Take the pending role from a member who holds it. -/
def dropPending (settings : AdmissionSettings) (member : Member) : Program (Outcome Unit) :=
  if member.holds settings.pendingRole then
    Program.call (.removeRole member.id settings.pendingRole reason)
  else pure (.ok ())

/-- Verify a member: grant the verified role, take the pending role, thank the member. -/
def accept (settings : AdmissionSettings) (member : Member) : Program (Outcome Unit) := do
  Program.log .debug "Accepting member" [("member", member.id.text)]
  match ← Program.call (.addRole member.id settings.verifiedRole reason) with
  | .error failure => pure (.error failure)
  | .ok _ =>
      match ← settings.dropPending member with
      | .error failure => pure (.error failure)
      | .ok _ => do
          tell member.id settings.verifiedMessage "Failed to send verification confirmation"
          pure (.ok ())

/-- Greet a member who joined; bots are not greeted. -/
def welcome (settings : AdmissionSettings) (member : Member) : Program Unit :=
  if member.bot then pure ()
  else tell member.id settings.welcomeMessage "Failed to send welcome message"

end AdmissionSettings

end Gatehouse
