import Gatehouse.Ordered.Map
import Gatehouse.Ordered.Set
import Gatehouse.Program

/-! Carrying out an action on a batch. Every member is attempted once, in ascending order, and a
failure is counted under its code and stops nothing.
-/

namespace Gatehouse

/-- What came of a batch. -/
structure Tally where
  requested : Nat
  succeeded : Nat
  /-- How many attempts failed with each code that occurred. -/
  failures : OrderedMap FailureCode Nat
deriving DecidableEq

namespace Tally

def empty : Tally := ⟨0, 0, ∅⟩

def record (tally : Tally) : Outcome Unit → Tally
  | .ok _ =>
      { tally with requested := tally.requested + 1, succeeded := tally.succeeded + 1 }
  | .error failure =>
      let before := (tally.failures.find? failure.code).getD 0
      { tally with
        requested := tally.requested + 1
        failures := tally.failures.insert failure.code (before + 1) }

def failed (tally : Tally) : Nat := tally.requested - tally.succeeded

/-- The codes that occurred, in order. -/
def failureCodes (tally : Tally) : List FailureCode := tally.failures.keys

/-- Successes of attempts. -/
def text (tally : Tally) : String :=
  Numeral.text tally.succeeded ++ "/" ++ Numeral.text tally.requested

def codesText (tally : Tally) : String :=
  ", ".intercalate (tally.failureCodes.map FailureCode.text)

end Tally

/-- Attempt an action on each of a list of members. -/
def attemptEach (action : MemberId → Program (Outcome Unit)) (tally : Tally)
    : List MemberId → Program Tally
  | [] => pure tally
  | member :: rest => do
      let outcome ← action member
      attemptEach action (tally.record outcome) rest

/-- Note the failures of a batch, if there are any. -/
def noteFailures (tally : Tally) (verb noun : String) : Program Unit :=
  if tally.failed = 0 then pure ()
  else
    Program.log .info ("Failed to " ++ verb ++ " " ++ Numeral.text tally.failed ++ " " ++ noun
      ++ " due to following codes: " ++ tally.codesText) []

/-- Give a role to every member of a set. -/
def assignRole (members : OrderedSet MemberId) (role : RoleId) (reason : String)
    : Program Tally := do
  Program.log .info "assigning role to members"
    [("role", role.text), ("count", Numeral.text members.size)]
  let tally ← attemptEach (fun member => Program.call (.addRole member role reason)) .empty
    members.toList
  noteFailures tally "assign" "roles"
  pure tally

/-- Remove every member of a set from the community. -/
def removeMembers (members : OrderedSet MemberId) (reason : String) : Program Tally := do
  Program.log .info "removing members from the community"
    [("count", Numeral.text members.size)]
  let tally ← attemptEach (fun member => Program.call (.kick member reason)) .empty
    members.toList
  noteFailures tally "remove" "members"
  pure tally

end Gatehouse
