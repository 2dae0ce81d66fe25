import Gatehouse.Decimal.Fixed
import Gatehouse.Program

/-! The gate before a removal. A small share of the community is removed without asking; for any
other a prompt is posted, and one reviewer's reaction within a bounded time decides. Whatever
comes of it, the prompt is cleared of reactions and says the outcome.
-/

namespace Gatehouse

inductive Decision
  | autoApproved
  | humanApproved
  | humanDenied
  | timedOut
deriving DecidableEq, Repr

namespace Decision

/-- The removal may go on. -/
def permits : Decision → Bool
  | autoApproved | humanApproved => true
  | humanDenied | timedOut => false

def text : Decision → String
  | autoApproved => "auto-approved"
  | humanApproved => "authorized"
  | humanDenied => "denied"
  | timedOut => "not answered"

end Decision

/-- How a gate asks. -/
structure GateSettings where
  /-- The share of the community from which on a removal needs an answer. -/
  threshold : Float
  timeout : Duration
  reviewChannel : ChannelId
  reviewerRole : Option RoleId
  approveToken : String
  denyToken : String

/-- The share of the community that a batch is; nothing of an empty community is all of it. -/
def removalShare (candidates total : Nat) : Float :=
  if total = 0 then 1.0 else candidates.toFloat / total.toFloat

/-- A batch of this size needs an answer. -/
def needsConfirmation (candidates total : Nat) (threshold : Float) : Bool :=
  threshold ≤ removalShare candidates total

/-- A share in percent, to two places. -/
def percentText (share : Float) : String :=
  Decimal.fixedText (share * 100.0) 2

namespace GateSettings

def promptText (settings : GateSettings) (candidates total days : Nat) : String :=
  let mention := match settings.reviewerRole with
    | some role => role.mention ++ " "
    | none => ""
  mention ++ "Verification determined that `" ++ Numeral.text candidates
    ++ "` members should be removed as they haven't verified in `" ++ Numeral.text days
    ++ "` days. This is `" ++ percentText (removalShare candidates total)
    ++ "%` of the community's population. Proceed?"

/-- What the prompt says in the end. -/
def outcomeText (candidates : Nat) (decision : Decision) : String :=
  "Request to remove `" ++ Numeral.text candidates ++ "` members was " ++ decision.text ++ "!"

def tokens (settings : GateSettings) : List String :=
  [settings.approveToken, settings.denyToken]

/-- The decision that a reaction, or its absence, makes. -/
def decisionOf (settings : GateSettings) : Option (String × MemberId) → Decision
  | none => .timedOut
  | some (token, _) => if token = settings.approveToken then .humanApproved else .humanDenied

/-- Note a failed call that does not stop the gate. -/
def tolerate (outcome : Outcome Unit) (note : String) (fields : List (String × String))
    : Program Unit :=
  match outcome with
  | .ok _ => pure ()
  | .error failure => Program.log .debug note (fields ++ [("error", failure.text)])

/-- Offer a token as a reaction to the prompt. -/
def offer (settings : GateSettings) (prompt : MessageId) (token : String) : Program Unit := do
  let outcome ← Program.call (.react settings.reviewChannel prompt token)
  tolerate outcome "failed to attach response reaction" [("token", token)]

/-- Note the answer that came in. -/
def noteAnswer (settings : GateSettings) : Option (String × MemberId) → Program Unit
  | none => Program.log .debug "Reviewer prompt not answered, aborting operation" []
  | some (token, actor) =>
      let approved := if token = settings.approveToken then "true" else "false"
      Program.log .debug ("Received answer: " ++ token ++ ", result: " ++ approved)
        [("actor", actor.text)]

/-- Wait for the answer to a posted prompt and settle the prompt. -/
def settle (settings : GateSettings) (candidates : Nat) (prompt : MessageId)
    : Program Decision := do
  settings.offer prompt settings.approveToken
  settings.offer prompt settings.denyToken
  let answer ← Program.call (.awaitReaction ⟨prompt, settings.tokens, settings.timeout, true⟩)
  let cleared ← Program.call (.clearReactions settings.reviewChannel prompt)
  tolerate cleared "failed to clear prompt reactions" []
  settings.noteAnswer answer
  let decision := settings.decisionOf answer
  let edited ← Program.call
    (.edit settings.reviewChannel prompt (outcomeText candidates decision))
  tolerate edited "failed to edit prompt with final outcome" []
  pure decision

/-- Decide whether a removal may go on. It fails only when the prompt cannot be posted. -/
def authorize (settings : GateSettings) (candidates total days : Nat)
    : Program (Outcome Decision) := do
  Program.log .debug
    ("Checking whether " ++ Numeral.text candidates ++ " members are safe to remove") []
  if !needsConfirmation candidates total settings.threshold then
    Program.log .debug ("Removing " ++ percentText (removalShare candidates total)
      ++ "% of the population is seen as safe") []
    pure (.ok .autoApproved)
  else
    Program.log .debug "Amount of members is too large, requesting reviewer confirmation" []
    match ← Program.call
        (.send settings.reviewChannel (settings.promptText candidates total days)) with
    | .error failure => pure (.error failure)
    | .ok prompt => return .ok (← settings.settle candidates prompt)

end GateSettings

end Gatehouse
