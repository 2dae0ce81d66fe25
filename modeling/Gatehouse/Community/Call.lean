import Gatehouse.Community.Failure
import Gatehouse.Community.Member
import Gatehouse.Time.Duration

/-! What the service asks of a chat platform: calls, each with the type of its answer.
-/

namespace Gatehouse

/-- A reaction that someone put on a message. -/
structure Reaction where
  message : MessageId
  token : String
  actor : MemberId
  byBot : Bool
deriving DecidableEq

/-- A wait for a reaction on a message, by one of the tokens and within a time. -/
structure ReactionWait where
  message : MessageId
  allowed : List String
  timeout : Duration
  excludeBots : Bool
deriving DecidableEq

/-- The reaction is one that the wait is for. -/
def ReactionWait.accepts (wait : ReactionWait) (reaction : Reaction) : Bool :=
  reaction.message = wait.message && wait.allowed.contains reaction.token
    && !(wait.excludeBots && reaction.byBot)

inductive Call
  | listMembers
  | countMembers
  | addRole (member : MemberId) (role : RoleId) (reason : String)
  | removeRole (member : MemberId) (role : RoleId) (reason : String)
  | kick (member : MemberId) (reason : String)
  | send (channel : ChannelId) (text : String)
  | delete (channel : ChannelId) (message : MessageId)
  | edit (channel : ChannelId) (message : MessageId) (text : String)
  | react (channel : ChannelId) (message : MessageId) (token : String)
  | clearReactions (channel : ChannelId) (message : MessageId)
  | awaitReaction (wait : ReactionWait)
  | sendDirect (member : MemberId) (text : String)
deriving DecidableEq

abbrev Call.Reply : Call → Type
  | .listMembers => Outcome (List Member)
  | .countMembers => Outcome Nat
  | .send .. => Outcome MessageId
  | .awaitReaction _ => Option (String × MemberId)
  | .addRole .. | .removeRole .. | .kick .. | .delete .. | .edit .. | .react ..
  | .clearReactions .. | .sendDirect .. => Outcome Unit

/-- The weight of a report. -/
inductive Severity
  | info
  | warning
  | alert
deriving DecidableEq, Repr

/-- A report on what the service did. -/
structure Report where
  title : String
  text : String
  severity : Severity
deriving DecidableEq, Repr

end Gatehouse
