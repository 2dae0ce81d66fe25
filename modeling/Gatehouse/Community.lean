import Gatehouse.Community.MessageId
import Gatehouse.Community.Roster
import Gatehouse.Program
import Gatehouse.Reactions.Hub

/-! A community held in memory. It answers every call of the service from its own tables, can be
told to fail, and keeps reactions to be delivered to the next wait.
-/

namespace Gatehouse

structure Post where
  channel : ChannelId
  content : String
  reactions : List String
  deleted : Bool
  edited : Bool
deriving DecidableEq

/-- A reaction kept for the next wait: on the message waited for, or beside it. -/
structure ScriptedReaction where
  token : String
  actor : MemberId
  byBot : Bool
  onPrompt : Bool
deriving DecidableEq

/-- A community with its members and messages. -/
structure Community where
  /-- The time at which messages are posted. -/
  now : Instant
  /-- How many messages have been posted. -/
  sequence : Nat
  members : Roster
  /-- The failure of every listing and count, if they fail. -/
  listingFailure : Option CallFailure
  roleFailures : OrderedMap MemberId FailureCode
  kickFailures : OrderedMap MemberId FailureCode
  directFailures : OrderedSet MemberId
  deletesFail : Bool
  sendsFail : Bool
  posts : OrderedMap MessageId Post
  scripted : List ScriptedReaction
  /-- How many waits have begun. -/
  awaits : Nat
  reports : List Report
  directMessages : List (MemberId × String)
  /-- Who was removed, in order. -/
  kicked : List MemberId
  hub : ReactionHub
deriving DecidableEq

namespace Community

def empty (now : Instant) : Community where
  now := now
  sequence := 0
  members := ∅
  listingFailure := none
  roleFailures := ∅
  kickFailures := ∅
  directFailures := ∅
  deletesFail := false
  sendsFail := false
  posts := ∅
  scripted := []
  awaits := 0
  reports := []
  directMessages := []
  kicked := []
  hub := .standard

def addMember (community : Community) (member : Member) : Community :=
  { community with members := community.members.add member }

/-- A community of these members; of two with one identifier the later one stays. -/
def ofMembers (now : Instant) (members : List Member) : Community :=
  members.foldl addMember (empty now)

def member? (community : Community) (id : MemberId) : Option Member :=
  community.members.find? id

/-- The members, by ascending identifier. -/
def memberList (community : Community) : List Member := community.members.toList

/-- Keep a reaction for the next wait. -/
def script (community : Community) (reaction : ScriptedReaction) : Community :=
  { community with scripted := community.scripted ++ [reaction] }

/-- Hand a reaction to those who wait, and tell how many those are. -/
def publish (community : Community) (reaction : Reaction) : Nat × Community :=
  let (reached, hub) := community.hub.publish reaction
  (reached, { community with hub := hub })

/-- Post a message as of an instant. -/
def seed (community : Community) (channel : ChannelId) (content : String) (at_ : Instant)
    : MessageId × Community :=
  let id := MessageId.mint at_ community.sequence
  (id,
    { community with
      sequence := community.sequence + 1
      posts := community.posts.insert id ⟨channel, content, [], false, false⟩ })

/-- The messages of a channel, by ascending identifier. -/
def postsIn (community : Community) (channel : ChannelId) : List (MessageId × Post) :=
  community.posts.entries.filter fun entry => entry.2.channel = channel

-------------------------------------------------------------------------------
-- Told to fail
-------------------------------------------------------------------------------

/-- Let listings and counts fail, or no longer. -/
def failListing (community : Community) (failure : Option CallFailure) : Community :=
  { community with listingFailure := failure }

/-- Let every change of a member's roles fail. -/
def failRoles (community : Community) (member : MemberId) (code : FailureCode) : Community :=
  { community with roleFailures := community.roleFailures.insert member code }

/-- Let every attempt to remove a member fail. -/
def failKick (community : Community) (member : MemberId) (code : FailureCode) : Community :=
  { community with kickFailures := community.kickFailures.insert member code }

/-- Let every private message to a member fail. -/
def failDirect (community : Community) (member : MemberId) : Community :=
  { community with directFailures := community.directFailures.insert member }

/-- Let messages to channels fail, or no longer. -/
def failSends (community : Community) (fails : Bool) : Community :=
  { community with sendsFail := fails }

def failDeletes (community : Community) (fails : Bool) : Community :=
  { community with deletesFail := fails }

def setNow (community : Community) (now : Instant) : Community :=
  { community with now := now }

-------------------------------------------------------------------------------
-- Calls
-------------------------------------------------------------------------------

def unknownMember (member : MemberId) : CallFailure :=
  .notFound ("unknown member " ++ member.text)

def unknownMessage (message : MessageId) : CallFailure :=
  .notFound ("unknown message " ++ message.text)

/-- Change the record of a member whose roles can be changed. -/
def changeRoles (community : Community) (member : MemberId) (attempt : String)
    (change : Member → Member) : Outcome Unit × Community :=
  match community.roleFailures.find? member with
  | some code => (.error ⟨code, attempt⟩, community)
  | none =>
      match community.members.find? member with
      | none => (.error (unknownMember member), community)
      | some record =>
          (.ok (), { community with members := community.members.add (change record) })

/-- Change a message that is there. -/
def changePost (community : Community) (message : MessageId) (change : Post → Post)
    : Outcome Unit × Community :=
  match community.posts.find? message with
  | none => (.error (unknownMessage message), community)
  | some post =>
      (.ok (), { community with posts := community.posts.insert message (change post) })

def kick (community : Community) (member : MemberId) : Outcome Unit × Community :=
  match community.kickFailures.find? member with
  | some code => (.error ⟨code, "kick " ++ member.text⟩, community)
  | none =>
      match community.members.find? member with
      | none => (.error (unknownMember member), community)
      | some _ =>
          (.ok (),
            { community with
              members := community.members.remove member
              kicked := community.kicked ++ [member] })

def delete (community : Community) (message : MessageId) : Outcome Unit × Community :=
  if community.deletesFail then (.error ⟨.http 500, "delete failed"⟩, community)
  else
    match community.posts.find? message with
    | none => (.error (unknownMessage message), community)
    | some post =>
        if post.deleted then (.error (unknownMessage message), community)
        else
          (.ok (),
            { community with
              posts := community.posts.insert message { post with deleted := true } })

def send (community : Community) (channel : ChannelId) (text : String)
    : Outcome MessageId × Community :=
  if community.sendsFail then (.error ⟨.unavailable, "send failed"⟩, community)
  else
    let (id, community) := community.seed channel text community.now
    (.ok id, community)

def sendDirect (community : Community) (member : MemberId) (text : String)
    : Outcome Unit × Community :=
  if community.directFailures.contains member then
    (.error ⟨.forbidden, "direct messages disabled"⟩, community)
  else
    (.ok (),
      { community with directMessages := community.directMessages ++ [(member, text)] })

/-- A listing or a count, which fail together. -/
def listing {α : Type} (community : Community) (answer : α) : Outcome α :=
  match community.listingFailure with
  | some failure => .error failure
  | none => .ok answer

-------------------------------------------------------------------------------
-- Waiting
-------------------------------------------------------------------------------

/-- A kept reaction as it is delivered to a wait on a message; the one beside it falls on the
message with the next identifier.
-/
def ScriptedReaction.deliver (reaction : ScriptedReaction) (message : MessageId) : Reaction :=
  let target := if reaction.onPrompt then message else ⟨message.word + 1⟩
  ⟨target, reaction.token, reaction.actor, reaction.byBot⟩

/-- Begin a wait: subscribe it, then deliver the reactions that were kept. -/
def beginWait (community : Community) (message : MessageId) : Nat × Community :=
  let (ticket, hub) := community.hub.subscribe
  let delivered := community.scripted.map fun r => ScriptedReaction.deliver r message
  (ticket,
    { community with
      awaits := community.awaits + 1
      scripted := []
      hub := hub.publishAll delivered })

/-- Look whether a wait has what it is for. -/
def look (community : Community) (ticket : Nat) (wait : ReactionWait)
    : Sighting × Community :=
  let (sighting, hub) := community.hub.look ticket wait
  (sighting, { community with hub := hub })

def giveUp (community : Community) (ticket : Nat) : Community :=
  { community with hub := community.hub.unsubscribe ticket }

/-- Wait until a reaction is there or the time is over, when nothing else happens meanwhile. -/
def await (community : Community) (wait : ReactionWait)
    : Option (String × MemberId) × Community :=
  let (ticket, community) := community.beginWait wait.message
  match community.look ticket wait with
  | (.found token actor, community) => (some (token, actor), community)
  | (.over, community) => (none, community)
  | (.nothing, community) => (none, community.giveUp ticket)

def answer (community : Community) : (call : Call) → call.Reply × Community
  | .listMembers => (community.listing community.memberList, community)
  | .countMembers => (community.listing community.members.size, community)
  | .addRole member role _ =>
      community.changeRoles member ("add role " ++ role.text ++ " to " ++ member.text)
        (·.grant role)
  | .removeRole member role _ =>
      community.changeRoles member ("remove role " ++ role.text ++ " from " ++ member.text)
        (·.revoke role)
  | .kick member _ => community.kick member
  | .send channel text => community.send channel text
  | .delete _ message => community.delete message
  | .edit _ message text =>
      community.changePost message fun post => { post with content := text, edited := true }
  | .react _ message token =>
      community.changePost message fun post =>
        { post with reactions := post.reactions ++ [token] }
  | .clearReactions _ message =>
      community.changePost message fun post => { post with reactions := [] }
  | .awaitReaction wait => community.await wait
  | .sendDirect member text => community.sendDirect member text

def fileReport (community : Community) (report : Report) : Community :=
  { community with reports := community.reports ++ [report] }

end Community

end Gatehouse
