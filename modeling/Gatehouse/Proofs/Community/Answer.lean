import Gatehouse.Proofs.Reactions.Delivery

/-! What a call makes of a community. It leaves everything as it is, or it makes one change: a
record put in place of another one of the same member, a member removed, a message posted or
changed in its place, a private message, or a wait.
-/

namespace Gatehouse.Community

/-- The change that a call makes, or none. A call that fails makes none. -/
inductive Moves (before : Community) : Call → Community → Prop
  | nothing {call : Call} : before.Moves call before
  | recorded {call : Call} {id : MemberId} {record changed : Member}
    (found : before.member? id = some record) (own : changed.id = id)
    : before.Moves call { before with members := before.members.add changed }
  | removed {id : MemberId} {reason : String} {record : Member}
    (found : before.member? id = some record)
    : before.Moves (.kick id reason)
        { before with
          members := before.members.remove id
          kicked := before.kicked ++ [id] }
  | posted {channel : ChannelId} {text : String} (sends : before.sendsFail = false)
    : before.Moves (.send channel text) (before.seed channel text before.now).2
  | altered {call : Call} {message : MessageId} {post changed : Post}
    (found : before.posts.find? message = some post) (channel : changed.channel = post.channel)
    (still : post.deleted = true → changed.deleted = true)
    : before.Moves call { before with posts := before.posts.insert message changed }
  | told {member : MemberId} {text : String}
    : before.Moves (.sendDirect member text)
        { before with directMessages := before.directMessages ++ [(member, text)] }
  | waited {wait : ReactionWait} : before.Moves (.awaitReaction wait) (before.await wait).2

variable {community : Community} {call : Call}

/-- A change of roles, when it is made, leaves the member its identifier. -/
theorem changeRoles_moves {member : MemberId} {attempt : String} {change : Member → Member}
    (own : ∀ record, (change record).id = record.id)
    : community.Moves call (community.changeRoles member attempt change).2 := by
  unfold changeRoles
  split
  · exact .nothing
  · split
    · exact .nothing
    · next record found => exact .recorded found ((own record).trans (Roster.id_of_find? found))

/-- A change of a message, when it is made, leaves it where it is. -/
theorem changePost_moves {message : MessageId} {change : Post → Post}
    (channel : ∀ post, (change post).channel = post.channel)
    (still : ∀ post, (change post).deleted = post.deleted)
    : community.Moves call (community.changePost message change).2 := by
  unfold changePost
  split
  · exact .nothing
  · next post found => exact .altered found (channel post) fun gone => (still post).trans gone

theorem kick_moves {member : MemberId} {reason : String}
    : community.Moves (.kick member reason) (community.kick member).2 := by
  unfold kick
  split
  · exact .nothing
  · split
    · exact .nothing
    · next found => exact .removed found

theorem delete_moves {message : MessageId}
    : community.Moves call (community.delete message).2 := by
  unfold delete
  split
  · exact .nothing
  · split
    · exact .nothing
    · next post found =>
      split
      · exact .nothing
      · exact .altered found rfl fun _ => rfl

theorem send_moves {channel : ChannelId} {text : String}
    : community.Moves (.send channel text) (community.send channel text).2 := by
  unfold send
  split
  · exact .nothing
  · next sends => exact .posted (Bool.eq_false_iff.mpr sends)

/-- Every call makes one of the changes that go with it, or none. -/
theorem answer_moves (community : Community) (call : Call)
    : community.Moves call (community.answer call).2 := by
  cases call with
  | listMembers | countMembers => exact .nothing
  | addRole member role reason | removeRole member role reason =>
      exact changeRoles_moves fun _ => rfl
  | kick member reason => exact kick_moves
  | send channel text => exact send_moves
  | delete channel message => exact delete_moves
  | edit channel message text | react channel message token | clearReactions channel message =>
      exact changePost_moves (fun _ => rfl) fun _ => rfl
  | awaitReaction wait => exact .waited
  | sendDirect member text =>
      simp only [answer, sendDirect]
      split
      · exact .nothing
      · exact .told

end Gatehouse.Community
