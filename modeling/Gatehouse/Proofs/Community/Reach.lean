import Gatehouse.Proofs.Community.Filing
import Gatehouse.Proofs.Community.Renaming

/-! How far calls reach. A call that fails reaches nothing, whatever it has looked at before. One
that succeeds reaches the member or the message that it names, or the message that it posts, and
nothing else. So over a whole run everyone and everything stays as it is that nothing names.
-/

namespace Gatehouse

-------------------------------------------------------------------------------
-- What a call is about
-------------------------------------------------------------------------------

namespace Call

/-- The member that a call names, if it names one. -/
def member? : Call → Option MemberId
  | .addRole member _ _ | .removeRole member _ _ | .kick member _ | .sendDirect member _ =>
      some member
  | _ => none

/-- The message that a call names, if it names one. -/
def message? : Call → Option MessageId
  | .delete _ message | .edit _ message _ | .react _ message _ | .clearReactions _ message =>
      some message
  | .awaitReaction wait => some wait.message
  | _ => none

/-- What a call is to make of the member that it names; none if the member has to go. -/
def changeMember : Call → Member → Option Member
  | .addRole _ role _, record => some (record.grant role)
  | .removeRole _ role _, record => some (record.revoke role)
  | .kick .., _ => none
  | _, record => some record

/-- What a call is to make of the message that it names. -/
def changePost : Call → Post → Post
  | .delete .., post => { post with deleted := true }
  | .edit _ _ text, post => { post with content := text, edited := true }
  | .react _ _ token, post => { post with reactions := post.reactions ++ [token] }
  | .clearReactions .., post => { post with reactions := [] }
  | _, post => post

/-- The message that a call is to post. -/
def newPost? : Call → Option Post
  | .send channel text => some ⟨channel, text, [], false, false⟩
  | _ => none

/-- The members that a call is to record as removed. -/
def removals : Call → List MemberId
  | .kick member _ => [member]
  | _ => []

/-- The private messages that a call is to send. -/
def directMessages : Call → List (MemberId × String)
  | .sendDirect member text => [(member, text)]
  | _ => []

/-- A call that leaves nothing on record: it posts nothing, removes nobody and tells nobody
anything.
-/
structure IsSilent (call : Call) : Prop where
  posts : call.newPost? = none
  removals : call.removals = []
  directMessages : call.directMessages = []

end Call

/-- The failure that an outcome tells of, if it does. -/
def Outcome.failure? {α : Type} : Outcome α → Option CallFailure
  | .ok _ => none
  | .error failure => some failure

namespace Call

/-- The failure that a call was answered with, if it failed. A wait never fails. -/
def failure? : (call : Call) → call.Reply → Option CallFailure
  | .awaitReaction _, _ => none
  | .listMembers, reply | .countMembers, reply | .addRole .., reply | .removeRole .., reply
  | .kick .., reply | .send .., reply | .delete .., reply | .edit .., reply | .react .., reply
  | .clearReactions .., reply | .sendDirect .., reply => reply.failure?

/-- The message that a call has posted, as its answer tells. -/
def posted? : (call : Call) → call.Reply → Option MessageId
  | .send .., reply => reply.toOption
  | _, _ => none

end Call

namespace Community

/-- Nothing stands in the way of a call: no failure is injected that it meets, and what it is to
change is there.
-/
def Admits (community : Community) : Call → Prop
  | .listMembers | .countMembers => community.listingFailure = none
  | .addRole member _ _ | .removeRole member _ _ =>
      community.roleFailures.find? member = none ∧ community.member? member ≠ none
  | .kick member _ =>
      community.kickFailures.find? member = none ∧ community.member? member ≠ none
  | .send .. => community.sendsFail = false
  | .delete _ message =>
      community.deletesFail = false
      ∧ ∃ post, community.posts.find? message = some post ∧ post.deleted = false
  | .edit _ message _ | .react _ message _ | .clearReactions _ message =>
      community.posts.find? message ≠ none
  | .awaitReaction _ => True
  | .sendDirect member _ => community.directFailures.contains member = false

/-- What a call that was fulfilled has made of a community. -/
structure Fulfilled (before : Community) (call : Call) (posted : Option MessageId)
    (after : Community) : Prop where
  /-- The member that is named is changed, and everyone else is found as before. -/
  members
    : ∀ id,
      after.member? id
        = if call.member? = some id then (before.member? id).bind call.changeMember
          else before.member? id
  /-- The message that is posted is there, the one that is named is changed, and every other one
  is found as before.
  -/
  posts
    : ∀ id,
      after.posts.find? id
        = if posted = some id then call.newPost?
          else if call.message? = some id then (before.posts.find? id).map call.changePost
          else before.posts.find? id
  minted : posted = call.newPost?.map fun _ => MessageId.mint before.now before.sequence
  /-- No message gives way to the one that is posted, as long as there are numbers. -/
  fresh
    : before.Attained
      → before.sequence < MessageId.sequences
      → ∀ id, posted = some id → before.posts.find? id = none
  /-- Beside members and messages only the records of what was done grow. The injected failures, the
  kept reactions and all else are as before.
  -/
  rest
    : after
      = { before with
          members := after.members
          posts := after.posts
          sequence := before.sequence + call.newPost?.toList.length
          kicked := before.kicked ++ call.removals
          directMessages := before.directMessages ++ call.directMessages }

/-- The next identifier is one that no message has, as long as there are numbers. -/
theorem Attained.find?_mint {community : Community} (attained : community.Attained)
    (few : community.sequence < MessageId.sequences) (at_ : Instant)
    : community.posts.find? (MessageId.mint at_ community.sequence) = none := by
  refine Option.not_isSome_iff_eq_none.mp fun taken => ?_
  have used := attained.numbered (Nat.le_of_lt few) _ taken
  rw [MessageId.number_mint few] at used
  exact Nat.lt_irrefl _ used

-------------------------------------------------------------------------------
-- Calls that are fulfilled
-------------------------------------------------------------------------------

variable {before after : Community} {call : Call}

namespace Fulfilled

/-- A call that posts nothing is fulfilled when it changes what it names. -/
theorem of_unposted (unposting : call.newPost? = none)
    (members
      : ∀ id,
        after.member? id
          = if call.member? = some id then (before.member? id).bind call.changeMember
            else before.member? id)
    (posts
      : ∀ id,
        after.posts.find? id
          = if call.message? = some id then (before.posts.find? id).map call.changePost
            else before.posts.find? id)
    (rest
      : after
        = { before with
            members := after.members
            posts := after.posts
            kicked := before.kicked ++ call.removals
            directMessages := before.directMessages ++ call.directMessages })
    : before.Fulfilled call none after where
  members := members
  posts id := (posts id).trans (if_neg nofun).symm
  minted := by rw [unposting, Option.map_none]
  fresh _ _ := nofun
  rest := by rw [unposting]; exact rest

/-- With a call that leaves nothing on record, all is as before beside members and messages. -/
theorem rest_of_silent (silent : call.IsSilent)
    (rest : after = { before with members := after.members, posts := after.posts })
    : after
      = { before with
          members := after.members
          posts := after.posts
          kicked := before.kicked ++ call.removals
          directMessages := before.directMessages ++ call.directMessages } := by
  rw [silent.removals, silent.directMessages, List.append_nil, List.append_nil]
  exact rest

/-- A call that names nothing and leaves nothing on record is fulfilled without any change. -/
theorem unchanged (nobody : call.member? = none) (nothing : call.message? = none)
    (silent : call.IsSilent)
    : before.Fulfilled call none before := by
  refine of_unposted silent.posts (fun id => ?_) (fun id => ?_) (rest_of_silent silent rfl)
  · rw [nobody, if_neg nofun]
  · rw [nothing, if_neg nofun]

/-- A record put in the place of that of the member who is named is found for nobody else. -/
theorem recorded {id : MemberId} {record changed : Member} (named : call.member? = some id)
    (nothing : call.message? = none) (silent : call.IsSilent)
    (found : before.member? id = some record) (changes : call.changeMember record = some changed)
    (own : changed.id = record.id)
    : before.Fulfilled call none { before with members := before.members.add changed } := by
  refine of_unposted silent.posts (fun other => ?_) (fun other => ?_) (rest_of_silent silent rfl)
  · change (before.members.add changed).find? other = _
    rw [Roster.find?_add, own.trans (Roster.id_of_find? found), named]
    refine ite_congr (propext Option.some_inj.symm) (fun same => ?_) fun _ => rfl
    rw [← Option.some.inj same, found, Option.bind_some, changes]
  · rw [nothing, if_neg nofun]

/-- A member that is removed is found no more, and everyone else as before. -/
theorem removed {id : MemberId} {reason : String}
    : before.Fulfilled (.kick id reason) none
        { before with
          members := before.members.remove id
          kicked := before.kicked ++ [id] } := by
  refine of_unposted rfl (fun other => ?_) (fun _ => rfl) ?_
  · have gone : (before.member? other).bind (Call.kick id reason).changeMember = none :=
      Option.bind_fun_none _
    change (before.members.remove id).find? other = _
    rw [Roster.find?_remove, gone]
    exact ite_congr (propext Option.some_inj.symm) (fun _ => rfl) fun _ => rfl
  · simp only [Call.removals, Call.directMessages, List.append_nil]

/-- A message put in the place of the one that is named is found under no other identifier. -/
theorem altered {message : MessageId} {post : Post} (named : call.message? = some message)
    (nobody : call.member? = none) (silent : call.IsSilent)
    (found : before.posts.find? message = some post)
    : before.Fulfilled call none
        { before with posts := before.posts.insert message (call.changePost post) } := by
  refine of_unposted silent.posts (fun id => ?_) (fun id => ?_) (rest_of_silent silent rfl)
  · rw [nobody, if_neg nofun]
    rfl
  · rw [OrderedMap.find?_insert, named]
    refine ite_congr (propext Option.some_inj.symm) (fun same => ?_) fun _ => rfl
    rw [← Option.some.inj same, found, Option.map_some]

/-- A message that is posted is found under its new identifier, and every other one as before. -/
theorem posted {channel : ChannelId} {text : String}
    : before.Fulfilled (.send channel text)
        (some (before.seed channel text before.now).1)
        (before.seed channel text before.now).2 where
  members _ := rfl
  posts id := by
    change (before.posts.insert _ _).find? id = _
    rw [OrderedMap.find?_insert]
    exact ite_congr (propext Option.some_inj.symm) (fun _ => rfl) fun _ => rfl
  minted := rfl
  fresh attained few := by
    rintro _ ⟨⟩
    exact attained.find?_mint few before.now
  rest := by
    simp only [Call.removals, Call.directMessages, List.append_nil]
    rfl

/-- Whoever is told something stays as it is. -/
theorem told {id : MemberId} {text : String}
    : before.Fulfilled (.sendDirect id text) none
        { before with directMessages := before.directMessages ++ [(id, text)] } := by
  refine of_unposted rfl (fun other => ?_) (fun _ => rfl) ?_
  · have kept : (before.member? other).bind (Call.sendDirect id text).changeMember
        = before.member? other :=
      Option.bind_fun_some _
    rw [kept, ite_self]
    rfl
  · simp only [Call.removals, Call.directMessages, List.append_nil]

end Fulfilled

-------------------------------------------------------------------------------
-- Calls that are answered
-------------------------------------------------------------------------------

/-- How a call is answered: the failure or the new message that the answer tells of, and the
community that is left. It is refused or fulfilled, or it is a wait.
-/
inductive Answers (before : Community)
    : Call → Option CallFailure → Option MessageId → Community → Prop
  | refused {call : Call} {failure : CallFailure} (hindered : ¬ before.Admits call)
    : before.Answers call (some failure) none before
  | fulfilled {call : Call} {posted : Option MessageId} {after : Community}
    (admits : before.Admits call) (fulfilled : before.Fulfilled call posted after)
    : before.Answers call none posted after
  | waited {wait : ReactionWait}
    : before.Answers (.awaitReaction wait) none none (before.await wait).2

namespace Answers

/-- A listing or a count changes nothing, whether it fails or not. -/
theorem listing {α : Type} {answer : α} (nobody : call.member? = none)
    (nothing : call.message? = none) (silent : call.IsSilent)
    (admits : before.Admits call ↔ before.listingFailure = none)
    : before.Answers call (before.listing answer).failure? none before := by
  unfold Community.listing
  split
  · next failure fails => exact .refused fun able => nomatch fails.symm.trans (admits.mp able)
  · next able => exact .fulfilled (admits.mpr able) (.unchanged nobody nothing silent)

/-- A change of roles is stopped by an injected failure or by the absence of the member. -/
theorem changeRoles {id : MemberId} {attempt : String} {change : Member → Member}
    (named : call.member? = some id) (nothing : call.message? = none) (silent : call.IsSilent)
    (changes : ∀ record, call.changeMember record = some (change record))
    (own : ∀ record, (change record).id = record.id)
    (admits
      : before.Admits call ↔ before.roleFailures.find? id = none ∧ before.member? id ≠ none)
    : before.Answers call (before.changeRoles id attempt change).1.failure? none
        (before.changeRoles id attempt change).2 := by
  unfold Community.changeRoles
  split
  · next code fails => exact .refused fun able => nomatch fails.symm.trans (admits.mp able).1
  · next able =>
    split
    · next absent => exact .refused fun able => (admits.mp able).2 absent
    · next record found =>
      have there : before.member? id ≠ none := Option.ne_none_iff_exists'.mpr ⟨record, found⟩
      exact .fulfilled (admits.mpr ⟨able, there⟩)
        (.recorded named nothing silent found (changes record) (own record))

/-- A removal is stopped by an injected failure or by the absence of the member. -/
theorem kick {id : MemberId} {reason : String}
    : before.Answers (.kick id reason) (before.kick id).1.failure? none (before.kick id).2 := by
  unfold Community.kick
  split
  · next code fails => exact .refused fun able => nomatch fails.symm.trans able.1
  · next able =>
    split
    · next absent => exact .refused fun able => able.2 absent
    · next record found =>
      have there : before.member? id ≠ none := Option.ne_none_iff_exists'.mpr ⟨record, found⟩
      exact .fulfilled ⟨able, there⟩ .removed

/-- A change of a message is stopped by its absence. -/
theorem changePost {message : MessageId} (named : call.message? = some message)
    (nobody : call.member? = none) (silent : call.IsSilent)
    (admits : before.Admits call ↔ before.posts.find? message ≠ none)
    : before.Answers call (before.changePost message call.changePost).1.failure? none
        (before.changePost message call.changePost).2 := by
  unfold Community.changePost
  split
  · next absent => exact .refused fun able => admits.mp able absent
  · next post found =>
    have there : before.posts.find? message ≠ none :=
      Option.ne_none_iff_exists'.mpr ⟨post, found⟩
    exact .fulfilled (admits.mpr there) (.altered named nobody silent found)

/-- A deletion is stopped by an injected failure or by the absence of the message, also of one that
was deleted before.
-/
theorem delete {channel : ChannelId} {message : MessageId}
    : before.Answers (.delete channel message) (before.delete message).1.failure? none
        (before.delete message).2 := by
  unfold Community.delete
  split
  · next fails => exact .refused fun able => nomatch fails.symm.trans able.1
  · next works =>
    split
    · next absent => exact .refused fun ⟨_, _, found, _⟩ => nomatch found.symm.trans absent
    · next post found =>
      split
      · next gone =>
        -- What was found is the only message there, so no other one can stand undeleted.
        refine .refused fun ⟨_, other, there, still⟩ => ?_
        cases found.symm.trans there
        exact nomatch gone.symm.trans still
      · next still =>
        have able : before.Admits (.delete channel message) :=
          ⟨Bool.eq_false_iff.mpr works, post, found, Bool.eq_false_iff.mpr still⟩
        exact .fulfilled able (.altered rfl rfl ⟨rfl, rfl, rfl⟩ found)

theorem send {channel : ChannelId} {text : String}
    : before.Answers (.send channel text) (before.send channel text).1.failure?
        (before.send channel text).1.toOption (before.send channel text).2 := by
  unfold Community.send
  split
  · next fails => exact .refused fun able => nomatch fails.symm.trans able
  · next works => exact .fulfilled (Bool.eq_false_iff.mpr works) .posted

theorem sendDirect {id : MemberId} {text : String}
    : before.Answers (.sendDirect id text) (before.sendDirect id text).1.failure? none
        (before.sendDirect id text).2 := by
  unfold Community.sendDirect
  split
  · next fails => exact .refused fun able => nomatch fails.symm.trans able
  · next able => exact .fulfilled (Bool.eq_false_iff.mpr able) .told

end Answers

/-- Every call is answered in one of these ways, by cases over the calls. -/
theorem answers (community : Community) (call : Call)
    : community.Answers call (call.failure? (community.answer call).1)
        (call.posted? (community.answer call).1) (community.answer call).2 := by
  cases call with
  | listMembers | countMembers => exact .listing rfl rfl ⟨rfl, rfl, rfl⟩ Iff.rfl
  | addRole member role reason | removeRole member role reason =>
      exact .changeRoles rfl rfl ⟨rfl, rfl, rfl⟩ (fun _ => rfl) (fun _ => rfl) Iff.rfl
  | kick member reason => exact .kick
  | send channel text => exact .send
  | delete channel message => exact .delete
  | edit channel message text | react channel message token | clearReactions channel message =>
      exact .changePost rfl rfl ⟨rfl, rfl, rfl⟩ Iff.rfl
  | awaitReaction wait => exact .waited
  | sendDirect member text => exact .sendDirect

-------------------------------------------------------------------------------
-- Within reach
-------------------------------------------------------------------------------

/-- A call stays within reach, as told from the failure or the new message of its answer and the
community that it leaves.
-/
structure WithinReach (before : Community) (call : Call) (failure : Option CallFailure)
    (posted : Option MessageId) (after : Community) : Prop where
  /-- It succeeds exactly when nothing stands in its way. -/
  succeeds : failure = none ↔ before.Admits call
  /-- If it fails, the whole community is as it was. -/
  nothing : failure ≠ none → after = before
  /-- If it succeeds, it changes what it names or posts, and nothing else. -/
  fulfilled : failure = none → before.Fulfilled call posted after

/-- Every call that can fail, that is every one but a wait, changes nothing at all when it fails,
and nothing but what it names or posts when it succeeds.
-/
theorem calls_within_reach (community : Community) {call : Call}
    (noWait : ∀ wait, call ≠ .awaitReaction wait)
    : community.WithinReach call (call.failure? (community.answer call).1)
        (call.posted? (community.answer call).1) (community.answer call).2 := by
  have answers := community.answers call
  generalize call.failure? _ = failure, call.posted? _ = posted, (community.answer call).2 = after
    at answers ⊢
  cases answers with
  | refused hindered =>
      exact ⟨⟨nofun, fun admits => absurd admits hindered⟩, fun _ => rfl, nofun⟩
  | fulfilled admits fulfilled =>
      exact ⟨⟨fun _ => admits, fun _ => rfl⟩, fun fails => absurd rfl fails, fun _ => fulfilled⟩
  | waited => exact absurd rfl (noWait _)

/-- In a community in which the roles of one member cannot be changed, a grant to this member
changes nothing. A grant to another one and a message change what they are about, and leave that
member, the injected failure, the earlier message and the kept reaction.
-/
theorem calls_within_reach_beside_failure
    : let able : Member := ⟨⟨1⟩, none, .ofList [⟨2⟩], false⟩
      let barred : Member := ⟨⟨2⟩, none, .ofList [⟨2⟩], false⟩
      let quiet := (ofMembers .epoch [able, barred]).failRoles ⟨2⟩ .forbidden
      let before := ((quiet.script ⟨"yes", ⟨1⟩, false, true⟩).seed ⟨5⟩ "early" .epoch).2
      let vain := Call.addRole ⟨2⟩ ⟨3⟩ "as asked"
      let grant := Call.addRole ⟨1⟩ ⟨3⟩ "as asked"
      let send := Call.send ⟨5⟩ "late"
      (∀ call ∈ [vain, grant, send], ∀ wait, call ≠ .awaitReaction wait)
      ∧ (vain.failure? (before.answer vain).1 ≠ none ∧ (before.answer vain).2 = before)
      ∧ (grant.failure? (before.answer grant).1 = none
        ∧ (before.answer grant).2.member? ⟨1⟩ = some { able with roles := .ofList [⟨2⟩, ⟨3⟩] }
        ∧ (before.answer grant).2.member? ⟨2⟩ = some barred
        ∧ (before.answer grant).2.roleFailures.find? ⟨2⟩ = some .forbidden)
      ∧ (send.posted? (before.answer send).1 = some (MessageId.mint .epoch 1)
        ∧ (before.answer send).2.posts.find? (MessageId.mint .epoch 0)
          = some ⟨⟨5⟩, "early", [], false, false⟩
        ∧ (before.answer send).2.scripted = [⟨"yes", ⟨1⟩, false, true⟩]) := by
  intro able barred quiet before vain grant send
  have noWait : ∀ call ∈ [vain, grant, send], ∀ wait, call ≠ .awaitReaction wait := by
    simp [vain, grant, send]
  have refused := before.calls_within_reach (noWait vain (by simp))
  have granted := before.calls_within_reach (noWait grant (by simp))
  have sent := before.calls_within_reach (noWait send (by simp))
  have stopped : vain.failure? (before.answer vain).1 ≠ none :=
    mt refused.succeeds.mp fun admits => nomatch admits.1
  have admitted : grant.failure? (before.answer grant).1 = none :=
    granted.succeeds.mpr ⟨rfl, nofun⟩
  have change := granted.fulfilled admitted
  have message := sent.fulfilled (sent.succeeds.mpr rfl)
  refine ⟨noWait, ⟨stopped, refused.nothing stopped⟩, ⟨admitted, ?_, ?_, ?_⟩,
    message.minted, ?_, ?_⟩
  · exact (change.members ⟨1⟩).trans rfl
  · exact (change.members ⟨2⟩).trans rfl
  · rw [change.rest]
    rfl
  · have apart : MessageId.mint .epoch 1 ≠ MessageId.mint .epoch 0 := by decide
    rw [message.posts, message.minted]
    exact (if_neg fun same => apart (Option.some.inj same)).trans rfl
  · rw [message.rest]
    rfl

end Community

-------------------------------------------------------------------------------
-- Runs
-------------------------------------------------------------------------------

namespace Community.Answers

variable {before after : Community} {call : Call} {failure : Option CallFailure}
  {posted : Option MessageId}

/-- Whoever a call does not name is found as before. -/
theorem member?_eq (answers : before.Answers call failure posted after) {id : MemberId}
    (unnamed : call.member? ≠ some id)
    : after.member? id = before.member? id := by
  cases answers with
  | refused => rfl
  | fulfilled _ fulfilled => exact (fulfilled.members id).trans (if_neg unnamed)
  | waited => rw [before.await_eq]; rfl

/-- A message that a call does not name or post is found as before. -/
theorem find?_posts_eq (answers : before.Answers call failure posted after) {id : MessageId}
    (unnamed : call.message? ≠ some id) (other : posted ≠ some id)
    : after.posts.find? id = before.posts.find? id := by
  cases answers with
  | refused => rfl
  | fulfilled _ fulfilled =>
      exact (fulfilled.posts id).trans ((if_neg other).trans (if_neg unnamed))
  | waited => rw [before.await_eq]

end Community.Answers

namespace Operation

/-- The member that an operation names, if it names one. -/
def member? : Operation → Option MemberId
  | .call made => made.member?
  | .join member => some member.id
  | _ => none

/-- The message that an operation names, if it names one. -/
def message? : Operation → Option MessageId
  | .call made => made.message?
  | _ => none

theorem member?_act (operation : Operation) (community : Community) {id : MemberId}
    (unnamed : operation.member? ≠ some id)
    : (operation.act community).member? id = community.member? id := by
  cases operation with
  | call call => exact (community.answers call).member?_eq unnamed
  | join member => exact Roster.find?_add.trans (if_neg fun own => unnamed (congrArg some own))
  | _ => rfl

/-- What a call posts is what its answer tells. -/
theorem posting?_call (community : Community) (call : Call)
    : ((Operation.call call).posting? community).map Posting.id
      = call.posted? (community.answer call).1 := by
  cases call with
  | send channel text =>
      unfold posting?
      dsimp only [Call.posted?]
      cases (community.answer (.send channel text)).1 <;> rfl
  | _ => rfl

theorem find?_posts_act (operation : Operation) (community : Community) {id : MessageId}
    (unnamed : operation.message? ≠ some id)
    (other : (operation.posting? community).map Posting.id ≠ some id)
    : (operation.act community).posts.find? id = community.posts.find? id := by
  cases operation with
  | call call =>
      rw [posting?_call] at other
      exact (community.answers call).find?_posts_eq unnamed other
  | seed channel content at_ =>
      exact OrderedMap.find?_insert.trans (if_neg fun same => other (congrArg some same))
  | _ => rfl

/-- Over a run of operations everyone is found as before whom none of them names, by induction over
them.
-/
theorem member?_actAll (operations : List Operation) (community : Community) {id : MemberId}
    (unnamed : ∀ operation ∈ operations, operation.member? ≠ some id)
    : (actAll operations community).member? id = community.member? id := by
  induction operations generalizing community with
  | nil => rfl
  | cons operation later ih =>
      obtain ⟨first, others⟩ := List.forall_mem_cons.mp unnamed
      exact (ih _ others).trans (operation.member?_act community first)

/-- Over a run of operations every message is found as before that none of them names or posts, by
induction over them.
-/
theorem find?_posts_actAll (operations : List Operation) (community : Community) {id : MessageId}
    (unnamed : ∀ operation ∈ operations, operation.message? ≠ some id)
    (other : id ∉ (postings community operations).map Posting.id)
    : (actAll operations community).posts.find? id = community.posts.find? id := by
  induction operations generalizing community with
  | nil => rfl
  | cons operation later ih =>
      obtain ⟨first, others⟩ := List.forall_mem_cons.mp unnamed
      -- What the first operation posts is among the postings of the run, so it is another message.
      rw [postings, List.map_append, List.mem_append, not_or] at other
      refine (ih _ others other.2).trans (operation.find?_posts_act community first fun same => ?_)
      obtain ⟨posting, posts, rfl⟩ := Option.map_eq_some_iff.mp same
      exact other.1 (List.mem_map_of_mem (Option.mem_toList.mpr posts))

end Operation

/-- Whatever is undertaken, everyone whom no operation names and every message that none names or
posts is found in the end as it was found in the beginning.
-/
theorem Undertaking.unnamed_kept (world : World) (undertakings : List Undertaking)
    : let operations := operationsIn world undertakings
      let last := (run world undertakings).community
      (∀ id,
        (∀ operation ∈ operations, operation.member? ≠ some id)
        → last.member? id = world.community.member? id)
      ∧ ∀ id,
        (∀ operation ∈ operations, operation.message? ≠ some id)
        → id ∉ (postings world.community operations).map Posting.id
        → last.posts.find? id = world.community.posts.find? id := by
  intro operations last
  have ran : last = Operation.actAll operations world.community := community_run world undertakings
  rw [ran]
  exact ⟨fun _ unnamed => Operation.member?_actAll operations _ unnamed,
    fun _ unnamed other => Operation.find?_posts_actAll operations _ unnamed other⟩

end Gatehouse
