import Gatehouse.Proofs.Community.Operation
import Gatehouse.Proofs.Reminder.Notice

/-! The board of a community: its messages and its hub. Whoever works in a community shares the
board with all others; the rest is a matter of its own. A call on members does not look at the
board, and a message is posted on whatever board there is.
-/

namespace Gatehouse

/-- The messages of a community, how many were posted, and its hub. -/
structure Board where
  sequence : Nat
  posts : OrderedMap MessageId Post
  hub : ReactionHub

namespace ReactionHub

/-- A hub after a wait on a message to which kept reactions were delivered. -/
def afterWait (hub : ReactionHub) (kept : List ScriptedReaction) (message : MessageId)
    : ReactionHub :=
  let delivered := kept.map fun r => Community.ScriptedReaction.deliver r message
  (hub.subscribe.2.publishAll delivered).unsubscribe hub.subscribe.1

theorem Sound.afterWait {hub : ReactionHub} (sound : hub.Sound) (kept : List ScriptedReaction)
    (message : MessageId)
    : (hub.afterWait kept message).Sound :=
  (sound.subscribe.publishAll _).unsubscribe _

theorem unsubscribe_unsubscribe (hub : ReactionHub) (ticket : Nat)
    : (hub.unsubscribe ticket).unsubscribe ticket = hub.unsubscribe ticket := by
  simp [unsubscribe, List.filter_filter]

/-- A wait that ends after a look leaves the hub without it, whatever the look has moved. -/
theorem look_unsubscribe (hub : ReactionHub) (ticket : Nat) (wait : ReactionWait)
    : (hub.look ticket wait).2.unsubscribe ticket = hub.unsubscribe ticket := by
  have moved (subscriptions : List Subscription)
      : (subscriptions.map fun s =>
            if s.ticket == ticket then { s with next := hub.published } else s).filter
          (fun s => s.ticket != ticket)
        = subscriptions.filter fun s => s.ticket != ticket := by
    induction subscriptions with
    | nil => rfl
    | cons s rest ih =>
        simp only [List.map_cons, List.filter_cons, ih]
        by_cases its : s.ticket = ticket <;> simp [its]
  unfold look
  split
  · exact hub.unsubscribe_unsubscribe ticket
  · split
    · exact congrArg (fun kept => { hub with subscriptions := kept }) (moved hub.subscriptions)
    · exact hub.unsubscribe_unsubscribe ticket

/-- A wait that has found something, or can find nothing more, has left the hub. -/
theorem look_settled {hub later : ReactionHub} {ticket : Nat} {wait : ReactionWait}
    {sighting : Sighting} (looked : hub.look ticket wait = (sighting, later))
    (settled : sighting ≠ .nothing)
    : later = hub.unsubscribe ticket := by
  unfold look at looked
  split at looked
  · exact (Prod.mk.inj looked).2.symm
  · split at looked
    · exact absurd (Prod.mk.inj looked).1.symm settled
    · exact (Prod.mk.inj looked).2.symm

end ReactionHub

namespace Board

/-- Post a message. -/
def post (board : Board) (now : Instant) (post : Post) : Board :=
  { board with
    sequence := board.sequence + 1
    posts := board.posts.insert (MessageId.mint now board.sequence) post }

/-- Change a message. -/
def put (board : Board) (id : MessageId) (post : Post) : Board :=
  { board with posts := board.posts.insert id post }

/-- Post messages one after the other. -/
def postAll (board : Board) (now : Instant) (posts : List Post) : Board :=
  posts.foldl (fun board post => board.post now post) board

def hear (board : Board) (kept : List ScriptedReaction) (message : MessageId) : Board :=
  { board with hub := board.hub.afterWait kept message }

end Board

/-- What is written on a board: messages, and the kept reactions that a wait on the first of them
has taken, if there was one.
-/
structure Writing where
  posts : List Post
  heard : Option (List ScriptedReaction)
  /-- Where there was a wait, there is a message that it was on. -/
  prompted : heard.isSome = true → posts ≠ []

namespace Writing

/-- Messages that nobody waits on. -/
def ofPosts (posts : List Post) : Writing := ⟨posts, none, nofun⟩

def nothing : Writing := ofPosts []

/-- One message, on which kept reactions were heard. -/
def ofPrompt (prompt : Post) (kept : List ScriptedReaction) : Writing :=
  ⟨[prompt], some kept, fun _ => List.cons_ne_nil prompt []⟩

/-- A writing that goes on with more messages. -/
def followed (writing : Writing) (posts : List Post) : Writing where
  posts := writing.posts ++ posts
  heard := writing.heard
  prompted asked := List.append_ne_nil_of_left_ne_nil (writing.prompted asked) posts

theorem followed_nil (writing : Writing)
    : writing.followed [] = writing := by
  unfold followed
  simp only [List.append_nil]

end Writing

namespace Board

/-- The hub of a board after a writing of which the first message has this identifier. -/
def heard (board : Board) (writing : Writing) (message : MessageId) : ReactionHub :=
  match writing.heard with
  | none => board.hub
  | some kept => board.hub.afterWait kept message

def write (board : Board) (now : Instant) (writing : Writing) : Board :=
  { board.postAll now writing.posts with
    hub := board.heard writing (MessageId.mint now board.sequence) }

end Board

namespace Community

def board (community : Community) : Board :=
  ⟨community.sequence, community.posts, community.hub⟩

/-- A community with another board. -/
def onBoard (community : Community) (board : Board) : Community :=
  { community with sequence := board.sequence, posts := board.posts, hub := board.hub }

variable {community : Community} {board other : Board}

@[simp] theorem onBoard_board (community : Community)
    : community.onBoard community.board = community := rfl

@[simp] theorem board_onBoard (community : Community) (board : Board)
    : (community.onBoard board).board = board := rfl

@[simp] theorem onBoard_onBoard (community : Community) (board other : Board)
    : (community.onBoard board).onBoard other = community.onBoard other := rfl

end Community

/-- A call that looks at the members and not at the board. -/
def Call.IsOnMembers : Call → Prop
  | .listMembers | .countMembers | .addRole .. | .removeRole .. | .kick .. | .sendDirect .. => True
  | _ => False

namespace Community

/-- A call on members is answered alike on every board, and leaves the board as it is. -/
theorem answer_onBoard (community : Community) (board : Board) {call : Call}
    (onMembers : call.IsOnMembers)
    : (community.onBoard board).answer call
      = ((community.answer call).1, (community.answer call).2.onBoard board) := by
  cases call with
  | listMembers | countMembers => rfl
  | addRole member role reason | removeRole member role reason =>
      simp only [answer, changeRoles, onBoard]
      split
      · rfl
      · split <;> rfl
  | kick member reason =>
      simp only [answer, Community.kick, onBoard]
      split
      · rfl
      · split <;> rfl
  | sendDirect member text =>
      by_cases fails : community.directFailures.contains member = true <;>
        simp [answer, Community.sendDirect, onBoard, fails]
  | _ => exact onMembers.elim

/-- A message is posted on the board, unless messages fail. -/
theorem send_onBoard (community : Community) (board : Board) (channel : ChannelId)
    (text : String)
    : (community.onBoard board).send channel text
      = if community.sendsFail then
          (.error ⟨.unavailable, "send failed"⟩, community.onBoard board)
        else
          (.ok (MessageId.mint community.now board.sequence),
            community.onBoard (board.post community.now ⟨channel, text, [], false, false⟩)) :=
  rfl

/-- A message that is on the board is changed there. -/
theorem changePost_onBoard (community : Community) {board : Board} {id : MessageId} {post : Post}
    (found : board.posts.find? id = some post) (change : Post → Post)
    : (community.onBoard board).changePost id change
      = (.ok (), community.onBoard (board.put id (change post))) := by
  have there : (community.onBoard board).posts.find? id = some post := found
  unfold changePost
  rw [there]
  rfl

/-- A wait takes all kept reactions and is answered by them; on the board only the hub changes. -/
theorem await_onBoard (community : Community) {board : Board} (sound : board.hub.Sound)
    {wait : ReactionWait} (excludes : wait.excludeBots = true)
    : (community.onBoard board).await wait
      = ((community.answerAhead wait.allowed).map fun r => (r.token, r.actor),
          { community with awaits := community.awaits + 1, scripted := [] }.onBoard
            (board.hear community.scripted wait.message)) := by
  have there : (community.onBoard board).hub.Sound := sound
  have answer := await_answer there excludes
  have ahead
      : (community.onBoard board).answerAhead wait.allowed
        = community.answerAhead wait.allowed := by
    simp only [answerAhead, onBoard]
  rw [ahead] at answer
  have hub
      : ((community.onBoard board).await wait).2.hub
        = board.hub.afterWait community.scripted wait.message := by
    unfold await beginWait look giveUp ReactionHub.afterWait
    dsimp only [onBoard]
    generalize board.hub.subscribe.2.publishAll _ = hub
    have gone := hub.look_unsubscribe board.hub.subscribe.1 wait
    cases looked : hub.look board.hub.subscribe.1 wait with
    | mk sighting later =>
        rw [looked] at gone
        cases sighting with
        | nothing => exact gone
        | _ => exact ReactionHub.look_settled looked nofun
  have left := (community.onBoard board).await_eq wait
  rw [hub] at left
  rw [← answer]
  exact Prod.ext rfl left

end Community

-------------------------------------------------------------------------------
-- Clearing
-------------------------------------------------------------------------------

namespace Board

/-- A board after a message was to be deleted, if one is given and deletions do not fail. -/
def clear (board : Board) (fails : Bool) : Option MessageId → Board
  | none => board
  | some id =>
      if fails then board
      else
        match board.posts.find? id with
        | none => board
        | some post => if post.deleted then board else board.put id { post with deleted := true }

/-- Clearing marks the message that it is given as deleted, and no other. -/
theorem find?_clear (board : Board) (fails : Bool) (previous : Option MessageId) (id : MessageId)
    : (board.clear fails previous).posts.find? id
      = (board.posts.find? id).map fun post =>
          if fails = false ∧ previous = some id then { post with deleted := true } else post := by
  cases previous with
  | none => simp [clear]
  | some previous =>
      cases fails with
      | true => simp [clear]
      | false =>
          simp only [clear, Bool.false_eq_true, if_false, Option.some.injEq, true_and]
          cases found : board.posts.find? previous with
          | none =>
              by_cases same : previous = id
              · subst same
                simp [found]
              · simp [same]
          | some post =>
              by_cases same : previous = id
              · subst same
                cases gone : post.deleted with
                | true =>
                    have already : { post with deleted := true } = post := by rw [← gone]
                    simp [gone, found, already]
                | false => simp [gone, found, put, OrderedMap.find?_insert]
              · cases gone : post.deleted <;> simp [gone, put, OrderedMap.find?_insert, same]

theorem sequence_clear (board : Board) (fails : Bool) (previous : Option MessageId)
    : (board.clear fails previous).sequence = board.sequence
      ∧ (board.clear fails previous).hub = board.hub := by
  unfold clear
  split
  · exact ⟨rfl, rfl⟩
  · split
    · exact ⟨rfl, rfl⟩
    · split
      · exact ⟨rfl, rfl⟩
      · split <;> exact ⟨rfl, rfl⟩

end Board

/-- A message is cleared on the board. -/
theorem Community.clear_onBoard (community : Community) (board : Board)
    (previous : Option MessageId)
    : (community.onBoard board).clear previous
      = community.onBoard (board.clear community.deletesFail previous) := by
  cases previous with
  | none => rfl
  | some id =>
      by_cases fails : community.deletesFail = true
      · simp [clear, delete, Board.clear, onBoard, fails]
      · cases found : board.posts.find? id with
        | none => simp [clear, delete, Board.clear, onBoard, fails, found]
        | some post =>
            by_cases gone : post.deleted = true <;>
              simp [clear, delete, Board.clear, Board.put, onBoard, fails, found, gone]

end Gatehouse
