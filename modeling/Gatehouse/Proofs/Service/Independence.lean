import Gatehouse.Proofs.Service.Scene

/-! The two tasks of the service side by side. Passes and notices share a community, and whatever is
told to fail meanwhile, a pass goes as if there were no notices and a notice as if there were no
passes. Which of the two comes first settles the identifiers of their messages and nothing else.
-/

namespace Gatehouse

-------------------------------------------------------------------------------
-- What happens to the two tasks
-------------------------------------------------------------------------------

/-- An operation beside the board: someone joins, something is told to fail or no longer, the time
is set, a reaction is kept or a report filed.
-/
def Operation.IsOffBoard : Operation → Prop
  | .join _ | .failListing _ | .failRoles .. | .failKick .. | .failDirect _ | .failSends _
  | .failDeletes _ | .setNow _ | .script _ | .file _ => True
  | _ => False

/-- Something that happens: a pass, a notice, or a change of what is there or fails. -/
inductive Occurrence
  | pass
  | notice
  | operate (operation : Operation) (offBoard : operation.IsOffBoard)
  | setClock (at_ : Instant)
  | failLoads (fault : Option (String → StoreFault))
  | failSaves (fault : Option (String → String → StoreFault))

namespace Occurrence

def isPass : Occurrence → Bool
  | pass => true
  | _ => false

def isNotice : Occurrence → Bool
  | notice => true
  | _ => false

end Occurrence

/-- How a notice went. -/
structure Noted where
  succeeded : Bool
  /-- When the messages that it posted say that they were posted. -/
  times : List Instant
deriving DecidableEq

/-- What comes of occurrences: the results of the passes, how the notices went, and the scene that
is left.
-/
structure Transcript where
  passes : List (Except SnapshotUnavailable PassReport)
  notices : List Noted
  scene : Scene

/-- The settings of the two tasks. -/
structure Tasks where
  reconcile : ReconcileSettings
  sink : AuditSink
  reminder : ReminderSettings

namespace Tasks

def pass (tasks : Tasks) : Program (Except SnapshotUnavailable PassReport) :=
  tasks.reconcile.pass tasks.sink

def noted (tasks : Tasks) (scene : Scene) : Noted where
  succeeded := (tasks.reminder.fire.run Scene.handle scene).1.isOk
  times := postTimes (tasks.reminder.fire.trace Scene.handle scene)

/-- Go through occurrences in a scene. -/
def perform (tasks : Tasks) : List Occurrence → Scene → Transcript
  | [], scene => ⟨[], [], scene⟩
  | .pass :: rest, scene =>
      let (result, after) := tasks.pass.run Scene.handle scene
      let later := tasks.perform rest after
      { later with passes := result :: later.passes }
  | .notice :: rest, scene =>
      let later := tasks.perform rest (tasks.reminder.fire.run Scene.handle scene).2
      { later with notices := tasks.noted scene :: later.notices }
  | .operate operation _ :: rest, scene =>
      tasks.perform rest { scene with world := scene.world.onCommunity operation.act }
  | .setClock at_ :: rest, scene =>
      tasks.perform rest { scene with world := { scene.world with clock := at_ } }
  | .failLoads fault :: rest, scene => tasks.perform rest { scene with loadFault := fault }
  | .failSaves fault :: rest, scene => tasks.perform rest { scene with saveFault := fault }

end Tasks

-------------------------------------------------------------------------------
-- Operations beside the board
-------------------------------------------------------------------------------

namespace Operation

variable {operation : Operation}

/-- An operation beside the board does the same on every board. -/
theorem act_onBoard (offBoard : operation.IsOffBoard) (community : Community) (board : Board)
    : operation.act (community.onBoard board) = (operation.act community).onBoard board := by
  cases operation with
  | call | seed | publish | subscribe | beginWait | look | giveUp => exact offBoard.elim
  | _ => rfl

/-- What an operation beside the board makes of the time, and of whether messages fail, depends on
nothing else.
-/
theorem act_alike (offBoard : operation.IsOffBoard) {left right : Community}
    (now : left.now = right.now) (sendsFail : left.sendsFail = right.sendsFail)
    : (operation.act left).now = (operation.act right).now
      ∧ (operation.act left).sendsFail = (operation.act right).sendsFail := by
  cases operation with
  | call | seed | publish | subscribe | beginWait | look | giveUp => exact offBoard.elim
  | failSends fails => exact ⟨now, rfl⟩
  | setNow at_ => exact ⟨rfl, sendsFail⟩
  | _ => exact ⟨now, sendsFail⟩

end Operation

-------------------------------------------------------------------------------
-- Passes without notices
-------------------------------------------------------------------------------

namespace Scene

/-- A board keeps its hub when a notice is posted. -/
theorem hub_noticed (scene : Scene) (settings : ReminderSettings) (board : Board)
    : (scene.noticed settings board).hub = board.hub := by
  have cleared := (board.sequence_clear scene.world.community.deletesFail scene.stored?).2
  unfold noticed
  split
  · rfl
  · dsimp only
    split
    · exact cleared
    · exact cleared

/-- Two scenes are alike to passes when they differ at most in boards, stores and journals, and
their hubs are in order.
-/
structure AlikeToPasses (left right : Scene) : Prop where
  clock : left.world.clock = right.world.clock
  community
    : left.world.community = right.world.community.onBoard left.world.community.board
  leftHub : left.world.community.hub.Sound
  rightHub : right.world.community.hub.Sound

namespace AlikeToPasses

variable {left right : Scene}

/-- In scenes that are alike to passes a pass has the same result, and the scenes stay alike. -/
theorem pass (alike : left.AlikeToPasses right) (tasks : Tasks)
    : (tasks.pass.run handle left).1 = (tasks.pass.run handle right).1
      ∧ (tasks.pass.run handle left).2.AlikeToPasses (tasks.pass.run handle right).2 := by
  obtain ⟨result, after, writing, -, writes⟩ :=
    tasks.reconcile.pass_writes tasks.sink right.world.clock right.world.community
  obtain ⟨made, onLeft⟩ := writes.course left.world.community.board alike.leftHub
  obtain ⟨more, onRight⟩ := writes.course right.world.community.board alike.rightHub
  rw [← alike.community, ← alike.clock] at onLeft
  rw [right.world.community.onBoard_board] at onRight
  obtain ⟨first, ranLeft⟩ := left.run_pass onLeft
  obtain ⟨second, ranRight⟩ := right.run_pass onRight
  unfold Tasks.pass
  rw [ranLeft, ranRight]
  exact ⟨rfl, alike.clock, rfl, Board.sound_write alike.leftHub writing,
    Board.sound_write alike.rightHub writing⟩

/-- A notice in one of the scenes leaves them alike. -/
theorem notice (alike : left.AlikeToPasses right) (settings : ReminderSettings)
    : (settings.fire.run handle left).2.AlikeToPasses right := by
  obtain ⟨result, journal, ran, -, -⟩ := left.run_fire settings
  rw [ran]
  refine ⟨alike.clock, ?_, ?_, alike.rightHub⟩
  · change left.world.community.onBoard _ = right.world.community.onBoard _
    rw [alike.community]
    rfl
  · change (left.noticed settings left.world.community.board).hub.Sound
    rw [left.hub_noticed settings]
    exact alike.leftHub

theorem operate (alike : left.AlikeToPasses right) {operation : Operation}
    (offBoard : operation.IsOffBoard)
    : { left with world := left.world.onCommunity operation.act }.AlikeToPasses
        { right with world := right.world.onCommunity operation.act } := by
  have acted := (congrArg operation.act alike.community).trans (Operation.act_onBoard offBoard _ _)
  refine ⟨alike.clock, ?_, operation.hub_sound_act alike.leftHub,
    operation.hub_sound_act alike.rightHub⟩
  change operation.act left.world.community
    = (operation.act right.world.community).onBoard (operation.act left.world.community).board
  rw [acted]
  rfl

end AlikeToPasses

end Scene

/-- Without the notices the passes have the same results, and the scenes that are left are alike, by
induction over the occurrences.
-/
theorem Tasks.perform_passes (tasks : Tasks) (occurrences : List Occurrence) {left right : Scene}
    (alike : left.AlikeToPasses right)
    : let whole := tasks.perform occurrences left
      let alone := tasks.perform (occurrences.filter fun o => !o.isNotice) right
      whole.passes = alone.passes ∧ whole.scene.AlikeToPasses alone.scene := by
  induction occurrences generalizing left right with
  | nil => exact ⟨rfl, alike⟩
  | cons occurrence rest ih =>
      cases occurrence with
      | pass =>
          obtain ⟨same, after⟩ := alike.pass tasks
          obtain ⟨passes, scenes⟩ := ih after
          exact ⟨congrArg₂ List.cons same passes, scenes⟩
      | notice => exact ih (alike.notice tasks.reminder)
      | operate operation offBoard => exact ih (alike.operate offBoard)
      | setClock at_ => exact ih ⟨rfl, alike.community, alike.leftHub, alike.rightHub⟩
      | failLoads fault => exact ih ⟨alike.clock, alike.community, alike.leftHub, alike.rightHub⟩
      | failSaves fault => exact ih ⟨alike.clock, alike.community, alike.leftHub, alike.rightHub⟩

-------------------------------------------------------------------------------
-- Notices without passes
-------------------------------------------------------------------------------

namespace Scene

/-- Two scenes are alike to notices when messages are posted at the same time and the same fails of
messages and of the store; the hub of the one with the passes is in order.
-/
structure AlikeToNotices (left right : Scene) : Prop where
  hub : left.world.community.hub.Sound
  now : left.world.community.now = right.world.community.now
  sendsFail : left.world.community.sendsFail = right.world.community.sendsFail
  loadFault : left.loadFault = right.loadFault
  saveFault : left.saveFault = right.saveFault

namespace AlikeToNotices

variable {left right : Scene}

/-- A notice goes alike in scenes that are alike to notices. -/
theorem noted (alike : left.AlikeToNotices right) (tasks : Tasks)
    : tasks.noted left = tasks.noted right := by
  obtain ⟨result, journal, ran, went, posted⟩ := left.run_fire tasks.reminder
  obtain ⟨other, more, ranToo, wentToo, postedToo⟩ := right.run_fire tasks.reminder
  have posts : left.canPost = right.canPost := by
    unfold canPost
    rw [alike.loadFault, alike.sendsFail]
  unfold Tasks.noted
  rw [ran, ranToo, posted, postedToo]
  dsimp only
  rw [went, wentToo]
  unfold canRecord
  rw [posts, alike.saveFault, alike.now]

/-- A notice in both of the scenes leaves them alike. -/
theorem notice (alike : left.AlikeToNotices right) (settings : ReminderSettings)
    : (settings.fire.run handle left).2.AlikeToNotices (settings.fire.run handle right).2 := by
  obtain ⟨result, journal, ran, -, -⟩ := left.run_fire settings
  obtain ⟨other, more, ranToo, -, -⟩ := right.run_fire settings
  rw [ran, ranToo]
  refine ⟨?_, alike.now, alike.sendsFail, alike.loadFault, alike.saveFault⟩
  change (left.noticed settings left.world.community.board).hub.Sound
  rw [left.hub_noticed settings]
  exact alike.hub

/-- A pass in one of the scenes leaves them alike. -/
theorem pass (alike : left.AlikeToNotices right) (tasks : Tasks)
    : (tasks.pass.run handle left).2.AlikeToNotices right := by
  obtain ⟨result, after, writing, -, writes⟩ :=
    tasks.reconcile.pass_writes tasks.sink left.world.clock left.world.community
  obtain ⟨made, course⟩ := writes.course left.world.community.board alike.hub
  rw [left.world.community.onBoard_board] at course
  obtain ⟨journal, ran⟩ := left.run_pass course
  unfold Tasks.pass
  rw [ran]
  exact ⟨Board.sound_write alike.hub writing, writes.steady.now.trans alike.now,
    writes.steady.sendsFail.trans alike.sendsFail, alike.loadFault, alike.saveFault⟩

theorem operate (alike : left.AlikeToNotices right) {operation : Operation}
    (offBoard : operation.IsOffBoard)
    : { left with world := left.world.onCommunity operation.act }.AlikeToNotices
        { right with world := right.world.onCommunity operation.act } := by
  obtain ⟨now, sendsFail⟩ := Operation.act_alike offBoard alike.now alike.sendsFail
  exact ⟨operation.hub_sound_act alike.hub, now, sendsFail, alike.loadFault, alike.saveFault⟩

end AlikeToNotices

end Scene

/-- Without the passes the notices go alike, by induction over the occurrences. -/
theorem Tasks.perform_notices (tasks : Tasks) (occurrences : List Occurrence) {left right : Scene}
    (alike : left.AlikeToNotices right)
    : (tasks.perform occurrences left).notices
      = (tasks.perform (occurrences.filter fun o => !o.isPass) right).notices := by
  induction occurrences generalizing left right with
  | nil => rfl
  | cons occurrence rest ih =>
      have ⟨hub, now, sendsFail, loadFault, saveFault⟩ := alike
      cases occurrence with
      | pass => exact ih (alike.pass tasks)
      | notice =>
          exact congrArg₂ List.cons (alike.noted tasks) (ih (alike.notice tasks.reminder))
      | operate operation offBoard => exact ih (alike.operate offBoard)
      | setClock at_ => exact ih ⟨hub, now, sendsFail, loadFault, saveFault⟩
      | failLoads fault => exact ih ⟨hub, now, sendsFail, rfl, saveFault⟩
      | failSaves fault => exact ih ⟨hub, now, sendsFail, loadFault, rfl⟩

-------------------------------------------------------------------------------
-- A pass and a notice in either order
-------------------------------------------------------------------------------

namespace Scene

/-- Two scenes that came of one scene are the same, journals aside, but for the identifiers of
messages that were posted since.
-/
structure RenamedBy (rename : Equiv.Perm MessageId) (before left right : Scene) : Prop where
  board
    : Board.RenamedBy rename before.world.community.board left.world.community.board
        right.world.community.board
  community
    : right.world.community = left.world.community.onBoard right.world.community.board
  store
    : right.world.store = left.world.store
      ∨ ∃ id,
        left.world.store = before.world.store.set ReminderRecord.key id.text
        ∧ right.world.store = before.world.store.set ReminderRecord.key (rename id).text
  clock : right.world.clock = left.world.clock
  loadFault : right.loadFault = left.loadFault
  saveFault : right.saveFault = left.saveFault

/-- The notice on record, if there is one, is on the board. -/
def RecordStands (scene : Scene) : Prop :=
  ∀ id ∈ scene.stored?, (scene.world.community.posts.find? id).isSome

/-- Whether a notice is posted before a writing or after it settles identifiers and nothing else. -/
theorem noticed_write {scene : Scene} (numbered : scene.world.community.Numbered)
    (stands : scene.RecordStands) (settings : ReminderSettings) {writing : Writing}
    (few : scene.world.community.sequence + writing.posts.length < MessageId.sequences)
    : let community := scene.world.community
      ∃ rename : Equiv.Perm MessageId,
        Board.RenamedBy rename community.board
          (scene.noticed settings (community.board.write community.now writing))
          ((scene.noticed settings community.board).write community.now writing)
        ∧ (scene.canPost = true
          → rename (MessageId.mint community.now (community.sequence + writing.posts.length))
            = MessageId.mint community.now community.sequence) := by
  intro community
  have fresh
      : ∀ id, (community.board.posts.find? id).isSome → id.number < community.board.sequence :=
    numbered (by omega)
  have stands : ∀ id ∈ scene.stored?, (community.board.posts.find? id).isSome := stands
  have few : community.board.sequence + writing.posts.length < MessageId.sequences := few
  have old (id : MessageId) (recorded : id ∈ scene.stored?) := fresh id (stands id recorded)
  unfold noticed canPost
  cases scene.loadFault with
  | some fault => exact ⟨.refl MessageId, .refl _ _, nofun⟩
  | none =>
      simp only [Option.isSome_none, Bool.false_eq_true, if_false]
      cases scene.world.community.sendsFail with
      | true =>
          refine ⟨.refl MessageId, ?_, nofun⟩
          simp only [if_true]
          rw [Board.clear_write old (Nat.le_of_lt few)]
          exact .refl _ _
      | false =>
          exact ⟨_, Board.write_renamed fresh stands few _,
            fun _ => MessageId.lastFirst_last writing.posts.length⟩

/-- A scene after a pass: messages were posted, and nothing else has changed that a notice goes by.
-/
structure Passed (before after : Scene) (posted : Nat) : Prop where
  steady : before.world.community.Steady after.world.community
  sequence : after.world.community.sequence = before.world.community.sequence + posted
  store : after.world.store = before.world.store
  loadFault : after.loadFault = before.loadFault
  saveFault : after.saveFault = before.saveFault

namespace Passed

variable {before after : Scene} {posted : Nat}

theorem canPost (passed : before.Passed after posted)
    : after.canPost = before.canPost := by
  unfold Scene.canPost
  rw [passed.loadFault, passed.steady.sendsFail]

/-- After a pass a notice does the same to a board. -/
theorem noticed (passed : before.Passed after posted)
    : after.noticed = before.noticed := by
  funext settings board
  unfold Scene.noticed stored?
  rw [passed.store, passed.loadFault, passed.steady.now, passed.steady.sendsFail,
    passed.steady.deletesFail]

/-- After a pass a notice goes on record as well, under the number that it gets then. -/
theorem recorded (passed : before.Passed after posted) {rename : Equiv.Perm MessageId}
    (moves
      : before.canPost = true
        → rename
            (MessageId.mint before.world.community.now (before.world.community.sequence + posted))
          = MessageId.mint before.world.community.now before.world.community.sequence)
    : before.recorded = after.recorded
      ∨ ∃ id,
        after.recorded = before.world.store.set ReminderRecord.key id.text
        ∧ before.recorded = before.world.store.set ReminderRecord.key (rename id).text := by
  have records : after.canRecord = before.canRecord := by
    unfold canRecord
    rw [passed.canPost, passed.saveFault]
  unfold Scene.recorded
  rw [records, passed.store, passed.steady.now, passed.sequence]
  cases can : before.canRecord with
  | false => exact .inl (by simp only [Bool.false_eq_true, if_false])
  | true =>
      refine .inr ⟨_, if_pos rfl, ?_⟩
      rw [moves (Bool.and_eq_true_iff.mp can).1]
      exact if_pos rfl

end Passed

/-- Of a pass and a notice that both go on in a scene, which one comes first settles the identifiers
of their messages and nothing else.
-/
theorem renamed_of_order {scene : Scene} (numbered : scene.world.community.Numbered)
    (sound : scene.world.community.hub.Sound) (stands : scene.RecordStands)
    (few : scene.world.community.sequence + 4 ≤ MessageId.sequences) (tasks : Tasks)
    : ∃ rename,
        RenamedBy rename scene
          (tasks.reminder.fire.run handle (tasks.pass.run handle scene).2).2
          (tasks.pass.run handle (tasks.reminder.fire.run handle scene).2).2 := by
  let community := scene.world.community
  obtain ⟨result, after, writing, length, writes⟩ :=
    tasks.reconcile.pass_writes tasks.sink scene.world.clock community
  have fewer : scene.world.community.sequence + writing.posts.length < MessageId.sequences := by
    omega
  obtain ⟨rename, renamed, moved⟩ := noticed_write numbered stands tasks.reminder fewer
  -- The pass, and then the notice.
  obtain ⟨made, course⟩ := writes.course community.board sound
  obtain ⟨journal, passed⟩ := scene.run_pass course
  let middle : Scene :=
    { scene with
      world := { scene.world with
        community := after.onBoard (community.board.write community.now writing)
        journal := journal } }
  obtain ⟨posted, noted, fired, -, -⟩ := middle.run_fire tasks.reminder
  have passes : scene.Passed middle writing.posts.length :=
    ⟨⟨writes.steady.now, writes.steady.sendsFail, writes.steady.deletesFail⟩,
      community.board.sequence_postAll writing.posts, rfl, rfl, rfl⟩
  -- The notice, and then the pass.
  obtain ⟨sent, told, firedFirst, -, -⟩ := scene.run_fire tasks.reminder
  have still : (scene.noticed tasks.reminder community.board).hub.Sound := by
    rw [scene.hub_noticed tasks.reminder]
    exact sound
  obtain ⟨more, courseAfter⟩ := writes.course (scene.noticed tasks.reminder community.board) still
  let reminded : Scene :=
    { scene with
      world := { scene.world with
        community := community.onBoard (scene.noticed tasks.reminder community.board)
        store := scene.recorded
        journal := told } }
  obtain ⟨last, passedAfter⟩ := reminded.run_pass courseAfter
  refine ⟨rename, ?_⟩
  unfold Tasks.pass
  rw [passed, fired, firedFirst, passedAfter]
  refine ⟨?_, ?_, ?_, rfl, rfl, rfl⟩
  · change Board.RenamedBy rename community.board
      (middle.noticed tasks.reminder (community.board.write community.now writing)) _
    rw [passes.noticed]
    exact renamed
  · simp only [middle, Community.onBoard_onBoard, Community.board_onBoard]
  · exact passes.recorded moved

end Scene

-------------------------------------------------------------------------------
-- Independence
-------------------------------------------------------------------------------

namespace Tasks

/-- The two tasks do not interfere in a scene: whatever happens, every pass has the result that it
has without the notices, and leaves the same members, removals and reports; every notice goes as it
goes without the passes; and while there are numbers for messages, a pass and a notice in either
order leave the same but for the identifiers of the messages that they post.
-/
structure Independent (tasks : Tasks) (scene : Scene) : Prop where
  passes
    : ∀ occurrences,
      let whole := tasks.perform occurrences scene
      let alone := tasks.perform (occurrences.filter fun o => !o.isNotice) scene
      whole.passes = alone.passes
      ∧ whole.scene.world.community.members = alone.scene.world.community.members
      ∧ whole.scene.world.community.kicked = alone.scene.world.community.kicked
      ∧ whole.scene.world.community.reports = alone.scene.world.community.reports
  notices
    : ∀ occurrences,
      (tasks.perform occurrences scene).notices
        = (tasks.perform (occurrences.filter fun o => !o.isPass) scene).notices
  order
    : scene.RecordStands
      → scene.world.community.sequence + 4 ≤ MessageId.sequences
      → ∃ rename,
        Scene.RenamedBy rename scene (tasks.perform [.pass, .notice] scene).scene
          (tasks.perform [.notice, .pass] scene).scene

/-- The two tasks do not interfere in any community that has come about, whatever the store holds.
-/
theorem independent {scene : Scene} (attained : scene.world.community.Attained) (tasks : Tasks)
    : tasks.Independent scene := by
  have sound := attained.hub_sound
  constructor
  · intro occurrences whole alone
    obtain ⟨results, alike⟩ :=
      tasks.perform_passes occurrences (⟨rfl, rfl, sound, sound⟩ : scene.AlikeToPasses scene)
    have members := congrArg Community.members alike.community
    have kicked := congrArg Community.kicked alike.community
    have reports := congrArg Community.reports alike.community
    exact ⟨results, members, kicked, reports⟩
  · exact fun occurrences => tasks.perform_notices occurrences ⟨sound, rfl, rfl, rfl, rfl⟩
  · exact fun stands few => Scene.renamed_of_order attained.numbered sound stands few tasks

/-- The two tasks where one member is overdue, the gate asks about everyone and a notice stands. -/
theorem independent_while_asking
    : let at_ : Instant :=
        ⟨40, 0, 0, by decide, by decide, by decide, by decide⟩
      let tasks : Tasks :=
        ⟨⟨⟨.ofSeconds 259200, .ofSeconds 2592000, ⟨900⟩, ∅⟩,
            ⟨0.1, .ofSeconds 300, ⟨30⟩, none, "yes", "no"⟩, .ofSeconds 60⟩,
          .channel ⟨30⟩, ⟨⟨20⟩, .ofSeconds 86400, "read the rules"⟩⟩
      let posted := (Community.ofMembers at_ [⟨⟨7⟩, some .epoch, ∅, false⟩]).seed ⟨20⟩
        "read the rules" at_
      let scene : Scene :=
        ⟨⟨posted.2, Store.empty.set ReminderRecord.key posted.1.text, at_, []⟩, none, none⟩
      scene.world.community.Attained
      ∧ scene.RecordStands
      ∧ scene.world.community.sequence + 4 ≤ MessageId.sequences
      ∧ tasks.Independent scene := by
  intro at_ tasks posted scene
  have attained : scene.world.community.Attained :=
    .act (.act (.empty at_) (.join ⟨⟨7⟩, some .epoch, ∅, false⟩))
      (.seed ⟨20⟩ "read the rules" at_)
  have stands : scene.RecordStands := by
    intro id recorded
    have standing : scene.stored? = some posted.1 := ReminderRecord.stored?_set Store.empty posted.1
    rw [standing, Option.mem_some_iff] at recorded
    subst recorded
    change ((OrderedMap.insert posted.1 _ _).find? posted.1).isSome
    rw [OrderedMap.find?_insert, if_pos rfl]
    rfl
  exact ⟨attained, stands, by decide, tasks.independent attained⟩

end Tasks

end Gatehouse
