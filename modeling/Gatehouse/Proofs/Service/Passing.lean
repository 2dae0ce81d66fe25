import Gatehouse.Proofs.Community.Renaming
import Gatehouse.Proofs.Verification.Asking
import Gatehouse.Proofs.Verification.Conduct

/-! A pass on any board. What a pass makes of the members and what it ends in does not depend on the
messages that are there and on the identifiers that its own ones get; and it writes the same on
every board.
-/

namespace Gatehouse

-------------------------------------------------------------------------------
-- What no call changes
-------------------------------------------------------------------------------

/-- The time of a community and what it was told of messages are the same. -/
structure Community.Steady (before after : Community) : Prop where
  now : after.now = before.now
  sendsFail : after.sendsFail = before.sendsFail
  deletesFail : after.deletesFail = before.deletesFail

namespace Community.Steady

variable {before middle after : Community}

theorem refl (community : Community)
    : community.Steady community :=
  ⟨rfl, rfl, rfl⟩

theorem trans (first : before.Steady middle) (second : middle.Steady after)
    : before.Steady after :=
  ⟨second.now.trans first.now, second.sendsFail.trans first.sendsFail,
    second.deletesFail.trans first.deletesFail⟩

theorem answer (community : Community) (call : Call)
    : community.Steady (community.answer call).2 := by
  have moves := community.answer_moves call
  generalize (community.answer call).2 = after at moves ⊢
  cases moves with
  | waited =>
      rw [community.await_eq]
      exact ⟨rfl, rfl, rfl⟩
  | _ => exact ⟨rfl, rfl, rfl⟩

end Community.Steady

-------------------------------------------------------------------------------
-- Programs on any board
-------------------------------------------------------------------------------

/-- A call takes the course of its answer. -/
theorem Program.Course.of_answer {now : Instant} {before after : Community} {call : Call}
    {reply : call.Reply} (answered : before.answer call = (reply, after))
    : (Program.call call).Course now before reply after [⟨call, reply⟩] := by
  have called := Program.Course.call now before call
  rw [answered] at called
  exact called

namespace Board

variable {board : Board} {now : Instant}

theorem write_nothing
    : board.write now .nothing = board :=
  ext rfl (fun _ => rfl) rfl

theorem write_followed (writing : Writing) (posts : List Post)
    : (board.write now writing).write now (.ofPosts posts)
      = board.write now (writing.followed posts) := by
  have same
      : ∀ (later : Board) (hub : ReactionHub),
          { later with hub := hub }.postAll now posts
            = { later.postAll now posts with hub := hub } := by
    induction posts with
    | nil => exact fun later hub => rfl
    | cons post rest ih => exact fun later hub => ih (later.post now post) hub
  have all
      : board.postAll now (writing.posts ++ posts)
        = (board.postAll now writing.posts).postAll now posts := by
    simp only [postAll, List.foldl_append]
  unfold write Writing.followed Writing.ofPosts heard
  dsimp only
  rw [all, same]

/-- A prompt that was asked, answered and settled is written as it is settled. -/
theorem write_prompt (board : Board) (now : Instant) (asked settled : Post)
    (kept : List ScriptedReaction)
    : let prompt := MessageId.mint now board.sequence
      board.write now (.ofPrompt settled kept)
        = ((board.post now asked).hear kept prompt).put prompt settled :=
  ext rfl (fun id => congrArg (·.posts.find? id) (board.put_put _ asked settled).symm) rfl

theorem sound_write (sound : board.hub.Sound) (writing : Writing)
    : (board.write now writing).hub.Sound := by
  change (board.heard writing (MessageId.mint now board.sequence)).Sound
  unfold heard
  cases writing.heard with
  | none => exact sound
  | some kept => exact sound.afterWait kept _

end Board

namespace Program

variable {α β : Type}

/-- A program writes on the board when on every board it ends in the same value, does the same
beside the board and writes the same on it.
-/
structure Writes (p : Program α) (now : Instant) (before : Community) (value : α)
    (after : Community) (writing : Writing) : Prop where
  steady : before.Steady after
  course
    : ∀ board : Board,
      board.hub.Sound
      → ∃ made,
        p.Course now (before.onBoard board) value
          (after.onBoard (board.write before.now writing)) made

namespace Writes

variable {now : Instant} {before middle after : Community} {value : α} {result : β}
  {writing : Writing}

theorem done
    : (pure value : Program α).Writes now before value before .nothing :=
  ⟨.refl before, fun _ _ => ⟨_, .done⟩⟩

/-- A program goes on with more messages. -/
theorem bind {p : Program α} {f : α → Program β} {posts : List Post}
    (first : p.Writes now before value middle writing)
    (next : (f value).Writes now middle result after (.ofPosts posts))
    : (p >>= f).Writes now before result after (writing.followed posts) := by
  refine ⟨first.steady.trans next.steady, fun board sound => ?_⟩
  obtain ⟨made, begun⟩ := first.course board sound
  obtain ⟨more, ended⟩ :=
    next.course (board.write before.now writing) (board.sound_write sound writing)
  rw [first.steady.now, Board.write_followed] at ended
  exact ⟨made ++ more, begun.bind ended⟩

/-- A program that has written nothing goes on with what it writes. -/
theorem bind_nothing {p : Program α} {f : α → Program β}
    (first : p.Writes now before value middle .nothing)
    (next : (f value).Writes now middle result after writing)
    : (p >>= f).Writes now before result after writing := by
  refine ⟨first.steady.trans next.steady, fun board sound => ?_⟩
  obtain ⟨made, begun⟩ := first.course board sound
  obtain ⟨more, ended⟩ := next.course board sound
  rw [Board.write_nothing] at begun
  rw [first.steady.now] at ended
  exact ⟨made ++ more, begun.bind ended⟩

/-- A program that writes nothing more has written what its first part has written. -/
theorem followed {p : Program α} {f : α → Program β}
    (first : p.Writes now before value middle writing)
    (next : (f value).Writes now middle result after .nothing)
    : (p >>= f).Writes now before result after writing := by
  have whole := first.bind next
  rw [writing.followed_nil] at whole
  exact whole

theorem log (level : Journal.Level) (message : String) (fields : List (String × String))
    : (Program.log level message fields).Writes now before () before .nothing :=
  ⟨.refl before, fun _ _ => ⟨_, .log level message fields⟩⟩

theorem clock
    : Program.now.Writes now before now before .nothing :=
  ⟨.refl before, fun _ _ => ⟨_, .clock⟩⟩

theorem after_log {level : Journal.Level} {message : String} {fields : List (String × String)}
    {f : Unit → Program β} (next : (f ()).Writes now before result after writing)
    : (Program.log level message fields >>= f).Writes now before result after writing :=
  (log level message fields).bind_nothing next

/-- A call on members writes nothing. -/
theorem call {call : Call} (onMembers : call.IsOnMembers)
    : (Program.call call).Writes now before (before.answer call).1 (before.answer call).2
        .nothing :=
  ⟨.answer before call, fun board _ => ⟨_, .of_answer (before.answer_onBoard board onMembers)⟩⟩

/-- A message that is refused writes nothing. -/
theorem refused (fails : before.sendsFail = true) (channel : ChannelId) (text : String)
    : (Program.call (.send channel text)).Writes now before
        (.error ⟨.unavailable, "send failed"⟩) before .nothing := by
  refine ⟨.refl before, fun board _ => ⟨_, .of_answer ?_⟩⟩
  have refused := before.send_onBoard board channel text
  rw [if_pos fails] at refused
  exact refused

end Writes

end Program

/-- An effect that has nothing to do with the board: a call on members or a note in the journal. -/
def Effect.IsOffBoard : Effect → Prop
  | .call made => made.IsOnMembers
  | .log _ => True
  | _ => False

/-- A program that only acts on members does the same on every board and writes nothing, by
induction over the program.
-/
theorem Program.AsksOnly.writes {α : Type} {p : Program α} (off : p.AsksOnly Effect.IsOffBoard)
    (now : Instant) (before : Community)
    : ∃ value after, p.Writes now before value after .nothing := by
  induction p generalizing before with
  | done value => exact ⟨value, before, .done⟩
  | request effect next ih =>
      have here := off.effect World.handle (World.start before)
      cases effect with
      | call made =>
          obtain ⟨value, after, later⟩ :=
            ih (before.answer made).1 (off.next _) (before.answer made).2
          exact ⟨value, after, Program.Writes.bind_nothing (.call here) later⟩
      | log entry =>
          obtain ⟨value, after, later⟩ := ih () (off.next ()) before
          exact ⟨value, after, .after_log later⟩
      | file | clock | load | save => exact here.elim

open Program (Writes)

-------------------------------------------------------------------------------
-- The gate
-------------------------------------------------------------------------------

namespace GateSettings

/-- A message that is on the board is offered a token. -/
theorem offer_onBoard (now : Instant) (community : Community) (settings : GateSettings)
    {board : Board} {prompt : MessageId} {post : Post}
    (found : board.posts.find? prompt = some post) (token : String)
    : ∃ made,
        (settings.offer prompt token).Course now (community.onBoard board) ()
          (community.onBoard
            (board.put prompt { post with reactions := post.reactions ++ [token] })) made := by
  have offered
      : (Program.call (.react settings.reviewChannel prompt token)).Course now _ _ _ _ :=
    .of_answer (community.changePost_onBoard found _)
  exact ⟨_, tolerated_course offered _ _⟩

/-- The answer that kept reactions give to a prompt. -/
def answerIn (settings : GateSettings) (community : Community) : Option (String × MemberId) :=
  (community.answerAhead settings.tokens).map fun r => (r.token, r.actor)

/-- A prompt that is on the board is settled by the kept reactions, which are heard on it. -/
theorem settle_onBoard (now : Instant) (community : Community) (settings : GateSettings)
    (candidates : Nat) {board : Board} (sound : board.hub.Sound) {prompt : MessageId} {post : Post}
    (found : board.posts.find? prompt = some post)
    : let decision := settings.decisionOf (settings.answerIn community)
      ∃ made,
        (settings.settle candidates prompt).Course now (community.onBoard board) decision
          ({ community with awaits := community.awaits + 1, scripted := [] }.onBoard
            ((board.hear community.scripted prompt).put prompt
              { post with
                content := outcomeText candidates decision
                reactions := []
                edited := true }))
          made := by
  intro decision
  let after : Community := { community with awaits := community.awaits + 1, scripted := [] }
  let offered : Post :=
    { post with reactions := post.reactions ++ [settings.approveToken] ++ [settings.denyToken] }
  let heard := board.hear community.scripted prompt
  obtain ⟨first, approve⟩ := settings.offer_onBoard now community found settings.approveToken
  obtain ⟨second, deny⟩ := settings.offer_onBoard now community
    (board.find?_put prompt { post with reactions := post.reactions ++ [settings.approveToken] })
    settings.denyToken
  rw [Board.put_put] at deny
  have still : (board.put prompt offered).hub.Sound := sound
  have answered
      : (community.onBoard (board.put prompt offered)).await (settings.waitOn prompt) = _ :=
    community.await_onBoard still rfl
  have waited
      : (Program.call (.awaitReaction (settings.waitOn prompt))).Course now
          (community.onBoard (board.put prompt offered)) (settings.answerIn community)
          (after.onBoard (heard.put prompt offered)) _ :=
    .of_answer answered
  have cleared
      : (Program.call (.clearReactions settings.reviewChannel prompt)).Course now _ _ _ _ :=
    .of_answer (after.changePost_onBoard (heard.find?_put prompt offered) _)
  rw [Board.put_put] at cleared
  have edited
      : (Program.call (.edit settings.reviewChannel prompt
          (outcomeText candidates decision))).Course now _ _ _ _ :=
    .of_answer
      (after.changePost_onBoard (heard.find?_put prompt { offered with reactions := [] }) _)
  rw [Board.put_put] at edited
  have closing := (tolerated_course edited "failed to edit prompt with final outcome" []).bind
    (f := fun _ => pure decision) .done
  have noting := (noteAnswer_course now _ settings (settings.answerIn community)).bind
    (f := fun _ => _) closing
  have clearing := (tolerated_course cleared "failed to clear prompt reactions" []).bind
    (f := fun _ => _) noting
  exact ⟨_, approve.bind (deny.bind (waited.bind clearing))⟩

/-- Ask about candidates: post the prompt, and settle it. -/
def ask (settings : GateSettings) (candidates total days : Nat) : Program (Outcome Decision) := do
  match ← Program.call
      (.send settings.reviewChannel (settings.promptText candidates total days)) with
  | .error failure => pure (.error failure)
  | .ok prompt => return .ok (← settings.settle candidates prompt)

/-- The prompt is written as it is settled. -/
theorem ask_writes (settings : GateSettings) (candidates total days : Nat) (now : Instant)
    {before : Community} (sends : before.sendsFail = false)
    : let decision := settings.decisionOf (settings.answerIn before)
      (settings.ask candidates total days).Writes now before (.ok decision)
        { before with awaits := before.awaits + 1, scripted := [] }
        (.ofPrompt ⟨settings.reviewChannel, outcomeText candidates decision, [], false, true⟩
          before.scripted) := by
  refine ⟨⟨rfl, rfl, rfl⟩, fun board sound => ?_⟩
  let prompt := MessageId.mint before.now board.sequence
  let asked : Post :=
    ⟨settings.reviewChannel, settings.promptText candidates total days, [], false, false⟩
  have sent := before.send_onBoard board asked.channel asked.content
  rw [if_neg (Bool.eq_false_iff.mp sends)] at sent
  have posted : (Program.call (.send asked.channel asked.content)).Course now _ _ _ _ :=
    .of_answer sent
  have still : (board.post before.now asked).hub.Sound := sound
  have found : (board.post before.now asked).posts.find? prompt = some asked :=
    board.find?_put prompt asked
  obtain ⟨made, answered⟩ := settings.settle_onBoard now before candidates still found
  have decided := answered.bind
    (f := fun decision => (pure (.ok decision) : Program (Outcome Decision))) .done
  rw [board.write_prompt before.now asked _ before.scripted]
  exact ⟨_, posted.bind decided⟩

/-- The gate writes its prompt, if it asks at all and can, and no other message. -/
theorem authorize_writes (settings : GateSettings) (candidates total days : Nat) (now : Instant)
    (before : Community)
    : ∃ verdict after writing,
        writing.posts.length ≤ 1
        ∧ (settings.authorize candidates total days).Writes now before verdict after writing := by
  unfold authorize
  cases needsConfirmation candidates total settings.threshold with
  | false =>
      exact ⟨.ok .autoApproved, before, .nothing, Nat.zero_le _, .after_log (.after_log .done)⟩
  | true =>
      cases fails : before.sendsFail with
      | true =>
          exact ⟨_, before, .nothing, Nat.zero_le _,
            .after_log (.after_log ((Writes.refused fails _ _).bind_nothing .done))⟩
      | false =>
          have asked := settings.ask_writes candidates total days now fails
          exact ⟨_, _, .ofPrompt _ _, Nat.le_refl 1, .after_log (.after_log asked)⟩

end GateSettings

-------------------------------------------------------------------------------
-- The whole pass
-------------------------------------------------------------------------------

namespace ReconcileSettings

/-- A report is written in the channel of the sink, if it has one and messages do not fail. -/
theorem emit_writes (now : Instant) (before : Community) (sink : AuditSink) (text : String)
    (severity : Severity)
    : ∃ after posts,
        posts.length ≤ 1
        ∧ (emit sink text severity).Writes now before () after (.ofPosts posts) := by
  have emitted (board : Board) := emit_course now (before.onBoard board) sink text severity
  cases sink with
  | file =>
      exact ⟨before.fileReport ⟨PassReport.title, text, severity⟩, [], Nat.zero_le _,
        ⟨rfl, rfl, rfl⟩, fun board _ => ⟨_, emitted board⟩⟩
  | journal => exact ⟨before, [], Nat.zero_le _, .refl before, fun board _ => ⟨_, emitted board⟩⟩
  | channel destination =>
      have sent (board : Board) := before.send_onBoard board destination
        (AuditSink.render ⟨PassReport.title, text, severity⟩)
      unfold AuditSink.receive at emitted
      simp only [sent] at emitted
      cases fails : before.sendsFail with
      | true =>
          rw [fails] at emitted
          exact ⟨before, [], Nat.zero_le _, .refl before, fun board _ => ⟨_, emitted board⟩⟩
      | false =>
          rw [fails] at emitted
          exact ⟨before, [⟨destination, _, [], false, false⟩], Nat.le_refl 1, .refl before,
            fun board _ => ⟨_, emitted board⟩⟩

/-- A removal writes what the gate writes. -/
theorem remove_writes (settings : ReconcileSettings) (batch : Batch) (total : Nat)
    (now : Instant) (before : Community)
    : ∃ outcome after writing,
        writing.posts.length ≤ 1
        ∧ (settings.remove batch total).Writes now before outcome after writing := by
  unfold remove
  cases batch.isEmpty with
  | true => exact ⟨_, _, .nothing, Nat.zero_le _, .done⟩
  | false =>
      obtain ⟨verdict, middle, writing, few, asked⟩ :=
        settings.gate.authorize_writes batch.size total settings.policy.removalAfter.days now
          before
      cases verdict with
      | error failure =>
          exact ⟨_, _, writing, few, asked.followed (.after_log .done)⟩
      | ok decision =>
          cases permits : decision.permits with
          | false =>
              refine ⟨.notAuthorized batch.size (some decision), middle, writing, few,
                asked.followed ?_⟩
              simp only [permits, Bool.not_false, if_true]
              exact .after_log .done
          | true =>
              have off
                  : (removeMembers batch.members
                      (reason settings.policy.removalAfter.days)).AsksOnly Effect.IsOffBoard :=
                removeMembers_asksOnly (fun _ => trivial) (fun _ => trivial) _
              obtain ⟨tally, after, removed⟩ := off.writes now middle
              refine ⟨.executed decision tally, after, writing, few, asked.followed ?_⟩
              simp only [permits, Bool.not_true, Bool.false_eq_true, if_false]
              exact removed.followed .done

/-- Acting on a listing writes at most the prompt and the report. -/
theorem act_writes (settings : ReconcileSettings) (sink : AuditSink) (startedAt : Instant)
    (members : List Member) (now : Instant) (before : Community)
    : ∃ report after writing,
        writing.posts.length ≤ 2
        ∧ (settings.act sink startedAt members).Writes now before report after writing := by
  let classification := settings.policy.classify startedAt members
  have off : (settings.warn classification.needsWarning).AsksOnly Effect.IsOffBoard :=
    settings.warn_asksOnly (fun _ _ _ => trivial) (fun _ => trivial) _
  obtain ⟨warning, warned, warns⟩ := off.writes now before
  obtain ⟨removal, removed, writing, asks, removes⟩ :=
    settings.remove_writes classification.needsRemoval members.length now warned
  let report : PassReport :=
    ⟨startedAt, classification, warning, removal, settings.policy.pendingRole⟩
  obtain ⟨after, posts, reports, emits⟩ := emit_writes now removed sink report.text report.severity
  refine ⟨report, after, writing.followed posts, ?_, ?_⟩
  · change (writing.posts ++ posts).length ≤ 2
    rw [List.length_append]
    exact Nat.add_le_add asks reports
  · have ended
        : (Program.log .info "Verification cycle finished" []
            >>= fun _ => pure report).Writes now after report after .nothing :=
      .after_log .done
    exact .after_log (.after_log (warns.bind_nothing (removes.bind (emits.followed ended))))

/-- A pass ends in the same result on every board and writes the same, at most two messages. -/
theorem pass_writes (settings : ReconcileSettings) (sink : AuditSink) (now : Instant)
    (before : Community)
    : ∃ result after writing,
        writing.posts.length ≤ 2
        ∧ (settings.pass sink).Writes now before result after writing := by
  have listed : (Program.call .listMembers).Writes now before (before.listing before.memberList)
      before .nothing := .call trivial
  cases listing : before.listing before.memberList with
  | error failure =>
      obtain ⟨after, posts, few, emits⟩ := emit_writes now before sink
        ("Skipped verification cycle: membership snapshot unavailable (" ++ failure.text ++ ").")
        .warning
      rw [listing] at listed
      exact ⟨.error ⟨failure⟩, after, _, Nat.le_succ_of_le few,
        Writes.clock.bind_nothing
          (.after_log (listed.bind_nothing (.after_log (emits.followed .done))))⟩
  | ok members =>
      obtain ⟨report, after, writing, few, acts⟩ :=
        settings.act_writes sink now members now before
      rw [listing] at listed
      exact ⟨.ok report, after, writing, few,
        Writes.clock.bind_nothing (.after_log (listed.bind_nothing (acts.followed .done)))⟩

end ReconcileSettings

end Gatehouse
