import Gatehouse.Proofs.Community.Operation
import Gatehouse.Proofs.Verification.Round

/-! Removals have leave. Over any run a pass removes members of its own removal batch only, and
only when the batch is small or the reactions kept for its one prompt approve it. A kept
reaction goes to one wait, so no approval serves twice.
-/

namespace Gatehouse

-------------------------------------------------------------------------------
-- Prompts and waits among the calls of a pass
-------------------------------------------------------------------------------

namespace Exchange

/-- The message that a call has posted: where, what, and under which identifier. -/
def posted? : Exchange → Option (ChannelId × String × MessageId)
  | ⟨.send channel text, .ok id⟩ => some (channel, text, id)
  | _ => none

/-- The wait that a call was. -/
def awaited? : Exchange → Option ReactionWait
  | ⟨.awaitReaction wait, _⟩ => some wait
  | _ => none

end Exchange

def postedBy (made : List Exchange) : List (ChannelId × String × MessageId) :=
  made.filterMap Exchange.posted?

def awaitedBy (made : List Exchange) : List ReactionWait :=
  made.filterMap Exchange.awaited?

theorem postedBy_append {made more : List Exchange}
    : postedBy (made ++ more) = postedBy made ++ postedBy more :=
  List.filterMap_append

theorem awaitedBy_append {made more : List Exchange}
    : awaitedBy (made ++ more) = awaitedBy made ++ awaitedBy more :=
  List.filterMap_append

theorem grants_silent (settings : ReconcileSettings) (batch : Batch) (before : Community)
    : postedBy (settings.grants batch before) = []
      ∧ awaitedBy (settings.grants batch before) = [] := by
  simp [postedBy, awaitedBy, ReconcileSettings.grants, Exchange.posted?, Exchange.awaited?]

theorem kicks_silent (settings : ReconcileSettings) (batch : Batch) (before : Community)
    : postedBy (settings.kicks batch before) = []
      ∧ awaitedBy (settings.kicks batch before) = [] := by
  simp [postedBy, awaitedBy, ReconcileSettings.kicks, Exchange.posted?, Exchange.awaited?]

/-- A report is waited for by nobody, and what its delivery posts is the report. -/
theorem AuditSink.exchanges_post (sink : AuditSink) (report : Report) (before : Community)
    : awaitedBy (sink.exchanges report before) = []
      ∧ ∀ posting ∈ postedBy (sink.exchanges report before),
        posting.2.1 = AuditSink.render report := by
  cases sink with
  | file => exact ⟨rfl, nofun⟩
  | journal => exact ⟨rfl, nofun⟩
  | channel destination =>
      refine ⟨rfl, fun posting posted => ?_⟩
      simp only [exchanges, postedBy, List.mem_filterMap, List.mem_singleton,
        exists_eq_left] at posted
      cases answered : (before.send destination (render report)).1 with
      | ok id =>
          rw [answered] at posted
          cases posted
          rfl
      | error failure =>
          rw [answered] at posted
          cases posted

-------------------------------------------------------------------------------
-- Asking for leave
-------------------------------------------------------------------------------

/-- A decision that permits and comes from an answer comes from an approval. -/
theorem GateSettings.permits_decisionOf {settings : GateSettings}
    {answer : Option (String × MemberId)} (permits : (settings.decisionOf answer).permits = true)
    : settings.decisionOf answer = .humanApproved
      ∧ ∃ actor, answer = some (settings.approveToken, actor) := by
  cases answer with
  | none => cases permits
  | some given =>
      obtain ⟨token, actor⟩ := given
      by_cases approves : token = settings.approveToken
      · subst approves
        exact ⟨by simp [decisionOf], actor, rfl⟩
      · simp [decisionOf, approves, Decision.permits] at permits

/-- How a removal batch asks for leave: it does not wait, and then an execution is automatic; or
it posts one prompt and waits for it once, and then an execution is approved by the kept
reactions.
-/
inductive ReconcileSettings.Asking (settings : ReconcileSettings) (batch : Batch)
    (total : Nat) (before after : Community) (outcome : RemovalOutcome) (made : List Exchange)
    : Prop
  | unasked (waits : awaitedBy made = []) (kept : after.scripted = before.scripted)
    (hub : after.hub = before.hub)
    (automatic
      : ∀ decision tally,
          outcome = .executed decision tally
          → decision = .autoApproved
            ∧ needsConfirmation batch.size total settings.gate.threshold = false)
  | asked (prompt : MessageId)
    (posted
      : postedBy made
        = [(settings.gate.reviewChannel,
            settings.gate.promptText batch.size total settings.policy.removalAfter.days,
            prompt)])
    (waits : awaitedBy made = [settings.gate.waitOn prompt])
    (emptied : after.scripted = [])
    (hub : before.hub.Sound → after.hub.Sound)
    (approved
      : before.hub.Sound
        → ∀ decision tally,
          outcome = .executed decision tally
          → decision = .humanApproved
            ∧ ∃ reaction,
              before.answerAhead settings.gate.tokens = some reaction
              ∧ reaction.token = settings.gate.approveToken)

/-- However a removal batch fares, it asks for leave so. Witness: the exit of the gate. -/
theorem ReconcileSettings.Removal.asking {settings : ReconcileSettings} {batch : Batch}
    {total : Nat} {now : Instant} {before after : Community} {outcome : RemovalOutcome}
    {made : List Exchange}
    (removal : settings.Removal batch total now before outcome after made)
    : settings.Asking batch total before after outcome made := by
  cases removal with
  | nobody empty => exact .unasked rfl rfl rfl nofun
  | unposted due passage =>
      obtain ⟨course, exit⟩ := passage
      cases exit with
      | unposted large fails => exact .unasked rfl rfl rfl nofun
  | vetoed due passage vetoes =>
      obtain ⟨course, exit⟩ := passage
      cases exit with
      | automatic small => exact .unasked rfl rfl rfl nofun
      | answered large sends heard =>
          exact .asked _ rfl rfl rfl (fun sound => (heard sound).1) fun _ => nofun
  | @executed decision tally middle roster asked due passage permits tells dismissed =>
      obtain ⟨course, exit⟩ := passage
      obtain ⟨noPosts, noWaits⟩ := kicks_silent settings batch before
      cases exit with
      | automatic small =>
          refine .unasked noWaits rfl rfl fun _ _ same => ?_
          cases same
          exact ⟨rfl, small⟩
      | @answered prompt answer sequence posts hub _ _ _ _ large sends heard =>
          refine .asked prompt ?_ ?_ rfl (fun sound => (heard sound).1) fun sound _ _ same => ?_
          · rw [postedBy_append, noPosts]
            rfl
          · rw [awaitedBy_append, noWaits]
            rfl
          · cases same
            obtain ⟨approves, actor, answer⟩ := GateSettings.permits_decisionOf permits
            rw [(heard sound).2] at answer
            obtain ⟨reaction, ahead, given⟩ := Option.map_eq_some_iff.mp answer
            exact ⟨approves, reaction, ahead, (Prod.mk.inj given).1⟩

-------------------------------------------------------------------------------
-- Leave in a round
-------------------------------------------------------------------------------

namespace Round

/-- The kept reactions that the pass takes: all of them when it waits, and else none. -/
def takes (round : Round) : List ScriptedReaction :=
  if (awaitedBy round.exchanges).isEmpty then [] else round.before.community.scripted

/-- The pass removed members by the leave of a reviewer whose approval was this token. -/
def approvedBy (token : String) (round : Round) : Bool :=
  match round.result with
  | .ok report =>
      match report.removal with
      | .executed .humanApproved _ => round.settings.gate.approveToken = token
      | _ => false
  | .error _ => false

/-- A pass has the approval for its removals: it posted one prompt, beside which it posted at
most its report, and waited for that prompt alone; and of the newest kept reactions the first
that answers the prompt approves.
-/
structure Approved (round : Round) (report : PassReport) : Prop where
  prompted
    : ∃ prompt others,
        postedBy round.exchanges
          = (round.settings.gate.reviewChannel,
              round.settings.gate.promptText report.classification.needsRemoval.size
                round.before.community.memberList.length
                round.settings.policy.removalAfter.days,
              prompt)
            :: others
        ∧ (∀ posting ∈ others, posting.2.1 = AuditSink.render report.filed)
        ∧ awaitedBy round.exchanges = [round.settings.gate.waitOn prompt]
  answered
    : ∃ reaction,
        round.before.community.answerAhead round.settings.gate.tokens = some reaction
        ∧ reaction.token = round.settings.gate.approveToken

/-- A pass removes with leave: members of its own removal batch, and only when the batch is
small or its removal is approved.
-/
structure Authorized (round : Round) : Prop where
  kicked
    : round.after.community.kicked = round.before.community.kicked ++ round.removed
  leave
    : ∀ id ∈ round.removed,
        ∃ report,
          round.result = .ok report
          ∧ id ∈ report.classification.needsRemoval.members
          ∧ (needsConfirmation report.classification.needsRemoval.size
                round.before.community.memberList.length round.settings.gate.threshold
              = false
            ∨ round.Approved report)
  waitsOnce : (awaitedBy round.exchanges).length ≤ 1

/-- How a round asks for leave, whatever the listing: it waits for nothing, and then an execution is
automatic; or it waits for one prompt, and then an execution is approved.
-/
inductive Asks (round : Round) : Prop
  | unasked (waits : awaitedBy round.exchanges = [])
    (kept : round.after.community.scripted = round.before.community.scripted)
    (hub : round.after.community.hub = round.before.community.hub)
    (automatic
      : ∀ report decision tally,
          round.result = .ok report
          → report.removal = .executed decision tally
          → decision = .autoApproved
            ∧ needsConfirmation report.classification.needsRemoval.size
              round.before.community.memberList.length round.settings.gate.threshold
              = false)
  | asked (prompt : MessageId)
    (waits : awaitedBy round.exchanges = [round.settings.gate.waitOn prompt])
    (emptied : round.after.community.scripted = [])
    (hub : round.before.community.hub.Sound → round.after.community.hub.Sound)
    (approved
      : round.before.community.hub.Sound
        → ∀ report decision tally,
          round.result = .ok report
          → report.removal = .executed decision tally
          → decision = .humanApproved ∧ round.Approved report)

/-- What a round that is conducted posts and waits for, it posts and waits for to remove or to
report.
-/
theorem Conducted.posted_and_awaited {round : Round} {report : PassReport} {granted : Roster}
    {settled : Community} {removing : List Exchange}
    (conducted : round.Conducted report granted settled removing)
    : postedBy round.exchanges
        = postedBy removing ++ postedBy (round.sink.exchanges report.filed settled)
      ∧ awaitedBy round.exchanges = awaitedBy removing := by
  obtain ⟨noPosts, noWaits⟩ :=
    grants_silent round.settings report.classification.needsWarning round.before.community
  have posted : postedBy round.exchanges = postedBy _ ++ (postedBy _ ++ postedBy _) :=
    conducted.filterMap_exchanges Exchange.posted? fun _ => rfl
  have awaited : awaitedBy round.exchanges = awaitedBy _ ++ (awaitedBy _ ++ awaitedBy _) :=
    conducted.filterMap_exchanges Exchange.awaited? fun _ => rfl
  rw [noPosts, List.nil_append] at posted
  rw [noWaits, (round.sink.exchanges_post _ _).1, List.nil_append, List.append_nil] at awaited
  exact ⟨posted, awaited⟩

theorem receive_keeps (sink : AuditSink) (report : Report) (before : Community)
    : (sink.receive report before).scripted = before.scripted
      ∧ (sink.receive report before).hub = before.hub := by
  obtain ⟨sequence, posts, reports, received⟩ := sink.receive_eq report before
  rw [received]
  exact ⟨rfl, rfl⟩

/-- A round that is conducted asks for leave. -/
theorem Conducted.asks {round : Round} {report : PassReport} {granted : Roster}
    {settled : Community} {removing : List Exchange}
    (conducted : round.Conducted report granted settled removing)
    : round.Asks := by
  obtain ⟨posted, awaited⟩ := conducted.posted_and_awaited
  obtain ⟨journal, after⟩ := conducted.after
  obtain ⟨scripted, hub⟩ := receive_keeps round.sink report.filed settled
  have classified := conducted.conduct.removal.asking
  cases classified with
  | unasked waits kept unmoved automatic =>
      refine .unasked (awaited.trans waits) ?_ ?_ fun other decision tally same executed => ?_
      · rw [after]
        exact scripted.trans kept
      · rw [after]
        exact hub.trans unmoved
      · rw [conducted.result] at same
        cases same
        exact automatic decision tally executed
  | asked prompt prompted waits emptied sounds approved =>
      refine .asked prompt (awaited.trans waits) ?_ ?_
        fun sound other decision tally same executed => ?_
      · rw [after]
        exact scripted.trans emptied
      · rw [after]
        intro sound
        have sound := sounds sound
        rw [← hub] at sound
        exact sound
      · rw [conducted.result] at same
        cases same
        obtain ⟨human, answered⟩ := approved sound decision tally executed
        rw [prompted] at posted
        exact ⟨human, ⟨prompt, _, posted, (round.sink.exchanges_post _ _).2,
          awaited.trans waits⟩, answered⟩

/-- Every round asks for leave so. -/
theorem asks (round : Round)
    : round.Asks := by
  cases readable : round.before.community.listingFailure with
  | none =>
      obtain ⟨report, granted, settled, removing, conducted⟩ := round.conducted readable
      exact conducted.asks
  | some failure =>
      obtain ⟨result, ⟨journal, after⟩, exchanges⟩ := round.skipped readable
      obtain ⟨scripted, hub⟩ :=
        receive_keeps round.sink (ReconcileSettings.skipReport failure) round.before.community
      refine .unasked ?_ ?_ ?_ fun report decision tally returned => ?_
      · rw [exchanges]
        exact (round.sink.exchanges_post _ _).1
      · rw [after]
        exact scripted
      · rw [after]
        exact hub
      · rw [result] at returned
        cases returned

/-- What a round takes and what it leaves kept is what was kept. -/
theorem takes_append_scripted (round : Round)
    : round.takes ++ round.after.community.scripted = round.before.community.scripted := by
  unfold takes
  cases round.asks with
  | unasked waits kept hub automatic => rw [waits, kept, List.isEmpty_nil, if_pos rfl]; rfl
  | asked prompt waits emptied hub approved =>
      rw [waits, emptied, List.append_nil]
      rfl

/-- A round leaves the hub in order. -/
theorem hub_sound_after (round : Round) (sound : round.before.community.hub.Sound)
    : round.after.community.hub.Sound := by
  cases round.asks with
  | unasked waits kept hub automatic => rw [hub]; exact sound
  | asked prompt waits emptied hub approved => exact hub sound

/-- A member whom a round removes was in the removal batch, and removals were executed. -/
theorem executed_of_mem_removed {round : Round} {id : MemberId} (gone : id ∈ round.removed)
    : ∃ report decision tally,
        round.result = .ok report
        ∧ id ∈ report.classification.needsRemoval.members
        ∧ report.removal = .executed decision tally := by
  cases readable : round.before.community.listingFailure with
  | none =>
      obtain ⟨report, granted, settled, removing, conducted⟩ := round.conducted readable
      have isDue := conducted.mem_needsRemoval.mpr (round.change.overdue id gone)
      rw [conducted.removed_eq.2, mem_unhindered] at gone
      cases outcome : report.removal with
      | noCandidates | notAuthorized requested decision =>
          rw [outcome] at gone
          cases gone.1
      | executed decision tally =>
          exact ⟨report, decision, tally, conducted.result, isDue, outcome⟩
  | some failure =>
      have nobody : round.removed = [] := (round.skipped_harmless readable).removed
      rw [nobody] at gone
      cases gone

/-- When the hub is in order, a round removes with leave. -/
theorem authorized {round : Round} (sound : round.before.community.hub.Sound)
    : round.Authorized := by
  refine ⟨?_, fun id gone => ?_, ?_⟩
  · obtain ⟨reports, journal, ⟨sequence, posts, scripted, awaits, hub, drifts⟩, -⟩ :=
      round.change.frame
    rw [drifts]
  · obtain ⟨report, decision, tally, returned, isDue, executed⟩ := executed_of_mem_removed gone
    refine ⟨report, returned, isDue, ?_⟩
    cases round.asks with
    | unasked waits kept hub automatic =>
        exact .inl (automatic report decision tally returned executed).2
    | asked prompt waits emptied hub approved =>
        exact .inr (approved sound report decision tally returned executed).2
  · cases round.asks with
    | unasked waits kept hub automatic => simp [waits]
    | asked prompt waits emptied hub approved => simp [waits]

/-- When the hub is in order, an approval by a token takes a kept reaction that approves with it. -/
theorem exists_of_approvedBy {round : Round} {token : String}
    (sound : round.before.community.hub.Sound) (approves : round.approvedBy token = true)
    : ∃ reaction ∈ round.takes, reaction.answers [token] = true := by
  unfold approvedBy at approves
  split at approves
  · next report returned =>
    split at approves
    · next tally executed =>
      have same : round.settings.gate.approveToken = token := of_decide_eq_true approves
      cases round.asks with
      | unasked waits kept hub automatic =>
          cases (automatic report _ tally returned executed).1
      | asked prompt waits emptied hub approved =>
          obtain ⟨-, -, reaction, ahead, given⟩ := approved sound report _ tally returned executed
          have taken : round.takes = round.before.community.scripted := by
            unfold takes
            rw [waits]
            rfl
          have kept := List.mem_of_mem_drop (List.mem_of_find?_eq_some ahead)
          have answers := List.find?_some ahead
          refine ⟨reaction, taken ▸ kept, ?_⟩
          unfold ScriptedReaction.answers at answers ⊢
          obtain ⟨human, -⟩ := Bool.and_eq_true_iff.mp answers
          rw [human, given, same]
          simp
    · cases approves
  · cases approves

end Round

-------------------------------------------------------------------------------
-- Runs
-------------------------------------------------------------------------------

/-- What happens in a run: an operation on the community, or a pass at an instant. -/
inductive Event
  | operate (operation : Operation)
  | pass (settings : ReconcileSettings) (sink : AuditSink) (at_ : Instant)

namespace Event

/-- The pass that an event is, in the world in which it happens. -/
def round? (world : World) : Event → Option Round
  | operate _ => none
  | pass settings sink at_ => some ⟨settings, sink, { world with clock := at_ }⟩

/-- What an event makes of a world. -/
def apply (world : World) : Event → World
  | operate operation => world.onCommunity operation.act
  | pass settings sink at_ => (Round.mk settings sink { world with clock := at_ }).after

def scripts : Event → List ScriptedReaction
  | operate operation => operation.scripts
  | pass .. => []

/-- The kept reactions that an event takes. -/
def takes (world : World) : Event → List ScriptedReaction
  | operate operation => operation.takes world.community
  | pass settings sink at_ => (Round.mk settings sink { world with clock := at_ }).takes

def run (world : World) (events : List Event) : World := events.foldl apply world

/-- The passes of a run, each in the world in which it begins. -/
def rounds (world : World) : List Event → List Round
  | [] => []
  | event :: later => (event.round? world).toList ++ rounds (event.apply world) later

/-- The kept reactions that each event of a run takes. -/
def taken (world : World) : List Event → List (List ScriptedReaction)
  | [] => []
  | event :: later => event.takes world :: taken (event.apply world) later

/-- An event leaves the hub in order. -/
theorem hub_sound_apply {world : World} (event : Event) (sound : world.community.hub.Sound)
    : (event.apply world).community.hub.Sound := by
  cases event with
  | operate operation => exact operation.hub_sound_act sound
  | pass settings sink at_ =>
      exact Round.hub_sound_after ⟨settings, sink, { world with clock := at_ }⟩ sound

/-- What an event takes and what it leaves kept is what was kept and what it adds, in order. -/
theorem takes_append_scripted (world : World) (event : Event)
    : event.takes world ++ (event.apply world).community.scripted
      = world.community.scripted ++ event.scripts := by
  cases event with
  | operate operation => exact operation.takes_append_scripted world.community
  | pass settings sink at_ =>
      have kept := Round.takes_append_scripted ⟨settings, sink, { world with clock := at_ }⟩
      exact kept.trans (List.append_nil _).symm

/-- Every pass of a run removes with leave, by induction over the events: the hub stays in order. -/
theorem authorized_of_mem_rounds {world : World} (events : List Event)
    (sound : world.community.hub.Sound) {round : Round} (member : round ∈ rounds world events)
    : round.Authorized := by
  induction events generalizing world with
  | nil => cases member
  | cons event later ih =>
      rcases List.mem_append.mp member with now | after
      · cases event with
        | operate operation => cases now
        | pass settings sink at_ =>
            cases List.mem_singleton.mp now
            exact Round.authorized sound
      · exact ih (event.hub_sound_apply sound) after

/-- What the events of a run take, each after the other, and what is kept in the end is what was
kept and what they add, in order, by induction over the events.
-/
theorem flatten_taken (world : World) (events : List Event)
    : (taken world events).flatten ++ (run world events).community.scripted
      = world.community.scripted ++ events.flatMap scripts := by
  induction events generalizing world with
  | nil => exact (List.append_nil _).symm
  | cons event later ih =>
      have rest := ih (event.apply world)
      have here := event.takes_append_scripted world
      calc (event.takes world :: taken (event.apply world) later).flatten
            ++ (run (event.apply world) later).community.scripted
          = event.takes world
            ++ ((taken (event.apply world) later).flatten
              ++ (run (event.apply world) later).community.scripted) := by
              rw [List.flatten_cons, List.append_assoc]
        _ = (event.takes world ++ (event.apply world).community.scripted)
            ++ later.flatMap scripts := by rw [rest, List.append_assoc]
        _ = world.community.scripted ++ (event :: later).flatMap scripts := by
              rw [here, List.append_assoc, List.flatMap_cons]

/-- The passes that a token approved are no more than the reactions taken that approve with it, by
induction over the events: each such pass takes one.
-/
theorem countP_approvedBy_le {world : World} (events : List Event)
    (sound : world.community.hub.Sound) (token : String)
    : (rounds world events).countP (Round.approvedBy token)
      ≤ (taken world events).flatten.countP (ScriptedReaction.answers [token]) := by
  induction events generalizing world with
  | nil => exact Nat.le_refl _
  | cons event later ih =>
      have rest := ih (event.hub_sound_apply sound)
      have here
          : (event.round? world).toList.countP (Round.approvedBy token)
            ≤ (event.takes world).countP (ScriptedReaction.answers [token]) := by
        cases event with
        | operate operation => exact Nat.zero_le _
        | pass settings sink at_ =>
            let round : Round := ⟨settings, sink, { world with clock := at_ }⟩
            change [round].countP _ ≤ round.takes.countP _
            cases approves : round.approvedBy token with
            | false => simp [approves]
            | true =>
                -- One pass stands against all that it takes, and one of these approves.
                obtain ⟨reaction, taken, answers⟩ := Round.exists_of_approvedBy sound approves
                have one := List.countP_pos_iff.mpr ⟨reaction, taken, answers⟩
                simpa [approves] using one
      rw [rounds, taken, List.countP_append, List.flatten_cons, List.countP_append]
      exact Nat.add_le_add here rest

/-- Removals are supervised over a run: every pass removes with leave; every kept reaction goes
to at most one wait; and no token approves more passes than there were reactions that approve
with it.
-/
structure Supervised (start : World) (events : List Event) : Prop where
  authorized : ∀ round ∈ rounds start events, round.Authorized
  takenOnce
    : (taken start events).flatten ++ (run start events).community.scripted
      = events.flatMap scripts
  approvals
    : ∀ token,
        (rounds start events).countP (Round.approvedBy token)
          ≤ (events.flatMap scripts).countP (ScriptedReaction.answers [token])

/-- Removals are supervised over every run that begins with a new community. -/
theorem supervised_of_empty (now : Instant) (events : List Event)
    : Supervised (World.start (Community.empty now)) events := by
  have sound : (World.start (Community.empty now)).community.hub.Sound :=
    ReactionHub.sound_standard
  have once := flatten_taken (World.start (Community.empty now)) events
  refine ⟨fun round => authorized_of_mem_rounds events sound, once, fun token => ?_⟩
  have approvals := countP_approvedBy_le events sound token
  have all := congrArg (List.countP (ScriptedReaction.answers [token])) once
  rw [List.countP_append] at all
  change _ = (events.flatMap scripts).countP _ at all
  omega

end Event

end Gatehouse
