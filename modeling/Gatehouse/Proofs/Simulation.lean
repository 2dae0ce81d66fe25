import Gatehouse.Proofs.Config.Coherence
import Gatehouse.Proofs.Verification.Foretelling
import Gatehouse.Simulation

/-! Simulations. A simulation goes through one round of the service with the answer put in
place, and posts the reminder. It agrees with a preview over the same members and with a pass
over them.
-/

namespace Gatehouse

open Preview (listedUnder gives)

namespace Simulation

/-- The round that a simulation goes through. -/
def round (settings : Settings) (answer : ScriptedAnswer) (now : Instant)
    (members : List Member) (last : Option MessageId) : Round :=
  let prepared := prepare settings.reconcile.gate answer (.ofMembers now members)
  ⟨{ settings.reconcile with gate := prepared.1 }, sinkOf settings, worldOf prepared.2 last⟩

/-- The last line of a simulation. -/
def reminderLine (simulation : Simulation) : String :=
  "🧪 Reminder sent as message " ++ simulation.reminder.text ++ " at "
    ++ simulation.reminder.createdAt.offsetText

/-- The lines of a simulation whose pass reported these two lines. -/
def linesOf (simulation : Simulation) (removed warned : String) : List (List Char) :=
  ["🧪 Reconciliation".toList, ("  " ++ removed).toList, ("  " ++ warned).toList,
    simulation.reminderLine.toList]

/-- A simulation is as a text foretells: it succeeds; it reports that all whom the text lists
first were warned, and that all whom it lists next were removed or that this was not authorized,
as the verdict of the text and the answer decide; and it posts the reminder.
-/
structure Foretold (settings : Settings) (answer : ScriptedAnswer) (now : Instant)
    (members : List Member) (last : Option MessageId) (text : String)
    (simulation : Simulation)
    : Prop where
  result : run settings answer now members last = .ok simulation
  lines
    : AuditSink.lines simulation.text.toList
      = simulation.linesOf
          (PassReport.allRemovedLine (listedUnder "Removal after" text).length
            (gives "automatic" text || answer = .approve))
          (PassReport.allWarnedLine settings.reconcile.policy.pendingRole
            (listedUnder "Pending role" text).length)
  reminded
    : let round := Simulation.round settings answer now members last
      ⟨.send settings.reminder.channel settings.reminder.message, .ok simulation.reminder⟩
        ∈ (program round.settings round.sink settings.reminder).exchanges round.before

/-- Of the answers that can be put in place only the approval permits the removal. -/
theorem permits_prepare {gate : GateSettings} (tokens : gate.approveToken ≠ gate.denyToken)
    {community : Community} (kept : community.scripted = []) (answer : ScriptedAnswer)
    : let prepared := prepare gate answer community
      (prepared.1.decisionOf
          ((prepared.2.answerAhead prepared.1.tokens).map fun r => (r.token, r.actor))).permits
        = decide (answer = .approve) := by
  unfold prepare Community.answerAhead
  cases answer with
  | approve =>
      simp [Community.script, kept, ReactionHub.defaultCapacity, ScriptedReaction.answers,
        GateSettings.tokens, GateSettings.decisionOf, Decision.permits]
  | deny =>
      simp [Community.script, kept, ReactionHub.defaultCapacity, ScriptedReaction.answers,
        GateSettings.tokens, GateSettings.decisionOf, Decision.permits, tokens.symm]
  | unanswered =>
      simp [kept, GateSettings.decisionOf, Decision.permits]

/-- In the round of a simulation only the approval permits a removal that is asked about. -/
theorem permits_round {settings : Settings}
    (tokens
      : settings.reconcile.gate.approveToken ≠ settings.reconcile.gate.denyToken)
    (answer : ScriptedAnswer) (now : Instant) (members : List Member) (last : Option MessageId)
    : let round := Simulation.round settings answer now members last
      (round.settings.gate.decisionOf
          ((round.before.community.answerAhead round.settings.gate.tokens).map fun r =>
            (r.token, r.actor))).permits
        = decide (answer = .approve) := by
  have kept : (Community.ofMembers now members).scripted = [] := by
    rw [Community.ofMembers_eq]
    rfl
  have permits := permits_prepare tokens kept answer
  cases last <;> exact permits

/-- The round of a simulation goes by the settings, but for the answer that is put in place. -/
structure Begins (settings : Settings) (now : Instant) (members : List Member) (round : Round)
    : Prop where
  policy : round.settings.policy = settings.reconcile.policy
  threshold : round.settings.gate.threshold = settings.reconcile.gate.threshold
  clock : round.before.clock = now
  members : round.before.community.memberList = (Community.ofMembers now members).memberList
  free : round.before.community.Unhindered

/-- Whatever answer is put in place and whatever reminder is on record, the round begins so. -/
theorem begins_round (settings : Settings) (answer : ScriptedAnswer) (now : Instant)
    (members : List Member) (last : Option MessageId)
    : Begins settings now members (round settings answer now members last) := by
  have free := Community.unhindered_ofMembers now members
  have time := Community.now_ofMembers now members
  cases answer <;> cases last
  all_goals exact ⟨rfl, rfl, time, rfl, free.listing, free.roles, free.kicks, free.sends, free.hub⟩

/-- A simulation goes through its round and posts the reminder. -/
theorem run_fulfilled (settings : Settings) (answer : ScriptedAnswer) (now : Instant)
    (members : List Member) (last : Option MessageId)
    : let round := Simulation.round settings answer now members last
      ∃ report sent,
        round.Fulfilled report
        ∧ run settings answer now members last = .ok ⟨.ok report, sent⟩
        ∧ ⟨.send settings.reminder.channel settings.reminder.message, .ok sent⟩
          ∈ (program round.settings round.sink settings.reminder).exchanges round.before := by
  intro round
  obtain ⟨report, fulfilled⟩ :=
    round.fulfilled (begins_round settings answer now members last).free
  obtain ⟨journal, fired⟩ := settings.reminder.fire_sent fulfilled.sends
  have whole
      : run settings answer now members last
        = ((program round.settings round.sink settings.reminder).run World.handle
            round.before).1 := rfl
  have ended
      : ∃ sent, run settings answer now members last = .ok ⟨.ok report, sent⟩ := by
    unfold Round.after Round.program at fired
    unfold program at whole
    rw [whole, Program.run_bind, Program.run_bind, fired]
    exact ⟨_, congrArg (fun pass => Except.ok (Simulation.mk pass _)) fulfilled.result⟩
  obtain ⟨sent, ended⟩ := ended
  refine ⟨report, sent, fulfilled, ended, ?_⟩
  -- The reminder is posted in every conversation that ends well, so also in this one.
  have said := Program.Converses.of_trace World.handle
    (program round.settings round.sink settings.reminder) round.before
  rw [← whole, ended] at said
  obtain ⟨passing, pass, rest, same, -, said⟩ := said.of_bind
  obtain ⟨firing, outcome, last, rfl, fires, closing⟩ := said.of_bind
  cases outcome with
  | error fault => cases closing.of_pure.2
  | ok other =>
      cases closing.of_pure.2
      have posted := ReminderSettings.mem_of_fire_converses fires
      change _ ∈ Program.exchangesOf _
      rw [same, Program.exchangesOf_append, Program.exchangesOf_append]
      exact List.mem_append_right _ (List.mem_append_left _ posted)

/-- The text of a simulation whose pass went through is its lines, ended each. -/
theorem text_toList {simulation : Simulation} {report : PassReport} {removed warned : String}
    (passed : simulation.pass = .ok report)
    (reported : AuditSink.lines report.text.toList = [removed.toList, warned.toList])
    : simulation.text.toList = (simulation.linesOf removed warned).flatMap (· ++ ['\n']) := by
  have title : "🧪 Reconciliation\n".toList = "🧪 Reconciliation".toList ++ ['\n'] := rfl
  unfold text passText linesOf reminderLine
  rw [passed]
  dsimp only
  rw [reported]
  simp only [String.toList_append, String.toList_join, title, List.map_cons, List.map_nil,
    List.flatMap_cons, List.flatMap_nil, List.append_assoc, List.append_nil,
    String.toList_ofList]
  rfl

/-- The lines of a simulation whose pass went through. -/
theorem lines_text {simulation : Simulation} {report : PassReport} {removed warned : String}
    (passed : simulation.pass = .ok report) (removal : report.removalLine = removed)
    (warning : report.warningLine = warned) (removedSingle : SingleLine removed.toList)
    (warnedSingle : SingleLine warned.toList) (begun : warned.toList ≠ [])
    : AuditSink.lines simulation.text.toList = simulation.linesOf removed warned := by
  have reported : AuditSink.lines report.text.toList = [removed.toList, warned.toList] := by
    unfold PassReport.text
    rw [removal, warning, String.toList_append, String.toList_append, List.append_assoc]
    change AuditSink.lines (removed.toList ++ '\n' :: warned.toList) = _
    rw [AuditSink.lines_line removedSingle, AuditSink.lines_last warnedSingle begun]
  have single (line : List Char) (member : line ∈ simulation.linesOf removed warned)
      : SingleLine line := by
    unfold linesOf at member
    simp only [List.mem_cons, List.not_mem_nil, or_false] at member
    rcases member with rfl | rfl | rfl | rfl
    · decide
    · exact .string_append (by decide) removedSingle
    · exact .string_append (by decide) warnedSingle
    · exact .string_append (.string_append (.string_append (by decide) (.numeral _))
        (by decide)) (.offsetText _)
  have whole := AuditSink.lines_flatMap single []
  rw [List.append_nil] at whole
  rw [text_toList passed reported, whole]
  exact List.append_nil _

/-- A simulation is as the preview of its members foretells, whatever reminder is on record. -/
theorem exists_foretold {config : Config} {settings : Settings}
    (valid : config.settings = .ok settings) {members : List Member}
    (distinct : (members.map Member.id).Nodup) (answer : ScriptedAnswer) (now : Instant)
    (last : Option MessageId)
    : ∃ simulation,
        Foretold settings answer now members last
          (settings.reconcile.previewText now members) simulation := by
  have coherent := Config.coherent_of_settings valid
  obtain ⟨report, sent, fulfilled, ended, reminded⟩ :=
    run_fulfilled settings answer now members last
  obtain ⟨policy, threshold, clock, listing, free⟩ :=
    begins_round settings answer now members last
  obtain ⟨posted, reported, -, -, settles⟩ := fulfilled.settles
  have classified
      : report.classification = settings.reconcile.policy.classify now members := by
    rw [fulfilled.classified, policy, clock, listing]
    exact Policy.classify_congr (fun _ => Community.mem_memberList_ofMembers distinct now) _ now
  have warned
      : report.warningLine
        = PassReport.allWarnedLine settings.reconcile.policy.pendingRole
            (listedUnder "Pending role" (settings.reconcile.previewText now members)).length := by
    rw [PassReport.warningLine_eq fulfilled.warned, fulfilled.pendingRole, policy, classified,
      settings.reconcile.listed_warned]
    rfl
  have removed
      : report.removalLine
        = PassReport.allRemovedLine
            (listedUnder "Removal after" (settings.reconcile.previewText now members)).length
            (gives "automatic" (settings.reconcile.previewText now members)
              || answer = .approve) := by
    rw [PassReport.removalLine_eq settles, permits_round coherent.tokens, threshold, listing,
      Community.length_memberList_ofMembers distinct, classified,
      ← settings.reconcile.length_listed_removed]
    refine PassReport.allRemovedLine_congr fun some => ?_
    have listed
        : listedUnder "Removal after" (settings.reconcile.previewText now members) ≠ [] :=
      fun none => some (by rw [none]; rfl)
    have verdict
        : gives "automatic" (settings.reconcile.previewText now members)
          = !needsConfirmation
              (settings.reconcile.policy.classify now members).needsRemoval.size members.length
              settings.reconcile.gate.threshold := by
      rw [Bool.eq_iff_iff, (settings.reconcile.gives_iff now listed).1, Bool.not_eq_true']
    rw [verdict, settings.reconcile.length_listed_removed]
  exact ⟨⟨.ok report, sent⟩, ended,
    lines_text rfl removed warned (PassReport.singleLine_allRemovedLine _ _)
      (PassReport.singleLine_allWarnedLine _ _) (PassReport.allWarnedLine_ne_nil _ _),
    reminded⟩

end Simulation

/-- What a preview of members of different identifiers says under the settings of a
configuration is what a pass over them does and what a simulation over them reports.
-/
theorem Config.preview_foretells {config : Config} {settings : Settings}
    (valid : config.settings = .ok settings) {members : List Member}
    (distinct : (members.map Member.id).Nodup) (now : Instant)
    : (∀ sink, ∃ report,
        (Round.mk settings.reconcile sink (World.start (.ofMembers now members))).Foretold
          report (settings.reconcile.previewText now members))
      ∧ ∀ answer last, ∃ simulation,
        Simulation.Foretold settings answer now members last
          (settings.reconcile.previewText now members) simulation :=
  ⟨settings.reconcile.round_foretold distinct now,
    fun answer last => Simulation.exists_foretold valid distinct answer now last⟩

/-- The preview of three members, one of whom is overdue, one late and one a bot, under the
defaults.
-/
theorem Config.preview_foretells_for_three
    : let config := Config.ofIds ⟨100⟩ ⟨200⟩ ⟨300⟩ ⟨400⟩ ⟨500⟩ "warden.db"
      let now : Instant := ⟨40, 0, 0, by decide, by decide, by decide, by decide⟩
      let late : Instant := ⟨30, 0, 0, by decide, by decide, by decide, by decide⟩
      let members : List Member :=
        [⟨⟨9⟩, some .epoch, .ofList [⟨100⟩], false⟩, ⟨⟨7⟩, some late, ∅, false⟩,
          ⟨⟨8⟩, some .epoch, ∅, true⟩]
      ∃ settings,
        config.settings = .ok settings
        ∧ (members.map Member.id).Nodup
        ∧ (∀ sink, ∃ report,
            (Round.mk settings.reconcile sink (World.start (.ofMembers now members))).Foretold
              report (settings.reconcile.previewText now members))
        ∧ ∀ answer last, ∃ simulation,
          Simulation.Foretold settings answer now members last
            (settings.reconcile.previewText now members) simulation := by
  obtain ⟨settings, valid⟩
      : ∃ settings,
          (Config.ofIds ⟨100⟩ ⟨200⟩ ⟨300⟩ ⟨400⟩ ⟨500⟩ "warden.db").settings = .ok settings :=
    ⟨_, rfl⟩
  exact ⟨settings, valid, by decide, Config.preview_foretells valid (by decide) _⟩

end Gatehouse
