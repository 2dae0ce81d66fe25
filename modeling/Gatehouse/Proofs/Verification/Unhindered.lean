import Gatehouse.Proofs.Community.Membership
import Gatehouse.Proofs.Verification.Approval

/-! Passes that nothing hinders. Where every call is answered, a pass does all that its batches
ask for, and only the size of the removal batch and the answer to the prompt decide about the
removal.
-/

namespace Gatehouse

/-- Nothing hinders a pass in a community: no call fails, and the hub is in order. -/
structure Community.Unhindered (community : Community) : Prop where
  listing : community.listingFailure = none
  roles : community.roleFailures = ∅
  kicks : community.kickFailures = ∅
  sends : community.sendsFail = false
  hub : community.hub.Sound

/-- Nothing hinders a pass in a community made of members. -/
theorem Community.unhindered_ofMembers (now : Instant) (members : List Member)
    : (ofMembers now members).Unhindered := by
  rw [ofMembers_eq]
  exact ⟨rfl, rfl, rfl, rfl, ReactionHub.sound_standard⟩

/-- Where no failure is injected a tally says that all went well. -/
theorem Tally.Tells.text_eq {tally : Tally} {batch : OrderedSet MemberId}
    (tells : tally.Tells batch ∅)
    : tally.text = Numeral.text batch.size ++ "/" ++ Numeral.text batch.size := by
  have all : tally.succeeded = batch.size := by
    rw [tells.succeeded]
    exact List.countP_eq_length.mpr fun id _ => rfl
  rw [Tally.text, all, tells.requested]

/-- An answer does not approve automatically. -/
theorem GateSettings.decisionOf_ne_auto (settings : GateSettings)
    (answer : Option (String × MemberId))
    : settings.decisionOf answer ≠ .autoApproved := by
  unfold decisionOf
  split
  · nofun
  · split <;> nofun

namespace ReconcileSettings

/-- How a removal batch fares that nothing hinders, with the messages that are posted for it. -/
inductive Settles (settings : ReconcileSettings) (batch : Batch) (total : Nat)
    (answer : Option (String × MemberId))
    : RemovalOutcome → List (ChannelId × String × MessageId) → Prop
  | nobody (empty : batch.isEmpty = true)
    : settings.Settles batch total answer .noCandidates []
  | automatic {tally : Tally} (full : batch.isEmpty = false)
    (small : needsConfirmation batch.size total settings.gate.threshold = false)
    (tells : tally.Tells batch.members ∅)
    : settings.Settles batch total answer (.executed .autoApproved tally) []
  | approved {tally : Tally} (full : batch.isEmpty = false)
    (large : needsConfirmation batch.size total settings.gate.threshold = true)
    (prompt : MessageId) (permits : (settings.gate.decisionOf answer).permits = true)
    (tells : tally.Tells batch.members ∅)
    : settings.Settles batch total answer (.executed (settings.gate.decisionOf answer) tally)
        [(settings.gate.reviewChannel,
          settings.gate.promptText batch.size total settings.policy.removalAfter.days, prompt)]
  | refused (full : batch.isEmpty = false)
    (large : needsConfirmation batch.size total settings.gate.threshold = true)
    (prompt : MessageId) (vetoes : (settings.gate.decisionOf answer).permits = false)
    : settings.Settles batch total answer
        (.notAuthorized batch.size (some (settings.gate.decisionOf answer)))
        [(settings.gate.reviewChannel,
          settings.gate.promptText batch.size total settings.policy.removalAfter.days, prompt)]

variable {settings : ReconcileSettings} {batch : Batch} {total : Nat}

/-- A removal batch that nothing hinders settles so. Witness: the exit of the gate. -/
theorem Removal.settles {now : Instant} {before after : Community} {outcome : RemovalOutcome}
    {made : List Exchange}
    (removal : settings.Removal batch total now before outcome after made)
    (free : before.Unhindered)
    : settings.Settles batch total
        ((before.answerAhead settings.gate.tokens).map fun r => (r.token, r.actor)) outcome
        (postedBy made) := by
  cases removal with
  | nobody empty => exact .nobody empty
  | unposted full passage =>
      cases passage.exit with
      | unposted large fails => cases fails.symm.trans free.sends
  | vetoed full passage vetoes =>
      cases passage.exit with
      | automatic small => cases vetoes
      | answered large sends heard =>
          obtain ⟨-, same⟩ := heard free.hub
          rw [← same]
          exact .refused full large _ vetoes
  | executed full passage permits tells dismissed =>
      rw [free.kicks] at tells
      rw [postedBy_append, (kicks_silent settings batch before).1, List.append_nil]
      cases passage.exit with
      | automatic small => exact .automatic full small tells
      | answered large sends heard =>
          obtain ⟨-, same⟩ := heard free.hub
          rw [← same]
          exact .approved full large _ permits tells

end ReconcileSettings

namespace Round

/-- What came of a round that nothing hindered: everyone who is due a warning was warned, and
the removal batch fared as its size and the answer to the prompt decide.
-/
structure Fulfilled (round : Round) (report : PassReport) : Prop where
  result : round.result = .ok report
  pendingRole : report.pendingRole = round.settings.policy.pendingRole
  classified
    : report.classification
      = round.settings.policy.classify round.before.clock round.before.community.memberList
  granted : round.granted = report.classification.needsWarning.members.toList
  refused : round.refused = []
  warned : report.classification.needsWarning.Told ∅ report.warning
  settles
    : ∃ posted reported,
        postedBy round.exchanges = posted ++ reported
        ∧ (∀ posting ∈ reported, posting.2.1 = AuditSink.render report.filed)
        ∧ round.settings.Settles report.classification.needsRemoval
          round.before.community.memberList.length
          ((round.before.community.answerAhead round.settings.gate.tokens).map fun r =>
            (r.token, r.actor))
          report.removal posted
  sends : round.after.community.sendsFail = false

/-- A round that nothing hinders is fulfilled. -/
theorem fulfilled (round : Round) (free : round.before.community.Unhindered)
    : ∃ report, round.Fulfilled report := by
  obtain ⟨report, granted, settled, removing, conducted⟩ := round.conducted free.listing
  obtain ⟨posted, -⟩ := conducted.posted_and_awaited
  obtain ⟨reports, journal, drifts, -⟩ := round.change.frame
  obtain ⟨sequence, posts, scripted, awaits, hub, same⟩ := drifts
  have unrefused : round.refused = [] := by
    refine List.eq_nil_iff_forall_not_mem.mpr fun id refused => ?_
    obtain ⟨-, fails⟩ := conducted.mem_refused.mp refused
    rw [free.roles] at fails
    exact fails rfl
  have all : round.granted = report.classification.needsWarning.members.toList := by
    rw [conducted.granted_eq, free.roles]
    exact List.filter_eq_self.mpr fun id _ => rfl
  refine ⟨report, conducted.result, conducted.conduct.pendingRole, conducted.conduct.classified,
    all, unrefused, free.roles ▸ conducted.conduct.warned, ?_, ?_⟩
  · refine ⟨_, _, posted, (round.sink.exchanges_post _ _).2, ?_⟩
    exact conducted.conduct.removal.settles
      ⟨free.listing, free.roles, free.kicks, free.sends, free.hub⟩
  · rw [same]
    exact free.sends

end Round

end Gatehouse
