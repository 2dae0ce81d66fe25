import Gatehouse.Proofs.Program.Course
import Gatehouse.Proofs.Reactions.Delivery
import Gatehouse.Verification.Gate

/-! The three exits of the gate. A small batch passes without a call; a prompt that cannot be
posted ends the matter; a posted prompt is decided by the answer to its one wait. Nothing but
messages, kept reactions and the hub changes on the way.
-/

namespace Gatehouse

/-- From one community to the other nothing has changed but messages, kept reactions and the hub. -/
def Community.DriftsTo (before after : Community) : Prop :=
  ∃ sequence posts scripted awaits hub,
    after
      = { before with
          sequence := sequence
          posts := posts
          scripted := scripted
          awaits := awaits
          hub := hub }

theorem Community.DriftsTo.refl (community : Community)
    : community.DriftsTo community :=
  ⟨_, _, _, _, _, rfl⟩

/-- A change of a message changes nothing but messages. -/
theorem Community.changePost_eq (community : Community) (message : MessageId)
    (change : Post → Post)
    : ∃ posts, (community.changePost message change).2 = { community with posts := posts } := by
  unfold changePost
  split
  · exact ⟨community.posts, rfl⟩
  · exact ⟨_, rfl⟩

/-- A call that changes nothing but messages takes such a course. -/
theorem Program.Course.call_posts (now : Instant) (before : Community) (call : Call)
    (changes : ∃ posts, (before.answer call).2 = { before with posts := posts })
    : ∃ posts reply,
        (Program.call call).Course now before reply { before with posts := posts }
          [⟨call, reply⟩] := by
  obtain ⟨posts, same⟩ := changes
  have called := Program.Course.call now before call
  rw [same] at called
  exact ⟨posts, _, called⟩

namespace GateSettings

def waitOn (settings : GateSettings) (prompt : MessageId) : ReactionWait :=
  ⟨prompt, settings.tokens, settings.timeout, true⟩

/-- How the gate is left: with what outcome, in what community, after what calls. -/
inductive Exit (settings : GateSettings) (candidates total days : Nat) (before : Community)
    : Outcome Decision → Community → List Exchange → Prop
  /-- The batch is small, and nobody is asked. -/
  | automatic (small : needsConfirmation candidates total settings.threshold = false)
    : settings.Exit candidates total days before (.ok .autoApproved) before []
  /-- The batch is large, and the prompt cannot be posted. -/
  | unposted {failure : CallFailure}
    (large : needsConfirmation candidates total settings.threshold = true)
    (fails : before.sendsFail = true)
    : settings.Exit candidates total days before (.error failure) before
        [⟨.send settings.reviewChannel (settings.promptText candidates total days),
          .error failure⟩]
  /-- The batch is large, and the answer to the posted prompt decides. -/
  | answered {prompt : MessageId} {answer : Option (String × MemberId)} {sequence : Nat}
    {posts : OrderedMap MessageId Post} {hub : ReactionHub}
    {approve deny cleared edited : Outcome Unit}
    (large : needsConfirmation candidates total settings.threshold = true)
    (sends : before.sendsFail = false)
    (heard
      : before.hub.Sound
        → hub.Sound
          ∧ answer = (before.answerAhead settings.tokens).map fun r => (r.token, r.actor))
    : settings.Exit candidates total days before (.ok (settings.decisionOf answer))
        { before with
          sequence := sequence
          posts := posts
          scripted := []
          awaits := before.awaits + 1
          hub := hub }
        [⟨.send settings.reviewChannel (settings.promptText candidates total days), .ok prompt⟩,
          ⟨.react settings.reviewChannel prompt settings.approveToken, approve⟩,
          ⟨.react settings.reviewChannel prompt settings.denyToken, deny⟩,
          ⟨.awaitReaction (settings.waitOn prompt), answer⟩,
          ⟨.clearReactions settings.reviewChannel prompt, cleared⟩,
          ⟨.edit settings.reviewChannel prompt
            (outcomeText candidates (settings.decisionOf answer)), edited⟩]

/-- On the way through the gate nothing changes but messages, kept reactions and the hub. -/
theorem Exit.drifts {settings : GateSettings} {candidates total days : Nat}
    {before after : Community} {verdict : Outcome Decision} {made : List Exchange}
    (exit : settings.Exit candidates total days before verdict after made)
    : before.DriftsTo after := by
  cases exit with
  | automatic small => exact .refl _
  | unposted large fails => exact .refl _
  | answered large sends heard => exact ⟨_, _, _, _, _, rfl⟩

/-- The gate passed through: it takes its course and is left by one of its exits. -/
structure Passage (settings : GateSettings) (candidates total days : Nat) (now : Instant)
    (before : Community) (verdict : Outcome Decision) (after : Community)
    (made : List Exchange)
    : Prop where
  course : (settings.authorize candidates total days).Course now before verdict after made
  exit : settings.Exit candidates total days before verdict after made

variable {now : Instant} {before : Community}

/-- A call whose failure is tolerated does what the call does; the failure is at most noted. -/
theorem tolerated_course {attempt : Program (Outcome Unit)} {outcome : Outcome Unit}
    {after : Community} {made : List Exchange}
    (course : attempt.Course now before outcome after made) (note : String)
    (fields : List (String × String))
    : (do
        let outcome ← attempt
        tolerate outcome note fields : Program Unit).Course now before () after made := by
  have noted : (tolerate outcome note fields).Course now after () after [] := by
    unfold tolerate
    split
    · exact .done
    · exact .log _ _ _
  exact course.followed noted

/-- Offering a token puts it on the prompt. -/
theorem offer_course (now : Instant) (before : Community) (settings : GateSettings)
    (prompt : MessageId) (token : String)
    : ∃ posts, ∃ reply : Outcome Unit,
        (settings.offer prompt token).Course now before () { before with posts := posts }
          [⟨.react settings.reviewChannel prompt token, reply⟩] := by
  obtain ⟨posts, reply, called⟩ := Program.Course.call_posts now before
    (.react settings.reviewChannel prompt token) (before.changePost_eq prompt _)
  exact ⟨posts, reply, tolerated_course called _ _⟩

theorem noteAnswer_course (now : Instant) (before : Community) (settings : GateSettings)
    (answer : Option (String × MemberId))
    : (settings.noteAnswer answer).Course now before () before [] := by
  cases answer with
  | none => exact .log _ _ _
  | some given => exact .log _ _ _

/-- A posted prompt is offered the two tokens, waited on once, cleared and edited, and the answer to
the wait decides.
-/
theorem settle_course (now : Instant) (before : Community) (settings : GateSettings)
    (candidates : Nat) (prompt : MessageId)
    : ∃ answer posts hub, ∃ approve deny cleared edited : Outcome Unit,
        (settings.settle candidates prompt).Course now before (settings.decisionOf answer)
          { before with
            posts := posts
            scripted := []
            awaits := before.awaits + 1
            hub := hub }
          [⟨.react settings.reviewChannel prompt settings.approveToken, approve⟩,
            ⟨.react settings.reviewChannel prompt settings.denyToken, deny⟩,
            ⟨.awaitReaction (settings.waitOn prompt), answer⟩,
            ⟨.clearReactions settings.reviewChannel prompt, cleared⟩,
            ⟨.edit settings.reviewChannel prompt
              (outcomeText candidates (settings.decisionOf answer)), edited⟩]
        ∧ (before.hub.Sound
            → hub.Sound
              ∧ answer
                = (before.answerAhead settings.tokens).map fun r => (r.token, r.actor)) := by
  obtain ⟨posts₁, approve, first⟩ :=
    offer_course now before settings prompt settings.approveToken
  obtain ⟨posts₂, deny, second⟩ :=
    offer_course now { before with posts := posts₁ } settings prompt
      settings.denyToken
  -- The wait begins with other messages, but with the same kept reactions and the same hub.
  let offered : Community := { before with posts := posts₂ }
  let wait := settings.waitOn prompt
  have third : (Program.call (.awaitReaction wait)).Course now offered (offered.await wait).1
      { offered with
        awaits := offered.awaits + 1
        scripted := []
        hub := (offered.await wait).2.hub }
      [⟨.awaitReaction wait, (offered.await wait).1⟩] := by
    rw [← offered.await_eq wait]
    exact .call now offered _
  obtain ⟨posts₃, cleared, fourth⟩ := Program.Course.call_posts now
    { offered with
      awaits := offered.awaits + 1
      scripted := []
      hub := (offered.await wait).2.hub }
    (.clearReactions settings.reviewChannel prompt) (Community.changePost_eq _ prompt _)
  obtain ⟨posts₄, edited, fifth⟩ := Program.Course.call_posts now
    { offered with
      posts := posts₃
      awaits := offered.awaits + 1
      scripted := []
      hub := (offered.await wait).2.hub }
    (.edit settings.reviewChannel prompt
      (outcomeText candidates (settings.decisionOf (offered.await wait).1)))
    (Community.changePost_eq _ prompt _)
  refine ⟨(offered.await wait).1, posts₄, (offered.await wait).2.hub, approve, deny, cleared,
    edited, ?_, fun sound => ⟨?_, ?_⟩⟩
  · have closing := (tolerated_course fifth "failed to edit prompt with final outcome" []).bind
      (f := fun _ => pure (settings.decisionOf (offered.await wait).1)) .done
    have noting := (noteAnswer_course now _ settings (offered.await wait).1).bind
      (f := fun _ => _) closing
    have clearing := (tolerated_course fourth "failed to clear prompt reactions" []).bind
      (f := fun _ => _) noting
    exact first.bind (second.bind (third.bind clearing))
  · have sound : offered.hub.Sound := sound
    exact Community.hub_sound_await sound wait
  · have sound : offered.hub.Sound := sound
    exact Community.await_answer sound rfl

/-- The gate is left by one of its exits. Witness: the size of the batch and the outcome of
posting the prompt decide which one.
-/
theorem authorize_passage (settings : GateSettings) (candidates total days : Nat)
    (now : Instant) (before : Community)
    : ∃ verdict after made,
        settings.Passage candidates total days now before verdict after made := by
  have leave {verdict after made}
      (course : (settings.authorize candidates total days).Course now before verdict after made)
      (exit : settings.Exit candidates total days before verdict after made)
      : ∃ verdict after made,
          settings.Passage candidates total days now before verdict after made :=
    ⟨verdict, after, made, course, exit⟩
  unfold authorize at leave
  cases large : needsConfirmation candidates total settings.threshold with
  | false =>
      rw [large] at leave
      exact leave (.after_log (.after_log .done)) (.automatic large)
  | true =>
      rw [large] at leave
      have posted := Program.Course.call now before
        (.send settings.reviewChannel (settings.promptText candidates total days))
      cases fails : before.sendsFail with
      | true =>
          have refused : before.answer
              (.send settings.reviewChannel (settings.promptText candidates total days))
              = (.error ⟨.unavailable, "send failed"⟩, before) := by
            simp only [Community.answer, Community.send, fails, if_true]
          rw [refused] at posted
          exact leave (.after_log (.after_log (posted.bind (f := fun _ => _) .done)))
            (.unposted large fails)
      | false =>
          have sent : before.answer
              (.send settings.reviewChannel (settings.promptText candidates total days))
              = (.ok (MessageId.mint before.now before.sequence),
                  (before.seed settings.reviewChannel
                    (settings.promptText candidates total days) before.now).2) := by
            simp only [Community.answer, Community.send, fails, Bool.false_eq_true, if_false]
            rfl
          rw [sent] at posted
          obtain ⟨answer, posts, hub, approve, deny, cleared, edited, settled, heard⟩ :=
            settle_course now
              (before.seed settings.reviewChannel
                (settings.promptText candidates total days) before.now).2
              settings candidates (MessageId.mint before.now before.sequence)
          have decided := settled.bind
            (f := fun decision => (pure (.ok decision) : Program (Outcome Decision))) .done
          exact leave (.after_log (.after_log (posted.bind decided)))
            (.answered large fails heard)

end GateSettings

end Gatehouse
