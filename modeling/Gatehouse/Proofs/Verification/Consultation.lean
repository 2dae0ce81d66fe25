import Gatehouse.Proofs.Verification.Asking

/-! How the gate consults the reviewers, on a platform that may answer each call in any way. A small
batch passes without a call. For a large one the prompt is posted, and once it stands it is offered
the two tokens, waited on once, cleared and edited, whatever becomes of each of these calls: main
statement `authorize_consults`.
-/

namespace Gatehouse

open Program (AsksOnly Converses exchangesOf)

theorem Decision.text_injective {decision other : Decision} (same : other.text = decision.text)
    : other = decision := by
  cases other <;> cases decision <;> first | rfl | exact absurd same (by decide)

namespace Program

theorem log_inward (level : Journal.Level) (message : String) (fields : List (String × String))
    : (Program.log level message fields).AsksOnly Effect.IsInward :=
  .ask trivial

namespace Converses

variable {α β : Type} {said : List (Sigma Effect.Reply)} {result : β}

/-- A conversation that begins with a call goes on with its answer. -/
theorem of_call {call : Call} {f : call.Reply → Program β}
    (whole : (Program.call call >>= f).Converses said result)
    : ∃ reply later,
        exchangesOf said = ⟨call, reply⟩ :: exchangesOf later
        ∧ (f reply).Converses later result := by
  obtain ⟨earlier, reply, later, rfl, called, rest⟩ := whole.of_bind
  refine ⟨reply, later, ?_, rest⟩
  rw [called.of_ask, exchangesOf_append]
  rfl

/-- A conversation that begins without a call has the calls of what follows. -/
theorem of_inward {p : Program α} {f : α → Program β} (inward : p.AsksOnly Effect.IsInward)
    (whole : (p >>= f).Converses said result)
    : ∃ value later,
        exchangesOf said = exchangesOf later ∧ (f value).Converses later result := by
  obtain ⟨earlier, value, later, rfl, first, rest⟩ := whole.of_bind
  refine ⟨value, later, ?_, rest⟩
  rw [exchangesOf_append, inward.exchangesOf_eq_nil first, List.nil_append]

end Converses

end Program

namespace GateSettings

-------------------------------------------------------------------------------
-- Decisions
-------------------------------------------------------------------------------

/-- A decision is the one that the answer to a wait makes. -/
structure Decides (settings : GateSettings) (answer : Option (String × MemberId))
    (decision : Decision)
    : Prop where
  approved
    : decision = .humanApproved ↔ ∃ actor, answer = some (settings.approveToken, actor)
  denied
    : decision = .humanDenied
      ↔ ∃ token actor, answer = some (token, actor) ∧ token ≠ settings.approveToken
  timedOut : decision = .timedOut ↔ answer = none

/-- The answer makes the decision that is drawn from it, by cases on the answer and its token. -/
theorem decides_decisionOf (settings : GateSettings) (answer : Option (String × MemberId))
    : settings.Decides answer (settings.decisionOf answer) := by
  rcases answer with _ | ⟨token, actor⟩
  · exact ⟨by simp [decisionOf], by simp [decisionOf], by simp [decisionOf]⟩
  · by_cases approves : token = settings.approveToken
    · exact ⟨by simp [decisionOf, approves], by simp [decisionOf, approves],
        by simp [decisionOf, approves]⟩
    · exact ⟨by simp [decisionOf, approves], by simp [decisionOf, approves],
        by simp [decisionOf, approves]⟩

/-- No two decisions are told by the same text. -/
theorem outcomeText_injective (candidates : Nat) {decision other : Decision}
    (same : outcomeText candidates other = outcomeText candidates decision)
    : other = decision := by
  have shown := (String.append_left_inj "!").mp same
  exact Decision.text_injective ((String.append_right_inj _).mp shown)

-------------------------------------------------------------------------------
-- The consultation
-------------------------------------------------------------------------------

/-- The calls of a consultation with their answers, and what the gate makes of them. -/
inductive Consulted (settings : GateSettings) (candidates total days : Nat)
    : List Exchange → Outcome Decision → Prop
  /-- The batch is small, and nobody is called. -/
  | unasked (small : needsConfirmation candidates total settings.threshold = false)
    : settings.Consulted candidates total days [] (.ok .autoApproved)
  /-- The prompt is refused, and with that failure the gate ends. -/
  | unposted {failure : CallFailure}
    (large : needsConfirmation candidates total settings.threshold = true)
    : settings.Consulted candidates total days
        [⟨.send settings.reviewChannel (settings.promptText candidates total days),
          .error failure⟩]
        (.error failure)
  /-- The prompt stands, and the answer to its one wait decides, whatever becomes of the calls
  around it.
  -/
  | settled {prompt : MessageId} {answer : Option (String × MemberId)} {decision : Decision}
    {approve deny cleared edited : Outcome Unit}
    (large : needsConfirmation candidates total settings.threshold = true)
    (decides : settings.Decides answer decision)
    (named
      : ∀ other, outcomeText candidates other = outcomeText candidates decision → other = decision)
    : settings.Consulted candidates total days
        [⟨.send settings.reviewChannel (settings.promptText candidates total days), .ok prompt⟩,
          ⟨.react settings.reviewChannel prompt settings.approveToken, approve⟩,
          ⟨.react settings.reviewChannel prompt settings.denyToken, deny⟩,
          ⟨.awaitReaction
            ⟨prompt, [settings.approveToken, settings.denyToken], settings.timeout, true⟩, answer⟩,
          ⟨.clearReactions settings.reviewChannel prompt, cleared⟩,
          ⟨.edit settings.reviewChannel prompt (outcomeText candidates decision), edited⟩]
        (.ok decision)

variable {settings : GateSettings} {candidates total days : Nat} {prompt : MessageId}
  {said : List (Sigma Effect.Reply)}

/-- A failure that is tolerated is at most noted. -/
theorem tolerate_inward (outcome : Outcome Unit) (note : String)
    (fields : List (String × String))
    : (tolerate outcome note fields).AsksOnly Effect.IsInward :=
  tolerate_asksOnly (fun _ => trivial) outcome note fields

/-- Offering a token is one call, and what comes after does not hang on its answer. -/
theorem offer_converses {token : String} {β : Type} {next : Program β} {result : β}
    (conversation : (do settings.offer prompt token; next).Converses said result)
    : ∃ reply later,
        exchangesOf said
          = ⟨.react settings.reviewChannel prompt token, reply⟩ :: exchangesOf later
        ∧ next.Converses later result := by
  obtain ⟨earlier, _, later, rfl, offered, rest⟩ := conversation.of_bind
  obtain ⟨reply, after, called, noted⟩ := offered.of_call
  refine ⟨reply, later, ?_, rest⟩
  rw [Program.exchangesOf_append, called, (tolerate_inward _ _ _).exchangesOf_eq_nil noted]
  rfl

/-- Settling a posted prompt is five calls in their order, and the third one's answer decides. -/
theorem settle_converses {decision : Decision}
    (conversation : (settings.settle candidates prompt).Converses said decision)
    : ∃ answer, ∃ approve deny cleared edited : Outcome Unit,
        decision = settings.decisionOf answer
        ∧ exchangesOf said
          = [⟨.react settings.reviewChannel prompt settings.approveToken, approve⟩,
              ⟨.react settings.reviewChannel prompt settings.denyToken, deny⟩,
              ⟨.awaitReaction ⟨prompt, settings.tokens, settings.timeout, true⟩, answer⟩,
              ⟨.clearReactions settings.reviewChannel prompt, cleared⟩,
              ⟨.edit settings.reviewChannel prompt (outcomeText candidates decision), edited⟩] := by
  obtain ⟨approve, _, first, conversation⟩ := offer_converses conversation
  obtain ⟨deny, _, second, conversation⟩ := offer_converses conversation
  obtain ⟨answer, _, third, conversation⟩ := conversation.of_call
  obtain ⟨cleared, _, fourth, conversation⟩ := conversation.of_call
  obtain ⟨_, _, clearing, conversation⟩ := conversation.of_inward (tolerate_inward _ _ _)
  obtain ⟨_, _, noting, conversation⟩ :=
    conversation.of_inward (settings.noteAnswer_asksOnly (fun _ => trivial) answer)
  obtain ⟨edited, _, fifth, conversation⟩ := conversation.of_call
  obtain ⟨_, _, editing, conversation⟩ := conversation.of_inward (tolerate_inward _ _ _)
  obtain ⟨rfl, rfl⟩ := conversation.of_pure
  refine ⟨answer, approve, deny, cleared, edited, rfl, ?_⟩
  rw [first, second, third, fourth, clearing, noting, fifth, editing]
  rfl

/-- Every conversation of the gate is a consultation. -/
theorem consulted_of_converses {verdict : Outcome Decision}
    (conversation : (settings.authorize candidates total days).Converses said verdict)
    : settings.Consulted candidates total days (exchangesOf said) verdict := by
  obtain ⟨_, _, opening, conversation⟩ := conversation.of_inward (Program.log_inward _ _ _)
  cases large : needsConfirmation candidates total settings.threshold with
  | false =>
      simp only [large, Bool.not_false, if_true] at conversation
      obtain ⟨_, _, noting, conversation⟩ := conversation.of_inward (Program.log_inward _ _ _)
      obtain ⟨rfl, rfl⟩ := conversation.of_pure
      rw [opening, noting]
      exact .unasked large
  | true =>
      simp only [large, Bool.not_true, Bool.false_eq_true, if_false] at conversation
      obtain ⟨_, _, noting, conversation⟩ := conversation.of_inward (Program.log_inward _ _ _)
      obtain ⟨posted, later, sent, conversation⟩ := conversation.of_call
      rw [opening, noting, sent]
      cases posted with
      | error failure =>
          obtain ⟨rfl, rfl⟩ := conversation.of_pure
          exact .unposted large
      | ok prompt =>
          obtain ⟨_, decision, _, rfl, settling, ending⟩ := conversation.of_bind
          obtain ⟨rfl, rfl⟩ := ending.of_pure
          obtain ⟨answer, approve, deny, cleared, edited, rfl, calls⟩ := settle_converses settling
          rw [List.append_nil, calls]
          exact .settled large (settings.decides_decisionOf answer)
            fun _ => outcomeText_injective candidates

/-- On every platform the gate goes through its consultation: a small batch is approved without a
call, a refused prompt ends it with that failure, and a posted prompt is reacted to, waited on,
cleared and edited in this order, with the decision that the answer to the wait makes.
-/
theorem authorize_consults {σ : Type} (settings : GateSettings) (candidates total days : Nat)
    (platform : Program.Handler σ) (state : σ)
    : settings.Consulted candidates total days
        (exchangesOf ((settings.authorize candidates total days).trace platform state))
        ((settings.authorize candidates total days).run platform state).1 :=
  consulted_of_converses (.of_trace platform _ state)

end GateSettings

end Gatehouse
