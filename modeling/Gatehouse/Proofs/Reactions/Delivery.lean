import Gatehouse.Community

/-! What reaches a wait. In a hub in order a wait that has just been subscribed finds the newest
of the reactions that are then handed out, as many as the ring keeps, and nothing from before.
So the answer to a prompt comes from the reactions that were kept for it.
-/

namespace Gatehouse

namespace ReactionHub

/-- A hub in order: it is open, its ring holds no more than it can keep and no more than was handed
out, and every ticket has been given out.
-/
structure Sound (hub : ReactionHub) : Prop where
  isOpen : hub.isOpen = true
  capacity : hub.capacity = defaultCapacity
  short : hub.ring.length ≤ hub.capacity
  published : hub.ring.length ≤ hub.published
  tickets : ∀ s ∈ hub.subscriptions, s.ticket < hub.nextTicket

-------------------------------------------------------------------------------
-- A hub stays in order
-------------------------------------------------------------------------------

theorem sound_standard : standard.Sound := by
  refine ⟨rfl, rfl, ?_, ?_, ?_⟩ <;> simp [standard]

/-- A new subscription has the next ticket, so all tickets stay below the one after. -/
theorem Sound.subscribe {hub : ReactionHub} (sound : hub.Sound)
    : hub.subscribe.2.Sound := by
  refine ⟨sound.isOpen, sound.capacity, sound.short, sound.published, ?_⟩
  intro s member
  simp only [ReactionHub.subscribe, List.mem_append, List.mem_singleton] at member ⊢
  rcases member with earlier | rfl
  · exact Nat.lt_succ_of_lt (sound.tickets s earlier)
  · exact Nat.lt_succ_self _

/-- A subscription that ends leaves the others. -/
theorem Sound.unsubscribe {hub : ReactionHub} (sound : hub.Sound) (ticket : Nat)
    : (hub.unsubscribe ticket).Sound :=
  ⟨sound.isOpen, sound.capacity, sound.short, sound.published,
    fun s member => sound.tickets s (List.mem_filter.mp member).1⟩

/-- A reaction handed out is the newest in the ring, and the oldest gives way to it. -/
theorem Sound.publish {hub : ReactionHub} (sound : hub.Sound) (reaction : Reaction)
    : (hub.publish reaction).2.Sound := by
  have kept := sound.published
  unfold ReactionHub.publish
  split
  · refine ⟨sound.isOpen, sound.capacity, ?_, ?_, sound.tickets⟩ <;>
      simp only [List.length_drop, List.length_append, List.length_singleton] <;> omega
  · exact sound

/-- Handing out reactions one by one keeps the hub in order, by induction over them. -/
theorem Sound.publishAll {hub : ReactionHub} (sound : hub.Sound) (reactions : List Reaction)
    : (hub.publishAll reactions).Sound := by
  induction reactions generalizing hub with
  | nil => exact sound
  | cons reaction rest ih => exact ih (sound.publish reaction)

/-- A look moves one subscription forward or ends it. -/
theorem Sound.look {hub : ReactionHub} (sound : hub.Sound) (ticket : Nat) (wait : ReactionWait)
    : (hub.look ticket wait).2.Sound := by
  unfold ReactionHub.look
  split
  · exact sound.unsubscribe ticket
  · split
    · refine ⟨sound.isOpen, sound.capacity, sound.short, sound.published, ?_⟩
      intro s member
      obtain ⟨before, present, rfl⟩ := List.mem_map.mp member
      have given := sound.tickets before present
      split <;> exact given
    · exact sound.unsubscribe ticket

-------------------------------------------------------------------------------
-- What a new subscription reads
-------------------------------------------------------------------------------

/-- While someone waits, the ring takes up all that is handed out and keeps the newest. Witness:
induction over the reactions; what is dropped early would be dropped in the end.
-/
theorem publishAll_ring {hub : ReactionHub} (isOpen : hub.isOpen = true)
    (heard : 0 < hub.waiters) (short : hub.ring.length ≤ hub.capacity)
    (reactions : List Reaction)
    : hub.publishAll reactions
      = { hub with
          published := hub.published + reactions.length
          ring := (hub.ring ++ reactions).drop
            ((hub.ring ++ reactions).length - hub.capacity) } := by
  induction reactions generalizing hub with
  | nil =>
      have fits : (hub.ring ++ []).length - hub.capacity = 0 := by
        simp only [List.append_nil]
        omega
      rw [fits, List.drop_zero, List.append_nil]
      rfl
  | cons reaction rest ih =>
      have handed : (hub.publish reaction).2
          = { hub with
              published := hub.published + 1
              ring := (hub.ring ++ [reaction]).drop
                ((hub.ring ++ [reaction]).length - hub.capacity) } := by
        simp only [publish, isOpen, decide_eq_true heard, Bool.and_self, if_true]
      have next := @ih (hub.publish reaction).2 (by rw [handed]; exact isOpen)
        (by rw [handed]; exact heard) (by
          rw [handed]
          simp only [List.length_drop, List.length_append, List.length_singleton]
          omega)
      change (hub.publish reaction).2.publishAll rest = _
      rw [next, handed]
      have joined : ∀ n ≤ (hub.ring ++ [reaction]).length,
          (hub.ring ++ [reaction]).drop n ++ rest = (hub.ring ++ reaction :: rest).drop n := by
        intro n within
        rw [← List.drop_append_of_le_length within, List.append_assoc, List.singleton_append]
      simp only [joined _ (Nat.sub_le _ _), List.drop_drop, ReactionHub.mk.injEq, true_and,
        and_true, List.length_cons]
      refine ⟨by omega, congrArg (fun n => (hub.ring ++ reaction :: rest).drop n) ?_⟩
      simp only [List.length_drop, List.length_append, List.length_cons, List.length_nil]
      omega

/-- A new subscription reads from what is handed out next. Witness: its ticket is new, so no earlier
subscription is found under it.
-/
theorem Sound.place_subscribe {hub later : ReactionHub} (sound : hub.Sound)
    (same : later.subscriptions = hub.subscribe.2.subscriptions)
    : later.place hub.subscribe.1 = hub.published := by
  have fresh : hub.subscriptions.find? (fun s => s.ticket == hub.nextTicket) = none := by
    refine List.find?_eq_none.mpr fun s member => ?_
    have given := sound.tickets s member
    simp only [beq_iff_eq]
    omega
  unfold place
  rw [same]
  simp [ReactionHub.subscribe, List.find?_append, fresh]

/-- A new subscription finds the newest of the reactions handed out after it, as many as the ring
keeps.
-/
theorem Sound.unread_publishAll {hub : ReactionHub} (sound : hub.Sound)
    (reactions : List Reaction)
    : (hub.subscribe.2.publishAll reactions).unread hub.subscribe.1
      = reactions.drop (reactions.length - defaultCapacity) := by
  have heard : 0 < hub.subscribe.2.waiters := by simp [ReactionHub.subscribe, waiters]
  have short := sound.short
  have published := sound.published
  have capacity := sound.capacity
  have after := publishAll_ring sound.subscribe.isOpen heard sound.subscribe.short reactions
  unfold unread oldest
  rw [sound.place_subscribe (by rw [after]), after]
  simp only [ReactionHub.subscribe, List.drop_drop, List.length_drop, List.length_append]
  -- Of the ring, that is all before the subscription and as much after it as does not fit.
  have passed : hub.ring.length + reactions.length - hub.capacity
      + (hub.published - (hub.published + reactions.length
        - (hub.ring.length + reactions.length
          - (hub.ring.length + reactions.length - hub.capacity))))
      = hub.ring.length + (reactions.length - defaultCapacity) := by omega
  rw [passed, List.drop_length_add_append]

end ReactionHub

-------------------------------------------------------------------------------
-- The answer to a wait
-------------------------------------------------------------------------------

namespace ScriptedReaction

/-- A kept reaction answers a prompt: it falls on the prompt, is no bot's, and is by one of the
tokens.
-/
def answers (tokens : List String) (reaction : ScriptedReaction) : Bool :=
  reaction.onPrompt && !reaction.byBot && tokens.contains reaction.token

end ScriptedReaction

namespace Community

/-- The answer that the kept reactions hold for a prompt: of the newest, as many as a wait can read,
the first that answers it.
-/
def answerAhead (community : Community) (tokens : List String) : Option ScriptedReaction :=
  (community.scripted.drop (community.scripted.length - ReactionHub.defaultCapacity)).find?
    (ScriptedReaction.answers tokens)

/-- A reaction beside a message falls on another message. -/
theorem deliver_message {reaction : ScriptedReaction} {message : MessageId}
    : (ScriptedReaction.deliver reaction message).message = message
      ↔ reaction.onPrompt = true := by
  obtain ⟨word⟩ := message
  cases on : reaction.onPrompt with
  | true => simp [ScriptedReaction.deliver, on]
  | false => simp [ScriptedReaction.deliver, on]

/-- A wait that excludes bots accepts the delivered reactions that answer its prompt. -/
theorem accepts_deliver {wait : ReactionWait} (excludes : wait.excludeBots = true)
    (reaction : ScriptedReaction)
    : wait.accepts (ScriptedReaction.deliver reaction wait.message)
      = reaction.answers wait.allowed := by
  have on : decide ((ScriptedReaction.deliver reaction wait.message).message = wait.message)
      = reaction.onPrompt := by
    simp only [deliver_message, Bool.decide_eq_true]
  unfold ReactionWait.accepts ScriptedReaction.answers
  rw [on, excludes, Bool.true_and, Bool.and_assoc, Bool.and_assoc,
    Bool.and_comm (!reaction.byBot)]
  rfl

/-- In a hub in order, what a wait finds at once is the answer that the kept reactions hold. -/
theorem await_answer {community : Community} (sound : community.hub.Sound)
    {wait : ReactionWait} (excludes : wait.excludeBots = true)
    : (community.await wait).1
      = (community.answerAhead wait.allowed).map fun r => (r.token, r.actor) := by
  have delivered := sound.unread_publishAll
    (community.scripted.map fun r => ScriptedReaction.deliver r wait.message)
  have accepts : (wait.accepts ∘ fun r => ScriptedReaction.deliver r wait.message)
      = ScriptedReaction.answers wait.allowed :=
    funext (accepts_deliver excludes)
  rw [List.length_map, ← List.map_drop] at delivered
  unfold await beginWait look ReactionHub.look answerAhead
  simp only [delivered, List.find?_map, accepts, (sound.subscribe.publishAll _).isOpen, if_true]
  cases List.find? (ScriptedReaction.answers wait.allowed)
      (community.scripted.drop (community.scripted.length - ReactionHub.defaultCapacity)) with
  | none => rfl
  | some reaction => rfl

/-- A wait takes all the kept reactions; beside that only the hub changes. -/
theorem await_eq (community : Community) (wait : ReactionWait)
    : (community.await wait).2
      = { community with
          awaits := community.awaits + 1
          scripted := []
          hub := (community.await wait).2.hub } := by
  unfold await
  simp only [beginWait, look, giveUp]
  split
  all_goals
    next sighted =>
    obtain ⟨-, rfl⟩ := Prod.mk.inj sighted
    rfl

/-- A wait leaves the hub in order. -/
theorem hub_sound_await {community : Community} (sound : community.hub.Sound)
    (wait : ReactionWait)
    : (community.await wait).2.hub.Sound := by
  have begun := sound.subscribe.publishAll
    (community.scripted.map fun r => ScriptedReaction.deliver r wait.message)
  have looked := begun.look community.hub.subscribe.1 wait
  unfold await
  simp only [beginWait, look, giveUp]
  split
  · next found =>
    obtain ⟨-, rfl⟩ := Prod.mk.inj found
    exact looked
  · next closed =>
    obtain ⟨-, rfl⟩ := Prod.mk.inj closed
    exact looked
  · next nothing =>
    obtain ⟨-, rfl⟩ := Prod.mk.inj nothing
    exact looked.unsubscribe _

end Community

end Gatehouse
