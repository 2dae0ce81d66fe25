import Gatehouse.Proofs.Time.Timer
import Gatehouse.Reactions.Hub
import Mathlib.Data.List.Induction

/-! Waits that share a hub. All waits read from one ring, each from its own place, and yet each is
answered as if it stood alone: from the last reactions that were published after it was
subscribed, whatever other waits there are and whatever becomes of them.
-/

namespace Gatehouse

-------------------------------------------------------------------------------
-- Histories of a hub
-------------------------------------------------------------------------------

/-- What happens at a hub, with the answers that are given. -/
inductive HubEvent
  | subscribed (ticket : Nat) (wait : ReactionWait)
  | published (reaction : Reaction) (reached : Nat)
  /-- A wait is resolved from a time on, in nanoseconds. -/
  | resolved (ticket now : Nat) (resolution : Resolution)
  | dropped (ticket : Nat)
  | closed
deriving DecidableEq

namespace HubEvent

def reaction? : HubEvent → Option Reaction
  | published reaction _ => some reaction
  | _ => none

def newTicket? : HubEvent → Option Nat
  | subscribed ticket _ => some ticket
  | _ => none

/-- What an event makes of the waits that stand. -/
def change (waits : List (Nat × ReactionWait)) : HubEvent → List (Nat × ReactionWait)
  | subscribed ticket wait => waits ++ [(ticket, wait)]
  | resolved ticket .. | dropped ticket => waits.filter fun waiter => waiter.1 != ticket
  | published .. | closed => waits

end HubEvent

/-- The reactions that were published, in order. -/
def publishedIn (history : List HubEvent) : List Reaction :=
  history.filterMap HubEvent.reaction?

/-- The tickets that were given out, in order. -/
def ticketsIn (history : List HubEvent) : List Nat :=
  history.filterMap HubEvent.newTicket?

/-- The waits that were subscribed and neither resolved nor dropped, by their tickets. -/
def standingIn (history : List HubEvent) : List (Nat × ReactionWait) :=
  history.foldl HubEvent.change []

section

variable {history : List HubEvent} {event : HubEvent}

@[simp] theorem publishedIn_snoc
    : publishedIn (history ++ [event]) = publishedIn history ++ event.reaction?.toList := by
  cases event <;> simp [publishedIn, HubEvent.reaction?]

@[simp] theorem ticketsIn_snoc
    : ticketsIn (history ++ [event]) = ticketsIn history ++ event.newTicket?.toList := by
  cases event <;> simp [ticketsIn, HubEvent.newTicket?]

@[simp] theorem standingIn_snoc
    : standingIn (history ++ [event]) = event.change (standingIn history) := by
  simp [standingIn]

end

namespace ReactionHub

/-- One step at a hub on which waits stand. Only an open hub takes waits and reactions, and a wait
ends once. It is resolved at a whole millisecond, and its timeout is one of whole milliseconds.
-/
inductive Step (waits : List (Nat × ReactionWait)) (hub : ReactionHub)
    : HubEvent → ReactionHub → Prop
  | subscribe (wait : ReactionWait) (isOpen : hub.isOpen = true)
    : Step waits hub (.subscribed hub.subscribe.1 wait) hub.subscribe.2
  | publish (reaction : Reaction) (isOpen : hub.isOpen = true)
    : Step waits hub (.published reaction (hub.publish reaction).1) (hub.publish reaction).2
  | resolve {ticket now : Nat} {wait : ReactionWait} (stands : (ticket, wait) ∈ waits)
    (at_ : WholeMillis now) (whole : WholeMillis wait.timeout.nanos)
    : Step waits hub (.resolved ticket now (hub.resolveFrom now ticket wait).1)
        (hub.resolveFrom now ticket wait).2
  | drop {ticket : Nat} {wait : ReactionWait} (stands : (ticket, wait) ∈ waits)
    : Step waits hub (.dropped ticket) (hub.unsubscribe ticket)
  | close (isOpen : hub.isOpen = true) : Step waits hub .closed hub.close

/-- From one hub to another by the steps of a history. -/
inductive Runs (first : ReactionHub) : List HubEvent → ReactionHub → Prop
  | start : Runs first [] first
  | step {history : List HubEvent} {event : HubEvent} {hub next : ReactionHub}
    (earlier : Runs first history hub) (last : hub.Step (standingIn history) event next)
    : Runs first (history ++ [event]) next

-------------------------------------------------------------------------------
-- Places
-------------------------------------------------------------------------------

variable {hub : ReactionHub} {ticket other : Nat}

theorem place_subscribe_of_ne (apart : ticket ≠ hub.nextTicket)
    : hub.subscribe.2.place ticket = hub.place ticket := by
  have missing : ([⟨hub.nextTicket, hub.published⟩] : List Subscription).find?
      (fun s => s.ticket == ticket) = none := by
    simp [apart.symm]
  unfold place
  simp only [subscribe, List.find?_append, missing, Option.or_none]

/-- A new subscription reads from what is published next. -/
theorem place_subscribe (fresh : hub.nextTicket ∉ hub.subscriptions.map Subscription.ticket)
    : hub.subscribe.2.place hub.nextTicket = hub.published := by
  have unused : hub.subscriptions.find? (fun s => s.ticket == hub.nextTicket) = none := by
    refine List.find?_eq_none.mpr fun s listed => ?_
    simp only [beq_iff_eq]
    exact fun same => fresh (same ▸ List.mem_map_of_mem listed)
  unfold place
  simp [subscribe, List.find?_append, unused]

/-- A subscription that ends moves no other one. -/
theorem place_unsubscribe (apart : ticket ≠ other)
    : (hub.unsubscribe other).place ticket = hub.place ticket := by
  have same
      : (hub.unsubscribe other).subscriptions.find? (fun s => s.ticket == ticket)
        = hub.subscriptions.find? fun s => s.ticket == ticket := by
    refine List.find?_filter.trans (congrArg (List.find? · hub.subscriptions) (funext fun s => ?_))
    by_cases own : s.ticket = ticket
    · simp [own, apart]
    · simp [own]
  unfold place
  rw [same]
  rfl

/-- A subscription that is there has its own place, whatever else there is in the hub. -/
theorem place_congr {next : ReactionHub} (same : next.subscriptions = hub.subscriptions)
    (there : ticket ∈ hub.subscriptions.map Subscription.ticket)
    : next.place ticket = hub.place ticket := by
  obtain ⟨s, listed, own⟩ := List.mem_map.mp there
  have found : (hub.subscriptions.find? fun s => s.ticket == ticket).isSome :=
    List.find?_isSome.mpr ⟨s, listed, beq_iff_eq.mpr own⟩
  unfold place
  rw [same]
  cases here : hub.subscriptions.find? fun s => s.ticket == ticket with
  | none => simp [here] at found
  | some s => rfl

/-- A wait that was resolved has ended, and nothing else has changed. -/
theorem resolveFrom_hub (now : Nat) (wait : ReactionWait)
    : (hub.resolveFrom now ticket wait).2 = hub.unsubscribe ticket := by
  have moved
      : (hub.subscriptions.map fun s =>
            if s.ticket == ticket then { s with next := hub.published } else s).filter
          (fun s => s.ticket != ticket)
        = hub.subscriptions.filter fun s => s.ticket != ticket := by
    induction hub.subscriptions with
    | nil => rfl
    | cons s rest ih =>
        by_cases own : s.ticket = ticket
        · simpa [own] using ih
        · simpa [own] using ih
  unfold resolveFrom look
  cases (hub.unread ticket).find? wait.accepts with
  | some reaction => rfl
  | none =>
      cases isOpen : hub.isOpen with
      | false => rfl
      | true =>
          simp only [if_true, unsubscribe, moved, isOpen]

-------------------------------------------------------------------------------
-- What a history leaves in a hub
-------------------------------------------------------------------------------

/-- A wait has heard all that was published after it was subscribed: that is what was recorded from
its place on.
-/
def Hears (hub : ReactionHub) (history : List HubEvent) (recorded : List Reaction)
    (waiter : Nat × ReactionWait) : Prop :=
  ∃ earlier later,
    history = earlier ++ .subscribed waiter.1 waiter.2 :: later
    ∧ hub.place waiter.1 ≤ recorded.length
    ∧ publishedIn later = recorded.drop (hub.place waiter.1)

/-- A hub follows a history: of all that was recorded while someone waited its ring holds the
newest, it has one subscription for each wait that stands, and each of these has heard what it
should.
-/
structure Follows (hub : ReactionHub) (size : Nat) (history : List HubEvent)
    (recorded : List Reaction) : Prop where
  capacity : hub.capacity = size
  isOpen : hub.isOpen = true ↔ .closed ∉ history
  tickets : ticketsIn history = List.range hub.nextTicket
  waits : hub.subscriptions.map Subscription.ticket = (standingIn history).map Prod.fst
  given : ∀ waiter ∈ standingIn history, waiter.1 < hub.nextTicket
  published : hub.published = recorded.length
  ring : hub.ring = recorded.drop (recorded.length - size)
  heard : ∀ waiter ∈ standingIn history, hub.Hears history recorded waiter

variable {first next : ReactionHub} {size : Nat} {history : List HubEvent}
  {recorded : List Reaction} {waiter : Nat × ReactionWait}

/-- What a wait has heard it has still heard after an event that neither moves it nor adds to what
was published.
-/
theorem Hears.snoc (hears : hub.Hears history recorded waiter) {event : HubEvent}
    (place : next.place waiter.1 = hub.place waiter.1) (silent : event.reaction? = none)
    : next.Hears (history ++ [event]) recorded waiter := by
  obtain ⟨earlier, later, split, within, heard⟩ := hears
  refine ⟨earlier, later ++ [event], ?_, place ▸ within, ?_⟩
  · rw [split, List.append_assoc, List.cons_append]
  · rw [publishedIn_snoc, silent, Option.toList_none, List.append_nil, heard, place]

/-- A wait hears what is published and recorded, in its place. -/
theorem Hears.publish (hears : hub.Hears history recorded waiter)
    (place : next.place waiter.1 = hub.place waiter.1) (reaction : Reaction) (reached : Nat)
    : next.Hears (history ++ [.published reaction reached]) (recorded ++ [reaction]) waiter := by
  obtain ⟨earlier, later, split, within, heard⟩ := hears
  refine ⟨earlier, later ++ [.published reaction reached], ?_, ?_, ?_⟩
  · rw [split, List.append_assoc, List.cons_append]
  · rw [place, List.length_append]
    exact Nat.le_add_right_of_le within
  · rw [publishedIn_snoc, heard, place, List.drop_append_of_le_length within]
    rfl

namespace Follows

/-- At the beginning nothing was recorded and nobody waits. -/
theorem start {capacity : Nat} (opened : ofCapacity? capacity = some hub)
    : hub.Follows capacity.nextPowerOfTwo [] [] := by
  unfold ofCapacity? at opened
  split at opened
  · cases opened
  · cases opened
    refine ⟨rfl, ?_, rfl, rfl, nofun, rfl, List.drop_nil.symm, nofun⟩
    simp

/-- As many wait as stand. -/
theorem waiters_eq (follows : hub.Follows size history recorded)
    : hub.waiters = (standingIn history).length := by
  have counted := congrArg List.length follows.waits
  rwa [List.length_map, List.length_map] at counted

/-- A wait that stands has its subscription. -/
theorem subscribed (follows : hub.Follows size history recorded)
    (stands : waiter ∈ standingIn history)
    : waiter.1 ∈ hub.subscriptions.map Subscription.ticket := by
  rw [follows.waits]
  exact List.mem_map_of_mem stands

/-- A wait finds the newest of what was recorded from its place on, as much as the ring keeps. -/
theorem unread_eq (follows : hub.Follows size history recorded) {ticket : Nat}
    (within : hub.place ticket ≤ recorded.length)
    : hub.unread ticket
      = (recorded.drop (hub.place ticket)).drop
          ((recorded.drop (hub.place ticket)).length - size) := by
  unfold unread oldest
  rw [follows.ring, follows.published, List.drop_drop, List.drop_drop]
  refine congrArg (recorded.drop ·) ?_
  rw [List.length_drop, List.length_drop]
  omega

/-- A wait that is subscribed has heard nothing yet, and the others hear what they heard. -/
theorem subscribe (follows : hub.Follows size history recorded) (wait : ReactionWait)
    : hub.subscribe.2.Follows size (history ++ [.subscribed hub.subscribe.1 wait]) recorded := by
  have fresh : hub.nextTicket ∉ hub.subscriptions.map Subscription.ticket := by
    rw [follows.waits]
    intro again
    obtain ⟨waiter, stands, same⟩ := List.mem_map.mp again
    exact Nat.lt_irrefl _ (same ▸ follows.given waiter stands)
  have stood {waiter : Nat × ReactionWait}
      (stands : waiter ∈ standingIn (history ++ [.subscribed hub.subscribe.1 wait]))
      : waiter ∈ standingIn history ∨ waiter = (hub.nextTicket, wait) := by
    rw [standingIn_snoc] at stands
    exact (List.mem_append.mp stands).imp_right List.mem_singleton.mp
  refine ⟨follows.capacity, ?_, ?_, ?_, fun waiter stands => ?_, follows.published, follows.ring,
    fun waiter stands => ?_⟩
  · simpa [ReactionHub.subscribe] using follows.isOpen
  · rw [ticketsIn_snoc, follows.tickets]
    exact List.range_succ.symm
  · rw [standingIn_snoc]
    simp [ReactionHub.subscribe, HubEvent.change, follows.waits]
  · rcases stood stands with earlier | rfl
    · exact Nat.lt_succ_of_lt (follows.given waiter earlier)
    · exact Nat.lt_succ_self _
  · rcases stood stands with earlier | rfl
    · refine (follows.heard waiter earlier).snoc ?_ rfl
      exact place_subscribe_of_ne (Nat.ne_of_lt (follows.given waiter earlier))
    · have place : hub.subscribe.2.place hub.nextTicket = recorded.length :=
        (place_subscribe fresh).trans follows.published
      refine ⟨history, [], rfl, Nat.le_of_eq place, ?_⟩
      rw [place, List.drop_length]
      rfl

/-- What is published while someone waits is recorded, and else nobody is there to hear it. -/
theorem publish (follows : hub.Follows size history recorded) (reaction : Reaction)
    (isOpen : hub.isOpen = true)
    : ∃ recorded,
        (hub.publish reaction).2.Follows size
          (history ++ [.published reaction (hub.publish reaction).1]) recorded := by
  have unclosed (reached : Nat) : .closed ∉ history ++ [.published reaction reached] := by
    simpa using follows.isOpen.mp isOpen
  have tickets (reached : Nat)
      : ticketsIn (history ++ [.published reaction reached]) = List.range hub.nextTicket := by
    simp [HubEvent.newTicket?, follows.tickets]
  have standing (reached : Nat)
      : standingIn (history ++ [.published reaction reached]) = standingIn history :=
    standingIn_snoc
  cases waited : decide (0 < hub.waiters) with
  | true =>
      have handed : (hub.publish reaction).2
          = { hub with
              published := hub.published + 1
              ring := (hub.ring ++ [reaction]).drop
                ((hub.ring ++ [reaction]).length - hub.capacity) } := by
        simp only [ReactionHub.publish, isOpen, waited, Bool.and_self, if_true]
      rw [handed]
      refine ⟨recorded ++ [reaction], follows.capacity, iff_of_true isOpen (unclosed _),
        tickets _, follows.waits.trans (congrArg _ (standing _).symm), standing _ ▸ follows.given,
        ?_, ?_, fun waiter stands => ?_⟩
      · simp [follows.published]
      · rw [follows.ring, follows.capacity, ← List.drop_append_of_le_length (Nat.sub_le _ _),
          List.drop_drop]
        refine congrArg ((recorded ++ [reaction]).drop ·) ?_
        simp only [List.length_drop, List.length_append, List.length_singleton]
        omega
      · rw [standing] at stands
        refine (follows.heard waiter stands).publish ?_ _ _
        exact place_congr rfl (follows.subscribed stands)
  | false =>
      have same : (hub.publish reaction).2 = hub := by
        simp [ReactionHub.publish, isOpen, waited]
      have nobody : standingIn history = [] := by
        have none := follows.waiters_eq
        exact List.length_eq_zero_iff.mp (by simp at waited; omega)
      rw [same]
      refine ⟨recorded, follows.capacity, iff_of_true isOpen (unclosed _), tickets _,
        follows.waits.trans (congrArg _ (standing _).symm), standing _ ▸ follows.given,
        follows.published, follows.ring, fun waiter stands => ?_⟩
      rw [standing, nobody] at stands
      cases stands

/-- A wait that ends leaves the others what they heard. -/
theorem leave (follows : hub.Follows size history recorded) {ticket : Nat} {event : HubEvent}
    (ends : event.change (standingIn history)
      = (standingIn history).filter fun waiter => waiter.1 != ticket)
    (silent : event.reaction? = none) (unticketed : event.newTicket? = none)
    (closes : event ≠ .closed)
    : (hub.unsubscribe ticket).Follows size (history ++ [event]) recorded := by
  have stood {waiter : Nat × ReactionWait} (stands : waiter ∈ standingIn (history ++ [event]))
      : waiter ∈ standingIn history ∧ waiter.1 ≠ ticket := by
    rw [standingIn_snoc, ends] at stands
    exact (List.mem_filter.mp stands).imp_right fun apart => by simpa using apart
  refine ⟨follows.capacity, ?_, ?_, ?_, fun waiter stands => follows.given waiter (stood stands).1,
    follows.published, follows.ring, fun waiter stands => ?_⟩
  · rw [List.mem_append, List.mem_singleton]
    exact follows.isOpen.trans (not_congr (or_iff_left closes.symm).symm)
  · simp [unticketed, follows.tickets, unsubscribe]
  · rw [standingIn_snoc, ends]
    unfold unsubscribe
    have filtered := congrArg (List.filter (· != ticket)) follows.waits
    rwa [List.filter_map, List.filter_map] at filtered
  · obtain ⟨earlier, apart⟩ := stood stands
    exact (follows.heard waiter earlier).snoc (place_unsubscribe apart) silent

/-- A hub that is closed stays as it is for those who wait. -/
theorem close (follows : hub.Follows size history recorded)
    : hub.close.Follows size (history ++ [.closed]) recorded := by
  refine ⟨follows.capacity, ?_, ?_, ?_, fun waiter stands => ?_, follows.published, follows.ring,
    fun waiter stands => ?_⟩
  · simp [ReactionHub.close]
  · simpa [HubEvent.newTicket?, ReactionHub.close] using follows.tickets
  · rw [standingIn_snoc]
    exact follows.waits
  · rw [standingIn_snoc] at stands
    exact follows.given waiter stands
  · rw [standingIn_snoc] at stands
    exact (follows.heard waiter stands).snoc (place_congr rfl (follows.subscribed stands)) rfl

/-- Every step follows the history that it makes longer. -/
theorem step (follows : hub.Follows size history recorded) {event : HubEvent}
    (step : hub.Step (standingIn history) event next)
    : ∃ recorded, next.Follows size (history ++ [event]) recorded := by
  cases step with
  | subscribe wait isOpen => exact ⟨recorded, follows.subscribe wait⟩
  | publish reaction isOpen => exact follows.publish reaction isOpen
  | resolve stands =>
      rw [resolveFrom_hub]
      exact ⟨recorded, follows.leave rfl rfl rfl nofun⟩
  | @drop ticket wait stands => exact ⟨recorded, follows.leave rfl rfl rfl nofun⟩
  | close isOpen => exact ⟨recorded, follows.close⟩

end Follows

/-- Every hub follows its history, by induction over the steps. -/
theorem Runs.follows (runs : first.Runs history hub) {capacity : Nat}
    (opened : ofCapacity? capacity = some first)
    : ∃ recorded, hub.Follows capacity.nextPowerOfTwo history recorded := by
  induction runs with
  | start => exact ⟨[], .start opened⟩
  | step earlier last ih =>
      obtain ⟨recorded, follows⟩ := ih
      exact follows.step last

-------------------------------------------------------------------------------
-- Answers
-------------------------------------------------------------------------------

end ReactionHub

/-- How long a wait goes unanswered that is resolved from a time on: exactly its timeout, if timers
can tell when that is over, and thirty years if they cannot.
-/
def ReactionWait.patience (wait : ReactionWait) (now : Nat) : Duration :=
  if now + wait.timeout.nanos < Timer.limit then wait.timeout else Timer.farFuture

/-- What a wait that stands alone comes to from a time on when these reactions were published since
it was subscribed and so many of them are kept: the first of those kept that it is for, at once; or
nothing, at once when nothing more can come and else when its time has passed.
-/
def ReactionWait.resolution (wait : ReactionWait) (size : Nat) (heard : List Reaction)
    (closed : Bool) (now : Nat) : Resolution :=
  match (heard.drop (heard.length - size)).find? wait.accepts with
  | some reaction => ⟨some (reaction.token, reaction.actor), .zero⟩
  | none => ⟨none, if closed then .zero else wait.patience now⟩

/-- An unanswered wait ends when the timer for its timeout goes off. -/
theorem ReactionWait.patience_eq {wait : ReactionWait} {now : Nat} (at_ : WholeMillis now)
    (whole : WholeMillis wait.timeout.nanos)
    : ⟨Timer.roundUp Timer.grain (Timer.dueAfter now wait.timeout) - now⟩
      = wait.patience now := by
  rw [Timer.roundUp_of_whole (Timer.whole_dueAfter at_ whole)]
  unfold patience
  split
  · next told => rw [Timer.dueAfter_eq told, Nat.add_sub_cancel_left]
  · next far =>
    rw [Timer.dueAfter_of_limit_le (Nat.le_of_not_lt far), Nat.add_sub_cancel_left]

/-- In a history every wait is answered as if it stood alone: no two have one ticket, what a wait
comes to depends on itself and on what was published since it was subscribed, and what is
published reaches as many waits as stand.
-/
structure AnsweredAlone (size : Nat) (history : List HubEvent) : Prop where
  once : (ticketsIn history).Nodup
  resolved
    : ∀ earlier ticket now resolution later,
        history = earlier ++ .resolved ticket now resolution :: later
        → ∃ before wait between,
            earlier = before ++ .subscribed ticket wait :: between
            ∧ resolution
              = wait.resolution size (publishedIn between) (decide (.closed ∈ earlier)) now
  published
    : ∀ earlier reaction reached later,
        history = earlier ++ .published reaction reached :: later
        → reached = (standingIn earlier).length

namespace ReactionHub

variable {hub first next : ReactionHub} {size : Nat} {history : List HubEvent}
  {recorded : List Reaction}

/-- A wait that stands is resolved as if it stood alone. -/
theorem Follows.resolveFrom_eq (follows : hub.Follows size history recorded) {ticket now : Nat}
    {wait : ReactionWait} (stands : (ticket, wait) ∈ standingIn history) (at_ : WholeMillis now)
    (whole : WholeMillis wait.timeout.nanos)
    : ∃ before between,
        history = before ++ .subscribed ticket wait :: between
        ∧ (hub.resolveFrom now ticket wait).1
          = wait.resolution size (publishedIn between) (decide (.closed ∈ history)) now := by
  obtain ⟨before, between, split, within, heard⟩ := follows.heard _ stands
  refine ⟨before, between, split, ?_⟩
  have closed : decide (.closed ∈ history) = !hub.isOpen := by
    cases isOpen : hub.isOpen with
    | true => simpa using follows.isOpen.mp isOpen
    | false => simpa [isOpen] using follows.isOpen
  unfold resolveFrom look ReactionWait.resolution
  rw [follows.unread_eq within, heard, closed]
  cases List.find? wait.accepts _ with
  | some reaction => rfl
  | none =>
      cases hub.isOpen with
      | true => exact congrArg (Resolution.mk none) (ReactionWait.patience_eq at_ whole)
      | false => rfl

/-- What is published in an open hub reaches as many waits as stand. -/
theorem Follows.reached_eq (follows : hub.Follows size history recorded) (reaction : Reaction)
    (isOpen : hub.isOpen = true)
    : (hub.publish reaction).1 = (standingIn history).length := by
  rw [← follows.waiters_eq]
  unfold ReactionHub.publish
  split
  · rfl
  · next nobody =>
    simp only [isOpen, Bool.true_and, decide_eq_true_eq, Nat.not_lt, Nat.le_zero] at nobody
    exact nobody.symm

/-- The last step of a run. -/
theorem Runs.last {event : HubEvent} (runs : first.Runs (history ++ [event]) next)
    : ∃ hub, first.Runs history hub ∧ hub.Step (standingIn history) event next := by
  generalize whole : history ++ [event] = events at runs
  cases runs with
  | start => simp at whole
  | step earlier step =>
      obtain ⟨rfl, same⟩ := List.append_inj' whole rfl
      cases same
      exact ⟨_, earlier, step⟩

/-- Every step of a run, by induction over the events behind it. -/
theorem Runs.at_ {earlier later : List HubEvent} {event : HubEvent}
    (runs : first.Runs (earlier ++ event :: later) next)
    : ∃ before after,
        first.Runs earlier before ∧ before.Step (standingIn earlier) event after := by
  induction later using List.reverseRecOn generalizing next with
  | nil =>
      obtain ⟨before, ran, step⟩ := runs.last
      exact ⟨before, next, ran, step⟩
  | append_singleton more last ih =>
      rw [← List.cons_append, ← List.append_assoc] at runs
      obtain ⟨before, ran, -⟩ := runs.last
      exact ih ran

end ReactionHub

end Gatehouse
