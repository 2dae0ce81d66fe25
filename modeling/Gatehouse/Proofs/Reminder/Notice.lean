import Gatehouse.Proofs.Program.Conversation
import Gatehouse.Proofs.Text.Identifier
import Gatehouse.Reminder.Notice

/-! The reminder notice. What is put on record is read back, and posting a notice deletes the
one on record, posts the new one and puts it on record, or leaves the record as it is when it
cannot be posted.
-/

namespace Gatehouse

-------------------------------------------------------------------------------
-- The record
-------------------------------------------------------------------------------

namespace ReminderRecord

/-- What was put on record is on record. -/
theorem stored?_set (store : Store) (id : MessageId)
    : stored? (store.set key id.text) = some id := by
  unfold stored?
  rw [Store.get?_set, if_pos rfl]
  change (Id.read id.text).toOption = some id
  rw [Id.read_text]
  rfl

/-- The record is read from the store, and only the journal grows. -/
theorem load_run (world : World)
    : ∃ journal,
        load.run World.handle world
          = (.ok (stored? world.store), { world with journal := journal }) := by
  have answered
      : (Program.load key).run World.handle world = (.ok (world.store.get? key), world) := rfl
  unfold load stored?
  rw [Program.run_bind, answered]
  cases world.store.get? key with
  | none => exact ⟨world.journal, rfl⟩
  | some raw =>
      simp only [Option.bind_some]
      cases Id.read raw with
      | ok id => exact ⟨world.journal, rfl⟩
      | error fault => exact ⟨_, rfl⟩

/-- What is put on record is set in the store. -/
theorem save_run (id : MessageId) (world : World)
    : (save id).run World.handle world = (.ok (), world.setStored key id.text) := rfl

end ReminderRecord

/-- The delay is told from the record and the clock, and only the journal grows. -/
theorem ReminderSettings.initialDelay_run (settings : ReminderSettings) (world : World)
    : ∃ journal,
        settings.initialDelay.run World.handle world
          = (.ok (delayUntilDue (ReminderRecord.stored? world.store) settings.frequency
                world.clock),
              { world with journal := journal }) := by
  obtain ⟨noted, loaded⟩ := ReminderRecord.load_run world
  unfold initialDelay
  rw [Program.run_bind, loaded]
  dsimp only
  cases ReminderRecord.stored? world.store <;> exact ⟨_, rfl⟩

-------------------------------------------------------------------------------
-- Posting a notice
-------------------------------------------------------------------------------

/-- A community after it was asked to delete a message, if one is given. -/
def Community.clear (community : Community) : Option MessageId → Community
  | none => community
  | some previous => (community.delete previous).2

/-- Clearing a message changes at most the messages. -/
theorem Community.clear_eq (community : Community) (previous : Option MessageId)
    : ∃ posts, community.clear previous = { community with posts := posts } := by
  cases previous with
  | none => exact ⟨community.posts, rfl⟩
  | some id =>
      unfold clear delete
      dsimp only
      split
      · exact ⟨community.posts, rfl⟩
      · split
        · exact ⟨community.posts, rfl⟩
        · split <;> exact ⟨_, rfl⟩

namespace ReminderSettings

/-- The notice before is cleared, and no trouble with that stops anything. -/
theorem deletePrevious_course (settings : ReminderSettings) (now : Instant) (before : Community)
    (previous : Option MessageId)
    : ∃ made,
        (settings.deletePrevious previous).Course now before () (before.clear previous) made := by
  cases previous with
  | none => exact ⟨[], .done⟩
  | some previous =>
      have deleting := Program.Course.call now before (.delete settings.channel previous)
      unfold deletePrevious
      simp only [Community.answer] at deleting
      change ∃ made, Program.Course _ now before () (before.delete previous).2 made
      generalize before.delete previous = answered at deleting ⊢
      obtain ⟨outcome, after⟩ := answered
      cases outcome with
      | ok value => exact ⟨_, .after_log (deleting.followed .done)⟩
      | error failure => exact ⟨_, .after_log (deleting.followed (.log _ _ _))⟩

/-- Posting a notice clears the one on record and posts the new one. Once that is posted it is
on record; when it cannot be posted, the record stays as it is.
-/
theorem fire_run (settings : ReminderSettings) (world : World)
    : ∃ journal,
        settings.fire.run World.handle world
          = match (world.community.clear (ReminderRecord.stored? world.store)).send
                settings.channel settings.message with
            | (.error failure, community) =>
                (.error (.send failure),
                  { world with community := community, journal := journal })
            | (.ok sent, community) =>
                (.ok sent,
                  { world with
                    community := community
                    store := world.store.set ReminderRecord.key sent.text
                    journal := journal }) := by
  obtain ⟨noted, loaded⟩ := ReminderRecord.load_run world
  obtain ⟨made, clearing⟩ :=
    settings.deletePrevious_course world.clock world.community
      (ReminderRecord.stored? world.store)
  obtain ⟨⟨cleared, deleted⟩, -⟩ := clearing { world with journal := noted } rfl rfl
  unfold fire
  rw [Program.run_bind, loaded]
  dsimp only
  rw [Program.run_bind, deleted]
  dsimp only
  generalize settled : world.community.clear (ReminderRecord.stored? world.store) = community
  have posting
      : (Program.call (.send settings.channel settings.message)).run World.handle
          { world with community := community, journal := cleared }
        = ((community.send settings.channel settings.message).1,
            { world with
              community := (community.send settings.channel settings.message).2
              journal := cleared }) := rfl
  rw [Program.run_bind, posting]
  generalize community.send settings.channel settings.message = answered
  obtain ⟨outcome, after⟩ := answered
  cases outcome with
  | error failure => exact ⟨cleared, rfl⟩
  | ok sent => exact ⟨_, rfl⟩

/-- A notice that cannot be posted leaves the record, though the one on record was cleared. -/
theorem fire_refused {world : World} (settings : ReminderSettings)
    (fails : world.community.sendsFail = true)
    : ∃ journal,
        settings.fire.run World.handle world
          = (.error (.send ⟨.unavailable, "send failed"⟩),
              { world with
                community := world.community.clear (ReminderRecord.stored? world.store)
                journal := journal }) := by
  obtain ⟨journal, ran⟩ := settings.fire_run world
  obtain ⟨posts, same⟩ := world.community.clear_eq (ReminderRecord.stored? world.store)
  refine ⟨journal, ran.trans ?_⟩
  rw [same, Community.send, if_pos fails]

/-- A notice that can be posted is posted and goes on record. -/
theorem fire_sent {world : World} (settings : ReminderSettings)
    (able : world.community.sendsFail = false)
    : ∃ journal,
        let posted := (world.community.clear (ReminderRecord.stored? world.store)).seed
          settings.channel settings.message world.community.now
        settings.fire.run World.handle world
          = (.ok posted.1,
              { world with
                community := posted.2
                store := world.store.set ReminderRecord.key posted.1.text
                journal := journal }) := by
  obtain ⟨journal, ran⟩ := settings.fire_run world
  obtain ⟨posts, same⟩ := world.community.clear_eq (ReminderRecord.stored? world.store)
  refine ⟨journal, ran.trans ?_⟩
  rw [same, Community.send, if_neg (Bool.eq_false_iff.mp able)]

end ReminderSettings

-------------------------------------------------------------------------------
-- What is said when a notice is posted
-------------------------------------------------------------------------------

open Program (AsksOnly Converses exchangesOf)

/-- A call that posts a message in a channel. -/
def Call.isSend : Call → Bool
  | .send .. => true
  | _ => false

/-- The messages that a conversation asks to post, with their answers. -/
def sendsIn (said : List (Sigma Effect.Reply)) : List Exchange :=
  (exchangesOf said).filter fun exchange => exchange.1.isSend

@[simp] theorem sendsIn_append {said more : List (Sigma Effect.Reply)}
    : sendsIn (said ++ more) = sendsIn said ++ sendsIn more := by
  simp [sendsIn]

/-- An effect that posts no message. -/
def Effect.IsSilent : Effect → Prop
  | .call made => made.isSend = false
  | _ => True

/-- Silent effects post nothing. -/
theorem sendsIn_eq_nil {said : List (Sigma Effect.Reply)}
    (silent : ∀ exchange ∈ said, exchange.1.IsSilent)
    : sendsIn said = [] := by
  unfold sendsIn exchangesOf
  refine List.filter_eq_nil_iff.mpr fun exchange member => ?_
  obtain ⟨⟨effect, reply⟩, listed, same⟩ := List.mem_filterMap.mp member
  have here := silent _ listed
  cases effect with
  | call made =>
      cases same
      exact Bool.eq_false_iff.mp here
  | _ => cases same

theorem Program.AsksOnly.sendsIn {α : Type} {p : Program α} (silent : p.AsksOnly Effect.IsSilent)
    {said : List (Sigma Effect.Reply)} {value : α} (conversation : p.Converses said value)
    : sendsIn said = [] :=
  sendsIn_eq_nil (silent said value conversation)

section

variable {allowed : Effect → Prop}

theorem ReminderRecord.load_asksOnly (loads : allowed (.load key))
    (logs : ∀ entry, allowed (.log entry))
    : load.AsksOnly allowed := by
  refine .bind (.ask loads) fun loaded => ?_
  match loaded with
  | .error fault => exact .pure _
  | .ok none => exact .pure _
  | .ok (some raw) =>
      dsimp only
      cases Id.read raw with
      | ok id => exact .pure _
      | error fault => exact .bind (.ask (logs _)) fun _ => .pure _

namespace ReminderSettings

theorem initialDelay_asksOnly (settings : ReminderSettings)
    (loads : allowed (.load ReminderRecord.key)) (reads : allowed .clock)
    (logs : ∀ entry, allowed (.log entry))
    : settings.initialDelay.AsksOnly allowed := by
  refine .bind (ReminderRecord.load_asksOnly loads logs) fun loaded => ?_
  cases loaded with
  | error fault => exact .pure _
  | ok last =>
      have told
          : (Program.now >>= fun now =>
              Program.log .trace "Time until next reminder"
                  [("delay", (delayUntilDue last settings.frequency now).text)]
                >>= fun _ => pure (.ok (delayUntilDue last settings.frequency now))
              : Program (Except ReminderFault Duration)).AsksOnly allowed :=
        .bind (.ask reads) fun now => .bind (.ask (logs _)) fun _ => .pure _
      cases last with
      | none => exact .bind (.ask (logs _)) fun _ => told
      | some id => exact told

theorem deletePrevious_asksOnly (settings : ReminderSettings) (previous : Option MessageId)
    (deletes : ∀ id, allowed (.call (.delete settings.channel id)))
    (logs : ∀ entry, allowed (.log entry))
    : (settings.deletePrevious previous).AsksOnly allowed := by
  cases previous with
  | none => exact .pure _
  | some id =>
      refine .bind (.ask (logs _)) fun _ => .bind (.ask (deletes id)) fun answer => ?_
      cases answer with
      | ok done => exact .pure _
      | error failure => exact .ask (logs _)

theorem fire_asksOnly (settings : ReminderSettings)
    (loads : allowed (.load ReminderRecord.key))
    (saves : ∀ text, allowed (.save ReminderRecord.key text))
    (deletes : ∀ id, allowed (.call (.delete settings.channel id)))
    (sends : allowed (.call (.send settings.channel settings.message)))
    (logs : ∀ entry, allowed (.log entry))
    : settings.fire.AsksOnly allowed := by
  refine .bind (ReminderRecord.load_asksOnly loads logs) fun loaded => ?_
  cases loaded with
  | error fault => exact .pure _
  | ok previous =>
      refine .bind (settings.deletePrevious_asksOnly previous deletes logs) fun _ => ?_
      refine .bind (.ask sends) fun posted => ?_
      cases posted with
      | error failure => exact .pure _
      | ok sent =>
          refine .bind (.ask (saves sent.text)) fun saved => ?_
          cases saved with
          | error fault => exact .pure _
          | ok done => exact .bind (.ask (logs _)) fun _ => .pure _

end ReminderSettings

end

namespace ReminderSettings

variable {settings : ReminderSettings} {said : List (Sigma Effect.Reply)}

/-- Unless the store fails, one message is posted or refused, and what is told is the answer to
that.
-/
theorem fire_sends {result : Except ReminderFault MessageId}
    (conversation : settings.fire.Converses said result)
    (lasting : ∀ fault, result ≠ .error (.store fault))
    : ∃ answer : Outcome MessageId,
        sendsIn said = [⟨.send settings.channel settings.message, answer⟩]
        ∧ result = answer.mapError .send := by
  have quiet (entry : Journal.Entry) : Effect.IsSilent (.log entry) := trivial
  unfold fire at conversation
  obtain ⟨loading, loaded, rest, rfl, reading, cleared⟩ := conversation.of_bind
  have nothing := (ReminderRecord.load_asksOnly trivial quiet).sendsIn reading
  cases loaded with
  | error fault => exact absurd cleared.of_pure.2 (lasting fault)
  | ok previous =>
      obtain ⟨deleting, _, rest, rfl, clearing, posted⟩ := cleared.of_bind
      have still :=
        (settings.deletePrevious_asksOnly previous (fun _ => rfl) quiet).sendsIn clearing
      obtain ⟨sending, answer, rest, rfl, posting, saved⟩ := posted.of_bind
      have sole := posting.of_ask
      refine ⟨answer, ?_⟩
      rw [sendsIn_append, sendsIn_append, sendsIn_append, nothing, still, sole]
      cases answer with
      | error failure =>
          obtain ⟨rfl, rfl⟩ := saved.of_pure
          exact ⟨rfl, rfl⟩
      | ok id =>
          obtain ⟨saving, outcome, rest, rfl, storing, noted⟩ := saved.of_bind
          have kept := storing.of_ask
          cases outcome with
          | error fault => exact absurd noted.of_pure.2 (lasting fault)
          | ok done =>
              obtain ⟨noting, _, rest, rfl, writing, ended⟩ := noted.of_bind
              have last := writing.of_ask
              obtain ⟨rfl, rfl⟩ := ended.of_pure
              rw [sendsIn_append, sendsIn_append, kept, last]
              exact ⟨rfl, rfl⟩

/-- A notice that is said to be sent was posted under its identifier. -/
theorem mem_of_fire_converses {sent : MessageId}
    (conversation : settings.fire.Converses said (.ok sent))
    : ⟨.send settings.channel settings.message, .ok sent⟩ ∈ exchangesOf said := by
  obtain ⟨answer, sole, told⟩ := fire_sends conversation nofun
  cases answer with
  | error failure => cases told
  | ok id =>
      cases told
      exact (List.mem_filter.mp (sole ▸ List.mem_singleton.mpr rfl)).1

end ReminderSettings

end Gatehouse
