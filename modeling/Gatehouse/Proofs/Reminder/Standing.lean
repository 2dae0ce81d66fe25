import Gatehouse.Proofs.Community.Posts
import Gatehouse.Proofs.Reminder.Notice

/-! Which notices stand. Over any run the record names the last notice that was sent, and every
other notice is deleted but those that could not be, each of which cost one notice that was sent
while deletions failed.
-/

namespace Gatehouse

-------------------------------------------------------------------------------
-- Notices in a community
-------------------------------------------------------------------------------

namespace Community

/-- A message is there and is not deleted. -/
def stands (community : Community) (id : MessageId) : Bool :=
  (community.posts.find? id).any fun post => !post.deleted

theorem clear_keepsPosts (community : Community) (previous : Option MessageId)
    : community.KeepsPosts (community.clear previous) := by
  cases previous with
  | none => exact .refl community
  -- A deletion does not look at the channel that it names.
  | some id => exact .answer community (.delete ⟨0⟩ id)

/-- A message that was cleared while deletions go well does not stand. -/
theorem stands_clear {community : Community} (able : community.deletesFail = false)
    (id : MessageId)
    : (community.clear (some id)).stands id = false := by
  unfold clear delete
  dsimp only
  rw [able, if_neg Bool.false_ne_true]
  split
  · next absent => simp [stands, absent]
  · next post found =>
    split
    · next deleted => simp [stands, found, deleted]
    · simp [stands, OrderedMap.find?_insert]

/-- A message is there and was posted under a number that is used up. -/
structure Has (community : Community) (id : MessageId) : Prop where
  numbered : id.number < community.sequence
  found : ∃ post, community.posts.find? id = some post

namespace KeepsPosts

variable {before after : Community}

theorem has (keeps : before.KeepsPosts after) (few : after.sequence ≤ MessageId.sequences)
    {id : MessageId} (has : before.Has id)
    : after.Has id := by
  obtain ⟨numbered, post, found⟩ := has
  obtain ⟨later, present, -⟩ := keeps.posts few id post numbered found
  exact ⟨Nat.lt_of_lt_of_le numbered keeps.sequence, later, present⟩

/-- Of messages that are there, no more stand later on than before. -/
theorem countP_stands_le (keeps : before.KeepsPosts after)
    (few : after.sequence ≤ MessageId.sequences) {ids : List MessageId}
    (has : ∀ id ∈ ids, before.Has id)
    : ids.countP after.stands ≤ ids.countP before.stands := by
  refine List.countP_mono_left fun id listed standing => ?_
  obtain ⟨numbered, post, found⟩ := has id listed
  obtain ⟨later, present, deleted⟩ := keeps.posts few id post numbered found
  unfold stands at standing ⊢
  rw [present] at standing
  rw [found]
  simp only [Option.any_some, Bool.not_eq_true'] at standing ⊢
  exact Bool.eq_false_iff.mpr fun gone => by simp [deleted gone] at standing

end KeepsPosts

/-- A message that is posted is there, and none that was there before is the same. -/
theorem has_seed (community : Community) (channel : ChannelId) (content : String) (at_ : Instant)
    (few : community.sequence < MessageId.sequences)
    : let posted := community.seed channel content at_
      posted.2.Has posted.1 ∧ ¬ community.Has posted.1 := by
  have number : (MessageId.mint at_ community.sequence).number = community.sequence :=
    MessageId.number_mint few
  refine ⟨⟨?_, ⟨channel, content, [], false, false⟩, ?_⟩, fun has => ?_⟩
  · exact Nat.lt_of_le_of_lt (Nat.le_of_eq number) (Nat.lt_succ_self _)
  · exact OrderedMap.find?_insert.trans (if_pos rfl)
  · exact Nat.lt_irrefl _ (Nat.lt_of_le_of_lt (Nat.le_of_eq number.symm) has.numbered)

end Community

-------------------------------------------------------------------------------
-- Runs with notices
-------------------------------------------------------------------------------

/-- What happens in a run with notices: a notice is posted, or something else happens. -/
inductive NoticeEvent
  | fire (settings : ReminderSettings)
  | other (event : Event)

/-- A run with notices so far: its world, the notices that were sent, in order, and how many of
them were sent while deletions failed.
-/
structure Noticing where
  world : World
  sent : List MessageId
  hindered : Nat

namespace Noticing

/-- A run that begins in a world. -/
def start (world : World) : Noticing := ⟨world, [], 0⟩

def fire (noticing : Noticing) (settings : ReminderSettings) : Noticing :=
  match settings.fire.run World.handle noticing.world with
  | (.error _, world) => { noticing with world := world }
  | (.ok id, world) =>
      { world := world
        sent := noticing.sent ++ [id]
        hindered :=
          if noticing.world.community.deletesFail then noticing.hindered + 1
          else noticing.hindered }

def step (noticing : Noticing) : NoticeEvent → Noticing
  | .fire settings => noticing.fire settings
  | .other event => { noticing with world := event.apply noticing.world }

def run (noticing : Noticing) (events : List NoticeEvent) : Noticing :=
  events.foldl step noticing

/-- Notices are replaced in order: the record names the last one sent, each is a message of its
own, a notice that cannot be sent leaves the record, and beside the last one there stand at most
as many as were sent while deletions failed.
-/
structure InOrder (noticing : Noticing) : Prop where
  recorded : ReminderRecord.stored? noticing.world.store = noticing.sent.getLast?
  unsent
    : ∀ (settings : ReminderSettings) (failure : CallFailure) (world : World),
        settings.fire.run World.handle noticing.world = (.error (.send failure), world)
        → ReminderRecord.stored? world.store = ReminderRecord.stored? noticing.world.store
  distinct : noticing.sent.Nodup
  posted : ∀ id ∈ noticing.sent, ∃ post, noticing.world.community.posts.find? id = some post
  standing : noticing.sent.countP noticing.world.community.stands ≤ 1 + noticing.hindered

/-- What a run keeps: the record names the last notice, every notice is a message of its own,
and of all but the last there stand at most as many as were sent while deletions failed.
-/
structure Kept (noticing : Noticing) : Prop where
  recorded : ReminderRecord.stored? noticing.world.store = noticing.sent.getLast?
  distinct : noticing.sent.Nodup
  posted : ∀ id ∈ noticing.sent, noticing.world.community.Has id
  replaced : noticing.sent.dropLast.countP noticing.world.community.stands ≤ noticing.hindered

variable {noticing : Noticing}

theorem kept_start (community : Community)
    : (start (World.start community)).Kept :=
  ⟨rfl, List.nodup_nil, nofun, Nat.le_refl _⟩

/-- What keeps messages and the record keeps what a run keeps. -/
theorem Kept.of_keepsPosts (kept : noticing.Kept) {world : World}
    (keeps : noticing.world.community.KeepsPosts world.community)
    (few : world.community.sequence ≤ MessageId.sequences)
    (stored : world.store = noticing.world.store)
    : Kept { noticing with world := world } where
  recorded := (congrArg ReminderRecord.stored? stored).trans kept.recorded
  distinct := kept.distinct
  posted := fun id listed => keeps.has few (kept.posted id listed)
  replaced :=
    Nat.le_trans
      (keeps.countP_stands_le few fun id listed =>
        kept.posted id ((List.dropLast_sublist _).subset listed))
      kept.replaced

/-- Once the last notice was cleared, all that still stand are the ones that could not be
deleted, with itself among them when deletions fail now.
-/
theorem Kept.countP_stands_clear (kept : noticing.Kept)
    (few : noticing.world.community.sequence ≤ MessageId.sequences)
    : noticing.sent.countP
          (noticing.world.community.clear (ReminderRecord.stored? noticing.world.store)).stands
        ≤ if noticing.world.community.deletesFail then noticing.hindered + 1
          else noticing.hindered := by
  have replaced := kept.replaced
  have posted := kept.posted
  rw [kept.recorded]
  rcases List.eq_nil_or_concat noticing.sent with none | ⟨earlier, last, whole⟩
  · rw [none, List.countP_nil]
    exact Nat.zero_le _
  · rw [whole, List.concat_eq_append] at replaced posted ⊢
    rw [List.dropLast_concat] at replaced
    rw [List.getLast?_concat, List.countP_append]
    -- The earlier ones are no more than before, and the last one stands only when deletions fail.
    have others :=
      (noticing.world.community.clear_keepsPosts (some last)).countP_stands_le
        (by
          obtain ⟨posts, same⟩ := noticing.world.community.clear_eq (some last)
          rw [same]
          exact few)
        fun id listed => posted id (List.mem_append_left _ listed)
    have own
        : [last].countP (noticing.world.community.clear (some last)).stands
          ≤ if noticing.world.community.deletesFail then 1 else 0 := by
      split
      · exact List.countP_le_length
      · next able =>
        simp [Community.stands_clear (Bool.eq_false_iff.mpr able) last]
    split at own
    · next fails =>
      rw [if_pos fails]
      omega
    · next able =>
      rw [if_neg able]
      omega

/-- Posting a notice keeps what a run keeps. -/
theorem Kept.fire (kept : noticing.Kept) (settings : ReminderSettings)
    (few : (noticing.fire settings).world.community.sequence ≤ MessageId.sequences)
    : (noticing.fire settings).Kept := by
  have clears :=
    noticing.world.community.clear_keepsPosts (ReminderRecord.stored? noticing.world.store)
  cases sends : noticing.world.community.sendsFail with
  | true =>
      obtain ⟨journal, ran⟩ := settings.fire_refused sends
      unfold Noticing.fire at few ⊢
      rw [ran] at few ⊢
      exact kept.of_keepsPosts clears few rfl
  | false =>
      obtain ⟨journal, ran⟩ := settings.fire_sent sends
      unfold Noticing.fire at few ⊢
      rw [ran] at few ⊢
      have free := Nat.le_of_succ_le few
      have standing := kept.countP_stands_clear (Nat.le_trans clears.sequence free)
      generalize noticing.world.community.clear _ = cleared at few free clears standing ⊢
      have seeds := Community.KeepsPosts.seed cleared settings.channel settings.message
        noticing.world.community.now
      obtain ⟨there, new⟩ := cleared.has_seed settings.channel settings.message
        noticing.world.community.now few
      have had (id : MessageId) (listed : id ∈ noticing.sent) : cleared.Has id :=
        clears.has free (kept.posted id listed)
      refine ⟨?_, ?_, fun id listed => ?_, ?_⟩
      · rw [List.getLast?_concat]
        exact ReminderRecord.stored?_set _ _
      · refine List.nodup_append.mpr ⟨kept.distinct, List.pairwise_singleton _ _, ?_⟩
        rintro id listed _ single rfl
        exact new (List.mem_singleton.mp single ▸ had id listed)
      · rcases List.mem_append.mp listed with earlier | last
        · exact seeds.has few (had id earlier)
        · exact List.mem_singleton.mp last ▸ there
      · rw [List.dropLast_concat]
        exact Nat.le_trans (seeds.countP_stands_le few had) standing

/-- Whatever happens keeps what a run keeps. -/
theorem Kept.step (kept : noticing.Kept) (event : NoticeEvent)
    (few : (noticing.step event).world.community.sequence ≤ MessageId.sequences)
    : (noticing.step event).Kept := by
  cases event with
  | fire settings => exact kept.fire settings few
  | other event =>
      exact kept.of_keepsPosts (event.keepsPosts noticing.world) few
        (event.store_apply noticing.world)

/-- Messages only become more. -/
theorem sequence_le_step (noticing : Noticing) (event : NoticeEvent)
    : noticing.world.community.sequence ≤ (noticing.step event).world.community.sequence := by
  cases event with
  | fire settings =>
      have keeps := (settings.fire.run_keepsPosts noticing.world).sequence
      change _ ≤ (noticing.fire settings).world.community.sequence
      unfold Noticing.fire
      split
      · next ran =>
        rw [ran] at keeps
        exact keeps
      · next ran =>
        rw [ran] at keeps
        exact keeps
  | other event => exact (event.keepsPosts noticing.world).sequence

/-- Messages only become more over a run, by induction over its events. -/
theorem sequence_le_run (noticing : Noticing) (events : List NoticeEvent)
    : noticing.world.community.sequence ≤ (noticing.run events).world.community.sequence := by
  induction events generalizing noticing with
  | nil => exact Nat.le_refl _
  | cons event later ih => exact Nat.le_trans (noticing.sequence_le_step event) (ih _)

/-- What is kept at the start of a run is kept at its end, by induction over its events. -/
theorem Kept.run (kept : noticing.Kept) {events : List NoticeEvent}
    (few : (noticing.run events).world.community.sequence ≤ MessageId.sequences)
    : (noticing.run events).Kept := by
  induction events generalizing noticing with
  | nil => exact kept
  | cons event later ih =>
      exact ih (kept.step event (Nat.le_trans (sequence_le_run _ later) few)) few

/-- What a run keeps says that notices are replaced in order. -/
theorem Kept.inOrder (kept : noticing.Kept)
    : noticing.InOrder where
  recorded := kept.recorded
  unsent := by
    intro settings failure world ran
    cases sends : noticing.world.community.sendsFail with
    | true =>
        obtain ⟨journal, refused⟩ := settings.fire_refused sends
        cases ran.symm.trans refused
        rfl
    | false =>
        obtain ⟨journal, sent⟩ := settings.fire_sent sends
        cases ran.symm.trans sent
  distinct := kept.distinct
  posted := fun id listed => (kept.posted id listed).found
  standing := by
    have replaced := kept.replaced
    rcases List.eq_nil_or_concat noticing.sent with none | ⟨earlier, last, whole⟩
    · rw [none, List.countP_nil]
      exact Nat.zero_le _
    · rw [whole, List.concat_eq_append] at replaced ⊢
      rw [List.dropLast_concat] at replaced
      rw [List.countP_append]
      have own : [last].countP noticing.world.community.stands ≤ 1 := List.countP_le_length
      omega

end Noticing

end Gatehouse
