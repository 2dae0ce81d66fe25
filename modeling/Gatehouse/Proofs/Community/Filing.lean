import Gatehouse.Proofs.Community.Posts

/-! Every message is filed. What a run posts gets identifiers of its own, whatever the clock shows,
because the running number goes into them; so all messages stay in their channels, and they are
in the order in which they were posted when the clock never goes back.
-/

namespace Gatehouse

-------------------------------------------------------------------------------
-- Messages that are posted
-------------------------------------------------------------------------------

/-- A message as it was posted: under which identifier, where, and as of which instant. -/
structure Posting where
  id : MessageId
  channel : ChannelId
  at_ : Instant

/-- What an operation posts in a community, if it posts anything. -/
def Operation.posting? (community : Community) : Operation → Option Posting
  | .call (.send channel text) =>
      match (community.answer (.send channel text)).1 with
      | .ok id => some ⟨id, channel, community.now⟩
      | .error _ => none
  | .seed channel content at_ => some ⟨(community.seed channel content at_).1, channel, at_⟩
  | _ => none

/-- What operations post, in order. -/
def postings : Community → List Operation → List Posting
  | _, [] => []
  | community, operation :: later =>
      (operation.posting? community).toList ++ postings (operation.act community) later

/-- What is posted by some operations and then by others. -/
theorem postings_append (community : Community) (earlier later : List Operation)
    : postings community (earlier ++ later)
      = postings community earlier ++ postings (Operation.actAll earlier community) later := by
  induction earlier generalizing community with
  | nil => rfl
  | cons operation more ih =>
      rw [List.cons_append, postings, postings, ih, List.append_assoc]
      rfl

theorem length_postings_le (community : Community) (earlier later : List Operation)
    : (postings community earlier).length ≤ (postings community (earlier ++ later)).length := by
  rw [postings_append, List.length_append]
  exact Nat.le_add_right _ _

-------------------------------------------------------------------------------
-- Identifiers of their own
-------------------------------------------------------------------------------

/-- Messages are posted under the running numbers from zero on. -/
def Minted (posted : List Posting) : Prop :=
  posted.map Posting.id = posted.mapIdx fun number posting => MessageId.mint posting.at_ number

namespace Minted

variable {posted : List Posting}

theorem concat (minted : Minted posted) (channel : ChannelId) (at_ : Instant)
    : Minted (posted ++ [⟨MessageId.mint at_ posted.length, channel, at_⟩]) := by
  unfold Minted at minted ⊢
  rw [List.map_append, minted, List.mapIdx_concat]
  rfl

/-- While there are numbers, no two messages have one identifier. -/
theorem nodup (minted : Minted posted) (few : posted.length ≤ MessageId.sequences)
    : (posted.map Posting.id).Nodup := by
  rw [minted]
  refine List.pairwise_iff_getElem.mpr fun first second there later lower same => ?_
  rw [List.length_mapIdx] at there later
  rw [List.getElem_mapIdx, List.getElem_mapIdx] at same
  have numbers := congrArg MessageId.number same
  rw [MessageId.number_mint (Nat.lt_of_lt_of_le there few),
    MessageId.number_mint (Nat.lt_of_lt_of_le later few)] at numbers
  exact Nat.ne_of_lt lower numbers

/-- While there are numbers, no message has the identifier of one that was posted before. -/
theorem fresh {new : Posting} {later : List Posting} (minted : Minted (posted ++ new :: later))
    (few : (posted ++ new :: later).length ≤ MessageId.sequences) {posting : Posting}
    (listed : posting ∈ posted)
    : posting.id ≠ new.id := by
  have distinct := minted.nodup few
  rw [List.map_append, List.nodup_append] at distinct
  exact distinct.2.2 posting.id (List.mem_map_of_mem listed) new.id List.mem_cons_self

/-- A message that was posted has its number, while there are numbers. -/
theorem number_lt (minted : Minted posted) (few : posted.length ≤ MessageId.sequences)
    {posting : Posting} (listed : posting ∈ posted)
    : posting.id.number < posted.length := by
  have named : posting.id ∈ posted.map Posting.id := List.mem_map_of_mem listed
  rw [minted, List.mem_mapIdx] at named
  obtain ⟨number, bound, same⟩ := named
  rw [← same, MessageId.number_mint (Nat.lt_of_lt_of_le bound few)]
  exact bound

end Minted

/-- Messages with ascending numbers have ascending identifiers as long as the clock does not go
back and identifiers can tell the time.
-/
theorem MessageId.mint_lt_mint {first second : Instant} {number other : Nat}
    (ordered : first.unixMillis ≤ second.unixMillis)
    (before : second.unixMillis < (epochMillis + Nat.pow 2 42 : Nat)) (lower : number < other)
    (few : other < sequences)
    : rank (mint first number) < rank (mint second other) := by
  have inTime {at_ : Instant} (before : at_.unixMillis < (epochMillis + Nat.pow 2 42 : Nat))
      : at_.unixNanos < endNanos := by
    have whole := at_.unixMillis_eq
    unfold endNanos
    omega
  have millis : millisSinceEpoch first ≤ millisSinceEpoch second := by
    unfold millisSinceEpoch
    omega
  have times := Nat.mul_le_mul_right sequences millis
  change (mint first number).word.toNat < (mint second other).word.toNat
  rw [word_mint (inTime (Int.lt_of_le_of_lt ordered before)), word_mint (inTime before),
    Nat.mod_eq_of_lt (Nat.lt_trans lower few), Nat.mod_eq_of_lt few]
  omega

/-- The clock never goes back from one message to the next, and identifiers can tell its time. -/
structure InOrder (posted : List Posting) : Prop where
  ordered
    : posted.Pairwise fun earlier later => earlier.at_.unixMillis ≤ later.at_.unixMillis
  before
    : ∀ posting ∈ posted,
      posting.at_.unixMillis < (MessageId.epochMillis + Nat.pow 2 42 : Nat)

/-- What is posted while the clock never goes back gets ascending identifiers. -/
theorem Minted.ascending {posted : List Posting} (minted : Minted posted)
    (few : posted.length ≤ MessageId.sequences) (inOrder : InOrder posted)
    : Ascending (posted.map Posting.id) := by
  rw [minted]
  refine List.pairwise_iff_getElem.mpr fun first second there later lower => ?_
  rw [List.length_mapIdx] at there later
  rw [List.getElem_mapIdx, List.getElem_mapIdx]
  exact MessageId.mint_lt_mint
    (List.pairwise_iff_getElem.mp inOrder.ordered first second there later lower)
    (inOrder.before _ (List.getElem_mem later)) lower (Nat.lt_of_lt_of_le later few)

-------------------------------------------------------------------------------
-- What is filed
-------------------------------------------------------------------------------

/-- The messages of a community are those that were posted, each in its channel, as long as there
are numbers.
-/
structure Community.Files (community : Community) (posted : List Posting) : Prop where
  sequence : community.sequence = posted.length
  minted : Minted posted
  found
    : posted.length ≤ MessageId.sequences
      → ∀ id channel,
        (community.posts.find? id).map Post.channel = some channel
        ↔ ∃ posting ∈ posted, posting.id = id ∧ posting.channel = channel

namespace Community.Files

variable {community after : Community} {posted : List Posting}

theorem empty (now : Instant)
    : (Community.empty now).Files [] :=
  ⟨rfl, rfl, fun _ id channel => by simp [Community.empty]⟩

theorem of_eq (files : community.Files posted) (sequence : after.sequence = community.sequence)
    (posts : after.posts = community.posts)
    : after.Files posted :=
  ⟨sequence.trans files.sequence, files.minted, posts ▸ files.found⟩

/-- A message changed in its place stays filed where it was. -/
theorem insert (files : community.Files posted) {message : MessageId} {post changed : Post}
    (found : community.posts.find? message = some post) (channel : changed.channel = post.channel)
    : { community with posts := community.posts.insert message changed }.Files posted := by
  refine ⟨files.sequence, files.minted, fun few id => ?_⟩
  have same : ((community.posts.insert message changed).find? id).map Post.channel
      = (community.posts.find? id).map Post.channel := by
    rw [OrderedMap.find?_insert]
    split
    · next this => rw [← this, found, Option.map_some, Option.map_some, channel]
    · rfl
  intro channel
  rw [same]
  exact files.found few id channel

/-- A new message is filed beside the others. -/
theorem seed (files : community.Files posted) (channel : ChannelId) (content : String)
    (at_ : Instant)
    : (community.seed channel content at_).2.Files
        (posted ++ [⟨(community.seed channel content at_).1, channel, at_⟩]) := by
  let new : Posting := ⟨MessageId.mint at_ posted.length, channel, at_⟩
  have minted : (community.seed channel content at_).1 = new.id :=
    congrArg (MessageId.mint at_) files.sequence
  have all : Minted (posted ++ [new]) := files.minted.concat channel at_
  rw [minted]
  refine ⟨?_, all, fun few id other => ?_⟩
  · rw [List.length_append]
    exact congrArg (· + 1) files.sequence
  · have fewer : posted.length ≤ MessageId.sequences := by
      rw [List.length_append] at few
      exact Nat.le_of_succ_le few
    have posts : (community.seed channel content at_).2.posts
        = community.posts.insert new.id ⟨channel, content, [], false, false⟩ := by
      rw [← minted]
      rfl
    rw [posts, OrderedMap.find?_insert]
    simp only [List.mem_append, List.mem_singleton]
    -- Under the new identifier only the new message is filed, and under any other one only old ones.
    by_cases same : new.id = id
    · rw [if_pos same, Option.map_some, Option.some.injEq]
      constructor
      · exact fun here => ⟨new, .inr rfl, same, here⟩
      · rintro ⟨posting, listed | rfl, named, here⟩
        · exact absurd (named.trans same.symm) (all.fresh few listed)
        · exact here
    · rw [if_neg same, files.found fewer]
      constructor
      · rintro ⟨posting, listed, found⟩
        exact ⟨posting, .inl listed, found⟩
      · rintro ⟨posting, listed | rfl, named, here⟩
        · exact ⟨posting, listed, named, here⟩
        · exact absurd named same

/-- A call that posts nothing leaves what is filed. -/
theorem of_moves {call : Call} (files : community.Files posted)
    (moves : community.Moves call after) (unsent : ∀ channel text, call ≠ .send channel text)
    : after.Files posted := by
  cases moves with
  | posted => exact absurd rfl (unsent _ _)
  | altered found channel => exact files.insert found channel
  | waited =>
      rw [community.await_eq]
      exact files.of_eq rfl rfl
  | nothing | recorded | removed | told => exact files.of_eq rfl rfl

/-- What an operation posts is filed beside what was there. -/
theorem act (files : community.Files posted) (operation : Operation)
    : (operation.act community).Files
        (posted ++ (operation.posting? community).toList) := by
  cases operation with
  | seed channel content at_ => exact files.seed channel content at_
  | call call =>
      cases call with
      | send channel text =>
          change (community.send channel text).2.Files _
          simp only [Operation.posting?, answer, Community.send]
          split
          · rw [Option.toList_none, List.append_nil]
            exact files
          · exact files.seed channel text community.now
      | _ =>
          change (community.answer _).2.Files (posted ++ [])
          rw [List.append_nil]
          exact files.of_moves (community.answer_moves _) fun _ _ same => Call.noConfusion same
  | _ =>
      change Community.Files _ (posted ++ [])
      rw [List.append_nil]
      exact files.of_eq rfl rfl

/-- What operations post is filed beside what was there, by induction over them. -/
theorem actAll (files : community.Files posted) (operations : List Operation)
    : (Operation.actAll operations community).Files
        (posted ++ postings community operations) := by
  induction operations generalizing community posted with
  | nil =>
      rw [postings, List.append_nil]
      exact files
  | cons operation later ih =>
      rw [postings, ← List.append_assoc]
      exact ih (files.act operation)

/-- A message that is there was posted in its channel. -/
theorem exists_posting (files : community.Files posted)
    (few : posted.length ≤ MessageId.sequences) {id : MessageId} {post : Post}
    (found : community.posts.find? id = some post)
    : ∃ posting ∈ posted, posting.id = id ∧ posting.channel = post.channel :=
  (files.found few id post.channel).mp (by rw [found, Option.map_some])

/-- A message that was posted is there in its channel. -/
theorem exists_post (files : community.Files posted) (few : posted.length ≤ MessageId.sequences)
    {posting : Posting} (listed : posting ∈ posted)
    : ∃ post,
        community.posts.find? posting.id = some post ∧ post.channel = posting.channel :=
  Option.map_eq_some_iff.mp
    ((files.found few posting.id posting.channel).mpr ⟨posting, listed, rfl, rfl⟩)

/-- As many messages are there as were posted. -/
theorem size_eq (files : community.Files posted) (few : posted.length ≤ MessageId.sequences)
    : community.posts.size = posted.length := by
  have same : community.posts.keys.Perm (posted.map Posting.id) := by
    refine (List.perm_ext_iff_of_nodup community.posts.nodup_keys
      (files.minted.nodup few)).mpr fun id => ⟨fun key => ?_, fun named => ?_⟩
    · obtain ⟨⟨_, post⟩, entry, rfl⟩ := List.mem_map.mp key
      obtain ⟨posting, listed, named, -⟩ :=
        files.exists_posting few (OrderedMap.find?_eq_some_iff.mpr entry)
      exact List.mem_map.mpr ⟨posting, listed, named⟩
    · obtain ⟨posting, listed, rfl⟩ := List.mem_map.mp named
      obtain ⟨post, found, -⟩ := files.exists_post few listed
      exact List.mem_map.mpr ⟨_, OrderedMap.find?_eq_some_iff.mp found, rfl⟩
  have lengths := same.length_eq
  rw [OrderedMap.keys, List.length_map, List.length_map] at lengths
  exact lengths

/-- The messages of a channel are those that were posted there. -/
theorem mem_postsIn (files : community.Files posted)
    (few : posted.length ≤ MessageId.sequences) (channel : ChannelId) (id : MessageId)
    : id ∈ (community.postsIn channel).map Prod.fst
      ↔ id ∈ (posted.filter fun posting => posting.channel = channel).map Posting.id := by
  simp only [postsIn, List.mem_map, List.mem_filter, decide_eq_true_eq]
  constructor
  · rintro ⟨⟨_, post⟩, ⟨entry, here⟩, rfl⟩
    obtain ⟨posting, listed, named, same⟩ :=
      files.exists_posting few (OrderedMap.find?_eq_some_iff.mpr entry)
    exact ⟨posting, ⟨listed, same.trans here⟩, named⟩
  · rintro ⟨posting, ⟨listed, here⟩, rfl⟩
    obtain ⟨post, found, same⟩ := files.exists_post few listed
    exact ⟨(posting.id, post), ⟨OrderedMap.find?_eq_some_iff.mp found, same.trans here⟩, rfl⟩

/-- When the clock never goes back, the messages of a channel are in the order in which they were
posted.
-/
theorem postsIn_eq (files : community.Files posted) (few : posted.length ≤ MessageId.sequences)
    (inOrder : InOrder posted) (channel : ChannelId)
    : (community.postsIn channel).map Prod.fst
      = (posted.filter fun posting => posting.channel = channel).map Posting.id := by
  have listed : Ascending ((community.postsIn channel).map Prod.fst) :=
    List.pairwise_map.mpr (community.posts.ascending.filter _)
  have ascending := (files.minted.ascending few inOrder).sublist
    ((List.filter_sublist (p := fun posting => posting.channel = channel)).map Posting.id)
  exact listed.eq_of_mem_iff ascending (files.mem_postsIn few channel)

/-- A message that is there bears a number that is used up. -/
theorem number_lt (files : community.Files posted) (few : posted.length ≤ MessageId.sequences)
    {id : MessageId} {post : Post} (found : community.posts.find? id = some post)
    : id.number < community.sequence := by
  obtain ⟨posting, listed, rfl, -⟩ := files.exists_posting few found
  rw [files.sequence]
  exact files.minted.number_lt few listed

end Community.Files

-------------------------------------------------------------------------------
-- Runs
-------------------------------------------------------------------------------

/-- How the messages are filed that operations have posted. -/
structure Filed (start : Community) (operations : List Operation) (last : Community) : Prop where
  /-- No two messages are posted under one identifier. -/
  distinct : ((postings start operations).map Posting.id).Nodup
  /-- No message is posted in the place of another one. -/
  fresh
    : ∀ earlier operation later posting,
      operations = earlier ++ operation :: later
      → let before := Operation.actAll earlier start
        operation.posting? before = some posting → before.posts.find? posting.id = none
  /-- As many messages are there as were posted. -/
  counted : last.posts.size = (postings start operations).length
  /-- A message that was there at any time is there in the same channel, still deleted if it was. -/
  kept
    : ∀ earlier later id post,
      operations = earlier ++ later
      → (Operation.actAll earlier start).posts.find? id = some post
      → ∃ now,
        last.posts.find? id = some now
        ∧ now.channel = post.channel
        ∧ (post.deleted = true → now.deleted = true)
  /-- In each channel the messages are in the order in which they were posted, when the clock never
  went back and identifiers could tell its time.
  -/
  inOrder
    : InOrder (postings start operations)
      → ∀ channel,
        (last.postsIn channel).map Prod.fst
          = ((postings start operations).filter fun posting => posting.channel = channel).map
              Posting.id

/-- What operations make of an empty community has their messages filed, as long as there are
numbers.
-/
theorem Filed.of_few (now : Instant) (operations : List Operation)
    (few : (postings (.empty now) operations).length ≤ MessageId.sequences)
    : Filed (.empty now) operations (Operation.actAll operations (.empty now)) := by
  have files (earlier : List Operation)
      : (Operation.actAll earlier (.empty now)).Files (postings (.empty now) earlier) :=
    (Community.Files.empty now).actAll earlier
  have all := files operations
  have distinct := all.minted.nodup few
  refine ⟨distinct, ?_, all.size_eq few, ?_, all.postsIn_eq few⟩
  · rintro earlier operation later posting rfl before posts
    have fewer := Nat.le_trans (length_postings_le _ earlier _) few
    refine Option.eq_none_iff_forall_ne_some.mpr fun post found => ?_
    obtain ⟨former, listed, named, -⟩ := (files earlier).exists_posting fewer found
    have minted := all.minted
    rw [postings_append, postings, posts] at minted few
    exact minted.fresh few listed named
  · rintro earlier later id post rfl found
    have fewer := Nat.le_trans (length_postings_le _ earlier later) few
    obtain ⟨posting, listed, rfl, here⟩ := (files earlier).exists_posting fewer found
    have still : posting ∈ postings (.empty now) (earlier ++ later) := by
      rw [postings_append]
      exact List.mem_append_left _ listed
    obtain ⟨last, there, same⟩ := all.exists_post few still
    have keeps := Operation.keepsPosts_actAll later (Operation.actAll earlier (.empty now))
    rw [← Operation.actAll_append] at keeps
    obtain ⟨_, kept, deleted⟩ :=
      keeps.posts (all.sequence ▸ few) posting.id post
        ((files earlier).number_lt fewer found) found
    cases there.symm.trans kept
    exact ⟨last, there, same.trans here, deleted⟩

namespace Undertaking

/-- Whatever is undertaken in a community that begins empty, its messages are filed as long as
there are numbers for them.
-/
theorem messages_filed (world : World) (now : Instant) (undertakings : List Undertaking)
    (few
      : (postings (.empty now)
            (operationsIn { world with community := .empty now } undertakings)).length
        ≤ MessageId.sequences)
    : let start := { world with community := .empty now }
      Filed (.empty now) (operationsIn start undertakings)
        (run start undertakings).community := by
  intro start
  rw [community_run]
  exact .of_few now (operationsIn start undertakings) few

/-- A message from before the start of the time of identifiers and two of one later instant, one of
them posted by a program: in their channel the first goes before the last.
-/
theorem messages_filed_across_the_start
    : let start := World.start (.empty .epoch)
      let undertakings :=
        [operate (.seed ⟨1⟩ "early" .epoch), operate (.setNow MessageId.endOf2016),
          operate (.call (.send ⟨2⟩ "elsewhere")),
          perform (Program.call (.send ⟨1⟩ "late")) .epoch]
      let operations := operationsIn start undertakings
      let last := (run start undertakings).community
      (postings (.empty .epoch) operations).length ≤ MessageId.sequences
      ∧ Filed (.empty .epoch) operations last
      ∧ InOrder (postings (.empty .epoch) operations)
      ∧ (last.postsIn ⟨1⟩).map Prod.fst
        = [MessageId.mint .epoch 0, MessageId.mint MessageId.endOf2016 2] := by
  intro start undertakings operations last
  have few : (postings (.empty .epoch) operations).length ≤ MessageId.sequences := by decide
  have filed : Filed (.empty .epoch) operations last :=
    messages_filed start .epoch undertakings few
  have inOrder : InOrder (postings (.empty .epoch) operations) := ⟨by decide, by decide⟩
  exact ⟨few, filed, inOrder, filed.inOrder inOrder ⟨1⟩⟩

end Undertaking

end Gatehouse
