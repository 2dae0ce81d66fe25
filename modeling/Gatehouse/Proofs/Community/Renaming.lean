import Gatehouse.Proofs.Community.Board
import Gatehouse.Proofs.Community.Posts
import Mathlib.Data.List.Induction
import Mathlib.Logic.Equiv.Basic

/-! Messages under other identifiers. When two post on one board, which of them comes first settles
which identifiers they get, and nothing else: the boards are the same once the identifiers are
renamed.
-/

namespace Gatehouse

-------------------------------------------------------------------------------
-- Running numbers
-------------------------------------------------------------------------------

namespace Community

/-- Every message was posted under a number that is used up, as long as there are numbers. -/
def Numbered (community : Community) : Prop :=
  community.sequence ≤ MessageId.sequences
  → ∀ id, (community.posts.find? id).isSome → id.number < community.sequence

namespace Numbered

variable {community : Community}

theorem of_eq (numbered : community.Numbered) {after : Community}
    (sequence : after.sequence = community.sequence) (posts : after.posts = community.posts)
    : after.Numbered := by
  unfold Numbered
  rw [sequence, posts]
  exact numbered

/-- A message that is changed keeps its number. -/
theorem insert (numbered : community.Numbered) {message : MessageId} {post : Post}
    (found : community.posts.find? message = some post) (changed : Post)
    : { community with posts := community.posts.insert message changed }.Numbered := by
  intro few id there
  simp only [OrderedMap.find?_insert] at there
  by_cases same : message = id
  · subst same
    exact numbered few message (by rw [found]; rfl)
  · rw [if_neg same] at there
    exact numbered few id there

/-- A new message uses up the next number. -/
theorem seed (numbered : community.Numbered) (channel : ChannelId) (content : String)
    (at_ : Instant)
    : (community.seed channel content at_).2.Numbered := by
  intro few id there
  have few : community.sequence < MessageId.sequences := few
  change ((community.posts.insert (.mint at_ community.sequence) _).find? id).isSome = true at there
  change id.number < community.sequence + 1
  rw [OrderedMap.find?_insert] at there
  by_cases same : MessageId.mint at_ community.sequence = id
  · rw [← same, MessageId.number_mint few]
    exact Nat.lt_succ_self _
  · rw [if_neg same] at there
    exact Nat.lt_succ_of_lt (numbered (Nat.le_of_lt few) id there)

/-- Every call leaves the messages numbered. -/
theorem answer (numbered : community.Numbered) (call : Call)
    : (community.answer call).2.Numbered := by
  have moves := community.answer_moves call
  generalize (community.answer call).2 = after at moves ⊢
  cases moves with
  | posted => exact numbered.seed _ _ community.now
  | altered found => exact numbered.insert found _
  | waited =>
      rw [community.await_eq]
      exact numbered.of_eq rfl rfl
  | nothing | recorded | removed | told => exact numbered

end Numbered

/-- In a community that has come about every message has its number, by induction over the
operations.
-/
theorem Attained.numbered {community : Community} (attained : community.Attained)
    : community.Numbered := by
  induction attained with
  | empty now => exact fun _ id there => by simp [Community.empty] at there
  | act earlier operation ih =>
      cases operation with
      | call call => exact ih.answer call
      | seed channel content at_ => exact ih.seed channel content at_
      | _ => exact ih

end Community

-------------------------------------------------------------------------------
-- A renaming of new messages
-------------------------------------------------------------------------------

namespace MessageId

variable {now : Instant}

/-- Messages under different numbers have different identifiers, as long as there are numbers. -/
theorem mint_ne {number other : Nat} (few : number < sequences) (fewer : other < sequences)
    (apart : number ≠ other)
    : mint now number ≠ mint now other := by
  intro same
  have numbers := congrArg MessageId.number same
  rw [number_mint few, number_mint fewer] at numbers
  exact apart numbers

/-- The renaming that takes the last of some new messages to the first place and every other one to
the next place; so many new messages come before the last one.
-/
def lastFirst (now : Instant) (first : Nat) : Nat → Equiv.Perm MessageId
  | 0 => .refl MessageId
  | n + 1 =>
      (Equiv.swap (mint now (first + n)) (mint now (first + (n + 1)))).trans
        (lastFirst now first n)

variable {first : Nat}

theorem lastFirst_succ (n : Nat) (id : MessageId)
    : lastFirst now first (n + 1) id
      = lastFirst now first n
          (Equiv.swap (mint now (first + n)) (mint now (first + (n + 1))) id) :=
  rfl

/-- What is no new message keeps its identifier, by induction over the number of messages. -/
theorem lastFirst_of_ne {n : Nat} {id : MessageId}
    (old : ∀ i, i ≤ n → id ≠ mint now (first + i))
    : lastFirst now first n id = id := by
  induction n with
  | zero => rfl
  | succ n ih =>
      rw [lastFirst_succ,
        Equiv.swap_apply_of_ne_of_ne (old n (Nat.le_succ n)) (old (n + 1) (Nat.le_refl _))]
      exact ih fun i bound => old i (Nat.le_succ_of_le bound)

/-- The last message becomes the first one, by induction over the number of messages. -/
theorem lastFirst_last (n : Nat)
    : lastFirst now first n (mint now (first + n)) = mint now first := by
  induction n with
  | zero => rfl
  | succ n ih => rw [lastFirst_succ, Equiv.swap_apply_right, ih]

/-- A new message that becomes the last but one takes the place behind it. -/
theorem lastFirst_last_but_one {n : Nat} (few : first + (n + 1) < sequences)
    : lastFirst now first (n + 1) (mint now (first + n)) = mint now (first + (n + 1)) := by
  rw [lastFirst_succ, Equiv.swap_apply_left]
  exact lastFirst_of_ne fun i bound => mint_ne few (by omega) (by omega)

/-- The first message of several takes the second place, by induction over the others. -/
theorem lastFirst_first {n : Nat} (several : 0 < n) (few : first + n < sequences)
    : lastFirst now first n (mint now first) = mint now (first + 1) := by
  induction n with
  | zero => exact absurd several (Nat.lt_irrefl 0)
  | succ n ih =>
      rcases Nat.eq_zero_or_pos n with rfl | more
      · exact lastFirst_last_but_one few
      · rw [lastFirst_succ, Equiv.swap_apply_of_ne_of_ne]
        · exact ih more (by omega)
        · exact mint_ne (by omega) (by omega) (by omega)
        · exact mint_ne (by omega) (by omega) (by omega)

/-- One more new message leaves the renaming of what is neither the last one nor the one before. -/
theorem lastFirst_succ_of_ne {n : Nat} {id : MessageId} (before : id ≠ mint now (first + n))
    (last : id ≠ mint now (first + (n + 1)))
    : lastFirst now first (n + 1) id = lastFirst now first n id := by
  rw [lastFirst_succ, Equiv.swap_apply_of_ne_of_ne before last]

/-- Nothing but itself is renamed to the message behind the new ones. -/
theorem lastFirst_ne_next {n : Nat} {id : MessageId} (few : first + (n + 1) < sequences)
    (other : id ≠ mint now (first + (n + 1)))
    : lastFirst now first n id ≠ mint now (first + (n + 1)) := by
  have unmoved : lastFirst now first n (mint now (first + (n + 1))) = mint now (first + (n + 1)) :=
    lastFirst_of_ne fun i bound => mint_ne few (by omega) (by omega)
  intro same
  rw [← unmoved] at same
  exact other ((lastFirst now first n).injective same)

/-- Only new messages are renamed. -/
theorem exists_of_lastFirst_ne {n : Nat} {id : MessageId}
    (moves : lastFirst now first n id ≠ id)
    : ∃ i, i ≤ n ∧ id = mint now (first + i) := by
  by_contra none
  exact moves (lastFirst_of_ne fun i bound same => none ⟨i, bound, same⟩)

end MessageId

-------------------------------------------------------------------------------
-- Two who post on one board
-------------------------------------------------------------------------------

namespace Board

variable {now : Instant}

theorem find?_post {board : Board} {post : Post} {id : MessageId}
    : (board.post now post).posts.find? id
      = if MessageId.mint now board.sequence = id then some post else board.posts.find? id :=
  OrderedMap.find?_insert

theorem find?_put (board : Board) (id : MessageId) (post : Post)
    : (board.put id post).posts.find? id = some post := by
  simp [put, OrderedMap.find?_insert]

theorem postAll_concat (board : Board) (posts : List Post) (last : Post)
    : board.postAll now (posts ++ [last]) = (board.postAll now posts).post now last := by
  simp only [postAll, List.foldl_append, List.foldl_cons, List.foldl_nil]

theorem sequence_postAll (board : Board) (posts : List Post)
    : (board.postAll now posts).sequence = board.sequence + posts.length := by
  induction posts using List.reverseRecOn with
  | nil => rfl
  | append_singleton posts last ih =>
      rw [postAll_concat, List.length_append]
      exact congrArg (· + 1) ih

/-- Boards with the same messages, as many posted, and the same hub are the same. -/
theorem ext {left right : Board} (sequence : left.sequence = right.sequence)
    (posts : ∀ id, left.posts.find? id = right.posts.find? id) (hub : left.hub = right.hub)
    : left = right := by
  have posts := OrderedMap.ext posts
  cases left
  cases right
  cases sequence
  cases posts
  cases hub
  rfl

/-- Of two changes of a message the later one stays. -/
theorem put_put (board : Board) (id : MessageId) (first second : Post)
    : (board.put id first).put id second = board.put id second := by
  refine ext rfl (fun other => ?_) rfl
  simp only [put, OrderedMap.find?_insert]
  split <;> rfl

/-- Whether a message is cleared before another one is posted or after that does not matter. -/
theorem clear_post {board : Board} {fails : Bool} {previous : Option MessageId}
    (other : previous ≠ some (MessageId.mint now board.sequence)) (post : Post)
    : (board.clear fails previous).post now post
      = (board.post now post).clear fails previous := by
  have cleared := board.sequence_clear fails previous
  have after := (board.post now post).sequence_clear fails previous
  refine ext ?_ (fun id => ?_) ?_
  · rw [after.1]
    exact congrArg (· + 1) cleared.1
  · rw [find?_post, find?_clear, find?_clear, find?_post, cleared.1]
    by_cases new : MessageId.mint now board.sequence = id
    · subst new
      simp [other]
    · simp [new]
  · rw [after.2]
    exact cleared.2

/-- Nor does it matter for several messages, by induction over the messages. -/
theorem clear_postAll {board : Board} {fails : Bool} {previous : Option MessageId}
    (old : ∀ id ∈ previous, id.number < board.sequence) {posts : List Post}
    (few : board.sequence + posts.length ≤ MessageId.sequences)
    : (board.clear fails previous).postAll now posts
      = (board.postAll now posts).clear fails previous := by
  induction posts using List.reverseRecOn with
  | nil => rfl
  | append_singleton posts last ih =>
      rw [List.length_append, List.length_singleton] at few
      rw [postAll_concat, postAll_concat, ih (by omega)]
      refine clear_post (fun same => ?_) last
      have bound := old _ same
      rw [sequence_postAll, MessageId.number_mint (by omega)] at bound
      omega

/-- When a message is posted before some others instead of after them, it gets the first identifier
and each of the others the next one, by induction over the others.
-/
theorem find?_postAll_renamed {board : Board} {posts : List Post}
    (few : board.sequence + posts.length < MessageId.sequences) (notice : Post) (id : MessageId)
    : ((board.post now notice).postAll now posts).posts.find?
          (MessageId.lastFirst now board.sequence posts.length id)
      = ((board.postAll now posts).post now notice).posts.find? id := by
  induction posts using List.reverseRecOn generalizing id with
  | nil => rfl
  | append_singleton posts last ih =>
      have size : (posts ++ [last]).length = posts.length + 1 := by simp
      rw [size] at few ⊢
      have ih := ih (by omega)
      have before : ((board.post now notice).postAll now posts).sequence
          = board.sequence + (posts.length + 1) := by
        rw [sequence_postAll]
        change board.sequence + 1 + posts.length = _
        omega
      have after : ((board.postAll now posts).post now last).sequence
          = board.sequence + (posts.length + 1) :=
        congrArg (· + 1) (sequence_postAll board posts)
      rw [postAll_concat, postAll_concat, find?_post, find?_post, find?_post, before, after,
        sequence_postAll]
      by_cases isNotice : MessageId.mint now (board.sequence + (posts.length + 1)) = id
      · -- The notice is in the first place, however many others there are.
        subst isNotice
        have earlier := ih (MessageId.mint now (board.sequence + posts.length))
        rw [find?_post, sequence_postAll, if_pos rfl, MessageId.lastFirst_last] at earlier
        rw [MessageId.lastFirst_last, if_pos rfl, if_neg, earlier]
        exact MessageId.mint_ne few (by omega) (by omega)
      · rw [if_neg isNotice]
        by_cases isLast : MessageId.mint now (board.sequence + posts.length) = id
        · subst isLast
          rw [MessageId.lastFirst_last_but_one few, if_pos rfl, if_pos rfl]
        · have earlier := ih id
          rw [find?_post, sequence_postAll, if_neg isLast] at earlier
          rw [MessageId.lastFirst_succ_of_ne (Ne.symm isLast) (Ne.symm isNotice), if_neg isLast,
            if_neg (MessageId.lastFirst_ne_next few (Ne.symm isNotice)).symm, earlier]

/-- Messages that were posted are on the board, by induction over them. -/
theorem isSome_find?_postAll {board : Board} {posts : List Post} {i : Nat}
    (posted : i < posts.length)
    : ((board.postAll now posts).posts.find? (MessageId.mint now (board.sequence + i))).isSome := by
  induction posts using List.reverseRecOn with
  | nil => cases posted
  | append_singleton posts last ih =>
      rw [List.length_append, List.length_singleton] at posted
      rw [postAll_concat, find?_post, sequence_postAll]
      split
      · rfl
      · next earlier =>
        have apart : i ≠ posts.length := fun same => earlier (by rw [same])
        exact ih (by omega)

/-- Nor does it matter for a writing. -/
theorem clear_write {board : Board} {fails : Bool} {previous : Option MessageId}
    (old : ∀ id ∈ previous, id.number < board.sequence) {writing : Writing}
    (few : board.sequence + writing.posts.length ≤ MessageId.sequences)
    : (board.clear fails previous).write now writing
      = (board.write now writing).clear fails previous := by
  have cleared := board.sequence_clear fails previous
  have after := (board.write now writing).sequence_clear fails previous
  have posted
      : (board.clear fails previous).postAll now writing.posts
        = (board.postAll now writing.posts).clear fails previous := clear_postAll old few
  refine ext ?_ (fun id => ?_) ?_
  · rw [after.1]
    change ((board.clear fails previous).postAll now writing.posts).sequence
      = (board.postAll now writing.posts).sequence
    rw [sequence_postAll, sequence_postAll, cleared.1]
  · rw [find?_clear]
    change ((board.clear fails previous).postAll now writing.posts).posts.find? id
      = ((board.postAll now writing.posts).posts.find? id).map _
    rw [posted, find?_clear]
  · rw [after.2]
    change (board.clear fails previous).heard writing
        (MessageId.mint now (board.clear fails previous).sequence)
      = board.heard writing (MessageId.mint now board.sequence)
    unfold heard
    rw [cleared.1, cleared.2]

/-- Two boards that came of one board are the same but for the identifiers of messages that were
posted since, and reactions that one hub has heard on a message the other one has heard on the
renamed message.
-/
structure RenamedBy (rename : Equiv.Perm MessageId) (before left right : Board) : Prop where
  /-- Only messages that were posted since are renamed. -/
  moves
    : ∀ id, rename id ≠ id → before.posts.find? id = none ∧ (left.posts.find? id).isSome
  sequence : right.sequence = left.sequence
  posts : ∀ id, right.posts.find? (rename id) = left.posts.find? id
  hub
    : right.hub = left.hub
      ∨ ∃ kept prompt,
        left.hub = before.hub.afterWait kept prompt
        ∧ right.hub = before.hub.afterWait kept (rename prompt)

theorem RenamedBy.refl (before board : Board)
    : RenamedBy (.refl MessageId) before board board :=
  ⟨fun _ moved => absurd rfl moved, rfl, fun _ => rfl, .inl rfl⟩

/-- What is renamed when messages and a last one are posted was not there and is there now. -/
theorem posted_of_lastFirst_ne {board : Board}
    (fresh : ∀ id, (board.posts.find? id).isSome → id.number < board.sequence) {posts : List Post}
    (few : board.sequence + posts.length < MessageId.sequences) (last : Post) {id : MessageId}
    (moves : MessageId.lastFirst now board.sequence posts.length id ≠ id)
    : board.posts.find? id = none
      ∧ (((board.postAll now posts).post now last).posts.find? id).isSome := by
  obtain ⟨i, bound, rfl⟩ := MessageId.exists_of_lastFirst_ne moves
  constructor
  · by_contra some
    have number := fresh _ (Option.isSome_iff_ne_none.mpr some)
    rw [MessageId.number_mint (by omega)] at number
    omega
  · rw [find?_post, sequence_postAll]
    split
    · rfl
    · next earlier =>
      have apart : i ≠ posts.length := fun same => earlier (by rw [same])
      exact isSome_find?_postAll (by omega)

/-- When a message is posted before a writing instead of after it, reactions that are heard on the
first message of the writing are heard on the renamed one.
-/
theorem heard_renamed {board : Board} {writing : Writing}
    (few : board.sequence + writing.posts.length < MessageId.sequences) (notice : Post)
    : ((board.post now notice).write now writing).hub = (board.write now writing).hub
      ∨ ∃ kept prompt,
        (board.write now writing).hub = board.hub.afterWait kept prompt
        ∧ ((board.post now notice).write now writing).hub
          = board.hub.afterWait kept
            (MessageId.lastFirst now board.sequence writing.posts.length prompt) := by
  change (board.post now notice).heard writing (MessageId.mint now (board.sequence + 1))
      = board.heard writing (MessageId.mint now board.sequence)
    ∨ ∃ kept prompt,
      board.heard writing (MessageId.mint now board.sequence) = board.hub.afterWait kept prompt
      ∧ (board.post now notice).heard writing (MessageId.mint now (board.sequence + 1))
        = board.hub.afterWait kept _
  have prompted := writing.prompted
  unfold heard
  cases heard : writing.heard with
  | none => exact .inl rfl
  | some kept =>
      rw [heard] at prompted
      have several : 0 < writing.posts.length := List.length_pos_iff.mpr (prompted rfl)
      refine .inr ⟨kept, MessageId.mint now board.sequence, rfl, ?_⟩
      rw [MessageId.lastFirst_first several few]
      rfl

/-- A message that is posted in place of another one before a writing instead of after it gets the
first of the new identifiers, and no more comes of it.
-/
theorem write_renamed {board : Board} {fails : Bool} {previous : Option MessageId}
    (fresh : ∀ id, (board.posts.find? id).isSome → id.number < board.sequence)
    (there : ∀ id ∈ previous, (board.posts.find? id).isSome) {writing : Writing}
    (few : board.sequence + writing.posts.length < MessageId.sequences) (notice : Post)
    : RenamedBy (MessageId.lastFirst now board.sequence writing.posts.length) board
        (((board.write now writing).clear fails previous).post now notice)
        (((board.clear fails previous).post now notice).write now writing) := by
  have old (id : MessageId) (recorded : id ∈ previous) := fresh id (there id recorded)
  rw [← clear_write old (Nat.le_of_lt few)]
  obtain ⟨same, hub⟩ := board.sequence_clear fails previous
  have found (id : MessageId)
      : ((board.clear fails previous).posts.find? id).isSome = (board.posts.find? id).isSome := by
    rw [find?_clear, Option.isSome_map]
  generalize board.clear fails previous = base at same hub found
  rw [← same] at few fresh ⊢
  have fresh (id : MessageId) (some : (base.posts.find? id).isSome) : id.number < base.sequence :=
    fresh id (found id ▸ some)
  refine ⟨fun id moves => ?_, ?_, find?_postAll_renamed few notice, ?_⟩
  · obtain ⟨new, posted⟩ := posted_of_lastFirst_ne fresh few notice moves
    refine ⟨?_, posted⟩
    rw [← Option.isNone_iff_eq_none, ← Option.not_isSome, ← found id, new]
    rfl
  · change ((base.post now notice).postAll now writing.posts).sequence
      = (base.postAll now writing.posts).sequence + 1
    rw [sequence_postAll, sequence_postAll]
    change base.sequence + 1 + _ = _
    omega
  · rw [← hub]
    exact heard_renamed few notice

end Board

end Gatehouse
