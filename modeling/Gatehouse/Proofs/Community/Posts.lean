import Gatehouse.Proofs.Community.Identifier
import Gatehouse.Proofs.Program.Undertaking
import Gatehouse.Proofs.Verification.Approval

/-! The messages of a community. Every message is posted under a number of its own until the
numbers of one millisecond are used up. Up to then nothing that is done takes a message away,
gives its place to another one or brings it back once it was deleted.
-/

namespace Gatehouse

/-- A message is posted under the running number, whenever it is posted. -/
theorem MessageId.number_mint {at_ : Instant} {sequence : Nat} (few : sequence < sequences)
    : (mint at_ sequence).number = sequence :=
  (number_mint_mod at_ sequence).trans (Nat.mod_eq_of_lt few)

namespace Community

/-- The messages of a community are there later on, those deleted still deleted, as long as
there are numbers for all that is posted.
-/
structure KeepsPosts (before after : Community) : Prop where
  sequence : before.sequence ≤ after.sequence
  posts
    : after.sequence ≤ MessageId.sequences
      → ∀ id post,
        id.number < before.sequence
        → before.posts.find? id = some post
        → ∃ later,
          after.posts.find? id = some later ∧ (post.deleted = true → later.deleted = true)

namespace KeepsPosts

variable {before middle after : Community}

/-- Nothing is done to messages that are the same. -/
theorem of_eq (sequence : after.sequence = before.sequence) (posts : after.posts = before.posts)
    : before.KeepsPosts after :=
  ⟨Nat.le_of_eq sequence.symm,
    fun _ _ post _ found => ⟨post, posts ▸ found, fun deleted => deleted⟩⟩

theorem refl (community : Community)
    : community.KeepsPosts community :=
  of_eq rfl rfl

/-- What keeps messages first and last keeps them. -/
theorem trans (first : before.KeepsPosts middle) (second : middle.KeepsPosts after)
    : before.KeepsPosts after := by
  refine ⟨Nat.le_trans first.sequence second.sequence, fun few id post numbered found => ?_⟩
  obtain ⟨between, there, deleted⟩ :=
    first.posts (Nat.le_trans second.sequence few) id post numbered found
  obtain ⟨later, present, still⟩ :=
    second.posts few id between (Nat.lt_of_lt_of_le numbered first.sequence) there
  exact ⟨later, present, fun gone => still (deleted gone)⟩

/-- A message changed in its place, and not brought back, keeps messages. -/
theorem insert {community : Community} {message : MessageId} {post changed : Post}
    (found : community.posts.find? message = some post)
    (still : post.deleted = true → changed.deleted = true)
    : community.KeepsPosts
        { community with posts := community.posts.insert message changed } := by
  refine ⟨Nat.le_refl _, fun few id former numbered there => ?_⟩
  simp only [OrderedMap.find?_insert]
  split
  · next same =>
    subst same
    rw [found] at there
    cases there
    exact ⟨changed, rfl, still⟩
  · exact ⟨former, there, fun deleted => deleted⟩

/-- A new message has a number that no earlier one has. -/
theorem seed (community : Community) (channel : ChannelId) (content : String) (at_ : Instant)
    : community.KeepsPosts (community.seed channel content at_).2 := by
  refine ⟨Nat.le_succ _, fun few id post numbered found => ⟨post, ?_, fun deleted => deleted⟩⟩
  have few : community.sequence < MessageId.sequences := few
  change (community.posts.insert (.mint at_ community.sequence) _).find? id = _
  rw [OrderedMap.find?_insert, if_neg, found]
  intro same
  rw [← same, MessageId.number_mint few] at numbered
  exact Nat.lt_irrefl _ numbered

/-- Whichever change a call makes, it keeps messages, the deletion of one too. -/
theorem of_moves {call : Call} (moves : before.Moves call after)
    : before.KeepsPosts after := by
  cases moves with
  | nothing => exact refl before
  | posted => exact seed before _ _ before.now
  | altered found channel still => exact insert found still
  | waited =>
      rw [before.await_eq]
      exact of_eq rfl rfl
  | recorded | removed | told => exact of_eq rfl rfl

theorem answer (community : Community) (call : Call)
    : community.KeepsPosts (community.answer call).2 :=
  of_moves (community.answer_moves call)

end KeepsPosts

end Community

-------------------------------------------------------------------------------
-- Programs and runs
-------------------------------------------------------------------------------

open Community (KeepsPosts)

/-- Whatever is done to a community from outside, it keeps messages. -/
theorem Operation.keepsPosts (operation : Operation) (community : Community)
    : community.KeepsPosts (operation.act community) := by
  cases operation with
  | call call => exact .answer community call
  | seed channel content at_ => exact .seed community channel content at_
  | _ => exact .of_eq rfl rfl

theorem Operation.keepsPosts_actAll (operations : List Operation) (community : Community)
    : community.KeepsPosts (actAll operations community) :=
  actAll_of_act KeepsPosts .refl .trans keepsPosts operations community

/-- Every program keeps messages, for what it does is operations. -/
theorem Program.run_keepsPosts {α : Type} (p : Program α) (world : World)
    : world.community.KeepsPosts (p.run World.handle world).2.community := by
  rw [p.community_run]
  exact Operation.keepsPosts_actAll _ _

/-- Whatever happens to a community keeps messages. -/
theorem Event.keepsPosts (event : Event) (world : World)
    : world.community.KeepsPosts (event.apply world).community := by
  cases event with
  | operate operation => exact operation.keepsPosts world.community
  | pass settings sink at_ =>
      exact (settings.pass sink).run_keepsPosts { world with clock := at_ }

/-- Whatever happens to a world, its store stays as it is, for passes do not write to it. -/
theorem Event.store_apply (event : Event) (world : World)
    : (event.apply world).store = world.store := by
  cases event with
  | operate operation => rfl
  | pass settings sink at_ =>
      obtain ⟨reports, journal, -, after⟩ :=
        (Round.mk settings sink { world with clock := at_ }).change.frame
      have stored := congrArg World.store after
      exact stored

end Gatehouse
