import Gatehouse.Proofs.Community.Answer

/-! All that can be done to a community from outside. Whatever is done, the hub stays in order,
and a kept reaction stays kept until a wait takes all that are kept.
-/

namespace Gatehouse

/-- Something done to a community: a call, a change of what is there or fails, or a step of a
wait.
-/
inductive Operation
  | call (call : Call)
  | join (member : Member)
  | failListing (failure : Option CallFailure)
  | failRoles (member : MemberId) (code : FailureCode)
  | failKick (member : MemberId) (code : FailureCode)
  | failDirect (member : MemberId)
  | failSends (fails : Bool)
  | failDeletes (fails : Bool)
  | setNow (now : Instant)
  | script (reaction : ScriptedReaction)
  | seed (channel : ChannelId) (content : String) (at_ : Instant)
  | file (report : Report)
  | publish (reaction : Reaction)
  | subscribe
  | beginWait (message : MessageId)
  | look (ticket : Nat) (wait : ReactionWait)
  | giveUp (ticket : Nat)

namespace Operation

/-- What an operation makes of a community. -/
def act : Operation → Community → Community
  | .call made, community => (community.answer made).2
  | .join member, community => community.addMember member
  | .failListing failure, community => community.failListing failure
  | .failRoles member code, community => community.failRoles member code
  | .failKick member code, community => community.failKick member code
  | .failDirect member, community => community.failDirect member
  | .failSends fails, community => community.failSends fails
  | .failDeletes fails, community => community.failDeletes fails
  | .setNow now, community => community.setNow now
  | .script reaction, community => community.script reaction
  | .seed channel content at_, community => (community.seed channel content at_).2
  | .file report, community => community.fileReport report
  | .publish reaction, community => (community.publish reaction).2
  | .subscribe, community => { community with hub := community.hub.subscribe.2 }
  | .beginWait message, community => (community.beginWait message).2
  | .look ticket wait, community => (community.look ticket wait).2
  | .giveUp ticket, community => community.giveUp ticket

/-- The reactions that an operation adds to those that are kept. -/
def scripts : Operation → List ScriptedReaction
  | .script reaction => [reaction]
  | _ => []

/-- The kept reactions that an operation takes: all of them when it begins a wait, and else none. -/
def takes : Operation → Community → List ScriptedReaction
  | .call (.awaitReaction _), community | .beginWait _, community => community.scripted
  | _, _ => []

end Operation

namespace Community

/-- The calls that begin no wait change neither the kept reactions nor the hub. -/
theorem answer_keeps (community : Community) {call : Call}
    (noWait : ∀ wait, call ≠ .awaitReaction wait)
    : (community.answer call).2.scripted = community.scripted
      ∧ (community.answer call).2.hub = community.hub := by
  have moves := community.answer_moves call
  generalize (community.answer call).2 = after at moves ⊢
  cases moves with
  | waited => exact absurd rfl (noWait _)
  | _ => exact ⟨rfl, rfl⟩

end Community

namespace Operation

/-- An operation leaves the hub in order. -/
theorem hub_sound_act (operation : Operation) {community : Community}
    (sound : community.hub.Sound)
    : (operation.act community).hub.Sound := by
  cases operation with
  | call call =>
      by_cases waits : ∃ wait, call = .awaitReaction wait
      · obtain ⟨wait, rfl⟩ := waits
        exact Community.hub_sound_await sound wait
      · have keeps := community.answer_keeps fun wait same => waits ⟨wait, same⟩
        unfold act
        rw [keeps.2]
        exact sound
  | publish reaction => exact sound.publish reaction
  | subscribe => exact sound.subscribe
  | beginWait message => exact sound.subscribe.publishAll _
  | look ticket wait => exact sound.look ticket wait
  | giveUp ticket => exact sound.unsubscribe ticket
  | _ => exact sound

/-- What an operation takes and what it leaves kept is what was kept and what it adds, in order. -/
theorem takes_append_scripted (operation : Operation) (community : Community)
    : operation.takes community ++ (operation.act community).scripted
      = community.scripted ++ operation.scripts := by
  cases operation with
  | call call =>
      by_cases waits : ∃ wait, call = .awaitReaction wait
      · obtain ⟨wait, rfl⟩ := waits
        have emptied : (community.await wait).2.scripted = [] := by rw [community.await_eq]
        change community.scripted ++ (community.await wait).2.scripted = _
        rw [emptied]
        rfl
      · have keeps := community.answer_keeps fun wait same => waits ⟨wait, same⟩
        have takes : (Operation.call call).takes community = [] := by
          cases call with
          | awaitReaction wait => exact absurd ⟨wait, rfl⟩ waits
          | _ => rfl
        rw [takes]
        unfold act
        rw [keeps.1]
        exact (List.append_nil _).symm
  | script reaction => rfl
  | beginWait message => rfl
  | _ => exact (List.append_nil _).symm

end Operation

namespace Community

/-- The communities that come about: an empty one, and what any operations make of it. -/
inductive Attained : Community → Prop
  | empty (now : Instant) : Attained (.empty now)
  | act {community : Community} (earlier : Attained community) (operation : Operation)
    : Attained (operation.act community)

/-- The hub of a community that has come about is in order, by induction over the operations. -/
theorem Attained.hub_sound {community : Community} (attained : community.Attained)
    : community.hub.Sound := by
  induction attained with
  | empty now => exact ReactionHub.sound_standard
  | act earlier operation ih => exact operation.hub_sound_act ih

end Community

end Gatehouse
