import Gatehouse.Proofs.Reminder.Notice
import Gatehouse.Proofs.Service.Passing
import Gatehouse.Proofs.Verification.Approval

/-! Scenes: worlds whose store can be told to fail. A pass does not use the store, and posting the
notice ends well when the store and the messages do not fail.
-/

namespace Gatehouse

/-- A world whose store fails to be read or written if it is told to, with a fault that may tell the
key and the text.
-/
structure Scene where
  world : World
  loadFault : Option (String → StoreFault)
  saveFault : Option (String → String → StoreFault)

namespace Scene

/-- Answer an effect at once, or tell that the store fails. -/
def handle : Program.Handler Scene
  | .load key, scene =>
      match scene.loadFault with
      | some fault => (.error (fault key), scene)
      | none => (.ok (scene.world.store.get? key), scene)
  | .save key value, scene =>
      match scene.saveFault with
      | some fault => (.error (fault key value), scene)
      | none => (.ok (), { scene with world := scene.world.setStored key value })
  | effect, scene =>
      let (reply, world) := World.handle effect scene.world
      (reply, { scene with world := world })

/-- Nothing fails of what an effect needs of the store. -/
def Serves (scene : Scene) : Effect → Prop
  | .load _ => scene.loadFault = none
  | .save .. => scene.saveFault = none
  | _ => True

/-- An effect for which nothing fails is answered from the world. -/
theorem handle_eq {scene : Scene} {effect : Effect} (serves : scene.Serves effect)
    : handle effect scene
      = ((World.handle effect scene.world).1,
          { scene with world := (World.handle effect scene.world).2 }) := by
  obtain ⟨world, loadFault, saveFault⟩ := scene
  cases effect with
  | load key =>
      obtain rfl : loadFault = none := serves
      rfl
  | save key value =>
      obtain rfl : saveFault = none := serves
      rfl
  | _ => rfl

/-- A program for which nothing fails runs in a scene as in its world, by induction over the
program.
-/
theorem run_eq {α : Type} {p : Program α} {scene : Scene} (serves : p.AsksOnly scene.Serves)
    : p.run handle scene
        = ((p.run World.handle scene.world).1,
            { scene with world := (p.run World.handle scene.world).2 })
      ∧ p.trace handle scene = p.trace World.handle scene.world := by
  induction p generalizing scene with
  | done value => exact ⟨rfl, rfl⟩
  | request effect next ih =>
      have answered := handle_eq (serves.effect World.handle scene.world)
      obtain ⟨ran, said⟩ :=
        @ih _ { scene with world := (World.handle effect scene.world).2 } (serves.next _)
      unfold Program.run Program.trace
      rw [answered]
      exact ⟨ran, congrArg (_ :: ·) said⟩

end Scene

-------------------------------------------------------------------------------
-- A pass in a scene
-------------------------------------------------------------------------------

/-- A pass takes its course in a scene as well. -/
theorem Scene.run_pass (scene : Scene) {settings : ReconcileSettings} {sink : AuditSink}
    {result : Except SnapshotUnavailable PassReport} {after : Community} {made : List Exchange}
    (course
      : (settings.pass sink).Course scene.world.clock scene.world.community result after made)
    : ∃ journal,
        (settings.pass sink).run handle scene
          = (result,
              { scene with
                world := { scene.world with community := after, journal := journal } }) := by
  obtain ⟨ended, ⟨journal, left⟩, -⟩ := course.ran scene.world
  have serves : (settings.pass sink).AsksOnly scene.Serves :=
    ReconcileSettings.pass_asksOnly (fun _ => trivial) (fun _ => trivial) (fun _ => trivial)
      trivial settings sink
  have ran := (run_eq serves).1
  rw [ended, left] at ran
  exact ⟨journal, ran⟩

-------------------------------------------------------------------------------
-- A notice in a scene
-------------------------------------------------------------------------------

namespace ReminderSettings

/-- What comes of a notice that was posted or refused. -/
def conclude : Outcome MessageId → Program (Except ReminderFault MessageId)
  | .error failure => pure (.error (.send failure))
  | .ok sent => do
      match ← ReminderRecord.save sent with
      | .error fault => pure (.error (.store fault))
      | .ok _ =>
          Program.log .info "Sent verification reminder" [("message", sent.text)]
          pure (.ok sent)

/-- Delete the notice before and post the new one. -/
def renew (settings : ReminderSettings) (previous : Option MessageId)
    : Program (Except ReminderFault MessageId) := do
  settings.deletePrevious previous
  let posted ← Program.call (.send settings.channel settings.message)
  conclude posted

/-- Posting a notice reads the record first, and ends there when that fails. -/
theorem fire_eq (settings : ReminderSettings)
    : settings.fire
      = ReminderRecord.load >>= fun loaded =>
          match loaded with
          | .error fault => pure (.error (.store fault))
          | .ok previous => settings.renew previous := by
  refine congrArg (ReminderRecord.load >>= ·) (funext fun loaded => ?_)
  cases loaded with
  | error fault => rfl
  | ok previous =>
      refine congrArg (settings.deletePrevious previous >>= ·) (funext fun _ => ?_)
      refine congrArg (Program.call (.send settings.channel settings.message) >>= ·)
        (funext fun posted => ?_)
      cases posted with
      | error failure => rfl
      | ok sent => rfl

/-- What is said of a notice in the end posts nothing. -/
theorem conclude_silent (posted : Outcome MessageId)
    : (conclude posted).AsksOnly Effect.IsSilent := by
  cases posted with
  | error failure => exact .pure _
  | ok sent =>
      refine .bind (.ask trivial) fun saved => ?_
      cases saved with
      | error fault => exact .pure _
      | ok done => exact .bind (.ask trivial) fun _ => .pure _

end ReminderSettings

/-- When the messages that a conversation has posted say that they were posted. -/
def postTimes (said : List (Sigma Effect.Reply)) : List Instant :=
  (postedBy (sendsIn said)).map fun posted => posted.2.2.createdAt

/-- A message posted at an instant says the same time under any number. -/
theorem MessageId.createdAt_mint_eq (at_ : Instant) (number other : Nat)
    : (mint at_ number).createdAt = (mint at_ other).createdAt := by
  have millis (number : Nat)
      : (mint at_ number).word.toNat / sequences
        = millisSinceEpoch at_ % Nat.pow 2 42 := by
    have below : number % sequences < sequences := Nat.mod_lt _ (by decide)
    have split : (2 : Nat) ^ 64 = sequences * Nat.pow 2 42 := by decide
    unfold mint
    rw [UInt64.toNat_ofNat', split, Nat.mod_mul_right_div_self, Nat.mul_comm,
      Nat.mul_add_div (by decide), Nat.div_eq_of_lt below, Nat.add_zero]
  unfold createdAt unixMillis
  rw [millis, millis]

namespace Scene

/-- A notice can be posted: its record can be read, and messages do not fail. -/
def canPost (scene : Scene) : Bool :=
  scene.loadFault.isNone && !scene.world.community.sendsFail

/-- A notice can be posted and put on record. -/
def canRecord (scene : Scene) : Bool := scene.canPost && scene.saveFault.isNone

/-- The notice on record. -/
def stored? (scene : Scene) : Option MessageId := ReminderRecord.stored? scene.world.store

/-- What becomes of a board when a notice is posted, or refused once the one before was cleared. -/
def noticed (scene : Scene) (settings : ReminderSettings) (board : Board) : Board :=
  if scene.loadFault.isSome then board
  else
    let cleared := board.clear scene.world.community.deletesFail scene.stored?
    if scene.world.community.sendsFail then cleared
    else
      cleared.post scene.world.community.now
        ⟨settings.channel, settings.message, [], false, false⟩

/-- The store after a notice was posted or refused. -/
def recorded (scene : Scene) : Store :=
  if scene.canRecord then
    scene.world.store.set ReminderRecord.key
      (MessageId.mint scene.world.community.now scene.world.community.sequence).text
  else scene.world.store

/-- The record cannot be read. -/
theorem run_load_of_fault {scene : Scene} {fault : String → StoreFault}
    (fails : scene.loadFault = some fault)
    : ReminderRecord.load.run handle scene = (.error (fault ReminderRecord.key), scene) := by
  obtain ⟨world, loadFault, saveFault⟩ := scene
  obtain rfl : loadFault = some fault := fails
  rfl

/-- The record is read, and only the journal grows. -/
theorem run_load {scene : Scene} (loads : scene.loadFault = none)
    : ∃ journal,
        ReminderRecord.load.run handle scene
          = (.ok scene.stored?,
              { scene with world := { scene.world with journal := journal } }) := by
  obtain ⟨journal, loaded⟩ := ReminderRecord.load_run scene.world
  have serves : ReminderRecord.load.AsksOnly scene.Serves :=
    ReminderRecord.load_asksOnly loads fun _ => trivial
  have ran := (run_eq serves).1
  rw [loaded] at ran
  exact ⟨journal, ran⟩

/-- The notice before is cleared, and the new one is posted or refused; no other message is tried to
post.
-/
theorem run_renew (scene : Scene) (settings : ReminderSettings) (previous : Option MessageId)
    : let answered := (scene.world.community.clear previous).send settings.channel settings.message
      (∃ journal,
        (settings.renew previous).run handle scene
          = (ReminderSettings.conclude answered.1).run handle
              { scene with
                world := { scene.world with community := answered.2, journal := journal } })
      ∧ sendsIn ((settings.renew previous).trace handle scene)
        = [⟨.send settings.channel settings.message, answered.1⟩] := by
  intro answered
  obtain ⟨made, clearing⟩ :=
    settings.deletePrevious_course scene.world.clock scene.world.community previous
  obtain ⟨⟨journal, cleared⟩, -⟩ := clearing scene.world rfl rfl
  have serves : (settings.deletePrevious previous).AsksOnly scene.Serves :=
    settings.deletePrevious_asksOnly previous (fun _ => trivial) fun _ => trivial
  have silent : (settings.deletePrevious previous).AsksOnly Effect.IsSilent :=
    settings.deletePrevious_asksOnly previous (fun _ => rfl) fun _ => trivial
  have ran := (run_eq serves).1
  rw [cleared] at ran
  unfold ReminderSettings.renew
  constructor
  · refine ⟨journal, ?_⟩
    rw [Program.run_bind, ran]
    rfl
  · rw [Program.trace_bind, sendsIn_append, silent.sendsIn (.of_trace handle _ scene), ran,
      Program.trace_bind, sendsIn_append,
      (ReminderSettings.conclude_silent _).sendsIn (.of_trace handle _ _)]
    rfl

/-- A notice goes the way of its scene: it is posted and recorded if that does not fail, and only
the board, the store and the journal change.
-/
theorem run_fire (scene : Scene) (settings : ReminderSettings)
    : ∃ result journal,
        settings.fire.run handle scene
          = (result,
              { scene with
                world := { scene.world with
                  community := scene.world.community.onBoard
                    (scene.noticed settings scene.world.community.board)
                  store := scene.recorded
                  journal := journal } })
        ∧ result.isOk = scene.canRecord
        ∧ postTimes (settings.fire.trace handle scene)
          = if scene.canPost then [(MessageId.mint scene.world.community.now 0).createdAt]
            else [] := by
  rw [settings.fire_eq]
  have silent : ReminderRecord.load.AsksOnly Effect.IsSilent :=
    ReminderRecord.load_asksOnly trivial fun _ => trivial
  have reading := silent.sendsIn (.of_trace handle _ scene)
  unfold postTimes
  rw [Program.run_bind, Program.trace_bind, sendsIn_append, reading, List.nil_append]
  obtain ⟨world, loadFault, saveFault⟩ := scene
  let community := world.community
  cases loadFault with
  | some fault =>
      rw [run_load_of_fault rfl]
      exact ⟨.error (.store (fault ReminderRecord.key)), world.journal, rfl, rfl, rfl⟩
  | none =>
      let board := community.board.clear community.deletesFail
        (ReminderRecord.stored? world.store)
      obtain ⟨noted, loaded⟩ := run_load (rfl : (Scene.mk world none saveFault).loadFault = none)
      obtain ⟨⟨journal, renewed⟩, sent⟩ :=
        run_renew ⟨{ world with journal := noted }, none, saveFault⟩ settings
          (ReminderRecord.stored? world.store)
      have cleared
          : community.clear (ReminderRecord.stored? world.store) = community.onBoard board :=
        community.clear_onBoard community.board _
      have answered := community.send_onBoard board settings.channel settings.message
      have number : board.sequence = world.community.sequence :=
        (community.board.sequence_clear community.deletesFail _).1
      rw [loaded]
      unfold recorded canRecord canPost noticed stored?
      dsimp only at renewed sent ⊢
      rw [renewed, sent, cleared, answered]
      cases community.sendsFail with
      | true => exact ⟨_, journal, rfl, rfl, rfl⟩
      | false =>
          rw [← number, MessageId.createdAt_mint_eq world.community.now 0 board.sequence]
          cases saveFault with
          | some fault => exact ⟨_, journal, rfl, rfl, rfl⟩
          | none => exact ⟨_, _, rfl, rfl, rfl⟩

end Scene

end Gatehouse
