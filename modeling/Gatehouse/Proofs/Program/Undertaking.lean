import Gatehouse.Proofs.Community.Operation
import Gatehouse.Proofs.Program.Course

/-! What a run does to a community. A run is made up of single operations and of programs, such as
passes, admissions and notices. All that a program does to the community is operations, so a run
is to the community a list of these; programs side by side only mix theirs.
-/

namespace Gatehouse

-------------------------------------------------------------------------------
-- Operations in turn
-------------------------------------------------------------------------------

namespace Operation

/-- What operations make of a community, one after the other. -/
def actAll (operations : List Operation) (community : Community) : Community :=
  operations.foldl (fun community operation => operation.act community) community

@[simp] theorem actAll_cons (operation : Operation) (later : List Operation)
    (community : Community)
    : actAll (operation :: later) community = actAll later (operation.act community) := rfl

@[simp] theorem actAll_append (earlier later : List Operation) (community : Community)
    : actAll (earlier ++ later) community = actAll later (actAll earlier community) :=
  List.foldl_append

/-- What holds between a community and what one operation makes of it holds of more operations too,
by induction over them.
-/
theorem actAll_of_act (Holds : Community → Community → Prop)
    (refl : ∀ community, Holds community community)
    (trans
      : ∀ {before middle after : Community},
          Holds before middle → Holds middle after → Holds before after)
    (act : ∀ (operation : Operation) community, Holds community (operation.act community))
    (operations : List Operation) (community : Community)
    : Holds community (actAll operations community) := by
  induction operations generalizing community with
  | nil => exact refl community
  | cons operation later ih => exact trans (act operation community) (ih _)

/-- Operations leave the hub in order. -/
theorem hub_sound_actAll (operations : List Operation) {community : Community}
    (sound : community.hub.Sound)
    : (actAll operations community).hub.Sound :=
  actAll_of_act (fun before after => before.hub.Sound → after.hub.Sound) (fun _ sound => sound)
    (fun first second sound => second (first sound)) (fun operation _ => operation.hub_sound_act)
    operations community sound

end Operation

-------------------------------------------------------------------------------
-- Programs as operations
-------------------------------------------------------------------------------

/-- The operation that an effect is to the community. What asks for the time, the store or the
journal is none.
-/
def Effect.operation? : Effect → Option Operation
  | .call made => some (.call made)
  | .file filed => some (.file filed)
  | .clock | .load _ | .save .. | .log _ => none

/-- An effect does to the community what its operation does, or nothing. -/
theorem World.community_handle (effect : Effect) (world : World)
    : (World.handle effect world).2.community
      = Operation.actAll effect.operation?.toList world.community := by
  cases effect with
  | call call =>
      obtain ⟨-, ⟨journal, after⟩, -⟩ := (Program.Course.call _ world.community call).ran world
      exact congrArg World.community after
  | _ => rfl

namespace Program

variable {α : Type}

/-- The operations that a program performs in a world, in order. -/
def operations (p : Program α) (world : World) : List Operation :=
  (p.trace World.handle world).filterMap fun asked => asked.1.operation?

/-- A program does to the community what its operations do, by induction over the program. -/
theorem community_run (p : Program α) (world : World)
    : (p.run World.handle world).2.community
      = Operation.actAll (p.operations world) world.community := by
  induction p generalizing world with
  | done value => rfl
  | request effect next ih =>
      have later := ih (World.handle effect world).1 (World.handle effect world).2
      rw [World.community_handle, ← Operation.actAll_append] at later
      have asked : (request effect next).operations world
          = effect.operation?.toList
            ++ (next (World.handle effect world).1).operations (World.handle effect world).2 := by
        change List.filterMap _ (_ :: _) = _
        rw [List.filterMap_cons]
        cases effect.operation? <;> rfl
      rw [asked]
      exact later

end Program

-------------------------------------------------------------------------------
-- Runs
-------------------------------------------------------------------------------

/-- What is undertaken in a run: an operation, or a program that is carried out at an instant. -/
inductive Undertaking : Type 1
  | operate (operation : Operation)
  | perform {α : Type} (program : Program α) (at_ : Instant)

namespace Undertaking

def apply (world : World) : Undertaking → World
  | operate operation => world.onCommunity operation.act
  | perform program at_ => (program.run World.handle { world with clock := at_ }).2

def operations (world : World) : Undertaking → List Operation
  | operate operation => [operation]
  | perform program at_ => program.operations { world with clock := at_ }

def run (world : World) (undertakings : List Undertaking) : World :=
  undertakings.foldl apply world

/-- The operations of a run, each undertaking in the world that it finds. -/
def operationsIn (world : World) : List Undertaking → List Operation
  | [] => []
  | undertaking :: later =>
      undertaking.operations world ++ operationsIn (undertaking.apply world) later

theorem community_apply (undertaking : Undertaking) (world : World)
    : (undertaking.apply world).community
      = Operation.actAll (undertaking.operations world) world.community := by
  cases undertaking with
  | operate operation => rfl
  | perform program at_ => exact program.community_run { world with clock := at_ }

/-- A run does to the community what its operations do, by induction over what is undertaken. -/
theorem community_run (world : World) (undertakings : List Undertaking)
    : (run world undertakings).community
      = Operation.actAll (operationsIn world undertakings) world.community := by
  induction undertakings generalizing world with
  | nil => rfl
  | cons undertaking later ih =>
      change (run (undertaking.apply world) later).community = _
      rw [ih, community_apply, ← Operation.actAll_append]
      rfl

end Undertaking

end Gatehouse
