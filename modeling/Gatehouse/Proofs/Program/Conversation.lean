import Gatehouse.Proofs.Program.Course

/-! What a program says whatever it is answered. A conversation of a program is any sequence of
effects that it asks for, each with some answer, up to the value in which it ends; so what holds
of all its conversations holds in all surroundings, also in those that change between two
effects.
-/

namespace Gatehouse

namespace Program

variable {α β : Type}

/-- A conversation of a program: what it asks for and is answered, and the value in which it
ends.
-/
inductive Converses {α : Type} : Program α → List (Sigma Effect.Reply) → α → Prop
  | done (value : α) : Converses (.done value) [] value
  | request {effect : Effect} {next : effect.Reply → Program α} {reply : effect.Reply}
    {later : List (Sigma Effect.Reply)} {value : α} (rest : Converses (next reply) later value)
    : Converses (.request effect next) (⟨effect, reply⟩ :: later) value

namespace Converses

variable {said : List (Sigma Effect.Reply)} {result : β}

/-- A conversation of two programs in turn is one of the first and then one of the second, by
induction over the first program.
-/
theorem of_bind {p : Program α} {f : α → Program β} (whole : (p >>= f).Converses said result)
    : ∃ earlier value later,
        said = earlier ++ later
        ∧ p.Converses earlier value
        ∧ (f value).Converses later result := by
  induction p generalizing said with
  | done value => exact ⟨[], value, said, rfl, .done value, whole⟩
  | request effect next ih =>
      cases whole with
      | @request _ _ reply _ _ rest =>
          obtain ⟨earlier, value, later, rfl, first, second⟩ := ih reply rest
          exact ⟨⟨effect, reply⟩ :: earlier, value, later, rfl, .request first, second⟩

/-- A single request is all that is said. -/
theorem of_ask {effect : Effect} {reply : effect.Reply}
    (single : (ask effect).Converses said reply)
    : said = [⟨effect, reply⟩] := by
  cases single with
  | request rest =>
      cases rest
      rfl

theorem of_pure {value : α} {ended : α} (nothing : (pure value : Program α).Converses said ended)
    : said = [] ∧ ended = value := by
  cases nothing
  exact ⟨rfl, rfl⟩

/-- What a run says is a conversation, by induction over the program. -/
theorem of_trace {σ : Type} (handler : Handler σ) (p : Program α) (state : σ)
    : p.Converses (p.trace handler state) (p.run handler state).1 := by
  induction p generalizing state with
  | done value => exact .done value
  | request effect next ih => exact .request (ih _ _)

end Converses

-------------------------------------------------------------------------------
-- Programs that ask only for some effects
-------------------------------------------------------------------------------

/-- Whatever it is answered, a program asks only for effects of a kind. -/
def AsksOnly (allowed : Effect → Prop) (p : Program α) : Prop :=
  ∀ said value, p.Converses said value → ∀ exchange ∈ said, allowed exchange.1

namespace AsksOnly

variable {allowed : Effect → Prop}

theorem pure (value : α)
    : (Pure.pure value : Program α).AsksOnly allowed := by
  intro said ended nothing exchange member
  rw [nothing.of_pure.1] at member
  cases member

theorem ask {effect : Effect} (may : allowed effect)
    : (Program.ask effect).AsksOnly allowed := by
  intro said reply single exchange member
  rw [single.of_ask, List.mem_singleton] at member
  subst member
  exact may

/-- Programs in turn ask only for what each of them may ask for. -/
theorem bind {p : Program α} {f : α → Program β} (first : p.AsksOnly allowed)
    (second : ∀ value, (f value).AsksOnly allowed)
    : (p >>= f).AsksOnly allowed := by
  intro said result whole exchange member
  obtain ⟨earlier, value, later, rfl, before, after⟩ := whole.of_bind
  rcases List.mem_append.mp member with here | there
  · exact first earlier value before exchange here
  · exact second value later result after exchange there

/-- The first effect that a program asks for is one it may ask for. -/
theorem effect {effect : Effect} {next : effect.Reply → Program α}
    (only : (request effect next).AsksOnly allowed) {σ : Type} (handler : Handler σ) (state : σ)
    : allowed effect :=
  only _ _ (.of_trace handler _ state) ⟨effect, (handler effect state).1⟩ List.mem_cons_self

/-- What a program does after its first effect asks only for what the program may ask for. -/
theorem next {effect : Effect} {next : effect.Reply → Program α}
    (only : (request effect next).AsksOnly allowed) (reply : effect.Reply)
    : (next reply).AsksOnly allowed :=
  fun _ _ rest exchange member =>
    only _ _ (.request rest) exchange (List.mem_cons_of_mem _ member)

end AsksOnly

-------------------------------------------------------------------------------
-- What is picked from a conversation
-------------------------------------------------------------------------------

/-- The calls of a conversation, with their answers. -/
def exchangesOf (said : List (Sigma Effect.Reply)) : List Exchange :=
  said.filterMap Effect.exchange?

@[simp] theorem exchangesOf_nil
    : exchangesOf [] = [] := rfl

@[simp] theorem exchangesOf_append {said more : List (Sigma Effect.Reply)}
    : exchangesOf (said ++ more) = exchangesOf said ++ exchangesOf more :=
  List.filterMap_append

end Program

/-- An effect that is no call. -/
def Effect.IsInward : Effect → Prop
  | .call _ => False
  | _ => True

/-- A program that calls nobody has no calls in its conversations. -/
theorem Program.AsksOnly.exchangesOf_eq_nil {α : Type} {p : Program α}
    (inward : p.AsksOnly Effect.IsInward) {said : List (Sigma Effect.Reply)} {value : α}
    (conversation : p.Converses said value)
    : exchangesOf said = [] := by
  refine List.filterMap_eq_nil_iff.mpr fun exchange member => ?_
  have here := inward said value conversation exchange member
  obtain ⟨effect, reply⟩ := exchange
  cases effect with
  | call made => exact here.elim
  | _ => rfl

theorem Program.AsksOnly.exchanges {α : Type} {p : Program α}
    (inward : p.AsksOnly Effect.IsInward) (world : World)
    : p.exchanges world = [] :=
  inward.exchangesOf_eq_nil (.of_trace World.handle p world)

end Gatehouse
