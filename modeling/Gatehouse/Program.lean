import Gatehouse.Community.Call
import Gatehouse.Journal
import Gatehouse.Store

/-! Programs of the service. A program is what the service does next: it has finished, or it asks
its surroundings for one effect and goes on with the answer. What answers the effects, and what
happens between two of them, is left open.
-/

namespace Gatehouse

/-- What a program can ask of its surroundings. -/
inductive Effect
  | call (call : Call)
  | file (report : Report)
  | clock
  | load (key : String)
  | save (key value : String)
  | log (entry : Journal.Entry)

abbrev Effect.Reply : Effect → Type
  | .call c => c.Reply
  | .file _ => Outcome Unit
  | .clock => Instant
  | .load _ => Except StoreFault (Option String)
  | .save .. => Except StoreFault Unit
  | .log _ => Unit

/-- A course of action that ends in a value. -/
inductive Program (α : Type)
  | done (value : α)
  | request (effect : Effect) (next : effect.Reply → Program α)

namespace Program

variable {α β γ : Type}

/-- Go on with a second program when the first has finished. -/
def bind : Program α → (α → Program β) → Program β
  | done value, f => f value
  | request effect next, f => request effect fun reply => (next reply).bind f

instance : Monad Program where
  pure := done
  bind := bind

def ask (effect : Effect) : Program effect.Reply :=
  request effect done

/-- A finished program goes on at once. -/
@[simp] theorem pure_bind (value : α) (f : α → Program β)
    : (pure value >>= f) = f value := rfl

/-- A program that asks goes on asking. -/
@[simp] theorem request_bind (effect : Effect) (next : effect.Reply → Program α)
    (f : α → Program β)
    : (request effect next >>= f) = request effect fun reply => next reply >>= f := rfl

/-- Going on with nothing changes nothing, by induction over the program. -/
theorem bind_pure (p : Program α)
    : p >>= pure = p := by
  induction p with
  | done value => rfl
  | request effect next ih => exact congrArg (request effect) (funext ih)

/-- Going on is associative, by induction over the first program. -/
theorem bind_assoc (p : Program α) (f : α → Program β) (g : β → Program γ)
    : p >>= f >>= g = p >>= fun value => f value >>= g := by
  induction p with
  | done value => rfl
  | request effect next ih => exact congrArg (request effect) (funext ih)

/-- Surroundings with a state: how they answer each effect and what they are afterwards. -/
abbrev Handler (σ : Type) := (effect : Effect) → σ → effect.Reply × σ

/-- Run a program to its end in surroundings that answer at once. -/
def run {σ : Type} (handler : Handler σ) : Program α → σ → α × σ
  | done value, state => (value, state)
  | request effect next, state =>
      let (reply, state) := handler effect state
      (next reply).run handler state

/-- Running one program and then another is running them in turn. -/
theorem run_bind {σ : Type} (handler : Handler σ) (p : Program α) (f : α → Program β)
    (state : σ)
    : (p >>= f).run handler state
      = (f (p.run handler state).1).run handler (p.run handler state).2 := by
  induction p generalizing state with
  | done value => rfl
  | request effect next ih => exact ih _ _

/-- The effects that a run asks for, in order, each with its answer. -/
def trace {σ : Type} (handler : Handler σ) : Program α → σ → List (Sigma Effect.Reply)
  | done _, _ => []
  | request effect next, state =>
      let (reply, state) := handler effect state
      ⟨effect, reply⟩ :: (next reply).trace handler state

/-- The effects of two programs in turn are those of the first and then those of the second. -/
theorem trace_bind {σ : Type} (handler : Handler σ) (p : Program α) (f : α → Program β)
    (state : σ)
    : (p >>= f).trace handler state
      = p.trace handler state
        ++ (f (p.run handler state).1).trace handler (p.run handler state).2 := by
  induction p generalizing state with
  | done value => rfl
  | request effect next ih => exact congrArg (_ :: ·) (ih _ _)

def call (c : Call) : Program c.Reply := ask (.call c)

def file (report : Report) : Program (Outcome Unit) := ask (.file report)

def now : Program Instant := ask .clock

/-- Read what the store holds under a key. -/
def load (key : String) : Program (Except StoreFault (Option String)) := ask (.load key)

/-- Set what the store holds under a key. -/
def save (key value : String) : Program (Except StoreFault Unit) := ask (.save key value)

def log (level : Journal.Level) (message : String) (fields : List (String × String))
    : Program Unit :=
  ask (.log ⟨level, message, fields⟩)

end Program

end Gatehouse
