import Gatehouse.Verification.Policy

/-! The batches of one pass: of all members, those who are due a warning and those who are due
removal.
-/

namespace Gatehouse

/-- What is done to the members of a batch. -/
inductive Action
  | assignPendingRole
  | remove
deriving DecidableEq, Repr

/-- Members who are due the same action. -/
structure Batch where
  action : Action
  members : OrderedSet MemberId
deriving DecidableEq

namespace Batch

def empty (action : Action) : Batch := ⟨action, ∅⟩

def size (batch : Batch) : Nat := batch.members.size

def isEmpty (batch : Batch) : Bool := batch.members.isEmpty

def contains (batch : Batch) (member : MemberId) : Bool := batch.members.contains member

end Batch

structure Classification where
  needsWarning : Batch
  needsRemoval : Batch
deriving DecidableEq

namespace Policy

/-- The identifiers of the members who are due something. -/
def whoIsDue (policy : Policy) (now : Instant) (members : List Member) (due : Due)
    : OrderedSet MemberId :=
  .ofList ((members.filter fun member => policy.due now member = due).map Member.id)

/-- The batches of a list of members at an instant. -/
def classify (policy : Policy) (now : Instant) (members : List Member) : Classification where
  needsWarning := ⟨.assignPendingRole, policy.whoIsDue now members .warning⟩
  needsRemoval := ⟨.remove, policy.whoIsDue now members .removal⟩

/-- An identifier is due something exactly when a member of the list with it is. -/
theorem mem_whoIsDue {policy : Policy} {now : Instant} {members : List Member} {due : Due}
    {id : MemberId}
    : id ∈ policy.whoIsDue now members due
      ↔ ∃ member ∈ members, policy.due now member = due ∧ member.id = id := by
  simp only [whoIsDue, OrderedSet.mem_ofList, List.mem_map, List.mem_filter, decide_eq_true_eq,
    and_assoc]

end Policy

end Gatehouse
