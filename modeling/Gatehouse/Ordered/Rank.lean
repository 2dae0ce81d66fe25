/-! Types whose values are told apart and put in order by a natural number. Ordered sets and
ordered maps keep their keys by rank, so two of them with the same members are equal.
-/

namespace Gatehouse

/-- A type whose values a natural number tells apart and puts in order. -/
class Ranked (α : Type) where
  rank : α → Nat
  rank_injective : ∀ {a b : α}, rank a = rank b → a = b

export Ranked (rank)

/-- Two values of a ranked type are equal exactly when their ranks are. -/
theorem rank_inj {α : Type} [Ranked α] {a b : α}
    : rank a = rank b ↔ a = b :=
  ⟨Ranked.rank_injective, fun h => h ▸ rfl⟩

instance : Ranked Nat where
  rank := id
  rank_injective := id

end Gatehouse
