/-! The exact value of a double. A finite double is a whole number of quanta, each a power of
two; the double stands for the values between the middles of the gaps to its neighbours.
-/

namespace Gatehouse.Decimal

/-- A magnitude of the form `significand * 2 ^ exponent`. -/
structure Binary where
  significand : Nat
  exponent : Int
deriving DecidableEq, Repr

/-- What a double stands for, its sign apart. -/
inductive Magnitude
  | nan
  | infinite
  | finite (value : Binary)
deriving DecidableEq, Repr

/-- The sign bit of a double. -/
def isNegative (x : Float) : Bool :=
  Nat.pow 2 63 ≤ x.toBits.toNat

/-- The magnitude of a double, from its exponent field and its fraction field. -/
def magnitude (x : Float) : Magnitude :=
  let bits := x.toBits.toNat
  let field : Nat := bits / Nat.pow 2 52 % Nat.pow 2 11
  let fraction : Nat := bits % Nat.pow 2 52
  if field = Nat.pow 2 11 - 1 then
    if fraction = 0 then .infinite else .nan
  else if field = 0 then .finite ⟨fraction, -1074⟩
  else .finite ⟨fraction + Nat.pow 2 52, (field : Int) - 1075⟩

namespace Binary

/-- The numerator of the value as a quotient. -/
def numerator (x : Binary) : Nat := x.significand * Nat.pow 2 x.exponent.toNat

/-- The denominator of the value as a quotient, a power of two. -/
def denominator (x : Binary) : Nat := Nat.pow 2 (-x.exponent).toNat

end Binary

end Gatehouse.Decimal
