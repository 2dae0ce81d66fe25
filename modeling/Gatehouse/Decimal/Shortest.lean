import Gatehouse.Decimal.Binary
import Gatehouse.Text.Numeral

/-! The fewest decimal digits that identify a double. Of the grids of powers of ten, the coarsest
one with a point that rounds to the double is taken, and on it the point nearest to the value.
-/

namespace Gatehouse.Decimal

/-- A decimal `coefficient * 10 ^ exponent`. -/
structure Scaled where
  coefficient : Nat
  exponent : Int
deriving DecidableEq, Repr

namespace Scaled

def numerator (d : Scaled) : Nat := d.coefficient * Nat.pow 10 d.exponent.toNat

def denominator (d : Scaled) : Nat := Nat.pow 10 (-d.exponent).toNat

/-- The decimal written out, without an exponent. -/
def positional (d : Scaled) : List Char :=
  if 0 ≤ d.exponent then Numeral.digits (d.coefficient * Nat.pow 10 d.exponent.toNat)
  else
    let places := (-d.exponent).toNat
    let unit := Nat.pow 10 places
    Numeral.digits (d.coefficient / unit)
      ++ '.' :: Numeral.padded places (d.coefficient % unit)

end Scaled

namespace Binary

/-- The decimal lies in the interval of values that round to the double. The interval reaches
half a quantum up and down, below a power of two only a quarter down, and has its ends when the
significand is even.
-/
def covers (x : Binary) (d : Scaled) : Bool :=
  let below := if x.significand = Nat.pow 2 52 ∧ x.exponent > -1074 then 1 else 2
  let scale := 4 * x.denominator
  let quantum := Nat.pow 2 x.exponent.toNat
  let low := (4 * x.significand - below) * quantum * d.denominator
  let high := (4 * x.significand + 2) * quantum * d.denominator
  let point := d.numerator * scale
  if x.significand % 2 = 0 then low ≤ point && point ≤ high
  else low < point && point < high

/-- The grid point at or below the value, on the grid of a power of ten. -/
def gridFloor (x : Binary) (exponent : Int) : Nat :=
  x.numerator * Nat.pow 10 (-exponent).toNat / (x.denominator * Nat.pow 10 exponent.toNat)

/-- Of the two grid points around the value, the one that identifies the double; of two, the
nearer one, the even one from the middle.
-/
def onGrid? (x : Binary) (exponent : Int) : Option Scaled :=
  let floor := x.gridFloor exponent
  let lower : Scaled := ⟨floor, exponent⟩
  let upper : Scaled := ⟨floor + 1, exponent⟩
  match x.covers lower, x.covers upper with
  | false, false => none
  | true, false => some lower
  | false, true => some upper
  | true, true =>
      let doubled := 2 * (x.numerator * Nat.pow 10 (-exponent).toNat)
      let middle := (2 * floor + 1) * (x.denominator * Nat.pow 10 exponent.toNat)
      if doubled < middle ∨ (doubled = middle ∧ floor % 2 = 0) then some lower else some upper

/-- Search the grids from a power of ten downward. -/
def searchGrids (x : Binary) (top : Int) : Nat → Option Scaled
  | 0 => none
  | steps + 1 =>
      match x.onGrid? top with
      | some d => some d
      | none => x.searchGrids (top - 1) steps

/-- The shortest decimal of a value that is not zero. Every double is below 10^309, and a grid
of 10^-343 has a point for each.
-/
def shortest (x : Binary) : Scaled :=
  (x.searchGrids 309 653).getD ⟨0, 0⟩

end Binary

/-- The plain text of a double: the shortest digits, never with an exponent, and no decimal
point for a whole number.
-/
def plainText (x : Float) : List Char :=
  match magnitude x with
  | .nan => "NaN".toList
  | .infinite => (if isNegative x then "-inf" else "inf").toList
  | .finite value =>
      let digits := if value.significand = 0 then ['0'] else value.shortest.positional
      if isNegative x then '-' :: digits else digits

end Gatehouse.Decimal
