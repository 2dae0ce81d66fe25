import Gatehouse.Decimal.Binary
import Gatehouse.Text.Numeral

/-! Doubles with a fixed number of decimal places. The exact value is rounded to the nearest
multiple of the last place, and a value in the middle goes to the even neighbour.
-/

namespace Gatehouse.Decimal

/-- The whole number nearest to a quotient, the even one from the middle. -/
def roundQuotient (numerator denominator : Nat) : Nat :=
  let floor := numerator / denominator
  let rest := 2 * (numerator % denominator)
  if rest < denominator ∨ (rest = denominator ∧ floor % 2 = 0) then floor else floor + 1

/-- Rounding moves a quotient by at most a half. -/
theorem roundQuotient_near {numerator denominator : Nat} (h : 0 < denominator)
    : 2 * numerator ≤ 2 * (roundQuotient numerator denominator * denominator) + denominator
      ∧ 2 * (roundQuotient numerator denominator * denominator)
        ≤ 2 * numerator + denominator := by
  have whole := Nat.div_add_mod numerator denominator
  have rest := Nat.mod_lt numerator h
  rw [Nat.mul_comm] at whole
  simp only [roundQuotient]
  split
  · constructor <;> omega
  · rw [Nat.add_mul]
    constructor <;> omega

/-- The text of a value with so many places, at least one. -/
def Binary.fixedText (x : Binary) (places : Nat) : List Char :=
  let rounded := roundQuotient (x.numerator * Nat.pow 10 places) x.denominator
  Numeral.digits (rounded / Nat.pow 10 places)
    ++ '.' :: Numeral.padded places (rounded % Nat.pow 10 places)

/-- The text of a double with so many places, at least one. -/
def fixedText (x : Float) (places : Nat) : String :=
  let sign := if isNegative x then ['-'] else []
  match magnitude x with
  | .nan => "NaN"
  | .infinite => String.ofList (sign ++ "inf".toList)
  | .finite value => String.ofList (sign ++ value.fixedText places)

end Gatehouse.Decimal
