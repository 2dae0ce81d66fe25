import Gatehouse.Text.Blank
import Gatehouse.Text.Numeral

/-! Numerals read back. The digits of a number stand for that number, with zeros in front of them
too, and a number below a power of ten fits in as many digits.
-/

namespace Gatehouse

/-- A digit has one of ten numbers. -/
theorem Numeral.digit_bounds {c : Char} (digit : isDigit c = true)
    : 48 ≤ c.toNat ∧ c.toNat ≤ 57 := by
  unfold isDigit digit? at digit
  split at digit
  · assumption
  · cases digit

/-- A digit is not a blank. -/
theorem Text.isBlank_of_isDigit {c : Char} (digit : Numeral.isDigit c = true)
    : isBlank c = false := by
  have bounds := Numeral.digit_bounds digit
  unfold isBlank
  simp only [Bool.or_eq_false_iff, Bool.and_eq_false_iff, decide_eq_false_iff_not,
    beq_eq_false_iff_ne]
  omega

namespace Numeral

/-- What begins with a digit is read as digits. -/
theorem readWord_of_digit {c : Char} {rest : List Char} (digit : isDigit c = true)
    : readWord (c :: rest) = readDigits 0 (c :: rest) := by
  unfold readWord
  split
  · next same => cases same
  · next same =>
    cases same
    cases digit
  · rfl

theorem ne_of_isDigit {c d : Char} (digit : isDigit c = true) (other : isDigit d = false)
    : c ≠ d := by
  rintro rfl
  rw [digit] at other
  cases other

/-- A numeral has a first digit, and is digits throughout. -/
theorem exists_digits (n : Nat)
    : ∃ c rest, digits n = c :: rest ∧ ∀ d ∈ c :: rest, isDigit d = true := by
  obtain ⟨c, rest, shown⟩ := List.exists_cons_of_ne_nil (digits_ne_nil n)
  exact ⟨c, rest, shown, fun d member => isDigit_of_mem (shown ▸ member)⟩

/-- A word is read back from its digits. -/
theorem readWord_digits (word : UInt64)
    : readWord (digits word.toNat) = .ok word := by
  have whole := readDigits_digits word
  obtain ⟨c, rest, shown, each⟩ := exists_digits word.toNat
  rw [shown] at whole ⊢
  rw [readWord_of_digit (each c List.mem_cons_self), whole]

-------------------------------------------------------------------------------
-- What digits stand for
-------------------------------------------------------------------------------

theorem value_append (start : Nat) (front back : List Char)
    : value start (front ++ back) = value (value start front) back := by
  simp [value, List.foldl_append]

theorem value_digitChar {d : Nat} (h : d < 10) (start : Nat)
    : value start [digitChar d] = start * 10 + d := by
  have char : ∀ d < 10, (digitChar d).toNat - 48 = d := by decide
  simp [value, char d h]

/-- The digits of a number stand for the number, by induction along them. -/
theorem value_digits (n : Nat)
    : value 0 (digits n) = n := by
  induction n using Nat.strongRecOn with
  | _ n ih =>
      unfold digits
      split
      · next small =>
        rw [value_digitChar small]
        omega
      · rw [value_append, ih (n / 10) (by omega), value_digitChar (Nat.mod_lt n (by decide))]
        omega

theorem value_zeros (width : Nat)
    : value 0 (List.replicate width '0') = 0 := by
  induction width with
  | zero => rfl
  | succ width ih =>
      rw [List.replicate_succ', value_append, ih]
      rfl

/-- Zeros in front of a number's digits make no difference to what they stand for. -/
theorem value_padded (width n : Nat)
    : value 0 (padded width n) = n := by
  rw [padded, value_append, value_zeros, value_digits]

theorem isDigit_of_mem_padded {width n : Nat} {c : Char} (member : c ∈ padded width n)
    : isDigit c = true := by
  rcases List.mem_append.mp member with zero | digit
  · rw [List.eq_of_mem_replicate zero]
    rfl
  · exact isDigit_of_mem digit

theorem exists_padded (width n : Nat)
    : ∃ c rest, padded width n = c :: rest ∧ ∀ d ∈ c :: rest, isDigit d = true := by
  have some_ : padded width n ≠ [] := List.append_ne_nil_of_right_ne_nil _ (digits_ne_nil n)
  obtain ⟨c, rest, shown⟩ := List.exists_cons_of_ne_nil some_
  exact ⟨c, rest, shown, fun d member => isDigit_of_mem_padded (shown ▸ member)⟩

-------------------------------------------------------------------------------
-- How many digits there are
-------------------------------------------------------------------------------

/-- A number below a power of ten has at most as many digits, by induction over the power. -/
theorem digits_length_le {n width : Nat} (small : n < Nat.pow 10 (width + 1))
    : (digits n).length ≤ width + 1 := by
  induction width generalizing n with
  | zero =>
      unfold digits
      rw [if_pos (by simpa using small)]
      exact Nat.le_refl 1
  | succ width ih =>
      unfold digits
      split
      · exact Nat.succ_le_succ (Nat.zero_le _)
      · rw [List.length_append]
        refine Nat.succ_le_succ (ih (Nat.div_lt_of_lt_mul ?_))
        calc n < Nat.pow 10 (width + 1) * 10 := small
          _ = 10 * Nat.pow 10 (width + 1) := Nat.mul_comm _ _

theorem padded_length {n width : Nat} (small : n < Nat.pow 10 (width + 1))
    : (padded (width + 1) n).length = width + 1 := by
  have short := digits_length_le small
  simp only [padded, List.length_append, List.length_replicate]
  omega

theorem length_le_padded (width n : Nat)
    : width ≤ (padded width n).length := by
  simp only [padded, List.length_append, List.length_replicate]
  omega

/-- A run of digits stands for a number below the power of ten of its length, by induction along
it.
-/
theorem value_lt {run : List Char} (each : ∀ c ∈ run, isDigit c = true) (start : Nat)
    : value start run < (start + 1) * Nat.pow 10 run.length := by
  induction run generalizing start with
  | nil => exact Nat.lt_of_lt_of_eq (Nat.lt_succ_self start) (Nat.mul_one _).symm
  | cons c rest ih =>
      have bounds := digit_bounds (each c List.mem_cons_self)
      have below := ih (fun d member => each d (List.mem_cons_of_mem c member))
        (start * 10 + (c.toNat - 48))
      have next : start * 10 + (c.toNat - 48) + 1 ≤ (start + 1) * 10 := by omega
      calc value start (c :: rest)
          < (start * 10 + (c.toNat - 48) + 1) * Nat.pow 10 rest.length := below
        _ ≤ (start + 1) * 10 * Nat.pow 10 rest.length := Nat.mul_le_mul_right _ next
        _ = (start + 1) * Nat.pow 10 (c :: rest).length := by
            rw [Nat.mul_assoc, Nat.mul_comm 10]
            rfl

end Numeral

end Gatehouse
