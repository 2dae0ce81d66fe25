/-! Decimal numerals: how natural numbers are written, and how a 64-bit word is read back with
the reason of a refusal. Reading what was written gives the number.
-/

namespace Gatehouse.Numeral

/-- The character of a decimal digit. -/
def digitChar (d : Nat) : Char := Char.ofNat (48 + d)

def digit? (c : Char) : Option Nat :=
  if 48 ≤ c.toNat ∧ c.toNat ≤ 57 then some (c.toNat - 48) else none

def isDigit (c : Char) : Bool := (digit? c).isSome

/-- The decimal digits of a number, most significant first and without leading zeros. -/
def digits (n : Nat) : List Char :=
  if n < 10 then [digitChar n]
  else digits (n / 10) ++ [digitChar (n % 10)]

def text (n : Nat) : String := String.ofList (digits n)

/-- The numeral of a number, with zeros in front up to a width. -/
def padded (width n : Nat) : List Char :=
  let written := digits n
  List.replicate (width - written.length) '0' ++ written

/-- The number that a run of digits stands for, after the value read so far. -/
def value (start : Nat) (digits : List Char) : Nat :=
  digits.foldl (fun n c => n * 10 + (c.toNat - 48)) start

/-- Why a text is not a 64-bit word. -/
inductive Fault
  | empty
  | invalidDigit
  | tooLarge
deriving DecidableEq, Repr

/-- The sentence that reports a refused numeral. -/
def Fault.message : Fault → String
  | .empty => "cannot parse integer from empty string"
  | .invalidDigit => "invalid digit found in string"
  | .tooLarge => "number too large to fit in target type"

/-- Read digits from the left; the first character that is no digit or passes 2^64 decides. -/
def readDigits (n : Nat) : List Char → Except Fault UInt64
  | [] => .ok (UInt64.ofNat n)
  | c :: rest =>
      match digit? c with
      | none => .error .invalidDigit
      | some d =>
          if n * 10 + d < Nat.pow 2 64 then readDigits (n * 10 + d) rest
          else .error .tooLarge

/-- Read a 64-bit word: decimal digits, after at most one plus sign. -/
def readWord : List Char → Except Fault UInt64
  | [] => .error .empty
  | '+' :: rest => if rest.isEmpty then .error .invalidDigit else readDigits 0 rest
  | text => readDigits 0 text

/-- A digit's character stands for the digit. -/
theorem digit?_digitChar {d : Nat} (h : d < 10)
    : digit? (digitChar d) = some d := by
  have cases : d = 0 ∨ d = 1 ∨ d = 2 ∨ d = 3 ∨ d = 4 ∨ d = 5 ∨ d = 6 ∨ d = 7 ∨ d = 8 ∨ d = 9 := by
    omega
  rcases cases with rfl | rfl | rfl | rfl | rfl | rfl | rfl | rfl | rfl | rfl <;> rfl

/-- The characters of a numeral are digits, by induction along the digits. -/
theorem isDigit_of_mem {n : Nat} {c : Char} (member : c ∈ digits n)
    : isDigit c = true := by
  have written {d : Nat} (small : d < 10) : isDigit (digitChar d) = true := by
    simp [isDigit, digit?_digitChar small]
  induction n using Nat.strongRecOn with
  | _ n ih =>
      unfold digits at member
      split at member
      · next small =>
        cases List.mem_singleton.mp member
        exact written small
      · rcases List.mem_append.mp member with before | last
        · exact ih (n / 10) (by omega) before
        · cases List.mem_singleton.mp last
          exact written (Nat.mod_lt n (by decide))

theorem digits_ne_nil (n : Nat)
    : digits n ≠ [] := by
  unfold digits
  split <;> simp

/-- A numeral begins with zero only when it is zero, by induction along the digits. -/
theorem eq_zero_of_digits_head {n : Nat} (h : (digits n).head? = some '0')
    : n = 0 := by
  induction n using Nat.strongRecOn with
  | _ n ih =>
      unfold digits at h
      split at h
      · next small =>
        have all : ∀ d < 10, (([digitChar d] : List Char).head? = some '0') → d = 0 := by decide
        exact all n small h
      · next large =>
        obtain ⟨first, rest, begins⟩ := List.exists_cons_of_ne_nil (digits_ne_nil (n / 10))
        have := ih (n / 10) (by omega) (by simpa [begins] using h)
        omega

/-- Reading a numeral's digits and then more text continues from the number, by induction
along the digits.
-/
theorem readDigits_digits_append {n : Nat} (h : n < Nat.pow 2 64) (rest : List Char)
    : readDigits 0 (digits n ++ rest) = readDigits n rest := by
  induction n using Nat.strongRecOn generalizing rest with
  | _ n ih =>
      unfold digits
      split
      · next small =>
        simp only [List.singleton_append, readDigits, digit?_digitChar small, Nat.zero_mul,
          Nat.zero_add]
        rw [if_pos h]
      · next large =>
        rw [List.append_assoc, ih (n / 10) (by omega) (by omega)]
        simp only [List.singleton_append, readDigits,
          digit?_digitChar (Nat.mod_lt n (by omega : 0 < 10))]
        have whole : n / 10 * 10 + n % 10 = n := by omega
        rw [whole, if_pos h]

/-- The digits of a word read back as the word. -/
theorem readDigits_digits (word : UInt64)
    : readDigits 0 (digits word.toNat) = .ok word := by
  have := readDigits_digits_append word.toNat_lt []
  simpa [readDigits] using this

end Gatehouse.Numeral
