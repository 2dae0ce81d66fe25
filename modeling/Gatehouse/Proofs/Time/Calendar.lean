import Gatehouse.Time.Calendar

/-! Days and dates. Every number of a day is that of a date which the calendar has, and this date
has the number that it was made from.
-/

namespace Gatehouse.Date

-------------------------------------------------------------------------------
-- Parts of a day number
-------------------------------------------------------------------------------

/-- What a day number is taken apart into: the years before, in cycles of 400, 100, 4 and 1, and the
day's place in its own year, which begins in March.
-/
structure Parts where
  cycle : Int
  century : Nat
  group : Nat
  single : Nat
  inYear : Nat

namespace Parts

/-- The year that begins in March. -/
def year (parts : Parts) : Int :=
  400 * parts.cycle + (100 * parts.century + 4 * parts.group + parts.single : Nat)

/-- No cycle is longer than the next greater one lets it be. A day 365 is there only in the last
year of four, and in the last four of a century only when it is the last of 400 years.
-/
structure Proper (parts : Parts) : Prop where
  century : parts.century ≤ 3
  group : parts.group ≤ 24
  single : parts.single ≤ 3
  inYear : parts.inYear ≤ 365
  leap : parts.inYear = 365 → parts.single = 3 ∧ (parts.group = 24 → parts.century = 3)

/-- Days before a year, by its cycles. -/
theorem Proper.daysBefore {parts : Parts} (proper : parts.Proper)
    : 365 * parts.year + parts.year / 4 - parts.year / 100 + parts.year / 400
      = 146097 * parts.cycle
        + (36524 * parts.century + 1461 * parts.group + 365 * parts.single : Nat) := by
  obtain ⟨century, group, single, -, -⟩ := proper
  unfold year
  omega

/-- A year with a day 365 ends in a leap year. -/
theorem Proper.isLeapYear {parts : Parts} (proper : parts.Proper) (last : parts.inYear = 365)
    : isLeapYear (parts.year + 1) = true := by
  obtain ⟨century, group, -, -, leap⟩ := proper
  obtain ⟨single, whole⟩ := leap last
  simp only [Date.isLeapYear, Bool.or_eq_true, Bool.and_eq_true, beq_iff_eq, bne_iff_ne]
  unfold year
  by_cases four : parts.group = 24
  · have three := whole four
    omega
  · omega

end Parts

/-- Four parts of a length, of which the last may be longer by one: the number of full parts before,
and what is left.
-/
theorem four_parts {whole length : Nat} (short : whole ≤ 4 * length) (positive : 0 < length)
    : let before := min (whole / length) 3
      let left := whole - before * length
      before ≤ 3
        ∧ whole = length * before + left
        ∧ left ≤ length
        ∧ (left = length → before = 3) := by
  intro before left
  have parts := Nat.div_add_mod whole length
  have rest := Nat.mod_lt whole positive
  rcases Nat.lt_or_ge (whole / length) 4 with few | many
  · have same : before = whole / length := Nat.min_eq_left (Nat.le_of_lt_succ few)
    have behind : left = whole % length := by
      simp only [left, same, Nat.mul_comm _ length]
      omega
    rw [same, behind]
    exact ⟨Nat.le_of_lt_succ few, parts.symm, Nat.le_of_lt rest, fun all => by omega⟩
  · have reached : length * 4 ≤ whole :=
      Nat.le_trans (Nat.mul_le_mul_left length many) (Nat.mul_div_le whole length)
    have same : before = 3 := Nat.min_eq_right (by omega)
    have behind : left = length := by
      simp only [left, same]
      omega
    rw [same, behind]
    omega

def partsOf (number : Int) : Parts :=
  let shifted := number + 719468
  let inCycle := (shifted % 146097).toNat
  let century := min (inCycle / 36524) 3
  let inCentury := inCycle - century * 36524
  let group := inCentury / 1461
  let inGroup := inCentury - group * 1461
  let single := min (inGroup / 365) 3
  ⟨shifted / 146097, century, group, single, inGroup - single * 365⟩

/-- The parts of a number are proper and make it up. -/
theorem partsOf_spec (number : Int)
    : (partsOf number).Proper
      ∧ number + 719468
        = 146097 * (partsOf number).cycle
          + (36524 * (partsOf number).century + 1461 * (partsOf number).group
            + 365 * (partsOf number).single + (partsOf number).inYear : Nat) := by
  unfold partsOf
  dsimp only
  have cycles
      : ((number + 719468) % 146097).toNat ≤ 4 * 36524
        ∧ number + 719468
          = 146097 * ((number + 719468) / 146097) + ((number + 719468) % 146097).toNat := by
    omega
  generalize ((number + 719468) % 146097).toNat = inCycle at cycles ⊢
  have centuries := four_parts cycles.1 (by decide)
  dsimp only at centuries
  generalize min (inCycle / 36524) 3 = century at centuries ⊢
  generalize inCycle - century * 36524 = inCentury at centuries ⊢
  have groups
      : inCentury / 1461 ≤ 24
        ∧ inCentury = 1461 * (inCentury / 1461) + (inCentury - inCentury / 1461 * 1461)
        ∧ inCentury - inCentury / 1461 * 1461 ≤ 4 * 365 := by
    omega
  generalize inCentury - inCentury / 1461 * 1461 = inGroup at groups ⊢
  generalize inCentury / 1461 = group at groups ⊢
  have singles := four_parts groups.2.2 (by decide)
  dsimp only at singles
  generalize min (inGroup / 365) 3 = single at singles ⊢
  generalize inGroup - single * 365 = inYear at singles ⊢
  have leap (last : inYear = 365) : single = 3 ∧ (group = 24 → century = 3) := by omega
  exact ⟨⟨centuries.1, groups.1, singles.1, singles.2.2.1, leap⟩, by omega⟩

-------------------------------------------------------------------------------
-- Dates of day numbers
-------------------------------------------------------------------------------

/-- The date of a year's parts, the year counted from March. -/
def dateOf (year : Int) (inYear : Nat) : Date :=
  let month := (5 * inYear + 2) / 153
  let day := inYear - (153 * month + 2) / 5 + 1
  if month < 10 then ⟨year, month + 3, day⟩ else ⟨year + 1, month - 9, day⟩

theorem ofDayNumber_eq (number : Int)
    : ofDayNumber number = dateOf (partsOf number).year (partsOf number).inYear := by
  rfl

theorem dayNumber_dateOf {year : Int} {inYear : Nat} (inside : inYear ≤ 365)
    : (dateOf year inYear).dayNumber
      = 365 * year + year / 4 - year / 100 + year / 400 + inYear - 719468 := by
  unfold dateOf
  dsimp only
  have begins : (153 * ((5 * inYear + 2) / 153) + 2) / 5 ≤ inYear := by omega
  split
  · next early =>
    simp only [dayNumber, marchYear, marchMonth]
    rw [if_neg (by omega), if_neg (by omega)]
    omega
  · next late =>
    simp only [dayNumber, marchYear, marchMonth]
    rw [if_pos (by omega), if_pos (by omega)]
    omega

/-- Only February is not as long in every year. -/
theorem daysInMonth_of_ne {month : Nat} (other : month ≠ 2) (year : Int)
    : daysInMonth year month = daysInMonth 0 month := by
  simp only [daysInMonth, if_neg other]

theorem daysInMonth_le (year : Int) (month : Nat)
    : daysInMonth year month ≤ 31 := by
  unfold daysInMonth
  split <;> split <;> omega

theorem daysInMonth_february (year : Int)
    : daysInMonth year 2 = if isLeapYear year then 29 else 28 := by
  rfl

/-- The months from March to January are as long as the calendar has them. -/
theorem length_le_daysInMonth
    : ∀ month < 11,
        (153 * (month + 1) + 2) / 5 - (153 * month + 2) / 5
        ≤ daysInMonth 0 (if month < 10 then month + 3 else month - 9) := by
  decide

/-- The date of a year's parts is in the calendar, when a day 365 is the leap day. -/
theorem isValid_dateOf {year : Int} {inYear : Nat} (inside : inYear ≤ 365)
    (leap : inYear = 365 → isLeapYear (year + 1) = true)
    : (dateOf year inYear).IsValid := by
  obtain ⟨month, place⟩ : ∃ m, m = (5 * inYear + 2) / 153 := ⟨_, rfl⟩
  have months : month ≤ 11 := by omega
  have days
      : inYear - (153 * month + 2) / 5 + 1
        ≤ (153 * (month + 1) + 2) / 5 - (153 * month + 2) / 5 := by
    omega
  unfold dateOf IsValid
  dsimp only
  rw [← place]
  split
  · next early =>
    dsimp only
    refine ⟨by omega, by omega, by omega, Nat.le_trans days ?_⟩
    have length := length_le_daysInMonth month (by omega)
    rwa [if_pos early, ← daysInMonth_of_ne (by omega) year] at length
  · next late =>
    dsimp only
    refine ⟨by omega, by omega, by omega, ?_⟩
    obtain rfl | rfl : month = 10 ∨ month = 11 := by omega
    · exact days
    · rw [show 11 - 9 = 2 from rfl, daysInMonth_february]
      split
      · omega
      · next common =>
        have before : inYear ≠ 365 := fun last => common (leap last)
        omega

/-- The date of a number has that number. -/
theorem dayNumber_ofDayNumber (number : Int)
    : (ofDayNumber number).dayNumber = number := by
  obtain ⟨proper, whole⟩ := partsOf_spec number
  rw [ofDayNumber_eq, dayNumber_dateOf proper.inYear, proper.daysBefore]
  omega

theorem isValid_ofDayNumber (number : Int)
    : (ofDayNumber number).IsValid := by
  obtain ⟨proper, -⟩ := partsOf_spec number
  exact isValid_dateOf proper.inYear proper.isLeapYear

end Gatehouse.Date
