import Gatehouse.Proofs.Text.Numeral
import Gatehouse.Proofs.Time.Calendar
import Gatehouse.Time.Instant.Text

/-! Instants read back. Each field that is written is read as its number up to what stands behind
it, and the fields of an instant make it up again, so the reader of the free form, which allows much
more, reads an instant from its text: main statement `read?_text`. A leap second off the minute is
read as the second that follows, and it is the only thing that no text can tell: main statement
`representable_iff`.
-/

namespace Gatehouse

-------------------------------------------------------------------------------
-- Fields
-------------------------------------------------------------------------------

theorem Text.trimStart_cons {c : Char} (solid : isBlank c = false) (rest : List Char)
    : trimStart (c :: rest) = c :: rest :=
  List.dropWhile_cons_of_neg (by simp [solid])

namespace Instant

open Numeral

/-- A run of digits is read as what it stands for, up to a character that is none. -/
theorem readNumber_run {least most : Nat} {run rest : List Char}
    (digits : ∀ c ∈ run, isDigit c = true) (enough : least ≤ run.length)
    (fits : run.length ≤ most) (ends : ∀ c ∈ rest.head?, isDigit c = false)
    : readNumber least most (run ++ rest) = some (value 0 run, rest) := by
  have behind : (rest.take (most - run.length)).takeWhile isDigit = [] := by
    cases rest with
    | nil => simp
    | cons c rest =>
        have other : isDigit c = false := ends c rfl
        cases most - run.length with
        | zero => rfl
        | succ room => simp [other]
  have taken : ((run ++ rest).take most).takeWhile isDigit = run := by
    rw [List.take_append, List.take_of_length_le fits, List.takeWhile_append_of_pos digits, behind,
      List.append_nil]
  unfold readNumber
  simp only [taken, if_neg (Nat.not_lt.mpr enough), List.drop_left]

/-- A padded numeral is read as its number. -/
theorem readNumber_padded {least most width n : Nat} {rest : List Char}
    (small : n < Nat.pow 10 (width + 1)) (enough : least ≤ width + 1) (fits : width + 1 ≤ most)
    (ends : ∀ c ∈ rest.head?, isDigit c = false)
    : readNumber least most (padded (width + 1) n ++ rest) = some (n, rest) := by
  have length := padded_length small
  rw [readNumber_run (fun _ => isDigit_of_mem_padded) (by omega) (by omega) ends, value_padded]

/-- Before a padded numeral there is nothing to trim. -/
theorem trimStart_padded (width n : Nat) (rest : List Char)
    : Text.trimStart (padded width n ++ rest) = padded width n ++ rest := by
  obtain ⟨c, later, shown, each⟩ := exists_padded width n
  rw [shown]
  exact Text.trimStart_cons (Text.isBlank_of_isDigit (each c List.mem_cons_self)) _

/-- A field of two digits is read up to the mark behind it. -/
theorem readNumber_two {n : Nat} (small : n < 100) {rest : List Char}
    (ends : ∀ c ∈ rest.head?, isDigit c = false)
    : readNumber 1 2 (Text.trimStart (padded 2 n ++ rest)) = some (n, rest) := by
  rw [trimStart_padded]
  exact readNumber_padded small (by decide) (by decide) ends

theorem expect_mark {c : Char} (solid : Text.isBlank c = false) (rest : List Char)
    : expect c (Text.trimStart (c :: rest)) = some rest := by
  rw [Text.trimStart_cons solid]
  simp [expect]

-------------------------------------------------------------------------------
-- Years and fractions
-------------------------------------------------------------------------------

theorem exists_yearText (year : Int)
    : ∃ c later, yearText year = c :: later ∧ Text.isBlank c = false := by
  unfold yearText
  split
  · obtain ⟨c, later, shown, each⟩ := exists_padded 4 year.toNat
    exact ⟨c, later, shown, Text.isBlank_of_isDigit (each c List.mem_cons_self)⟩
  · split
    · exact ⟨'-', _, rfl, by decide⟩
    · exact ⟨'+', _, rfl, by decide⟩

/-- A year without a sign has at most four digits. -/
theorem readYear_of_digit {c : Char} (digit : isDigit c = true) (rest : List Char)
    : readYear (c :: rest)
      = (readNumber 1 4 (c :: rest)).map fun (n, rest) => ((n : Int), rest) := by
  unfold readYear
  split
  · next same =>
    cases same
    cases digit
  · next same =>
    cases same
    cases digit
  · rfl

/-- A year is read up to the dash behind it, by cases on how many digits and which sign it has. -/
theorem readYear_yearText (year : Int) (rest : List Char)
    : readYear (yearText year ++ '-' :: rest) = some (year, '-' :: rest) := by
  have ends : ∀ c ∈ ('-' :: rest).head?, isDigit c = false := by
    rintro c ⟨⟩
    rfl
  have signed
      : readNumber 1 (padded 4 year.natAbs ++ '-' :: rest).length
          (padded 4 year.natAbs ++ '-' :: rest)
        = some (year.natAbs, '-' :: rest) := by
    have enough := length_le_padded 4 year.natAbs
    rw [readNumber_run (fun _ => isDigit_of_mem_padded) (by omega) (by simp) ends, value_padded]
  unfold yearText
  split
  · next four =>
    have read
        : readNumber 1 4 (padded 4 year.toNat ++ '-' :: rest)
          = some (year.toNat, '-' :: rest) :=
      readNumber_padded (show year.toNat < 10000 by omega) (by decide) (by decide) ends
    obtain ⟨c, later, shown, each⟩ := exists_padded 4 year.toNat
    rw [shown, List.cons_append] at read ⊢
    rw [readYear_of_digit (each c List.mem_cons_self), read]
    simp only [Option.map_some, Int.toNat_of_nonneg four.1]
  · split
    · next negative =>
      have value : -(year.natAbs : Int) = year := by omega
      rw [List.cons_append, readYear, signed]
      simp only [Option.map_some, value]
    · next large =>
      have value : (year.natAbs : Int) = year := by omega
      rw [List.cons_append, readYear, signed]
      simp only [Option.map_some, value]

theorem fractionText_head (nano : Nat) (rest : List Char)
    : ∀ c ∈ (fractionText nano ++ 'Z' :: rest).head?, isDigit c = false := by
  unfold fractionText
  split
  · rintro c ⟨⟩
    rfl
  · split
    · rintro c ⟨⟩
      rfl
    · split <;> rintro c ⟨⟩ <;> rfl

/-- The fraction of a second is read as its nanoseconds, up to the letter of the zone. -/
theorem readFraction_fractionText {nano : Nat} (below : nano < 1000000000) (rest : List Char)
    : readFraction (fractionText nano ++ 'Z' :: rest) = some (nano, 'Z' :: rest) := by
  have places (width unit : Nat) {n : Nat} (small : n < Nat.pow 10 (width + 1)) (few : width < 9)
      (power : Nat.pow 10 (8 - width) = unit) (scaled : n * unit = nano)
      : readFraction ('.' :: padded (width + 1) n ++ 'Z' :: rest) = some (nano, 'Z' :: rest) := by
    have read : readNumber 1 9 (padded (width + 1) n ++ 'Z' :: rest) = some (n, 'Z' :: rest) :=
      readNumber_padded small (by omega) (by omega) (by simp; decide)
    have count
        : (padded (width + 1) n ++ 'Z' :: rest).length - ('Z' :: rest).length = width + 1 := by
      rw [List.length_append, padded_length small, Nat.add_sub_cancel]
    have steps : 9 - (width + 1) = 8 - width := by omega
    unfold readFraction
    simp only [List.cons_append, read, count, steps, power, scaled]
    rfl
  unfold fractionText
  split
  · next none_ =>
    subst none_
    rfl
  · split
    · exact places 2 1000000 (show nano / 1000000 < 1000 by omega) (by decide) rfl (by omega)
    · split
      · exact places 5 1000 (show nano / 1000 < 1000000 by omega) (by decide) rfl (by omega)
      · exact places 8 1 below (by decide) rfl (Nat.mul_one nano)

-------------------------------------------------------------------------------
-- The whole
-------------------------------------------------------------------------------

/-- What holds of digits and of the marks between fields holds of every character of a written date
and time of day.
-/
theorem forall_mem_clockText {p : Char → Prop} (digit : ∀ c, isDigit c = true → p c)
    (marks : ∀ c ∈ ['-', '+', 'T', ':', '.'], p c) (at_ : Instant)
    : ∀ c ∈ at_.clockText, p c := by
  have number (width n : Nat) : ∀ c ∈ padded width n, p c := fun c member =>
    digit c (isDigit_of_mem_padded member)
  have marked {mark : Char} (known : mark ∈ ['-', '+', 'T', ':', '.']) (width n : Nat)
      : ∀ c ∈ mark :: padded width n, p c :=
    List.forall_mem_cons.mpr ⟨marks mark known, number width n⟩
  have year (year : Int) : ∀ c ∈ yearText year, p c := by
    unfold yearText
    split
    · exact number 4 _
    · split <;> exact marked (by simp) 4 _
  have fraction (nano : Nat) : ∀ c ∈ fractionText nano, p c := by
    unfold fractionText
    split
    · exact nofun
    · split
      · exact marked (by simp) 3 _
      · split <;> exact marked (by simp) _ _
  unfold clockText
  simp only [List.forall_mem_append]
  exact ⟨⟨⟨⟨⟨⟨year _, marked (by simp) 2 _⟩, marked (by simp) 2 _⟩, marked (by simp) 2 _⟩,
    marked (by simp) 2 _⟩, marked (by simp) 2 _⟩, fraction _⟩

/-- A written date and time of day is read as its fields. -/
theorem read?_fields {year : Int} {month day hour minute second nano : Nat}
    (small : month < 100 ∧ day < 100 ∧ hour < 100 ∧ minute < 100 ∧ second < 100)
    (below : nano < 1000000000)
    : read? (yearText year ++ '-' :: (padded 2 month ++ '-' :: (padded 2 day
        ++ 'T' :: (padded 2 hour ++ ':' :: (padded 2 minute ++ ':' :: (padded 2 second
        ++ (fractionText nano ++ ['Z'])))))))
      = ofLocal? year month day hour minute second nano 0 := by
  obtain ⟨monthSmall, daySmall, hourSmall, minuteSmall, secondSmall⟩ := small
  have starts (rest : List Char)
      : Text.trimStart (yearText year ++ rest) = yearText year ++ rest := by
    obtain ⟨c, later, shown, solid⟩ := exists_yearText year
    rw [shown]
    exact Text.trimStart_cons solid _
  have seconds := readNumber_two secondSmall (fractionText_head nano [])
  have field {n : Nat} (small : n < 100) {mark : Char} (other : isDigit mark = false)
      (rest : List Char)
      : readNumber 1 2 (Text.trimStart (padded 2 n ++ mark :: rest)) = some (n, mark :: rest) :=
    readNumber_two small (by simpa using other)
  have dash (rest : List Char) := expect_mark (by decide : Text.isBlank '-' = false) rest
  have colon (rest : List Char) := expect_mark (by decide : Text.isBlank ':' = false) rest
  have zone : readZone (Text.trimStart ['Z']) = some (0, []) := rfl
  have nothing : (Text.trimStart []).isEmpty = true := rfl
  unfold read?
  rw [starts, readYear_yearText]
  simp only [Option.bind_eq_bind, Option.bind_some, dash, colon,
    field monthSmall (rfl : isDigit '-' = false), field daySmall (rfl : isDigit 'T' = false),
    readSeparator, field hourSmall (rfl : isDigit ':' = false),
    field minuteSmall (rfl : isDigit ':' = false), seconds, readFraction_fractionText below, zone,
    nothing, if_true]

-------------------------------------------------------------------------------
-- Leap seconds off the minute
-------------------------------------------------------------------------------

/-- The instant that a text tells for an instant. Second 60 is told for a leap second that ends a
minute; one behind any other second has no second of its own, and is told as the second that
follows.
-/
def settled (at_ : Instant) : Instant :=
  if astray : at_.isLeap = true ∧ at_.second % 60 ≠ 59 then
    { at_ with
      second := at_.second + 1
      nano := at_.nano - 1000000000
      second_lt := by
        have last := at_.second_lt
        omega
      nano_lt := Nat.lt_of_le_of_lt (Nat.sub_le _ _) at_.nano_lt }
  else at_

theorem settled_day (at_ : Instant)
    : at_.settled.day = at_.day := by
  unfold settled
  split <;> rfl

theorem settled_second (at_ : Instant)
    : at_.settled.second
      = if at_.isLeap = true ∧ at_.second % 60 ≠ 59 then at_.second + 1 else at_.second := by
  unfold settled
  split <;> rfl

theorem settled_nano (at_ : Instant)
    : at_.settled.nano
      = if at_.isLeap = true ∧ at_.second % 60 ≠ 59 then at_.nano - 1000000000 else at_.nano := by
  unfold settled
  split <;> rfl

/-- An instant is told as it is unless it lies in a leap second off the minute. -/
theorem settled_eq_iff {at_ : Instant}
    : at_.settled = at_ ↔ (at_.isLeap = true → at_.second % 60 = 59) := by
  constructor
  · intro same leap
    have moved := at_.settled_second
    rw [same] at moved
    by_cases ends : at_.second % 60 = 59
    · exact ends
    · rw [if_pos ⟨leap, ends⟩] at moved
      omega
  · intro ends
    exact dif_neg fun astray => astray.2 (ends astray.1)

/-- The fields of an instant make up what is told for it, by cases on the leap second that it lies
in.
-/
theorem ofLocal?_fields (at_ : Instant)
    : ofLocal? (Date.ofDayNumber at_.day).year (Date.ofDayNumber at_.day).month
        (Date.ofDayNumber at_.day).day (at_.second / 3600) (at_.second / 60 % 60)
        (at_.second % 60 + if at_.isLeap then 1 else 0) (at_.nano % 1000000000) 0
      = some at_.settled := by
  have bounds := at_.second_lt
  have nanos := at_.nano_lt
  have valid := Date.isValid_ofDayNumber at_.day
  have clock
      : (if (at_.second % 60 + if at_.isLeap then 1 else 0) = 60 then (59, 1000000000)
          else (at_.second % 60 + if at_.isLeap then 1 else 0, 0))
          = (at_.settled.second - at_.second / 60 * 60, at_.settled.nano / 1000000000 * 1000000000)
        ∧ at_.second / 60 * 60 ≤ at_.settled.second
        ∧ at_.settled.nano % 1000000000 = at_.nano % 1000000000 := by
    rw [settled_second, settled_nano]
    cases leaps : at_.isLeap with
    | true =>
        have long : 1000000000 ≤ at_.nano := of_decide_eq_true leaps
        by_cases ends : at_.second % 60 = 59
        · rw [if_pos rfl, if_pos (by omega), if_neg (by simp [ends]), if_neg (by simp [ends])]
          exact ⟨Prod.ext (by dsimp only; omega) (by dsimp only; omega), by omega, rfl⟩
        · rw [if_pos rfl, if_neg (by omega), if_pos ⟨rfl, ends⟩, if_pos ⟨rfl, ends⟩]
          exact ⟨Prod.ext (by dsimp only; omega) (by dsimp only; omega), by omega, by omega⟩
    | false =>
        have short : at_.nano < 1000000000 := Nat.not_le.mp (of_decide_eq_false leaps)
        rw [if_neg Bool.false_ne_true, if_neg (by omega), if_neg (by simp), if_neg (by simp)]
        exact ⟨Prod.ext (by dsimp only; omega) (by dsimp only; omega), by omega, rfl⟩
  obtain ⟨clock, since, fraction⟩ := clock
  have last := at_.settled.second_lt
  unfold ofLocal?
  dsimp only
  rw [Date.dayNumber_ofDayNumber,
    if_pos ⟨valid, at_.day_ge, at_.day_le, by omega, by omega, by split <;> omega, by decide⟩,
    clock, ← ofParts?_parts at_.settled, settled_day]
  congr 1 <;> omega

/-- Every instant is told by its text, on the minute and years with a sign too. -/
theorem read?_text (at_ : Instant)
    : read? at_.text.toList = some at_.settled := by
  obtain ⟨-, month, -, day⟩ := Date.isValid_ofDayNumber at_.day
  have days := Date.daysInMonth_le (Date.ofDayNumber at_.day).year (Date.ofDayNumber at_.day).month
  have bounds := at_.second_lt
  have small
      : (Date.ofDayNumber at_.day).month < 100
        ∧ (Date.ofDayNumber at_.day).day < 100
        ∧ at_.second / 3600 < 100
        ∧ at_.second / 60 % 60 < 100
        ∧ (at_.second % 60 + if at_.isLeap then 1 else 0) < 100 :=
    ⟨by omega, by omega, by omega, by omega, by split <;> omega⟩
  have read := (read?_fields small (Nat.mod_lt at_.nano (by decide))).trans (ofLocal?_fields at_)
  rw [text, String.toList_ofList, clockText]
  simpa only [List.append_assoc, List.cons_append] using read

-------------------------------------------------------------------------------
-- What texts can tell
-------------------------------------------------------------------------------

/-- A number is read from as many digits as stand before what is left. -/
theorem readNumber_spec {least most n : Nat} {text rest : List Char}
    (read : readNumber least most text = some (n, rest))
    : ∃ run, text = run ++ rest ∧ run.length ≤ most ∧ n < Nat.pow 10 run.length := by
  unfold readNumber at read
  dsimp only at read
  split at read
  · cases read
  · cases read
    have front := (List.takeWhile_prefix isDigit).trans (List.take_prefix most text)
    have few := (List.takeWhile_prefix (l := text.take most) isDigit).length_le
    have each := List.all_eq_true.mp (List.all_takeWhile (p := isDigit) (l := text.take most))
    exact ⟨_, (List.prefix_iff_eq_append.mp front).symm,
      Nat.le_trans few (List.length_take_le _ _), by simpa using value_lt each 0⟩

/-- The fraction of a second is read as less than a second. -/
theorem readFraction_lt {nano : Nat} {text rest : List Char}
    (read : readFraction text = some (nano, rest))
    : nano < 1000000000 := by
  unfold readFraction at read
  split at read
  · split at read
    · cases read
    · next digits n after number =>
      obtain ⟨run, rfl, few, small⟩ := readNumber_spec number
      have places : (run ++ after).length - after.length = run.length := by
        rw [List.length_append, Nat.add_sub_cancel]
      cases read
      rw [places]
      calc n * Nat.pow 10 (9 - run.length)
          < Nat.pow 10 run.length * Nat.pow 10 (9 - run.length) :=
            Nat.mul_lt_mul_of_pos_right small (Nat.pow_pos (by decide))
        _ = Nat.pow 10 (run.length + (9 - run.length)) := (Nat.pow_add 10 _ _).symm
        _ = 1000000000 := by rw [Nat.add_sub_cancel' few]
  · cases read
    decide

/-- An offset is read as whole minutes, by cases on the sign that it begins with. -/
theorem readOffset_whole {colon : List Char → Option (List Char)} {text rest : List Char}
    {offset : Int} (read : readOffset colon text = some (offset, rest))
    : offset % 60 = 0 := by
  unfold readOffset at read
  dsimp only at read
  split at read
  · cases read
    rfl
  · cases read
    rfl
  iterate 3
    simp only [Option.map_eq_some_iff, Prod.exists, Prod.mk.injEq, Option.bind_eq_bind,
      Option.bind_eq_some_iff] at read
    obtain ⟨seconds, _, ⟨hours, _, -, _, -, minutes, _, -, clock⟩, same, -⟩ := read
    split at clock
    · cases clock
      omega
    · cases clock
  · cases read

theorem readZone_whole {text rest : List Char} {offset : Int}
    (read : readZone text = some (offset, rest))
    : offset % 60 = 0 := by
  unfold readZone at read
  split at read
  · split at read
    · cases read
      rfl
    · exact readOffset_whole read
  · exact readOffset_whole read

/-- With less than a second of fraction and an offset of whole minutes, the fields of a text make up
no leap second but one that ends a minute.
-/
theorem ofLocal?_leap {year offset : Int} {month day hour minute second nano : Nat} {at_ : Instant}
    (below : nano < 1000000000) (whole : offset % 60 = 0)
    (made : ofLocal? year month day hour minute second nano offset = some at_)
    (leap : at_.isLeap = true)
    : at_.second % 60 = 59 := by
  have long : 1000000000 ≤ at_.nano := of_decide_eq_true leap
  unfold ofLocal? at made
  dsimp only at made
  split at made
  · have parts (day : Int) (second nano : Nat) (made : ofParts? day second nano = some at_)
        : at_.second = second ∧ at_.nano = nano := by
      unfold ofParts? at made
      split at made
      · cases made
        exact ⟨rfl, rfl⟩
      · cases made
    split at made <;> obtain ⟨seconds, nanos⟩ := parts _ _ _ made <;> omega
  · cases made

/-- A text of the format tells an instant. -/
def Representable (at_ : Instant) : Prop := ∃ text, read? text = some at_

/-- A text can tell every instant except those in a leap second off the minute. -/
theorem representable_iff {at_ : Instant}
    : at_.Representable ↔ (at_.isLeap = true → at_.second % 60 = 59) := by
  constructor
  · rintro ⟨text, read⟩ leap
    unfold read? at read
    simp only [Option.bind_eq_bind, Option.bind_eq_some_iff, Prod.exists] at read
    obtain ⟨_, _, -, _, -, _, _, -, _, -, _, _, -, _, -, _, _, -, _, -, _, _, -, _, -, _, _, -, _, _,
      fraction, _, _, zone, made⟩ := read
    split at made
    · exact ofLocal?_leap (readFraction_lt fraction) (readZone_whole zone) made leap
    · cases made
  · intro ends
    exact ⟨at_.text.toList, by rw [read?_text, settled_eq_iff.mpr ends]⟩

/-- An instant is told as it is exactly when a text can tell it. -/
theorem settled_eq_iff_representable {at_ : Instant}
    : at_.settled = at_ ↔ at_.Representable :=
  settled_eq_iff.trans representable_iff.symm

end Instant

end Gatehouse
