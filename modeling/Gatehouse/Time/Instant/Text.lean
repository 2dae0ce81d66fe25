import Gatehouse.Text.Blank
import Gatehouse.Text.Numeral
import Gatehouse.Time.Instant

/-! How instants are written and read. One form is written, a date and a time of day with as many
digits after the second as are needed in groups of three. Two forms are read: a free one, for
data, that allows blanks and short fields, and the strict one of RFC 3339.
-/

namespace Gatehouse.Instant

/-- The year of a written date: four digits, signed outside of 0 to 9999. -/
def yearText (year : Int) : List Char :=
  if 0 ≤ year ∧ year ≤ 9999 then Numeral.padded 4 year.toNat
  else if year < 0 then '-' :: Numeral.padded 4 year.natAbs
  else '+' :: Numeral.padded 4 year.natAbs

/-- The fraction of a second: nothing, or the shortest of three, six and nine digits. -/
def fractionText (nano : Nat) : List Char :=
  if nano = 0 then []
  else if nano % 1000000 = 0 then '.' :: Numeral.padded 3 (nano / 1000000)
  else if nano % 1000 = 0 then '.' :: Numeral.padded 6 (nano / 1000)
  else '.' :: Numeral.padded 9 nano

/-- The date and the time of day; a leap second is second 60. -/
def clockText (at_ : Instant) : List Char :=
  let date := Date.ofDayNumber at_.day
  let second := at_.second % 60 + if at_.isLeap then 1 else 0
  yearText date.year
    ++ '-' :: Numeral.padded 2 date.month
    ++ '-' :: Numeral.padded 2 date.day
    ++ 'T' :: Numeral.padded 2 (at_.second / 3600)
    ++ ':' :: Numeral.padded 2 (at_.second / 60 % 60)
    ++ ':' :: Numeral.padded 2 second
    ++ fractionText (at_.nano % 1000000000)

/-- The written form with the zone letter of universal time. -/
def text (at_ : Instant) : String := String.ofList (at_.clockText ++ ['Z'])

/-- The written form with universal time as an offset. -/
def offsetText (at_ : Instant) : String := String.ofList (at_.clockText ++ "+00:00".toList)

/-- Read a number of at least `least` and at most `most` digits; further digits are left. -/
def readNumber (least most : Nat) (text : List Char) : Option (Nat × List Char) :=
  let run := (text.take most).takeWhile Numeral.isDigit
  if run.length < least then none
  else some (Numeral.value 0 run, text.drop run.length)

def expect (c : Char) : List Char → Option (List Char)
  | [] => none
  | d :: rest => if d = c then some rest else none

/-- Read the letter T, small or large, or the one space that may stand for it. -/
def readSeparator : List Char → Option (List Char)
  | 'T' :: rest | 't' :: rest | ' ' :: rest => some rest
  | _ => none

/-- Read the digits after a decimal point as nanoseconds; those after the ninth are dropped. -/
def readFraction : List Char → Option (Nat × List Char)
  | '.' :: rest =>
      match readNumber 1 9 rest with
      | none => none
      | some (n, after) =>
          let read := rest.length - after.length
          some (n * Nat.pow 10 (9 - read), after.dropWhile Numeral.isDigit)
  | text => some (0, text)

/-- Read an offset from universal time, in seconds. The separator of hours and minutes is read
by `colon`.
-/
def readOffset (colon : List Char → Option (List Char)) (text : List Char)
    : Option (Int × List Char) := do
  let hoursAndMinutes (rest : List Char) : Option (Nat × List Char) := do
    let (hours, rest) ← readNumber 2 2 rest
    let rest ← colon rest
    let (minutes, rest) ← readNumber 2 2 rest
    if minutes < 60 then some (hours * 3600 + minutes * 60, rest) else none
  match text with
  | 'Z' :: rest | 'z' :: rest => some (0, rest)
  | '+' :: rest => (hoursAndMinutes rest).map fun (seconds, rest) => ((seconds : Int), rest)
  | '-' :: rest | '\u2212' :: rest =>
      (hoursAndMinutes rest).map fun (seconds, rest) => (-(seconds : Int), rest)
  | _ => none

/-- The instant of a local date, time of day and offset. The date has to exist in the calendar,
and second 60 stands for the leap second after second 59.
-/
def ofLocal? (year : Int) (month day hour minute second nano : Nat) (offset : Int)
    : Option Instant :=
  let date : Date := ⟨year, month, day⟩
  if date.IsValid ∧ firstDay ≤ date.dayNumber ∧ date.dayNumber ≤ lastDay
      ∧ hour < 24 ∧ minute < 60 ∧ second ≤ 60 ∧ offset.natAbs < 86400 then
    let (plain, leap) := if second = 60 then (59, 1000000000) else (second, 0)
    let total : Int := date.dayNumber * 86400 + (hour * 3600 + minute * 60 + plain : Nat) - offset
    ofParts? (total / 86400) (total % 86400).toNat (leap + nano)
  else none

/-- Read a year: after a sign any number of digits, without one at most four. -/
def readYear : List Char → Option (Int × List Char)
  | '-' :: rest =>
      (readNumber 1 rest.length rest).map fun (n, rest) => (-(n : Int), rest)
  | '+' :: rest => (readNumber 1 rest.length rest).map fun (n, rest) => ((n : Int), rest)
  | text => (readNumber 1 4 text).map fun (n, rest) => ((n : Int), rest)

def skipColons (text : List Char) : Option (List Char) :=
  some (text.dropWhile fun c => c = ':' || Text.isBlank c)

/-- Read a zone: the letters UTC, large or small, or an offset. -/
def readZone : List Char → Option (Int × List Char)
  | u :: t :: c :: rest =>
      if u.toLower = 'u' ∧ t.toLower = 't' ∧ c.toLower = 'c' then some (0, rest)
      else readOffset skipColons (u :: t :: c :: rest)
  | text => readOffset skipColons text

/-- Read the free form. Blanks may stand before every field and around the whole, and a field of
two digits may have one.
-/
def read? (text : List Char) : Option Instant := do
  let (year, s) ← readYear (Text.trimStart text)
  let s ← expect '-' (Text.trimStart s)
  let (month, s) ← readNumber 1 2 (Text.trimStart s)
  let s ← expect '-' (Text.trimStart s)
  let (day, s) ← readNumber 1 2 (Text.trimStart s)
  let s ← readSeparator s
  let (hour, s) ← readNumber 1 2 (Text.trimStart s)
  let s ← expect ':' (Text.trimStart s)
  let (minute, s) ← readNumber 1 2 (Text.trimStart s)
  let s ← expect ':' (Text.trimStart s)
  let (second, s) ← readNumber 1 2 (Text.trimStart s)
  let (nano, s) ← readFraction s
  let (offset, s) ← readZone (Text.trimStart s)
  if (Text.trimStart s).isEmpty then ofLocal? year month day hour minute second nano offset
  else none

/-- Read the form of RFC 3339: fields of fixed width, no blanks, an offset below a day. -/
def readStrict? (text : List Char) : Option Instant := do
  let (year, s) ← readNumber 4 4 text
  let s ← expect '-' s
  let (month, s) ← readNumber 2 2 s
  let s ← expect '-' s
  let (day, s) ← readNumber 2 2 s
  let s ← readSeparator s
  let (hour, s) ← readNumber 2 2 s
  let s ← expect ':' s
  let (minute, s) ← readNumber 2 2 s
  let s ← expect ':' s
  let (second, s) ← readNumber 2 2 s
  let (nano, s) ← readFraction s
  let (offset, s) ← readOffset (expect ':') s
  if s.isEmpty then ofLocal? year month day hour minute second nano offset
  else none

end Gatehouse.Instant
