import Gatehouse.Text.Blank
import Gatehouse.Text.Numeral
import Gatehouse.Time.Duration

/-! Durations as people write them: numbers with units, such as `1day 4h` or `1.5h`, that add up.
Reading goes from left to right within the limits of 64-bit seconds and reports the first fault;
writing names each unit that is there once, largest first.
-/

namespace Gatehouse.Duration

inductive Unit
  | nanosecond | microsecond | millisecond
  | second | minute | hour | day | week | month | year
deriving DecidableEq, Repr

namespace Unit

/-- The unit of a name; the case of letters matters. -/
def ofName? : List Char → Option Unit := fun name =>
  match String.ofList name with
  | "nanos" | "nsec" | "ns" => some nanosecond
  | "usec" | "us" | "µs" => some microsecond
  | "millis" | "msec" | "ms" => some millisecond
  | "seconds" | "second" | "secs" | "sec" | "s" => some second
  | "minutes" | "minute" | "min" | "mins" | "m" => some minute
  | "hours" | "hour" | "hr" | "hrs" | "h" => some hour
  | "days" | "day" | "d" => some day
  | "weeks" | "week" | "wk" | "wks" | "w" => some week
  | "months" | "month" | "M" => some month
  | "years" | "year" | "yr" | "yrs" | "y" => some year
  | _ => none

/-- Nanoseconds of a unit below the second. -/
def nanos? : Unit → Option Nat
  | nanosecond => some 1
  | microsecond => some 1000
  | millisecond => some 1000000
  | _ => none

/-- Seconds of a unit from the second on; a year has 365.25 days and a month a twelfth of it,
rounded.
-/
def seconds : Unit → Nat
  | minute => 60
  | hour => 3600
  | day => 86400
  | week => 604800
  | month => 2630016
  | year => 31557600
  | _ => 1

end Unit

/-- Why a text is no duration. Offsets count bytes. -/
inductive Fault
  | empty
  | numberExpected (offset : Nat)
  | invalidCharacter (offset : Nat)
  | unitNeeded (number : Nat)
  | unknownUnit (name : String)
  | overflow
  /-- The last carry of nanoseconds passes the largest second. -/
  | carryOverflow
deriving DecidableEq, Repr

/-- The sentence that reports a refused duration. -/
def Fault.message : Fault → String
  | .empty => "value was empty"
  | .numberExpected offset => "expected number at " ++ Numeral.text offset
  | .invalidCharacter offset => "invalid character at " ++ Numeral.text offset
  | .unitNeeded number =>
      let n := Numeral.text number
      "time unit needed, for example " ++ n ++ "sec or " ++ n ++ "ms"
  | .unknownUnit name =>
      "unknown time unit \"" ++ name ++ "\", supported units: ns, us/µs, ms, sec, min, hours, "
        ++ "days, weeks, months, years (and few variations)"
  | .overflow | .carryOverflow =>
      "number is too large or cannot be represented without a lack of precision "
        ++ "(values below 1ns are not supported)"

/-- A number that fits in 64 bits. -/
def bounded (n : Nat) : Except Fault Nat :=
  if n < Nat.pow 2 64 then .ok n else .error .overflow

/-- Add seconds and nanoseconds to a sum. More than a second of nanoseconds carries within the
bounds; exactly one second of them carries last, and must not pass the largest second.
-/
def addParts (sum : Duration) (seconds nanos : Nat) : Except Fault Duration := do
  let nanos ← bounded (sum.subsecond + nanos)
  let (seconds, nanos) ←
    if nanos > perSecond then
      let carried ← bounded (seconds + nanos / perSecond)
      pure (carried, nanos % perSecond)
    else pure (seconds, nanos)
  let seconds ← bounded (sum.seconds + seconds)
  let total := ofParts seconds nanos
  if total.seconds < Nat.pow 2 64 then .ok total else .error .carryOverflow

/-- The digits after a decimal point: their number and the power of ten below it. -/
structure Fraction where
  numerator : Nat
  denominator : Nat

/-- A fraction of so many units, when that is a whole number. -/
def Fraction.scale (fraction : Fraction) (units : Nat) : Except Fault Nat := do
  let product ← bounded (fraction.numerator * units)
  if product % fraction.denominator = 0 then .ok (product / fraction.denominator)
  else .error .overflow

/-- Add a number of a unit to a sum: the whole part, then the fraction. Fractions are taken to
seconds from the hour on, to nanoseconds from the minute down, and a nanosecond has none.
-/
def addUnit (sum : Duration) (number : Nat) (fraction : Option Fraction) (unit : Unit)
    : Except Fault Duration := do
  let sum ←
    match unit.nanos? with
    | some nanos => do addParts sum 0 (← bounded (number * nanos))
    | none => do addParts sum (← bounded (number * unit.seconds)) 0
  match fraction, unit with
  | none, _ => .ok sum
  | some _, .nanosecond => .error .overflow
  | some fraction, .microsecond => do addParts sum 0 (← fraction.scale 1000)
  | some fraction, .millisecond => do addParts sum 0 (← fraction.scale 1000000)
  | some fraction, .second => do addParts sum 0 (← fraction.scale 1000000000)
  | some fraction, .minute => do addParts sum 0 (← fraction.scale 60000000000)
  | some fraction, unit => do addParts sum (← fraction.scale unit.seconds) 0

/-- Add a number with the name of its unit to a sum. -/
def addNamed (sum : Duration) (number : Nat) (fraction : Option Fraction) (name : List Char)
    : Except Fault Duration :=
  match Unit.ofName? name with
  | some unit => addUnit sum number fraction unit
  | none =>
      if name.isEmpty then .error (.unitNeeded number)
      else .error (.unknownUnit (String.ofList name))

/-- The letters that names of units are made of. -/
def isUnitLetter (c : Char) : Bool :=
  ('a' ≤ c && c ≤ 'z') || ('A' ≤ c && c ≤ 'Z') || c = 'µ'

/-- Where the reader stands: between numbers, in the whole part of a number, behind its decimal
point, or in the name of its unit. A number keeps what has been read of it so far.
-/
inductive Stage
  /-- Before a number, with the offset at which the gap began and whether one must follow. -/
  | gap (began : Nat) (first : Bool)
  | whole (number : Nat)
  /-- Behind the point, with the offset that a fault in the fraction is reported at. -/
  | fraction (number numerator denominator : Nat) (zeros : Bool) (offset : Nat)
  | unit (number : Nat) (part : Option Fraction) (name : List Char)

/-- Take one character at a byte offset. Digits that follow a unit begin the next number, and
blanks inside of a number are skipped.
-/
def Stage.take (stage : Stage) (sum : Duration) (offset : Nat) (c : Char)
    : Except Fault (Stage × Duration) :=
  match stage with
  | .gap began first =>
      match Numeral.digit? c with
      | some d => .ok (.whole d, sum)
      | none =>
          if Text.isBlank c then .ok (.gap began first, sum)
          else .error (.numberExpected began)
  | .whole number =>
      match Numeral.digit? c with
      | some d => do .ok (.whole (← bounded (number * 10 + d)), sum)
      | none =>
          if Text.isBlank c then .ok (stage, sum)
          else if isUnitLetter c then .ok (.unit number none [c], sum)
          else if c = '.' then .ok (.fraction number 0 1 true offset, sum)
          else .error (.invalidCharacter offset)
  | .fraction number numerator denominator zeros at_ =>
      let next := offset + c.utf8Size
      match Numeral.digit? c with
      | some d => do
          let denominator ← bounded (denominator * 10)
          let numerator ←
            if zeros && d == 0 then pure numerator else bounded (numerator * 10 + d)
          .ok (.fraction number numerator denominator (zeros && d == 0) next, sum)
      | none =>
          if Text.isBlank c then
            .ok (.fraction number numerator denominator zeros next, sum)
          else if isUnitLetter c && denominator != 1 then
            .ok (.unit number (some ⟨numerator, denominator⟩) [c], sum)
          else .error (.invalidCharacter at_)
  | .unit number part name =>
      match Numeral.digit? c with
      | some d => do .ok (.whole d, ← addNamed sum number part name)
      | none =>
          if Text.isBlank c then do
            .ok (.gap (offset + c.utf8Size) false, ← addNamed sum number part name)
          else if isUnitLetter c then .ok (.unit number part (name ++ [c]), sum)
          else .error (.invalidCharacter offset)

/-- End the text: a number that is still open needs its unit. -/
def Stage.finish (stage : Stage) (sum : Duration) : Except Fault Duration :=
  match stage with
  | .gap _ first => if first then .error .empty else .ok sum
  | .whole number => addNamed sum number none []
  | .fraction number numerator denominator _ offset =>
      if denominator = 1 then .error (.invalidCharacter offset)
      else addNamed sum number (some ⟨numerator, denominator⟩) []
  | .unit number part name => addNamed sum number part name

/-- Read the characters from a stage on. -/
def readFrom (stage : Stage) (sum : Duration) (offset : Nat)
    : List Char → Except Fault Duration
  | [] => stage.finish sum
  | c :: rest => do
      let (stage, sum) ← stage.take sum offset c
      readFrom stage sum (offset + c.utf8Size) rest

/-- Read a duration; the text `0` alone needs no unit. -/
def read (text : String) : Except Fault Duration :=
  if text = "0" then .ok zero
  else readFrom (.gap 0 true) zero 0 text.toList

/-- A number with the name of its unit, nothing for zero; an `s` is added to more than one. -/
def plural (number : Nat) (name : String) : List String :=
  if number = 0 then []
  else [Numeral.text number ++ name ++ if number = 1 then "" else "s"]

/-- A number with the sign of its unit, nothing for zero. -/
def item (number : Nat) (sign : String) : List String :=
  if number = 0 then [] else [Numeral.text number ++ sign]

/-- The text of a duration: its units largest first, `0s` when there is none. -/
def text (d : Duration) : String :=
  let seconds := d.seconds
  let inYear := seconds % 31557600
  let inMonth := inYear % 2630016
  let inDay := inMonth % 86400
  let nanos := d.subsecond
  let items :=
    plural (seconds / 31557600) "year"
      ++ plural (inYear / 2630016) "month"
      ++ plural (inMonth / 86400) "day"
      ++ item (inDay / 3600) "h"
      ++ item (inDay % 3600 / 60) "m"
      ++ item (inDay % 60) "s"
      ++ item (nanos / 1000000) "ms"
      ++ item (nanos / 1000 % 1000) "us"
      ++ item (nanos % 1000) "ns"
  if items.isEmpty then "0s" else " ".intercalate items

end Gatehouse.Duration
