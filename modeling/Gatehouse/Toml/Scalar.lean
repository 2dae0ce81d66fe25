import Gatehouse.Decimal.Shortest
import Gatehouse.Time.Calendar
import Gatehouse.Toml.Quoted
import Gatehouse.Toml.Value

/-! Numbers, truth values, dates and times of TOML. What a date or a time says is checked and not
kept, since no setting is one.
-/

namespace Gatehouse.Toml

/-- The digits of a number, without the single underscores that may stand between two digits. -/
def plainDigits? (isDigit : Char → Bool) : List Char → Option (List Char)
  | [] => none
  | [c] => if isDigit c then some [c] else none
  | c :: '_' :: rest => if isDigit c then (plainDigits? isDigit rest).map (c :: ·) else none
  | c :: rest => if isDigit c then (plainDigits? isDigit rest).map (c :: ·) else none

/-- The digits of a whole number, which begins with zero only when it is zero. -/
def wholeDigits? (text : List Char) : Option (List Char) :=
  match plainDigits? Numeral.isDigit text with
  | some ('0' :: d :: rest) => if d :: rest = [] then some ['0'] else none
  | digits => digits

/-- Take a sign off; the first result tells whether it is a minus. -/
def splitSign : List Char → Bool × List Char
  | '-' :: rest => (true, rest)
  | '+' :: rest => (false, rest)
  | rest => (false, rest)

/-- The number of digits in a base up to 16. -/
def numberOf (base : Nat) (digits : List Char) : Nat :=
  digits.foldl (fun n c => n * base + (hexDigit? c).getD 0) 0

/-- The number, when it fits in 64 bits with sign. -/
def inRange? (number : Int) : Option Int :=
  if -(Nat.pow 2 63 : Nat) ≤ number ∧ number < (Nat.pow 2 63 : Nat) then some number else none

def isDigitOf (base : Nat) (c : Char) : Bool :=
  match hexDigit? c with
  | some d => d < base
  | none => false

def readInteger? (token : List Char) : Option Int :=
  let based (base : Nat) (rest : List Char) : Option Int :=
    (plainDigits? (isDigitOf base) rest).bind fun digits => inRange? (numberOf base digits)
  match token with
  | '0' :: 'x' :: rest => based 16 rest
  | '0' :: 'o' :: rest => based 8 rest
  | '0' :: 'b' :: rest => based 2 rest
  | _ =>
      let (negative, rest) := splitSign token
      (wholeDigits? rest).bind fun digits =>
        let number : Int := numberOf 10 digits
        inRange? (if negative then -number else number)

/-- The double nearest to `coefficient * 10 ^ exponent`. Beyond the range of doubles it is decided
by the place of the first digit.
-/
def floatOf (coefficient : Nat) (exponent : Int) : Float :=
  let places : Int := (Numeral.digits coefficient).length + exponent
  if coefficient = 0 || places ≤ -324 then 0.0
  else if 310 ≤ places then 1.0 / 0.0
  else Float.ofScientific coefficient (exponent < 0) exponent.natAbs

/-- An exponent: its letter and a number whose digits may begin with zeros. -/
def readExponent? : List Char → Option Int
  | [] => some 0
  | e :: rest =>
      if e = 'e' || e = 'E' then
        let (negative, digits) := splitSign rest
        (plainDigits? Numeral.isDigit digits).map fun digits =>
          let number : Int := numberOf 10 digits
          if negative then -number else number
      else none

/-- A number with a fraction, an exponent or both. One too large is refused, and negative infinity
when it is negative.
-/
def readFloat? (token : List Char) : Option Float :=
  let (negative, rest) := splitSign token
  let signed (x : Float) : Float := if negative then -x else x
  if rest = ['i', 'n', 'f'] then some (signed (1.0 / 0.0))
  else if rest = ['n', 'a', 'n'] then some (signed (0.0 / 0.0))
  else
    let isMark (c : Char) : Bool := c = '.' || c = 'e' || c = 'E'
    let whole := rest.takeWhile (!isMark ·)
    let parts : Option (List Char × Int) :=
      match rest.drop whole.length with
      | [] => none
      | '.' :: after =>
          let fraction := after.takeWhile (!isMark ·)
          (plainDigits? Numeral.isDigit fraction).bind fun digits =>
            (readExponent? (after.drop fraction.length)).map fun e => (digits, e)
      | after => (readExponent? after).map fun e => ([], e)
    match wholeDigits? whole, parts with
    | some digits, some (fraction, exponent) =>
        let x := floatOf (numberOf 10 (digits ++ fraction)) (exponent - fraction.length)
        if !negative && x == 1.0 / 0.0 then none else some (signed x)
    | _, _ => none

/-- The text of a double: the shortest digits without an exponent, always with a point. -/
def floatText (x : Float) : List Char :=
  match Decimal.magnitude x with
  | .nan => ['n', 'a', 'n']
  | .infinite => Decimal.plainText x
  | .finite _ =>
      let digits := Decimal.plainText x
      if digits.contains '.' then digits else digits ++ ['.', '0']

/-- Read a number of exactly two digits up to a greatest one. -/
def readTwo? (most : Nat) : List Char → Read Nat
  | a :: b :: rest =>
      if Numeral.isDigit a && Numeral.isDigit b && Numeral.value 0 [a, b] ≤ most then
        some (Numeral.value 0 [a, b], rest)
      else none
  | _ => none

/-- Drop a character that has to come next. -/
def drop? (c : Char) : List Char → Option (List Char)
  | [] => none
  | d :: rest => if d = c then some rest else none

/-- What is left behind a date, which has to exist in the calendar. -/
def afterDate? : List Char → Option (List Char)
  | a :: b :: c :: d :: '-' :: rest =>
      if [a, b, c, d].all Numeral.isDigit then do
        let (month, rest) ← readTwo? 12 rest
        let rest ← drop? '-' rest
        let (day, rest) ← readTwo? 31 rest
        let date : Date := ⟨Numeral.value 0 [a, b, c, d], month, day⟩
        if date.IsValid then some rest else none
      else none
  | _ => none

/-- What is left behind a time of day. -/
def afterTime? (text : List Char) : Option (List Char) := do
  let (_, rest) ← readTwo? 23 text
  let rest ← drop? ':' rest
  let (_, rest) ← readTwo? 59 rest
  let rest ← drop? ':' rest
  let (_, rest) ← readTwo? 60 rest
  match rest with
  | '.' :: fraction =>
      let digits := fraction.takeWhile Numeral.isDigit
      if digits.isEmpty then none else some (fraction.drop digits.length)
  | _ => some rest

/-- What is left behind an offset, which may be absent. -/
def afterOffset? : List Char → Option (List Char)
  | 'Z' :: rest | 'z' :: rest => some rest
  | '+' :: rest | '-' :: rest => do
      let (_, rest) ← readTwo? 23 rest
      let rest ← drop? ':' rest
      let (_, rest) ← readTwo? 59 rest
      some rest
  | rest => some rest

/-- What is left behind a date that may have a time of day, with an offset or without. -/
def afterDateTime? (text : List Char) : Option (List Char) :=
  match afterDate? text with
  | none => none
  | some rest =>
      match rest with
      | 'T' :: time | 't' :: time => (afterTime? time).bind afterOffset?
      | ' ' :: d :: time =>
          if Numeral.isDigit d then (afterTime? (d :: time)).bind afterOffset? else some rest
      | _ => some rest

/-- A character of a number or word. -/
def isTokenChar (c : Char) : Bool :=
  c.isAlphanum || c = '_' || c = '+' || c = '-' || c = '.'

/-- Read a value that is not quoted and not a container. -/
def readScalar (text : List Char) : Read Value :=
  match afterDateTime? text, afterTime? text with
  | some rest, _ => some (.moment, rest)
  | none, some rest => some (.moment, rest)
  | none, none =>
      let token := text.takeWhile isTokenChar
      let rest := text.drop token.length
      if token = ['t', 'r', 'u', 'e'] then some (.boolean true, rest)
      else if token = ['f', 'a', 'l', 's', 'e'] then some (.boolean false, rest)
      else
        match readInteger? token, readFloat? token with
        | some n, _ => some (.integer n, rest)
        | none, some x => some (.float x, rest)
        | none, none => none

end Gatehouse.Toml
