import Gatehouse.Text.Numeral

/-! Tokens of JSON texts. A text is read character by character; numbers are kept as they are
written, and strings as their characters and escaped units, so that whether units make up
characters is asked only of the strings that matter.
-/

namespace Gatehouse.Json

/-- A piece of a string: a character, or a 16-bit unit given by its number. -/
inductive Piece
  | char (c : Char)
  | unit (number : Nat)
deriving DecidableEq, Repr

namespace Piece

/-- The unit begins a pair. -/
def isHigh (unit : Nat) : Bool := 0xD800 ≤ unit && unit < 0xDC00

/-- The unit ends a pair. -/
def isLow (unit : Nat) : Bool := 0xDC00 ≤ unit && unit < 0xE000

/-- The characters of a string, when its units make up characters. -/
def decode : List Piece → Option (List Char)
  | [] => some []
  | char c :: rest => (decode rest).map (c :: ·)
  | unit first :: rest =>
      if isLow first then none
      else if isHigh first then
        match rest with
        | unit second :: rest =>
            if isLow second then
              let number := 0x10000 + (first - 0xD800) * 0x400 + (second - 0xDC00)
              (decode rest).map (Char.ofNat number :: ·)
            else none
        | _ => none
      else (decode rest).map (Char.ofNat first :: ·)

end Piece

inductive Token
  | openArray
  | closeArray
  | openObject
  | closeObject
  | comma
  | colon
  | null
  | boolean (value : Bool)
  | number (written : List Char)
  | string (pieces : List Piece)
deriving DecidableEq, Repr

/-- An exponent: nothing, or the letter, perhaps a sign, and digits. -/
def isExponent : List Char → Bool
  | [] => true
  | e :: rest =>
      let digits := match rest with
        | '+' :: digits | '-' :: digits => digits
        | digits => digits
      (e = 'e' || e = 'E') && !digits.isEmpty && digits.all Numeral.isDigit

/-- What may follow the whole part of a number. -/
def isFraction : List Char → Bool
  | '.' :: rest =>
      let digits := rest.takeWhile Numeral.isDigit
      !digits.isEmpty && isExponent (rest.drop digits.length)
  | rest => isExponent rest

/-- A number without its sign: a zero does not begin a longer whole part. -/
def isMagnitude : List Char → Bool
  | '0' :: rest => isFraction rest
  | rest =>
      let digits := rest.takeWhile Numeral.isDigit
      !digits.isEmpty && isFraction (rest.drop digits.length)

def isNumber : List Char → Bool
  | '-' :: rest => isMagnitude rest
  | rest => isMagnitude rest

/-- The character can stand in a number. -/
def isNumberChar (c : Char) : Bool :=
  Numeral.isDigit c || c = '-' || c = '+' || c = '.' || c = 'e' || c = 'E'

/-- Where a reader is in a text. What it has read of a token stands newest first. -/
inductive Scan
  | between
  | word (read : List Char)
  | number (read : List Char)
  | string (read : List Piece)
  | escape (read : List Piece)
  | unit (read : List Piece) (left value : Nat)
  | broken

/-- A reader with the tokens it has read, newest first. -/
structure Scanner where
  scan : Scan
  tokens : List Token

namespace Scanner

def start : Scanner := ⟨.between, []⟩

def failed : Scanner := ⟨.broken, []⟩

def emit (scanner : Scanner) (token : Token) : Scanner := ⟨.between, token :: scanner.tokens⟩

def isBlank (c : Char) : Bool := c = ' ' || c = '\n' || c = '\t' || c = '\r'

def enter (scanner : Scanner) (c : Char) : Scanner :=
  if isBlank c then { scanner with scan := .between }
  else if c.isLower then { scanner with scan := .word [c] }
  else if c = '-' || Numeral.isDigit c then { scanner with scan := .number [c] }
  else
    match c with
    | '[' => scanner.emit .openArray
    | ']' => scanner.emit .closeArray
    | '\x7b' => scanner.emit .openObject
    | '\x7d' => scanner.emit .closeObject
    | ',' => scanner.emit .comma
    | ':' => scanner.emit .colon
    | '"' => { scanner with scan := .string [] }
    | _ => failed

/-- End the word or number that is being read. -/
def close (scanner : Scanner) : Scanner :=
  match scanner.scan with
  | .between => scanner
  | .word read =>
      if read = ['e', 'u', 'r', 't'] then scanner.emit (.boolean true)
      else if read = ['e', 's', 'l', 'a', 'f'] then scanner.emit (.boolean false)
      else if read = ['l', 'l', 'u', 'n'] then scanner.emit .null
      else failed
  | .number read =>
      if isNumber read.reverse then scanner.emit (.number read.reverse) else failed
  | _ => failed

/-- End what is being read and read a character, unless what was read is refused. -/
def resume (scanner : Scanner) (c : Char) : Scanner :=
  let ended := scanner.close
  match ended.scan with
  | .between => ended.enter c
  | _ => failed

/-- The character that an escape of one letter stands for. -/
def escaped? : Char → Option Char
  | '"' => some '"'
  | '\\' => some '\\'
  | '/' => some '/'
  | 'b' => some '\x08'
  | 'f' => some '\x0c'
  | 'n' => some '\n'
  | 'r' => some '\r'
  | 't' => some '\t'
  | _ => none

def hexDigit? (c : Char) : Option Nat :=
  if '0' ≤ c ∧ c ≤ '9' then some (c.toNat - 48)
  else if 'a' ≤ c ∧ c ≤ 'f' then some (c.toNat - 87)
  else if 'A' ≤ c ∧ c ≤ 'F' then some (c.toNat - 55)
  else none

def step (scanner : Scanner) (c : Char) : Scanner :=
  match scanner.scan with
  | .between => scanner.enter c
  | .word read =>
      if c.isLower then { scanner with scan := .word (c :: read) } else scanner.resume c
  | .number read =>
      if isNumberChar c then { scanner with scan := .number (c :: read) }
      else scanner.resume c
  | .string read =>
      if c = '"' then scanner.emit (.string read.reverse)
      else if c = '\\' then { scanner with scan := .escape read }
      else if c.toNat < 0x20 then failed
      else { scanner with scan := .string (.char c :: read) }
  | .escape read =>
      if c = 'u' then { scanner with scan := .unit read 4 0 }
      else
        match escaped? c with
        | some e => { scanner with scan := .string (.char e :: read) }
        | none => failed
  | .unit read left value =>
      match hexDigit? c with
      | none => failed
      | some d =>
          if left ≤ 1 then { scanner with scan := .string (.unit (value * 16 + d) :: read) }
          else { scanner with scan := .unit read (left - 1) (value * 16 + d) }
  | .broken => failed

/-- The tokens that were read, when the text ends here. -/
def finish? (scanner : Scanner) : Option (List Token) :=
  let ended := scanner.close
  match ended.scan with
  | .between => some ended.tokens.reverse
  | _ => none

end Scanner

def tokens? (text : List Char) : Option (List Token) :=
  (text.foldl Scanner.step .start).finish?

end Gatehouse.Json
