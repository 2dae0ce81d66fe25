/-! Quoted texts of TOML: four forms, with and without escapes, on one line and on several. Each
text is written in the first form that shows it as it is, and as an escaped one when none does.
-/

namespace Gatehouse.Toml

def quote : Char := '"'

def apostrophe : Char := Char.ofNat 39

def isBlank (c : Char) : Bool := c = ' ' || c = '\t'

/-- A character that may stand in a comment: no control character but the tab. -/
def isPlain (c : Char) : Bool := c = '\t' || (0x20 ≤ c.toNat && c.toNat ≠ 0x7F)

def hexDigit? (c : Char) : Option Nat :=
  if '0' ≤ c ∧ c ≤ '9' then some (c.toNat - 48)
  else if 'a' ≤ c ∧ c ≤ 'f' then some (c.toNat - 87)
  else if 'A' ≤ c ∧ c ≤ 'F' then some (c.toNat - 55)
  else none

/-- The character with a number in hexadecimal digits. -/
def charOfHex? (digits : List Char) : Option Char := do
  let number ← digits.foldlM (fun n c => (hexDigit? c).map (n * 16 + ·)) 0
  if number.isValidChar then some (Char.ofNat number) else none

/-- The character that an escape of one letter stands for. -/
def escaped? : Char → Option Char
  | 'b' => some '\x08'
  | 't' => some '\t'
  | 'n' => some '\n'
  | 'f' => some '\x0c'
  | 'r' => some '\r'
  | '"' => some '"'
  | '\\' => some '\\'
  | _ => none

/-- A text and what is left behind it. -/
abbrev Read (α : Type) := Option (α × List Char)

/-- Put a character before a text that was read. -/
def Read.cons (c : Char) (read : Read (List Char)) : Read (List Char) :=
  read.map fun (text, rest) => (c :: text, rest)

/-- Read the rest of a text on one line with escapes, up to its quote. -/
def readBasic : List Char → Read (List Char)
  | [] => none
  | '"' :: rest => some ([], rest)
  | '\\' :: 'u' :: a :: b :: c :: d :: rest =>
      match charOfHex? [a, b, c, d] with
      | some e => Read.cons e (readBasic rest)
      | none => none
  | '\\' :: 'U' :: a :: b :: c :: d :: e :: f :: g :: h :: rest =>
      match charOfHex? [a, b, c, d, e, f, g, h] with
      | some e => Read.cons e (readBasic rest)
      | none => none
  | '\\' :: c :: rest =>
      match escaped? c with
      | some e => Read.cons e (readBasic rest)
      | none => none
  | c :: rest => if c ≠ '\\' && isPlain c then Read.cons c (readBasic rest) else none

/-- Read the rest of a text on one line without escapes, up to its apostrophe. -/
def readLiteral : List Char → Read (List Char)
  | [] => none
  | c :: rest =>
      if c = apostrophe then some ([], rest)
      else if isPlain c then Read.cons c (readLiteral rest)
      else none

/-- The line ends here, after blanks at most. -/
def endsLine (text : List Char) : Bool :=
  match text.dropWhile isBlank with
  | '\n' :: _ | '\r' :: '\n' :: _ => true
  | _ => false

/-- After three marks that close a text, up to two more belong to it. -/
def closing (mark : Char) : List Char → List Char × List Char
  | a :: b :: rest =>
      if a = mark then
        if b = mark then ([mark, mark], rest) else ([mark], b :: rest)
      else ([], a :: b :: rest)
  | [a] => if a = mark then ([mark], []) else ([], [a])
  | [] => ([], [])

/-- Read the rest of a text on several lines with escapes. A backslash at the end of a line takes
away all blanks and line ends that follow, which `trimming` tells.
-/
def readLines (trimming : Bool) : List Char → Read (List Char)
  | [] => none
  | '"' :: '"' :: '"' :: rest => some (closing '"' rest)
  | '\r' :: '\n' :: rest =>
      if trimming then readLines true rest else Read.cons '\n' (readLines false rest)
  | '\n' :: rest =>
      if trimming then readLines true rest else Read.cons '\n' (readLines false rest)
  | '\\' :: 'u' :: a :: b :: c :: d :: rest =>
      match charOfHex? [a, b, c, d] with
      | some e => Read.cons e (readLines false rest)
      | none => none
  | '\\' :: 'U' :: a :: b :: c :: d :: e :: f :: g :: h :: rest =>
      match charOfHex? [a, b, c, d, e, f, g, h] with
      | some e => Read.cons e (readLines false rest)
      | none => none
  | '\\' :: c :: rest =>
      if endsLine (c :: rest) then readLines true (c :: rest)
      else
        match escaped? c with
        | some e => Read.cons e (readLines false rest)
        | none => none
  | c :: rest =>
      if trimming && isBlank c then readLines true rest
      else if c ≠ '\\' && isPlain c then Read.cons c (readLines false rest)
      else none

/-- Read the rest of a text on several lines without escapes. -/
def readLiteralLines : List Char → Read (List Char)
  | '\r' :: '\n' :: rest => Read.cons '\n' (readLiteralLines rest)
  | '\n' :: rest => Read.cons '\n' (readLiteralLines rest)
  | a :: b :: c :: rest =>
      if a = apostrophe && b = apostrophe && c = apostrophe then some (closing apostrophe rest)
      else if isPlain a then Read.cons a (readLiteralLines (b :: c :: rest))
      else none
  | _ => none

/-- A line end right behind opening marks does not belong to the text. -/
def skipLineEnd : List Char → List Char
  | '\r' :: '\n' :: rest => rest
  | '\n' :: rest => rest
  | text => text

/-- Read a quoted text on one line. -/
def readQuotedLine : List Char → Read (List Char)
  | [] => none
  | c :: rest =>
      if c = quote then readBasic rest
      else if c = apostrophe then readLiteral rest
      else none

def readQuoted (text : List Char) : Read (List Char) :=
  match text with
  | a :: b :: c :: rest =>
      if a = quote && b = quote && c = quote then readLines false (skipLineEnd rest)
      else if a = apostrophe && b = apostrophe && c = apostrophe then
        readLiteralLines (skipLineEnd rest)
      else readQuotedLine text
  | _ => readQuotedLine text

/-- The character can only be written as an escape. -/
def needsEscape (c : Char) : Bool := !isPlain c && c ≠ '\n'

/-- The length of the longest run of a character. -/
def longestRun (mark : Char) (text : List Char) : Nat :=
  (text.foldl
    (fun (longest, run) c => if c = mark then (max longest (run + 1), run + 1) else (longest, 0))
    (0, 0)).1

def hexChar (d : Nat) : Char := Char.ofNat (if d < 10 then 48 + d else 55 + d)

/-- The four hexadecimal digits of a number. -/
def hexText (n : Nat) : List Char :=
  [hexChar (n / 4096 % 16), hexChar (n / 256 % 16), hexChar (n / 16 % 16), hexChar (n % 16)]

/-- A character in a text with escapes. -/
def escape (c : Char) : List Char :=
  match c with
  | '\x08' => ['\\', 'b']
  | '\t' => ['\\', 't']
  | '\n' => ['\\', 'n']
  | '\x0c' => ['\\', 'f']
  | '\r' => ['\\', 'r']
  | '"' => ['\\', '"']
  | '\\' => ['\\', '\\']
  | c => if isPlain c then [c] else '\\' :: 'u' :: hexText c.toNat

/-- The characters of a text on several lines; of three quotes in a row the third is escaped. -/
def escapeLines (quotes : Nat) : List Char → List Char
  | [] => []
  | c :: rest =>
      if c = '\n' then '\n' :: escapeLines 0 rest
      else if c = quote then
        if quotes < 2 then quote :: escapeLines (quotes + 1) rest
        else '\\' :: quote :: escapeLines 0 rest
      else escape c ++ escapeLines 0 rest

def tripled (mark : Char) : List Char := [mark, mark, mark]

/-- The first line end of a text on several lines, which is written when the text has one. -/
def lead (text : List Char) : List Char := if text.contains '\n' then ['\n'] else []

def quoted (text : List Char) : List Char :=
  let controls := text.any needsEscape
  let backslashes := text.contains '\\'
  let broken := text.contains '\n'
  if !controls && !backslashes && !broken && longestRun quote text = 0 then
    quote :: text.flatMap escape ++ [quote]
  else if !controls && !broken && longestRun apostrophe text = 0 then
    apostrophe :: text ++ [apostrophe]
  else if !controls && !backslashes && longestRun quote text ≤ 2 then
    tripled quote ++ lead text ++ escapeLines 0 text ++ tripled quote
  else if !controls && longestRun apostrophe text ≤ 2 then
    tripled apostrophe ++ lead text ++ text ++ tripled apostrophe
  else if broken then tripled quote ++ lead text ++ escapeLines 0 text ++ tripled quote
  else quote :: text.flatMap escape ++ [quote]

end Gatehouse.Toml
