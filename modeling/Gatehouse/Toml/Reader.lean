import Gatehouse.Toml.Scalar

/-! Reading TOML texts. Keys, values and lines each are read from the front of what is left; loops
over what is left are bounded by its length, and values nest up to a fixed depth.
-/

namespace Gatehouse.Toml

/-- The greatest depth of nested values, and the greatest number of names in a key. -/
def maxDepth : Nat := 79

def skipBlanks (text : List Char) : List Char := text.dropWhile isBlank

-------------------------------------------------------------------------------
-- Line ends
-------------------------------------------------------------------------------

/-- What is left behind a line end; the end of the text ends a line too. -/
def afterLineEnd? : List Char → Option (List Char)
  | [] => some []
  | '\n' :: rest | '\r' :: '\n' :: rest => some rest
  | _ => none

/-- What is left behind blanks, perhaps a comment, and the line end. -/
def endLine? (text : List Char) : Option (List Char) :=
  match skipBlanks text with
  | '#' :: comment => afterLineEnd? (comment.dropWhile isPlain)
  | rest => afterLineEnd? rest

/-- Skip blanks, comments and line ends. What is left may begin with a comment that is not well
formed.
-/
def skipLayout (fuel : Nat) (text : List Char) : List Char :=
  match fuel with
  | 0 => text
  | fuel + 1 =>
      let rest := skipBlanks text
      if rest.isEmpty then rest
      else
        match endLine? rest with
        | some next => skipLayout fuel next
        | none => rest

-------------------------------------------------------------------------------
-- Keys
-------------------------------------------------------------------------------

def isKeyChar (c : Char) : Bool := c.isAlphanum || c = '_' || c = '-'

/-- Read one name of a key, bare or quoted. -/
def readName (text : List Char) : Read String :=
  match readQuotedLine text with
  | some (name, rest) => some (String.ofList name, rest)
  | none =>
      let name := text.takeWhile isKeyChar
      if name.isEmpty then none else some (String.ofList name, text.drop name.length)

/-- Read a key of at most so many names: the names before the last, and the last. Blanks around
the key are skipped.
-/
def readKey : Nat → List Char → Read (List String × String)
  | 0, _ => none
  | names + 1, text =>
      match readName (skipBlanks text) with
      | none => none
      | some (name, rest) =>
          match skipBlanks rest with
          | '.' :: rest =>
              match readKey names rest with
              | some ((path, last), rest) => some ((name :: path, last), rest)
              | none => none
          | rest => some (([], name), rest)

-------------------------------------------------------------------------------
-- Values
-------------------------------------------------------------------------------

mutual

/-- Read a value with at most so many containers inside one another. -/
def readValue (fuel depth : Nat) (text : List Char) : Read Value :=
  match fuel with
  | 0 => none
  | fuel + 1 =>
      match text with
      | '[' :: rest =>
          if depth = 0 then none
          else (readItems fuel (depth - 1) rest).map fun (items, rest) => (.array items, rest)
      | '\x7b' :: rest =>
          if depth = 0 then none
          else
            match readPairs fuel (depth - 1) true rest with
            | some (pairs, rest) =>
                (Entries.inline? pairs).map fun entries => (.table .inline entries, rest)
            | none => none
      | c :: _ =>
          if c = quote || c = apostrophe then
            (readQuoted text).map fun (chars, rest) => (.string (String.ofList chars), rest)
          else readScalar text
      | [] => none

def readItems (fuel depth : Nat) (text : List Char) : Read (List Value) :=
  match fuel with
  | 0 => none
  | fuel + 1 =>
      match skipLayout text.length text with
      | ']' :: rest => some ([], rest)
      | rest =>
          match readValue fuel depth rest with
          | none => none
          | some (item, rest) =>
              match skipLayout rest.length rest with
              | ',' :: rest =>
                  (readItems fuel depth rest).map fun (items, rest) => (item :: items, rest)
              | ']' :: rest => some ([item], rest)
              | _ => none

/-- Read the rest of a table in braces, which may end at once only at its beginning. -/
def readPairs (fuel depth : Nat) (first : Bool) (text : List Char)
    : Read (List ((List String × String) × Value)) :=
  match fuel with
  | 0 => none
  | fuel + 1 =>
      match first, skipBlanks text with
      | true, '\x7d' :: rest => some ([], rest)
      | _, rest =>
          match readKey maxDepth rest with
          | some (key, '=' :: rest) =>
              match readValue fuel depth (skipBlanks rest) with
              | none => none
              | some (value, rest) =>
                  match skipBlanks rest with
                  | ',' :: rest =>
                      (readPairs fuel depth false rest).map fun (pairs, rest) =>
                        ((key, value) :: pairs, rest)
                  | '\x7d' :: rest => some ([(key, value)], rest)
                  | _ => none
          | _ => none

end

-------------------------------------------------------------------------------
-- Lines
-------------------------------------------------------------------------------

/-- Read a line that is not blank and no comment, and what ends it. -/
def readLine (text : List Char) : Read Line :=
  match text with
  | '[' :: '[' :: rest =>
      match readKey maxDepth rest with
      | some ((path, name), ']' :: ']' :: rest) =>
          (endLine? rest).map fun rest => (.element path name, rest)
      | _ => none
  | '[' :: rest =>
      match readKey maxDepth rest with
      | some ((path, name), ']' :: rest) =>
          (endLine? rest).map fun rest => (.table path name, rest)
      | _ => none
  | _ =>
      match readKey maxDepth text with
      | some ((path, name), '=' :: rest) =>
          match readValue (2 * (rest.length + 1)) maxDepth (skipBlanks rest) with
          | some (value, rest) =>
              (endLine? rest).map fun rest => (.entry path name value, rest)
          | none => none
      | _ => none

def readLinesOf (fuel : Nat) (text : List Char) : Option (List Line) :=
  match fuel with
  | 0 => none
  | fuel + 1 =>
      match skipLayout text.length text with
      | [] => some []
      | rest =>
          match readLine rest with
          | some (line, rest) => (readLinesOf fuel rest).map (line :: ·)
          | none => none

/-- The character that may stand before all text and says nothing. -/
def byteOrderMark : Char := Char.ofNat 0xFEFF

def read? (text : String) : Option Entries :=
  let chars := match text.toList with
    | c :: rest => if c = byteOrderMark then rest else c :: rest
    | [] => []
  (readLinesOf (chars.length + 1) chars).bind document?

end Gatehouse.Toml
