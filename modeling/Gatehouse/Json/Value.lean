import Gatehouse.Json.Token

/-! JSON values and how they are built from tokens. Objects keep their entries in the order in
which they are written, repeated keys too.
-/

namespace Gatehouse.Json

/-- A JSON value. The text of a string or key is absent when its units make up no characters. -/
inductive Value
  | null
  | boolean (value : Bool)
  | number (written : List Char)
  | string (text : Option (List Char))
  | array (items : List Value)
  | object (entries : List (Option (List Char) × Value))

/-- A container that is being read; what it holds so far stands newest first. -/
inductive Frame
  | array (items : List Value)
  | object (entries : List (Option (List Char) × Value)) (key : Option (List Char))

/-- Put a value that was read into the innermost container. -/
def Frame.add : Frame → Value → Frame
  | array items, v => array (v :: items)
  | object entries key, v => object ((key, v) :: entries) key

/-- What a builder expects next, with the containers that are open, innermost first. -/
inductive Builder
  /-- A value, or the end of an array that has just begun. -/
  | value (frames : List Frame) (mayClose : Bool)
  /-- A key, or the end of an object that has just begun. -/
  | key (frames : List Frame) (entries : List (Option (List Char) × Value)) (mayClose : Bool)
  | colon (frames : List Frame) (entries : List (Option (List Char) × Value))
      (key : Option (List Char))
  /-- A comma or the end of the innermost container. -/
  | after (innermost : Frame) (frames : List Frame)
  | whole (value : Value)
  | broken

namespace Builder

def start : Builder := value [] false

/-- A value is complete. -/
def supply (v : Value) : List Frame → Builder
  | [] => whole v
  | frame :: frames => after (frame.add v) frames

/-- Take a token where a value may begin. -/
def beginValue (frames : List Frame) : Token → Builder
  | .null => supply .null frames
  | .boolean b => supply (.boolean b) frames
  | .number written => supply (.number written) frames
  | .string pieces => supply (.string (Piece.decode pieces)) frames
  | .openArray => value (.array [] :: frames) true
  | .openObject => key frames [] true
  | _ => broken

def step : Builder → Token → Builder
  | value (.array [] :: frames) true, .closeArray => supply (.array []) frames
  | value frames _, token => beginValue frames token
  | key frames _ true, .closeObject => supply (.object []) frames
  | key frames entries _, .string pieces => colon frames entries (Piece.decode pieces)
  | colon frames entries k, .colon => value (.object entries k :: frames) false
  | after (.array items) frames, .comma => value (.array items :: frames) false
  | after (.array items) frames, .closeArray => supply (.array items.reverse) frames
  | after (.object entries _) frames, .comma => key frames entries false
  | after (.object entries _) frames, .closeObject => supply (.object entries.reverse) frames
  | _, _ => broken

end Builder

/-- Read a text that is one value. -/
def Value.read? (text : List Char) : Option Value :=
  match tokens? text with
  | none => none
  | some tokens =>
      match tokens.foldl Builder.step .start with
      | .whole v => some v
      | _ => none

end Gatehouse.Json
