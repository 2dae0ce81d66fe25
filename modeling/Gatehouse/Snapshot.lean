import Gatehouse.Community.Member
import Gatehouse.Json.Value
import Gatehouse.Time.Instant.Text

/-! Snapshots of a membership as JSON texts: an array with one object, or one short array, for
each member. No member is listed twice.
-/

namespace Gatehouse

inductive SnapshotFault
  | unreadable
  | duplicate (member : MemberId)
deriving DecidableEq

namespace Snapshot

/-- The message about a member that is listed twice. -/
def duplicateText (member : MemberId) : String :=
  "Snapshot lists member " ++ member.text ++ " more than once"

open Json (Value)

/-- An identifier is a number without sign, fraction and exponent. -/
def readId? {subject : Subject} : Value → Option (Id subject)
  | .number written =>
      if written.all Numeral.isDigit then ((Numeral.readWord written).map Id.mk).toOption
      else none
  | _ => none

/-- A join date is a text in the free form, or null when it is unknown. -/
def readJoined? : Value → Option (Option Instant)
  | .null => some none
  | .string (some text) => (Instant.read? text).map some
  | _ => none

def readRoles? : Value → Option (OrderedSet RoleId)
  | .array items => (items.mapM readId?).map .ofList
  | _ => none

def readBot? : Value → Option Bool
  | .boolean b => some b
  | _ => none

/-- The fields of a member as far as they are given. -/
structure Fields where
  id : Option Value
  joinedAt : Option Value
  roles : Option Value
  bot : Option Value

namespace Fields

def absent : Fields := ⟨none, none, none, none⟩

/-- Give a field its value, once. -/
def set? (slot : Option Value) (value : Value) (put : Option Value → Fields) : Option Fields :=
  match slot with
  | some _ => none
  | none => some (put (some value))

/-- Take an entry of an object; an unknown key is passed over. -/
def take? (fields : Fields) (entry : Option (List Char) × Value) : Option Fields :=
  match entry.1 with
  | none => none
  | some key =>
      if key = "id".toList then set? fields.id entry.2 ({ fields with id := · })
      else if key = "joined_at".toList then
        set? fields.joinedAt entry.2 ({ fields with joinedAt := · })
      else if key = "roles".toList then set? fields.roles entry.2 ({ fields with roles := · })
      else if key = "bot".toList then set? fields.bot entry.2 ({ fields with bot := · })
      else some fields

/-- The fields of a value: by key, or by position with the last ones left out. -/
def read? : Value → Option Fields
  | .object entries => entries.foldlM take? absent
  | .array [id] => some ⟨some id, none, none, none⟩
  | .array [id, joinedAt] => some ⟨some id, some joinedAt, none, none⟩
  | .array [id, joinedAt, roles] => some ⟨some id, some joinedAt, some roles, none⟩
  | .array [id, joinedAt, roles, bot] => some ⟨some id, some joinedAt, some roles, some bot⟩
  | _ => none

/-- Read a field that may be left out. -/
def optional? {α : Type} (slot : Option Value) (fallback : α) (read : Value → Option α)
    : Option α :=
  match slot with
  | none => some fallback
  | some value => read value

def member? (fields : Fields) : Option Member := do
  let id ← readId? (← fields.id)
  let joinedAt ← optional? fields.joinedAt none readJoined?
  let roles ← optional? fields.roles ∅ readRoles?
  let bot ← optional? fields.bot false readBot?
  return ⟨id, joinedAt, roles, bot⟩

end Fields

/-- The members of a value, repeated ones too. -/
def members? : Value → Option (List Member)
  | .array items => items.mapM fun item => (Fields.read? item).bind Fields.member?
  | _ => none

/-- The first member that stands behind one with the same identifier. -/
def firstDuplicate? (seen : OrderedSet MemberId) : List Member → Option MemberId
  | [] => none
  | member :: rest =>
      if seen.contains member.id then some member.id
      else firstDuplicate? (seen.insert member.id) rest

def read (text : String) : Except SnapshotFault (List Member) :=
  match (Value.read? text.toList).bind members? with
  | none => .error .unreadable
  | some members =>
      match firstDuplicate? ∅ members with
      | some id => .error (.duplicate id)
      | none => .ok members

/-- Items on lines of their own, with a comma after each but the last. -/
def lines (indent : List Char) : List (List Char) → List Char
  | [] => []
  | [item] => '\n' :: indent ++ item
  | item :: rest => '\n' :: indent ++ item ++ ',' :: lines indent rest

/-- Items between brackets, one on a line; no items are written close. -/
def block (opening closing : Char) (indent inner : List Char) (items : List (List Char))
    : List Char :=
  if items.isEmpty then [opening, closing]
  else opening :: lines inner items ++ '\n' :: indent ++ [closing]

def quoted (text : List Char) : List Char := '"' :: text ++ ['"']

def entry (key : String) (value : List Char) : List Char :=
  quoted key.toList ++ ':' :: ' ' :: value

def indentOf (depth : Nat) : List Char := List.replicate (2 * depth) ' '

def joinedText (joinedAt : Option Instant) : List Char :=
  match joinedAt with
  | none => "null".toList
  | some at_ => quoted at_.text.toList

def memberText (member : Member) : List Char :=
  block '\x7b' '\x7d' (indentOf 1) (indentOf 2)
    [entry "id" (Numeral.digits member.id.word.toNat),
      entry "joined_at" (joinedText member.joinedAt),
      entry "roles" (block '[' ']' (indentOf 2) (indentOf 3)
        (member.roles.toList.map fun role => Numeral.digits role.word.toNat)),
      entry "bot" (if member.bot then "true".toList else "false".toList)]

def text (members : List Member) : String :=
  String.ofList (block '[' ']' [] (indentOf 1) (members.map memberText))

end Snapshot

end Gatehouse
