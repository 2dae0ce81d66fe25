import Gatehouse.Config
import Gatehouse.Toml.Reader

/-! Configurations as TOML documents, in both directions. A section is read from a table by key, or
from an array by position; what it leaves out has its default where there is one. A written
document has all sections in order, and reads as the configuration it was written from.
-/

namespace Gatehouse

namespace Toml.Value

/-- The field of a section: by its name in a table, by its position in an array. A date has no
fields, and other values are no sections.
-/
def field? (position : Nat) (name : String) : Value → Option (Option Value)
  | table _ entries => some (Entries.find? name entries)
  | array items => some items[position]?
  | tables elements => some (elements[position]?.map (table .header))
  | moment => some none
  | _ => none

def string? : Value → Option String
  | string text => some text
  | _ => none

def id? {subject : Subject} : Value → Option (Id subject)
  | integer number => if 0 ≤ number then some ⟨UInt64.ofNat number.toNat⟩ else none
  | _ => none

def ids? {subject : Subject} : Value → Option (List (Id subject))
  | array items => items.mapM id?
  | _ => none

/-- A double; a whole number counts as one. -/
def float? : Value → Option Float
  | float number => some number
  | integer number =>
      let size := floatOf number.natAbs 0
      some (if number < 0 then -size else size)
  | _ => none

/-- Read a field that has to be there. -/
def required? {α : Type} (position : Nat) (name : String) (read : Value → Option α)
    (source : Value) : Option α := do
  let field ← source.field? position name
  read (← field)

/-- Read a field that may be left out. -/
def defaulted? {α : Type} (position : Nat) (name : String) (fallback : α)
    (read : Value → Option α) (source : Value) : Option α := do
  match ← source.field? position name with
  | none => some fallback
  | some value => read value

end Toml.Value

namespace Config

open Toml

/-- A reader of optional fields. -/
def present? {α : Type} (read : Value → Option α) (value : Value) : Option (Option α) :=
  (read value).map some

def RolesSection.ofValue? (v : Value) : Option RolesSection := do
  return {
    pending := ← v.required? 0 "pending" Value.id?
    baseline := ← v.defaulted? 1 "baseline" [] Value.ids?
    verified := ← v.required? 2 "verified" Value.id?
    reviewers := ← v.defaulted? 3 "reviewers" none (present? Value.id?) }

def ChannelsSection.ofValue? (v : Value) : Option ChannelsSection := do
  return {
    review := ← v.required? 0 "review" Value.id?
    reminder := ← v.required? 1 "reminder" Value.id?
    audit := ← v.defaulted? 2 "audit" none (present? Value.id?) }

def PolicySection.ofValue? (v : Value) : Option PolicySection := do
  let standard := PolicySection.standard
  return {
    warningAfter := ← v.defaulted? 0 "warning_after" standard.warningAfter Value.string?
    removalAfter := ← v.defaulted? 1 "removal_after" standard.removalAfter Value.string?
    confirmationThreshold :=
      ← v.defaulted? 2 "confirmation_threshold" standard.confirmationThreshold Value.float?
    confirmationTimeout :=
      ← v.defaulted? 3 "confirmation_timeout" standard.confirmationTimeout Value.string?
    reconcileInterval :=
      ← v.defaulted? 4 "reconcile_interval" standard.reconcileInterval Value.string?
    approveToken := ← v.defaulted? 5 "approve_token" standard.approveToken Value.string?
    denyToken := ← v.defaulted? 6 "deny_token" standard.denyToken Value.string? }

def ReminderSection.ofValue? (v : Value) : Option ReminderSection := do
  return {
    frequency := ← v.defaulted? 0 "frequency" ReminderSection.standard.frequency Value.string?
    message := ← v.defaulted? 1 "message" none (present? Value.string?) }

/-- In an array the place of the log file has to be there. -/
def LoggingSection.ofValue? (v : Value) : Option LoggingSection := do
  let level ← v.defaulted? 0 "level" LoggingSection.standard.level Value.string?
  let file ← match v with
    | .array _ | .tables _ => v.required? 1 "file" (present? Value.string?)
    | _ => v.defaulted? 1 "file" none (present? Value.string?)
  return ⟨level, file⟩

/-- Read a section that may be left out. -/
def optional? {α : Type} (document : Entries) (name : String) (fallback : α)
    (read : Value → Option α) : Option α :=
  match document.find? name with
  | none => some fallback
  | some value => read value

def ofDocument? (storePath : String) (document : Entries) : Option Config := do
  return {
    community := ← (← document.find? "guild").required? 0 "id" Value.id?
    roles := ← RolesSection.ofValue? (← document.find? "roles")
    channels := ← ChannelsSection.ofValue? (← document.find? "channels")
    policy := ← optional? document "policy" .standard PolicySection.ofValue?
    reminder := ← optional? document "reminder" .standard ReminderSection.ofValue?
    storePath := ← optional? document "store" storePath
      (Value.defaulted? 0 "path" storePath Value.string?)
    logging := ← optional? document "logging" .standard LoggingSection.ofValue? }

/-- Read a configuration; `storePath` is the place of the store when none is given. -/
def read? (storePath : String) (text : String) : Option Config :=
  (Toml.read? text).bind (ofDocument? storePath)

/-- An identifier as a number with sign, when it is one. -/
def idText? {subject : Subject} (id : Id subject) : Option (List Char) :=
  if id.word.toNat < Nat.pow 2 63 then some (Numeral.digits id.word.toNat) else none

/-- An array: at most one item on a line, more on lines of their own. -/
def arrayText (items : List (List Char)) : List Char :=
  match items with
  | [] => ['[', ']']
  | [item] => '[' :: item ++ [']']
  | items => '[' :: '\n' :: items.flatMap (fun item => List.replicate 4 ' ' ++ item ++ [',', '\n'])
      ++ [']']

def entryText (key : String) (value : List Char) : List Char :=
  key.toList ++ ' ' :: '=' :: ' ' :: value ++ ['\n']

def stringEntry (key text : String) : List Char := entryText key (quoted text.toList)

def optionalEntry (key : String) : Option (List Char) → List Char
  | none => []
  | some value => entryText key value

def sectionText (name : String) (entries : List (List Char)) : List Char :=
  '[' :: name.toList ++ ']' :: '\n' :: entries.flatten

/-- The text of an optional identifier, which is absent when the identifier is. -/
def optionalId? {subject : Subject} : Option (Id subject) → Option (Option (List Char))
  | none => some none
  | some id => (idText? id).map some

/-- The written document; none when an identifier does not fit. -/
def text? (config : Config) : Option String := do
  let guild := sectionText "guild" [entryText "id" (← idText? config.community)]
  let roles := sectionText "roles" [
    entryText "pending" (← idText? config.roles.pending),
    entryText "baseline" (arrayText (← config.roles.baseline.mapM idText?)),
    entryText "verified" (← idText? config.roles.verified),
    optionalEntry "reviewers" (← optionalId? config.roles.reviewers)]
  let channels := sectionText "channels" [
    entryText "review" (← idText? config.channels.review),
    entryText "reminder" (← idText? config.channels.reminder),
    optionalEntry "audit" (← optionalId? config.channels.audit)]
  let policy := sectionText "policy" [
    stringEntry "warning_after" config.policy.warningAfter,
    stringEntry "removal_after" config.policy.removalAfter,
    entryText "confirmation_threshold" (floatText config.policy.confirmationThreshold),
    stringEntry "confirmation_timeout" config.policy.confirmationTimeout,
    stringEntry "reconcile_interval" config.policy.reconcileInterval,
    stringEntry "approve_token" config.policy.approveToken,
    stringEntry "deny_token" config.policy.denyToken]
  let reminder := sectionText "reminder" [
    stringEntry "frequency" config.reminder.frequency,
    optionalEntry "message" (config.reminder.message.map (quoted ·.toList))]
  let store := sectionText "store" [stringEntry "path" config.storePath]
  let logging := sectionText "logging" [
    stringEntry "level" config.logging.level,
    optionalEntry "file" (config.logging.file.map (quoted ·.toList))]
  return String.ofList
    (['\n'].intercalate [guild, roles, channels, policy, reminder, store, logging])

end Config

end Gatehouse
