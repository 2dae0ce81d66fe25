import Gatehouse.Store
import Gatehouse.Toml.Reader

/-! Stores as TOML documents: a table for each text, with its key beside it.
-/

namespace Gatehouse.Store

open Toml (quoted)

def entryText (entry : String × String) : List Char :=
  "[[entry]]\nkey = ".toList ++ quoted entry.1.toList ++ "\nvalue = ".toList
    ++ quoted entry.2.toList ++ ['\n']

def text (store : Store) : String := String.ofList (store.entries.flatMap entryText)

def ofTable? (table : Toml.Entries) : Option (String × String) :=
  match table.find? "key", table.find? "value" with
  | some (.string key), some (.string value) => some (key, value)
  | _, _ => none

/-- The store that a document holds; one without tables holds the empty store. -/
def ofDocument? : Toml.Entries → Option Store
  | [] => some .empty
  | [("entry", .tables tables)] => (tables.mapM ofTable?).map Store.mk
  | _ => none

def read? (text : String) : Option Store := (Toml.read? text).bind ofDocument?

end Gatehouse.Store
