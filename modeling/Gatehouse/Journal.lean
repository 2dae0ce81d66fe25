/-! The journal of the service: events with a level, a message and named fields.
-/

namespace Gatehouse.Journal

inductive Level
  | trace
  | debug
  | info
  | warn
  | error
deriving DecidableEq, Repr

def Level.text : Level → String
  | trace => "TRACE"
  | debug => "DEBUG"
  | info => "INFO"
  | warn => "WARN"
  | error => "ERROR"

/-- An event; its fields stand in the order in which they were given. -/
structure Entry where
  level : Level
  message : String
  fields : List (String × String)
deriving DecidableEq, Repr

end Gatehouse.Journal
