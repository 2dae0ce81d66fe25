import Gatehouse.Program

/-! Where reports go: on file, into the journal, or into the journal and a channel.
-/

namespace Gatehouse

inductive AuditSink
  | file
  | journal
  | channel (channel : ChannelId)
deriving DecidableEq

namespace AuditSink

/-- Cut a text after its line feeds, and take off the line feed or carriage return and line feed
of each piece. A line feed at the end ends the last line and begins no other.
-/
def lines (text : List Char) : List (List Char) :=
  let rec cut (line : List Char) : List Char → List (List Char)
    | [] => if line.isEmpty then [] else [line.reverse]
    | '\n' :: rest =>
        let whole := match line with
          | '\r' :: before => before.reverse
          | _ => line.reverse
        whole :: cut [] rest
    | c :: rest => cut (c :: line) rest
  cut [] text

/-- The level at which a severity is logged. -/
def level : Severity → Journal.Level
  | .info => .info
  | .warning => .warn
  | .alert => .error

/-- Write each line of a report to the journal. -/
def logLines (report : Report) : List (List Char) → Program Unit
  | [] => pure ()
  | line :: rest => do
      Program.log (level report.severity) (String.ofList line) [("title", report.title)]
      logLines report rest

/-- A report as a message; an alert calls for everyone who is there. -/
def render (report : Report) : String :=
  let body := "**" ++ report.title ++ "**\n" ++ report.text
  match report.severity with
  | .alert => "@here\n" ++ body
  | .info | .warning => body

def deliver (sink : AuditSink) (report : Report) : Program (Outcome Unit) :=
  match sink with
  | file => Program.file report
  | journal => do
      logLines report (lines report.text.toList)
      pure (.ok ())
  | channel destination => do
      logLines report (lines report.text.toList)
      match ← Program.call (.send destination (render report)) with
      | .ok _ => pure (.ok ())
      | .error failure => pure (.error failure)

end AuditSink

end Gatehouse
