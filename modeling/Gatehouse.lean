import Gatehouse.Decimal.Shortest
import Gatehouse.Main
import Gatehouse.Rehearsal.Pending
import Gatehouse.Service
import Gatehouse.Verification.Admission
import Gatehouse.Proofs.Program.Course
import Gatehouse.Proofs.Reactions.Delivery
import Gatehouse.Proofs.Verification.Attempts
import Gatehouse.Proofs.Verification.Prompt
import Gatehouse.Proofs.Verification.Conduct
import Gatehouse.Proofs.Verification.Round
import Gatehouse.Proofs.Community.Operation
import Gatehouse.Proofs.Config.Coherence
import Gatehouse.Proofs.Verification.Acceptance
import Gatehouse.Proofs.Verification.Approval
import Gatehouse.Proofs.Verification.Convergence
import Gatehouse.Proofs.Verification.Effect
import Gatehouse.Proofs.Program.Conversation
import Gatehouse.Proofs.Verification.Accounts
import Gatehouse.Proofs.Verification.Attempting
import Gatehouse.Proofs.Verification.Interruption
import Gatehouse.Proofs.Community.Posts
import Gatehouse.Proofs.Reminder.Notice
import Gatehouse.Proofs.Reminder.Standing
import Gatehouse.Proofs.Text.Lines
import Gatehouse.Proofs.Verification.Preview
import Gatehouse.Proofs.Community.Membership
import Gatehouse.Proofs.Verification.Unhindered
import Gatehouse.Proofs.Verification.Foretelling
import Gatehouse.Proofs.Simulation
import Gatehouse.Proofs.Schedule.Promptness
import Gatehouse.Proofs.Reminder.History
import Gatehouse.Proofs.Reminder.Cadence
import Gatehouse.Proofs.Reactions.Independence
import Gatehouse.Proofs.Toml.Quoted
import Gatehouse.Proofs.Toml.Scalar
import Gatehouse.Proofs.Toml.Document
import Gatehouse.Proofs.Config.RoundTrip
import Gatehouse.Proofs.Schedule.Waiting
import Gatehouse.Proofs.Schedule.Timetable
import Gatehouse.Proofs.Schedule.Alone
import Gatehouse.Proofs.Service.Reconciliation
import Gatehouse.Proofs.Community.Board
import Gatehouse.Proofs.Community.Renaming
import Gatehouse.Proofs.Service.Passing
import Gatehouse.Proofs.Service.Scene
import Gatehouse.Proofs.Service.Independence
import Gatehouse.Proofs.Verification.Asking
import Gatehouse.Proofs.Verification.Consultation
import Gatehouse.Proofs.Snapshot.Repetition
import Gatehouse.Proofs.Verification.Selection
import Gatehouse.Proofs.Toml.Layout
import Gatehouse.Proofs.Toml.Extent
import Gatehouse.Proofs.Toml.Upkeep
import Gatehouse.Proofs.Config.Creation
import Gatehouse.Proofs.Time.Calendar
import Gatehouse.Proofs.Time.Written
import Gatehouse.Proofs.Json.Reading
import Gatehouse.Proofs.Snapshot.RoundTrip
import Gatehouse.Proofs.Time.Order
import Gatehouse.Proofs.Config.Judgement
import Gatehouse.Proofs.Verification.Admission
import Gatehouse.Proofs.Schedule.Vigil
import Gatehouse.Proofs.Community.Accounting
import Gatehouse.Proofs.Community.Filing
import Gatehouse.Proofs.Community.Reach
