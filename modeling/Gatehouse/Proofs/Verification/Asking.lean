import Gatehouse.Proofs.Program.Conversation
import Gatehouse.Verification.Pass

/-! What a pass asks for, whatever it is answered. It calls, files a report, reads the clock once
and writes to the journal; it does not use the store.
-/

namespace Gatehouse

open Program (AsksOnly)

section

variable {allowed : Effect → Prop}

-------------------------------------------------------------------------------
-- Batches
-------------------------------------------------------------------------------

/-- Attempts ask only for what each of them may ask for, by induction over the members. -/
theorem attemptEach_asksOnly {action : MemberId → Program (Outcome Unit)}
    (each : ∀ member, (action member).AsksOnly allowed) (tally : Tally) (members : List MemberId)
    : (attemptEach action tally members).AsksOnly allowed := by
  induction members generalizing tally with
  | nil => exact .pure tally
  | cons member rest ih => exact .bind (each member) fun outcome => ih (tally.record outcome)

theorem noteFailures_asksOnly (logs : ∀ entry, allowed (.log entry)) (tally : Tally)
    (verb noun : String)
    : (noteFailures tally verb noun).AsksOnly allowed := by
  unfold noteFailures
  split
  · exact .pure ()
  · exact .ask (logs _)

theorem assignRole_asksOnly {role : RoleId} {reason : String}
    (grants : ∀ member, allowed (.call (.addRole member role reason)))
    (logs : ∀ entry, allowed (.log entry)) (members : OrderedSet MemberId)
    : (assignRole members role reason).AsksOnly allowed :=
  .bind (.ask (logs _)) fun _ =>
    .bind (attemptEach_asksOnly (fun member => .ask (grants member)) _ _) fun tally =>
      .bind (noteFailures_asksOnly logs tally _ _) fun _ => .pure tally

theorem removeMembers_asksOnly {reason : String}
    (removes : ∀ member, allowed (.call (.kick member reason)))
    (logs : ∀ entry, allowed (.log entry)) (members : OrderedSet MemberId)
    : (removeMembers members reason).AsksOnly allowed :=
  .bind (.ask (logs _)) fun _ =>
    .bind (attemptEach_asksOnly (fun member => .ask (removes member)) _ _) fun tally =>
      .bind (noteFailures_asksOnly logs tally _ _) fun _ => .pure tally

theorem ReconcileSettings.warn_asksOnly (settings : ReconcileSettings)
    (grants : ∀ member role reason, allowed (.call (.addRole member role reason)))
    (logs : ∀ entry, allowed (.log entry)) (batch : Batch)
    : (settings.warn batch).AsksOnly allowed := by
  unfold warn
  split
  · exact .pure none
  · exact .bind (assignRole_asksOnly (fun member => grants member _ _) logs _)
      fun tally => .pure (some tally)

-------------------------------------------------------------------------------
-- The gate
-------------------------------------------------------------------------------

namespace GateSettings

theorem tolerate_asksOnly (logs : ∀ entry, allowed (.log entry)) (outcome : Outcome Unit)
    (note : String) (fields : List (String × String))
    : (tolerate outcome note fields).AsksOnly allowed := by
  cases outcome with
  | ok done => exact .pure ()
  | error failure => exact .ask (logs _)

theorem noteAnswer_asksOnly (settings : GateSettings) (logs : ∀ entry, allowed (.log entry))
    (answer : Option (String × MemberId))
    : (settings.noteAnswer answer).AsksOnly allowed := by
  cases answer with
  | none => exact .ask (logs _)
  | some given => exact .ask (logs _)

variable (calls : ∀ call, allowed (.call call)) (logs : ∀ entry, allowed (.log entry))
include calls logs

theorem offer_asksOnly (settings : GateSettings) (prompt : MessageId) (token : String)
    : (settings.offer prompt token).AsksOnly allowed :=
  .bind (.ask (calls _)) fun outcome => tolerate_asksOnly logs outcome _ _

theorem settle_asksOnly (settings : GateSettings) (candidates : Nat) (prompt : MessageId)
    : (settings.settle candidates prompt).AsksOnly allowed :=
  .bind (settings.offer_asksOnly calls logs prompt _) fun _ =>
    .bind (settings.offer_asksOnly calls logs prompt _) fun _ =>
      .bind (.ask (calls _)) fun answer =>
        .bind (.ask (calls _)) fun cleared =>
          .bind (tolerate_asksOnly logs cleared _ _) fun _ =>
            .bind (settings.noteAnswer_asksOnly logs answer) fun _ =>
              .bind (.ask (calls _)) fun edited =>
                .bind (tolerate_asksOnly logs edited _ _) fun _ => .pure _

theorem authorize_asksOnly (settings : GateSettings) (candidates total days : Nat)
    : (settings.authorize candidates total days).AsksOnly allowed := by
  refine .bind (.ask (logs _)) fun _ => ?_
  split
  · exact .bind (.ask (logs _)) fun _ => .pure _
  · refine .bind (.ask (logs _)) fun _ => .bind (.ask (calls _)) fun posted => ?_
    cases posted with
    | error failure => exact .pure _
    | ok prompt =>
        exact .bind (settings.settle_asksOnly calls logs candidates prompt) fun _ => .pure _

end GateSettings

-------------------------------------------------------------------------------
-- The whole pass
-------------------------------------------------------------------------------

namespace AuditSink

/-- Lines go to the journal alone, by induction over the lines. -/
theorem logLines_asksOnly (logs : ∀ entry, allowed (.log entry)) (report : Report)
    (lines : List (List Char))
    : (logLines report lines).AsksOnly allowed := by
  induction lines with
  | nil => exact .pure ()
  | cons line rest ih => exact .bind (.ask (logs _)) fun _ => ih

theorem deliver_asksOnly (calls : ∀ call, allowed (.call call))
    (files : ∀ report, allowed (.file report)) (logs : ∀ entry, allowed (.log entry))
    (sink : AuditSink) (report : Report)
    : (sink.deliver report).AsksOnly allowed := by
  cases sink with
  | file => exact .ask (files report)
  | journal => exact .bind (logLines_asksOnly logs report _) fun _ => .pure _
  | channel destination =>
      refine .bind (logLines_asksOnly logs report _) fun _ =>
        .bind (.ask (calls _)) fun posted => ?_
      cases posted with
      | error failure => exact .pure _
      | ok message => exact .pure _

end AuditSink

namespace ReconcileSettings

variable (calls : ∀ call, allowed (.call call)) (files : ∀ report, allowed (.file report))
  (logs : ∀ entry, allowed (.log entry))
include calls logs

theorem remove_asksOnly (settings : ReconcileSettings) (batch : Batch) (total : Nat)
    : (settings.remove batch total).AsksOnly allowed := by
  unfold remove
  split
  · exact .pure _
  · refine .bind (settings.gate.authorize_asksOnly calls logs _ _ _) fun verdict => ?_
    cases verdict with
    | error failure => exact .bind (.ask (logs _)) fun _ => .pure _
    | ok decision =>
        dsimp only
        split
        · exact .bind (.ask (logs _)) fun _ => .pure _
        · exact .bind (removeMembers_asksOnly (fun _ => calls _) logs _) fun _ => .pure _

include files

theorem emit_asksOnly (sink : AuditSink) (text : String) (severity : Severity)
    : (emit sink text severity).AsksOnly allowed := by
  refine .bind (sink.deliver_asksOnly calls files logs _) fun outcome => ?_
  cases outcome with
  | ok done => exact .pure ()
  | error failure => exact .ask (logs _)

theorem act_asksOnly (settings : ReconcileSettings) (sink : AuditSink) (startedAt : Instant)
    (members : List Member)
    : (settings.act sink startedAt members).AsksOnly allowed :=
  .bind (.ask (logs _)) fun _ =>
    .bind (.ask (logs _)) fun _ =>
      .bind (settings.warn_asksOnly (fun _ _ _ => calls _) logs _) fun _ =>
        .bind (settings.remove_asksOnly calls logs _ _) fun _ =>
          .bind (emit_asksOnly calls files logs sink _ _) fun _ =>
            .bind (.ask (logs _)) fun _ => .pure _

theorem pass_asksOnly (reads : allowed .clock) (settings : ReconcileSettings) (sink : AuditSink)
    : (settings.pass sink).AsksOnly allowed := by
  refine .bind (.ask reads) fun startedAt => .bind (.ask (logs _)) fun _ =>
    .bind (.ask (calls .listMembers)) fun listing => ?_
  cases listing with
  | error failure =>
      exact .bind (.ask (logs _)) fun _ =>
        .bind (emit_asksOnly calls files logs sink _ _) fun _ => .pure _
  | ok members =>
      exact .bind (settings.act_asksOnly calls files logs sink startedAt members)
        fun _ => .pure _

end ReconcileSettings

end

end Gatehouse
