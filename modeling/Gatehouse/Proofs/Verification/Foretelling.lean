import Gatehouse.Proofs.Verification.Preview
import Gatehouse.Proofs.Verification.Unhindered

/-! What a preview foretells. A pass over the same members warns those who are listed first, has
those who are listed next in its removal batch, and asks for their removal when the preview says
so.
-/

namespace Gatehouse

-------------------------------------------------------------------------------
-- What a pass reports
-------------------------------------------------------------------------------

namespace Batch

theorem size_eq_zero_iff {batch : Batch}
    : batch.size = 0 ↔ batch.isEmpty = true :=
  List.length_eq_zero_iff.trans List.isEmpty_iff.symm

theorem size_ne_zero {batch : Batch} (full : batch.isEmpty = false)
    : batch.size ≠ 0 := by
  intro none
  cases full.symm.trans (size_eq_zero_iff.mp none)

end Batch

namespace PassReport

/-- The line that reports so many warnings, all of which went well. -/
def allWarnedLine (role : RoleId) (count : Nat) : String :=
  if count = 0 then "Found no members to be assigned the " ++ role.mention ++ " role."
  else
    "Assigned " ++ role.mention ++ " role to `"
      ++ (Numeral.text count ++ "/" ++ Numeral.text count) ++ "` members."

/-- The line that reports so many members to remove, all of whom were removed or none. -/
def allRemovedLine (count : Nat) (permitted : Bool) : String :=
  if count = 0 then "Found no members to be removed."
  else if permitted then
    "Removed `" ++ (Numeral.text count ++ "/" ++ Numeral.text count) ++ "` members."
  else "Not authorized to remove `" ++ Numeral.text count ++ "` members."

/-- Where there is nobody to remove it does not matter whether that is permitted. -/
theorem allRemovedLine_congr {count : Nat} {permitted other : Bool}
    (same : count ≠ 0 → permitted = other)
    : allRemovedLine count permitted = allRemovedLine count other := by
  unfold allRemovedLine
  split
  · rfl
  · next some => rw [same some]

variable {report : PassReport}

theorem warningLine_eq (told : report.classification.needsWarning.Told ∅ report.warning)
    : report.warningLine
      = allWarnedLine report.pendingRole report.classification.needsWarning.size := by
  unfold warningLine allWarnedLine
  cases warned : report.warning with
  | none =>
      rw [warned] at told
      rw [if_pos (Batch.size_eq_zero_iff.mpr told)]
  | some tally =>
      rw [warned] at told
      obtain ⟨full, tells⟩ := told
      dsimp only
      rw [if_neg (Batch.size_ne_zero full), tells.text_eq]
      rfl

theorem removalLine_eq {settings : ReconcileSettings} {total : Nat}
    {answer : Option (String × MemberId)} {posted : List (ChannelId × String × MessageId)}
    (settles
      : settings.Settles report.classification.needsRemoval total answer report.removal posted)
    : report.removalLine
      = allRemovedLine report.classification.needsRemoval.size
          (!needsConfirmation report.classification.needsRemoval.size total
              settings.gate.threshold
            || (settings.gate.decisionOf answer).permits) := by
  unfold removalLine allRemovedLine
  generalize report.removal = outcome at settles
  cases settles with
  | nobody empty => rw [if_pos (Batch.size_eq_zero_iff.mpr empty)]
  | automatic full small tells =>
      dsimp only
      rw [if_neg (Batch.size_ne_zero full), small, tells.text_eq]
      rfl
  | approved full large prompt permits tells =>
      dsimp only
      rw [if_neg (Batch.size_ne_zero full), permits, Bool.or_true, tells.text_eq]
      rfl
  | refused full large prompt vetoes =>
      dsimp only
      rw [if_neg (Batch.size_ne_zero full), large, vetoes]
      rfl

theorem singleLine_allWarnedLine (role : RoleId) (count : Nat)
    : SingleLine (allWarnedLine role count).toList := by
  have counts : SingleLine (Numeral.text count ++ "/" ++ Numeral.text count).toList :=
    .string_append (.string_append (.numeral _) (by decide)) (.numeral _)
  unfold allWarnedLine
  split
  · exact .string_append (.string_append (by decide) (.mention role)) (by decide)
  · exact .string_append (.string_append (.string_append (.string_append (by decide)
      (.mention role)) (by decide)) counts) (by decide)

theorem allWarnedLine_ne_nil (role : RoleId) (count : Nat)
    : (allWarnedLine role count).toList ≠ [] := by
  unfold allWarnedLine
  split <;> simp

theorem singleLine_allRemovedLine (count : Nat) (permitted : Bool)
    : SingleLine (allRemovedLine count permitted).toList := by
  have counts : SingleLine (Numeral.text count ++ "/" ++ Numeral.text count).toList :=
    .string_append (.string_append (.numeral _) (by decide)) (.numeral _)
  unfold allRemovedLine
  split
  · decide
  · split
    · exact .string_append (.string_append (by decide) counts) (by decide)
    · exact .string_append (.string_append (by decide) (.numeral _)) (by decide)

end PassReport

-------------------------------------------------------------------------------
-- A pass as it is foretold
-------------------------------------------------------------------------------

open Preview (listedUnder gives)

/-- A round does what a text foretells: it warns whom the text lists first, all of them with
success, has in its removal batch whom the text lists next, and if that is anyone, the gate does
not ask when the text says so, and posts its prompt when the text says that.
-/
structure Round.Foretold (round : Round) (report : PassReport) (text : String) : Prop where
  result : round.result = .ok report
  granted : round.granted = listedUnder "Pending role" text
  refused : round.refused = []
  removal
    : report.classification.needsRemoval.members.toList = listedUnder "Removal after" text
  automatic
    : listedUnder "Removal after" text ≠ []
      → (gives "automatic" text = true
        ↔ ∃ tally, report.removal = .executed .autoApproved tally)
  asked
    : listedUnder "Removal after" text ≠ []
      → (gives "reviewer confirmation required" text = true
        ↔ ∃ prompt,
          (round.settings.gate.reviewChannel,
            round.settings.gate.promptText report.classification.needsRemoval.size
              round.before.community.memberList.length
              round.settings.policy.removalAfter.days,
            prompt) ∈ postedBy round.exchanges)

/-- A prompt is no report: a report begins with an asterisk or an at sign. -/
theorem GateSettings.promptText_ne_render (gate : GateSettings) (candidates total days : Nat)
    (report : Report)
    : gate.promptText candidates total days ≠ AuditSink.render report := by
  have prompt
      : ∃ rest, (gate.promptText candidates total days).toList = 'V' :: rest
          ∨ (gate.promptText candidates total days).toList = '<' :: rest := by
    unfold promptText
    cases gate.reviewerRole <;>
      simp only [RoleId.mention, String.toList_append, List.append_assoc]
    · exact ⟨_, .inl rfl⟩
    · exact ⟨_, .inr rfl⟩
  have rendered
      : ∃ rest, (AuditSink.render report).toList = '*' :: rest
          ∨ (AuditSink.render report).toList = '@' :: rest := by
    unfold AuditSink.render
    cases report.severity <;> simp only [String.toList_append, List.append_assoc]
    · exact ⟨_, .inl rfl⟩
    · exact ⟨_, .inl rfl⟩
    · exact ⟨_, .inr rfl⟩
  intro same
  rw [same] at prompt
  obtain ⟨first, begins⟩ := prompt
  obtain ⟨second, other⟩ := rendered
  rcases begins with begins | begins <;> rcases other with other | other <;>
    cases begins.symm.trans other

namespace ReconcileSettings.Settles

variable {settings : ReconcileSettings} {batch : Batch} {total : Nat}
  {answer : Option (String × MemberId)} {outcome : RemovalOutcome}
  {posted : List (ChannelId × String × MessageId)}

/-- A removal goes on without asking exactly when there is someone to remove and the batch is
small.
-/
theorem automatic_iff (settles : settings.Settles batch total answer outcome posted)
    (full : batch.isEmpty = false)
    : (∃ tally, outcome = .executed .autoApproved tally)
      ↔ needsConfirmation batch.size total settings.gate.threshold = false := by
  cases settles with
  | nobody empty => cases full.symm.trans empty
  | automatic full small tells => exact ⟨fun _ => small, fun _ => ⟨_, rfl⟩⟩
  | approved full large prompt permits tells =>
      rw [large]
      refine ⟨fun automatic => ?_, nofun⟩
      obtain ⟨tally, same⟩ := automatic
      exact absurd (RemovalOutcome.executed.inj same).1 (settings.gate.decisionOf_ne_auto answer)
  | refused full large prompt vetoes =>
      rw [large]
      exact ⟨nofun, nofun⟩

/-- A prompt is posted exactly when there is someone to remove and the batch is large. -/
theorem posted_iff (settles : settings.Settles batch total answer outcome posted)
    (full : batch.isEmpty = false)
    : (∃ prompt,
        (settings.gate.reviewChannel,
          settings.gate.promptText batch.size total settings.policy.removalAfter.days, prompt)
          ∈ posted)
      ↔ needsConfirmation batch.size total settings.gate.threshold = true := by
  cases settles with
  | nobody empty => cases full.symm.trans empty
  | automatic full small tells =>
      rw [small]
      exact ⟨nofun, nofun⟩
  | approved full large prompt permits tells | refused full large prompt vetoes =>
      exact ⟨fun _ => large, fun _ => ⟨prompt, List.mem_singleton.mpr rfl⟩⟩

end ReconcileSettings.Settles

namespace ReconcileSettings

variable {settings : ReconcileSettings} {members : List Member}

/-- What a preview says about members. -/
def previewText (settings : ReconcileSettings) (now : Instant) (members : List Member) : String :=
  (settings.preview now members).text

/-- What is listed first are the members who are due a warning. -/
theorem listed_warned (settings : ReconcileSettings) (now : Instant) (members : List Member)
    : listedUnder "Pending role" (settings.previewText now members)
      = (settings.policy.classify now members).needsWarning.members.toList :=
  Preview.listedUnder_pending _

/-- What is listed next are the members who are due removal. -/
theorem listed_removed (settings : ReconcileSettings) (now : Instant) (members : List Member)
    : listedUnder "Removal after" (settings.previewText now members)
      = (settings.policy.classify now members).needsRemoval.members.toList :=
  Preview.listedUnder_removal _

theorem length_listed_removed (settings : ReconcileSettings) (now : Instant)
    (members : List Member)
    : (listedUnder "Removal after" (settings.previewText now members)).length
      = (settings.policy.classify now members).needsRemoval.size := by
  rw [listed_removed]
  rfl

/-- The verdict on a removal tells whether the batch is large. -/
theorem gives_iff (settings : ReconcileSettings) (now : Instant) {members : List Member}
    (some : listedUnder "Removal after" (settings.previewText now members) ≠ [])
    : let large := needsConfirmation
        (settings.policy.classify now members).needsRemoval.size members.length
        settings.gate.threshold
      (gives "automatic" (settings.previewText now members) = true ↔ large = false)
        ∧ (gives "reviewer confirmation required" (settings.previewText now members) = true
          ↔ large = true) := by
  intro large
  have full : (settings.policy.classify now members).needsRemoval.isEmpty = false := by
    rw [settings.listed_removed] at some
    exact Bool.eq_false_iff.mpr fun empty => some (List.isEmpty_iff.mp empty)
  have automatic := (settings.preview now members).gives_iff
    (List.mem_cons_self : "automatic" ∈ ["automatic", "reviewer confirmation required"])
  have required := (settings.preview now members).gives_iff
    (List.mem_cons_of_mem "automatic" List.mem_cons_self)
  have verdict : (settings.preview now members).verdict
      = if large then "reviewer confirmation required" else "automatic" := rfl
  have full : (settings.preview now members).classification.needsRemoval.isEmpty
      = false := full
  rw [verdict, full] at automatic required
  unfold previewText
  rw [automatic, required]
  cases large <;> simp

/-- A round over a community made of the members is as the preview foretells. -/
theorem round_foretold (distinct : (members.map Member.id).Nodup) (now : Instant)
    (sink : AuditSink)
    : ∃ report,
        (Round.mk settings sink
            (World.start (.ofMembers now members))).Foretold report
          (settings.previewText now members) := by
  obtain ⟨report, fulfilled⟩ :=
    (Round.mk settings sink (World.start (.ofMembers now members))).fulfilled
      (Community.unhindered_ofMembers now members)
  have classified : report.classification = settings.policy.classify now members := by
    rw [fulfilled.classified]
    change settings.policy.classify (Community.ofMembers now members).now
      (Community.ofMembers now members).memberList = _
    rw [Community.now_ofMembers]
    exact Policy.classify_congr (fun _ => Community.mem_memberList_ofMembers distinct now) _ now
  have total : (Community.ofMembers now members).memberList.length = members.length :=
    Community.length_memberList_ofMembers distinct now
  obtain ⟨posted, reported, all, reports, settles⟩ := fulfilled.settles
  have settles
      : settings.Settles report.classification.needsRemoval
          (Community.ofMembers now members).memberList.length _ report.removal posted :=
    settles
  rw [total] at settles
  have removal : report.classification.needsRemoval.members.toList
      = listedUnder "Removal after" (settings.previewText now members) := by
    rw [classified, settings.listed_removed]
  have full (some : listedUnder "Removal after" (settings.previewText now members) ≠ [])
      : report.classification.needsRemoval.isEmpty = false := by
    rw [← removal] at some
    exact Bool.eq_false_iff.mpr fun empty => some (List.isEmpty_iff.mp empty)
  refine ⟨report, fulfilled.result, ?_, fulfilled.refused, removal, fun some => ?_,
    fun some => ?_⟩
  · rw [fulfilled.granted, classified, settings.listed_warned]
  · rw [(settings.gives_iff now some).1, settles.automatic_iff (full some), classified]
  · rw [(settings.gives_iff now some).2, ← classified, ← settles.posted_iff (full some)]
    refine exists_congr fun prompt => ?_
    change _ ↔ (_, settings.gate.promptText _
      (Community.ofMembers now members).memberList.length _, prompt) ∈ _
    rw [total, all, List.mem_append]
    exact ⟨.inl, fun either => either.resolve_right fun report =>
      settings.gate.promptText_ne_render _ _ _ _ (reports _ report)⟩

end ReconcileSettings

end Gatehouse
