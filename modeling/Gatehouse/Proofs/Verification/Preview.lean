import Gatehouse.Proofs.Text.Lines
import Gatehouse.Verification.Preview

/-! What a preview says, line by line. Under each heading it lists the members of a batch, one
on a line, and in the end it gives the verdict on the removal, if there is one. Whoever reads
the lines reads the batches.
-/

namespace Gatehouse

-------------------------------------------------------------------------------
-- Reading a preview
-------------------------------------------------------------------------------

namespace Preview

/-- The indented lines that follow the first line that begins with a heading. -/
def linesUnder (heading : String) (lines : List (List Char)) : List (List Char) :=
  (lines.dropWhile fun line => !heading.toList.isPrefixOf line).tail.takeWhile fun line =>
    "  ".toList.isPrefixOf line

/-- The member that a line names. -/
def entry? (line : List Char) : Option MemberId := (Id.read (String.ofList line)).toOption

/-- The members listed under a heading of a text. -/
def listedUnder (heading text : String) : List MemberId :=
  (linesUnder heading (AuditSink.lines text.toList)).filterMap entry?

/-- A text gives a verdict on the removal. -/
def gives (verdict text : String) : Bool :=
  (AuditSink.lines text.toList).any fun line =>
    "Removal covers".toList.isPrefixOf line && verdict.toList.isSuffixOf line

-------------------------------------------------------------------------------
-- The lines of a preview
-------------------------------------------------------------------------------

def summaryLine (preview : Preview) : List Char :=
  ("🔍 " ++ Numeral.text preview.total ++ " members as of " ++ preview.asOf.offsetText).toList

def headingLine (heading : String) (days : Nat) (batch : Batch) : List Char :=
  (heading ++ " after " ++ Numeral.text days ++ " days: " ++ Numeral.text batch.size
    ++ " members").toList

/-- The line that names a member. -/
def entryLine (id : MemberId) : List Char := "  ".toList ++ id.text.toList

def entryLines (batch : Batch) : List (List Char) :=
  if batch.isEmpty then ["  (none)".toList] else batch.members.toList.map entryLine

def verdict (preview : Preview) : String :=
  if preview.asks then "reviewer confirmation required" else "automatic"

def verdictLine (preview : Preview) : List Char :=
  ("Removal covers "
    ++ percentText (removalShare preview.classification.needsRemoval.size preview.total)
    ++ "% of the population: " ++ preview.verdict).toList

def verdictLines (preview : Preview) : List (List Char) :=
  if preview.classification.needsRemoval.isEmpty then [] else [[], preview.verdictLine]

/-- The heading of the members who are due a warning. -/
def pendingHeading (preview : Preview) : String :=
  "Pending role " ++ preview.policy.pendingRole.mention

/-- A preview, line by line. -/
def layout (preview : Preview) : List (List Char) :=
  [preview.summaryLine, []]
    ++ [headingLine preview.pendingHeading preview.policy.warningAfter.days
        preview.classification.needsWarning]
    ++ entryLines preview.classification.needsWarning
    ++ [headingLine "Removal" preview.policy.removalAfter.days
        preview.classification.needsRemoval]
    ++ entryLines preview.classification.needsRemoval
    ++ preview.verdictLines

/-- The members of a batch are listed on lines that are ended each. -/
theorem listText_toList (batch : Batch)
    : (listText batch).toList = (entryLines batch).flatMap (· ++ ['\n']) := by
  have each (id : MemberId) : ("  " ++ id.text ++ "\n").toList = entryLine id ++ ['\n'] := by
    simp [entryLine, String.toList_append]
  unfold listText entryLines
  split
  · rfl
  · rw [String.toList_join, List.flatMap_map, List.flatMap_map]
    simp only [each]

/-- The text of a preview is its lines, ended each. -/
theorem text_toList (preview : Preview)
    : preview.text.toList = preview.layout.flatMap (· ++ ['\n']) := by
  have verdicts
      : preview.removalText.toList = preview.verdictLines.flatMap (· ++ ['\n']) := by
    unfold removalText verdictLines
    dsimp only
    split
    · rfl
    · simp [verdictLine, verdict, String.toList_append]
  unfold text layout
  simp only [String.toList_append, batchText, listText_toList, verdicts, List.flatMap_append,
    List.flatMap_cons, List.flatMap_nil, List.append_nil, summaryLine, headingLine,
    pendingHeading, List.append_assoc]
  rfl

theorem singleLine_headingLine {heading : String} (single : SingleLine heading.toList)
    (days : Nat) (batch : Batch)
    : SingleLine (headingLine heading days batch) :=
  .string_append (.string_append (.string_append (.string_append (.string_append single
    (by decide)) (.numeral _)) (by decide)) (.numeral _)) (by decide)

theorem singleLine_entryLines {batch : Batch} {line : List Char}
    (member : line ∈ entryLines batch)
    : SingleLine line := by
  unfold entryLines at member
  split at member
  · cases List.mem_singleton.mp member
    decide
  · obtain ⟨id, -, rfl⟩ := List.mem_map.mp member
    exact SingleLine.append (by decide) (.numeral _)

theorem singleLine_verdictLines {preview : Preview} {line : List Char}
    (member : line ∈ preview.verdictLines)
    : SingleLine line := by
  have verdict : SingleLine preview.verdict.toList := by
    unfold Preview.verdict
    split <;> decide
  unfold verdictLines at member
  split at member
  · cases member
  · rcases List.mem_cons.mp member with rfl | last
    · exact nofun
    · cases List.mem_singleton.mp last
      exact .string_append (.string_append (.string_append (by decide) (.fixedText _ _))
        (by decide)) verdict

/-- No line of a preview falls into several. -/
theorem singleLine_of_mem_layout {line : List Char} (preview : Preview)
    (member : line ∈ preview.layout)
    : SingleLine line := by
  simp only [layout, List.append_assoc, List.mem_append, List.mem_cons, List.not_mem_nil,
    or_false] at member
  rcases member with (rfl | rfl) | rfl | warned | rfl | removed | verdict
  · exact .string_append (.string_append (.string_append (by decide) (.numeral _)) (by decide))
      (.offsetText _)
  · exact nofun
  · exact singleLine_headingLine (.string_append (by decide) (.mention _)) _ _
  · exact singleLine_entryLines warned
  · exact singleLine_headingLine (by decide) _ _
  · exact singleLine_entryLines removed
  · exact singleLine_verdictLines verdict

/-- The lines of the text of a preview. -/
theorem lines_text (preview : Preview)
    : AuditSink.lines preview.text.toList = preview.layout := by
  have whole :=
    AuditSink.lines_flatMap (fun _ member => preview.singleLine_of_mem_layout member) []
  rw [List.append_nil] at whole
  rw [text_toList, whole]
  exact List.append_nil _

-------------------------------------------------------------------------------
-- What is read
-------------------------------------------------------------------------------

/-- The line of a member names it. -/
theorem entry?_entryLine (id : MemberId)
    : entry? (entryLine id) = some id := by
  unfold entry? entryLine
  rw [Id.read_blanks_text (List.all_eq_true.mp (by decide)) id]
  rfl

/-- The lines of a batch name its members. -/
theorem entries_eq (batch : Batch)
    : (entryLines batch).filterMap entry? = batch.members.toList := by
  unfold entryLines
  split
  · next empty =>
    rw [List.isEmpty_iff.mp empty]
    rfl
  · rw [List.filterMap_map]
    simp only [Function.comp_def, entry?_entryLine, List.filterMap_some]

/-- The lines of a batch are indented. -/
theorem indented_of_mem_entryLines {batch : Batch} {line : List Char}
    (member : line ∈ entryLines batch)
    : ∃ rest, line = ' ' :: ' ' :: rest := by
  unfold entryLines at member
  split at member
  · exact ⟨_, List.mem_singleton.mp member⟩
  · obtain ⟨id, -, rfl⟩ := List.mem_map.mp member
    exact ⟨_, rfl⟩

theorem summaryLine_eq (preview : Preview)
    : ∃ rest, preview.summaryLine = '🔍' :: rest := by
  unfold summaryLine
  simp only [String.toList_append, List.append_assoc]
  exact ⟨_, rfl⟩

theorem headingLine_eq (heading : String) (days : Nat) (batch : Batch)
    : ∃ rest, headingLine heading days batch = heading.toList ++ (" after ".toList ++ rest) := by
  unfold headingLine
  simp only [String.toList_append, List.append_assoc]
  exact ⟨_, rfl⟩

/-- The heading of the warning batch names the pending role. -/
theorem pendingLine_eq (preview : Preview) (days : Nat) (batch : Batch)
    : ∃ rest,
        headingLine preview.pendingHeading days batch = "Pending role ".toList ++ rest := by
  obtain ⟨rest, same⟩ := headingLine_eq preview.pendingHeading days batch
  rw [same, pendingHeading, String.toList_append, List.append_assoc]
  exact ⟨_, rfl⟩

theorem verdictLine_eq (preview : Preview)
    : ∃ middle,
        preview.verdictLine
          = "Removal covers ".toList ++ (middle ++ preview.verdict.toList) := by
  unfold verdictLine
  simp only [String.toList_append, List.append_assoc]
  exact ⟨_ ++ _, by rw [List.append_assoc]⟩

/-- The lines under a heading are those between it and the next line that is not indented. -/
theorem linesUnder_eq {heading : String} (before : List (List Char))
    {block rest : List (List Char)} {line : List Char}
    (unlike : ∀ other ∈ before, heading.toList.isPrefixOf other = false)
    (like : heading.toList.isPrefixOf line = true)
    (indented : ∀ other ∈ block, ∃ rest, other = ' ' :: ' ' :: rest)
    (ends : (rest.takeWhile fun other => "  ".toList.isPrefixOf other) = [])
    : linesUnder heading (before ++ [line] ++ block ++ rest) = block := by
  unfold linesUnder
  rw [List.append_assoc, List.append_assoc, List.singleton_append,
    List.dropWhile_append_of_pos fun other member => by simp [unlike other member],
    List.dropWhile_cons_of_neg (by simp [like]), List.tail_cons, List.takeWhile_append_of_pos,
    ends, List.append_nil]
  intro other member
  obtain ⟨rest, rfl⟩ := indented other member
  rfl

section Reading

variable (preview : Preview)

/-- The members listed under the first heading are those of the warning batch. -/
theorem listedUnder_pending
    : listedUnder "Pending role" preview.text
      = preview.classification.needsWarning.members.toList := by
  obtain ⟨summary, begins⟩ := preview.summaryLine_eq
  obtain ⟨heading, pends⟩ := preview.pendingLine_eq preview.policy.warningAfter.days
    preview.classification.needsWarning
  obtain ⟨next, removes⟩ := headingLine_eq "Removal" preview.policy.removalAfter.days
    preview.classification.needsRemoval
  unfold listedUnder
  rw [lines_text]
  unfold layout
  rw [begins, pends, removes, List.append_assoc _ _ preview.verdictLines,
    List.append_assoc _ [_], ← entries_eq preview.classification.needsWarning]
  refine congrArg (List.filterMap entry?)
    (linesUnder_eq ['🔍' :: summary, []] ?_ ?_ ?_ ?_)
  · intro other member
    simp only [List.mem_cons, List.not_mem_nil, or_false] at member
    rcases member with rfl | rfl <;> rfl
  · rfl
  · exact fun other => indented_of_mem_entryLines
  · rfl

/-- The members listed under the second heading are those of the removal batch. -/
theorem listedUnder_removal
    : listedUnder "Removal after" preview.text
      = preview.classification.needsRemoval.members.toList := by
  obtain ⟨summary, begins⟩ := preview.summaryLine_eq
  obtain ⟨heading, pends⟩ := preview.pendingLine_eq preview.policy.warningAfter.days
    preview.classification.needsWarning
  obtain ⟨next, removes⟩ := headingLine_eq "Removal" preview.policy.removalAfter.days
    preview.classification.needsRemoval
  unfold listedUnder
  rw [lines_text]
  unfold layout
  rw [begins, pends, removes, ← entries_eq preview.classification.needsRemoval]
  refine congrArg (List.filterMap entry?) (linesUnder_eq (_ ++ _) ?_ ?_ ?_ ?_)
  · intro other member
    simp only [List.mem_append, List.mem_cons, List.not_mem_nil, or_false] at member
    rcases member with ((rfl | rfl) | rfl) | entry
    · rfl
    · rfl
    · rfl
    · obtain ⟨rest, rfl⟩ := indented_of_mem_entryLines entry
      rfl
  · rfl
  · exact fun other => indented_of_mem_entryLines
  · unfold verdictLines
    split <;> rfl

/-- The only line that says what the removal covers is the one with the verdict. -/
theorem eq_verdictLine_of_mem_layout {line : List Char} (member : line ∈ preview.layout)
    (covers : "Removal covers".toList.isPrefixOf line = true)
    : preview.classification.needsRemoval.isEmpty = false ∧ line = preview.verdictLine := by
  obtain ⟨summary, begins⟩ := preview.summaryLine_eq
  obtain ⟨heading, pends⟩ := preview.pendingLine_eq preview.policy.warningAfter.days
    preview.classification.needsWarning
  obtain ⟨next, removes⟩ := headingLine_eq "Removal" preview.policy.removalAfter.days
    preview.classification.needsRemoval
  have unlike {batch : Batch} {line : List Char} (entry : line ∈ entryLines batch)
      : "Removal covers".toList.isPrefixOf line = false := by
    obtain ⟨rest, rfl⟩ := indented_of_mem_entryLines entry
    rfl
  unfold layout at member
  rw [begins, pends, removes] at member
  simp only [List.append_assoc, List.mem_append, List.mem_cons, List.not_mem_nil,
    or_false] at member
  rcases member with (rfl | rfl) | rfl | warned | rfl | removed | verdict
  · cases covers
  · cases covers
  · cases covers
  · cases (unlike warned).symm.trans covers
  · cases covers
  · cases (unlike removed).symm.trans covers
  · unfold verdictLines at verdict
    split at verdict
    · cases verdict
    · next full =>
      rcases List.mem_cons.mp verdict with rfl | last
      · cases covers
      · exact ⟨Bool.eq_false_iff.mpr full, List.mem_singleton.mp last⟩

/-- The line with the verdict ends with the verdict and not with the other one. -/
theorem isSuffixOf_verdictLine {verdict : String}
    (known : verdict ∈ ["automatic", "reviewer confirmation required"])
    : verdict.toList.isSuffixOf preview.verdictLine = true ↔ preview.verdict = verdict := by
  obtain ⟨middle, ends⟩ := preview.verdictLine_eq
  rw [ends, ← List.append_assoc]
  generalize "Removal covers ".toList ++ middle = before
  constructor
  · intro suffix
    simp only [List.mem_cons, List.not_mem_nil, or_false] at known
    unfold List.isSuffixOf at suffix
    rw [List.reverse_append] at suffix
    unfold Preview.verdict at suffix ⊢
    rcases known with rfl | rfl
    · split at suffix
      · cases suffix
      · next free => exact if_neg free
    · split at suffix
      · next asks => exact if_pos asks
      · cases suffix
  · rintro rfl
    exact List.isSuffixOf_iff_suffix.mpr (List.suffix_append before _)

/-- A preview gives a verdict exactly when there is someone to remove and this is its verdict. -/
theorem gives_iff {verdict : String}
    (known : verdict ∈ ["automatic", "reviewer confirmation required"])
    : gives verdict preview.text = true
      ↔ preview.classification.needsRemoval.isEmpty = false ∧ preview.verdict = verdict := by
  unfold gives
  rw [lines_text, List.any_eq_true]
  constructor
  · intro given
    obtain ⟨line, member, given⟩ := given
    obtain ⟨covers, suffix⟩ := Bool.and_eq_true_iff.mp given
    obtain ⟨full, rfl⟩ := preview.eq_verdictLine_of_mem_layout member covers
    exact ⟨full, (preview.isSuffixOf_verdictLine known).mp suffix⟩
  · intro given
    obtain ⟨full, same⟩ := given
    refine ⟨preview.verdictLine, ?_, Bool.and_eq_true_iff.mpr ⟨?_, ?_⟩⟩
    · refine List.mem_append_right _ ?_
      unfold verdictLines
      rw [full, if_neg Bool.false_ne_true]
      exact List.mem_cons_of_mem _ List.mem_cons_self
    · obtain ⟨middle, begins⟩ := preview.verdictLine_eq
      rw [begins]
      rfl
    · exact (preview.isSuffixOf_verdictLine known).mpr same

end Reading

end Preview

end Gatehouse
