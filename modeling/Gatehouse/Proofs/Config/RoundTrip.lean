import Gatehouse.Config.File
import Gatehouse.Proofs.Toml.Document

/-! Configurations saved and loaded. A configuration can be written down exactly when its
identifiers fit in whole numbers with sign, and what was written is loaded as it was: main
statement `saves_and_loads_back`.
-/

namespace Gatehouse

open Toml

namespace Config

-------------------------------------------------------------------------------
-- Sections as entries
-------------------------------------------------------------------------------

def idValue {subject : Subject} (id : Id subject) : Value := .integer id.word.toNat

theorem id?_idValue {subject : Subject} (id : Id subject)
    : (idValue id).id? = some id := by
  simp [idValue, Value.id?]

theorem ids?_idValues {subject : Subject} (ids : List (Id subject))
    : (Value.array (ids.map idValue)).ids? = some ids := by
  induction ids with
  | nil => rfl
  | cons id ids ih =>
    simp only [Value.ids?, List.map_cons, List.mapM_cons] at ih ⊢
    simp [id?_idValue, ih]

def RolesSection.entries (roles : RolesSection) : Entries :=
  ("pending", idValue roles.pending)
    :: ("baseline", .array (roles.baseline.map idValue))
    :: ("verified", idValue roles.verified)
    :: ((roles.reviewers.map fun id => ("reviewers", idValue id)).toList ++ [])

def ChannelsSection.entries (channels : ChannelsSection) : Entries :=
  ("review", idValue channels.review)
    :: ("reminder", idValue channels.reminder)
    :: ((channels.audit.map fun id => ("audit", idValue id)).toList ++ [])

def PolicySection.entries (policy : PolicySection) : Entries := [
  ("warning_after", .string policy.warningAfter),
  ("removal_after", .string policy.removalAfter),
  ("confirmation_threshold", .float policy.confirmationThreshold),
  ("confirmation_timeout", .string policy.confirmationTimeout),
  ("reconcile_interval", .string policy.reconcileInterval),
  ("approve_token", .string policy.approveToken),
  ("deny_token", .string policy.denyToken)]

def ReminderSection.entries (reminder : ReminderSection) : Entries :=
  ("frequency", .string reminder.frequency)
    :: ((reminder.message.map fun text => ("message", .string text)).toList ++ [])

def LoggingSection.entries (logging : LoggingSection) : Entries :=
  ("level", .string logging.level)
    :: ((logging.file.map fun path => ("file", .string path)).toList ++ [])

/-- The sections of a configuration, in the order in which they are written. -/
def sections (config : Config) : List (String × Entries) := [
  ("guild", [("id", idValue config.community)]),
  ("roles", config.roles.entries),
  ("channels", config.channels.entries),
  ("policy", config.policy.entries),
  ("reminder", config.reminder.entries),
  ("store", [("path", .string config.storePath)]),
  ("logging", config.logging.entries)]

/-- The document that has the sections of a configuration for its tables. -/
def document (config : Config) : Entries :=
  config.sections.map fun section_ => (section_.1, .table .header section_.2)

/-- No section has a key twice. -/
theorem nodup_of_mem_sections {config : Config}
    : ∀ section_ ∈ config.sections, (section_.2.map Prod.fst).Nodup := by
  intro section_ member
  simp only [sections, List.mem_cons, List.not_mem_nil, or_false] at member
  rcases member with rfl | rfl | rfl | rfl | rfl | rfl | rfl
  · simp
  · cases reviewers : config.roles.reviewers <;> simp [RolesSection.entries, reviewers]
  · cases audit : config.channels.audit <;> simp [ChannelsSection.entries, audit]
  · simp [PolicySection.entries]
  · cases message : config.reminder.message <;> simp [ReminderSection.entries, message]
  · simp
  · cases file : config.logging.file <;> simp [LoggingSection.entries, file]

/-- The lines of the sections make the document. -/
theorem document?_sections (config : Config)
    : document? (config.sections.flatMap sectionLines) = some config.document :=
  Toml.document?_sections (by simp [sections]) nodup_of_mem_sections

-------------------------------------------------------------------------------
-- Entries as sections
-------------------------------------------------------------------------------

theorem RolesSection.ofValue?_entries (roles : RolesSection)
    : RolesSection.ofValue? (.table .header roles.entries) = some roles := by
  obtain ⟨pending, baseline, verified, reviewers⟩ := roles
  cases reviewers <;>
    simp [ofValue?, entries, Value.required?, Value.defaulted?, Value.field?, Entries.find?,
      id?_idValue, ids?_idValues, present?]

theorem ChannelsSection.ofValue?_entries (channels : ChannelsSection)
    : ChannelsSection.ofValue? (.table .header channels.entries) = some channels := by
  obtain ⟨review, reminder, audit⟩ := channels
  cases audit <;>
    simp [ofValue?, entries, Value.required?, Value.defaulted?, Value.field?, Entries.find?,
      id?_idValue, present?]

theorem PolicySection.ofValue?_entries (policy : PolicySection)
    : PolicySection.ofValue? (.table .header policy.entries) = some policy := by
  simp [ofValue?, entries, Value.defaulted?, Value.field?, Entries.find?, Value.string?,
    Value.float?]

theorem ReminderSection.ofValue?_entries (reminder : ReminderSection)
    : ReminderSection.ofValue? (.table .header reminder.entries) = some reminder := by
  obtain ⟨frequency, message⟩ := reminder
  cases message <;>
    simp [ofValue?, entries, Value.defaulted?, Value.field?, Entries.find?, Value.string?,
      present?]

theorem LoggingSection.ofValue?_entries (logging : LoggingSection)
    : LoggingSection.ofValue? (.table .header logging.entries) = some logging := by
  obtain ⟨level, file⟩ := logging
  cases file <;>
    simp [ofValue?, entries, Value.defaulted?, Value.field?, Entries.find?, Value.string?,
      present?]

/-- The document of a configuration is read as that configuration. -/
theorem ofDocument?_document (config : Config) (storePath : String)
    : ofDocument? storePath config.document = some config := by
  simp [ofDocument?, document, sections, Entries.find?, optional?, RolesSection.ofValue?_entries,
    ChannelsSection.ofValue?_entries, PolicySection.ofValue?_entries,
    ReminderSection.ofValue?_entries, LoggingSection.ofValue?_entries, Value.required?,
    Value.defaulted?, Value.field?, id?_idValue, Value.string?]

-------------------------------------------------------------------------------
-- What is written
-------------------------------------------------------------------------------

/-- The identifiers of a configuration, as words. -/
def words (config : Config) : List UInt64 :=
  config.community.word :: config.roles.pending.word :: config.roles.verified.word
    :: config.channels.review.word :: config.channels.reminder.word
    :: (config.roles.baseline.map Id.word ++ (config.roles.reviewers.map Id.word).toList
      ++ (config.channels.audit.map Id.word).toList)

/-- Every identifier fits in a whole number with sign. -/
def Fits (config : Config) : Prop :=
  ∀ word ∈ config.words, word.toNat < Nat.pow 2 63

instance (config : Config) : Decidable config.Fits :=
  decidable_of_iff (config.words.all (·.toNat < Nat.pow 2 63)) <| by
    simp only [Fits, List.all_eq_true, decide_eq_true_eq]

theorem fits_iff {config : Config}
    : config.Fits
      ↔ config.community.word.toNat < Nat.pow 2 63
        ∧ config.roles.pending.word.toNat < Nat.pow 2 63
        ∧ (∀ id ∈ config.roles.baseline, id.word.toNat < Nat.pow 2 63)
        ∧ config.roles.verified.word.toNat < Nat.pow 2 63
        ∧ (∀ id ∈ config.roles.reviewers, id.word.toNat < Nat.pow 2 63)
        ∧ config.channels.review.word.toNat < Nat.pow 2 63
        ∧ config.channels.reminder.word.toNat < Nat.pow 2 63
        ∧ (∀ id ∈ config.channels.audit, id.word.toNat < Nat.pow 2 63) := by
  unfold Fits words
  generalize Nat.pow 2 63 = limit
  simp only [List.forall_mem_cons, List.forall_mem_append, List.forall_mem_map,
    Option.mem_toList, Option.mem_def, Option.map_eq_some_iff, forall_exists_index, and_imp,
    forall_apply_eq_imp_iff₂]
  constructor
  · rintro ⟨community, pending, verified, review, reminder, ⟨baseline, reviewers⟩, audit⟩
    exact ⟨community, pending, baseline, verified, reviewers, review, reminder, audit⟩
  · rintro ⟨community, pending, baseline, verified, reviewers, review, reminder, audit⟩
    exact ⟨community, pending, verified, review, reminder, ⟨baseline, reviewers⟩, audit⟩

def idDigits {subject : Subject} (id : Id subject) : List Char := Numeral.digits id.word.toNat

theorem idText?_eq_some_iff {subject : Subject} {id : Id subject} {text : List Char}
    : idText? id = some text ↔ id.word.toNat < Nat.pow 2 63 ∧ text = idDigits id := by
  unfold idText?
  split
  · next fits => simp [fits, eq_comm, idDigits]
  · next large => simp [large]

theorem optionalId?_eq_some_iff {subject : Subject} {id : Option (Id subject)}
    {text : Option (List Char)}
    : optionalId? id = some text
      ↔ (∀ i ∈ id, i.word.toNat < Nat.pow 2 63) ∧ text = id.map idDigits := by
  cases id with
  | none => simp [optionalId?, eq_comm]
  | some id =>
    simp only [optionalId?, Option.map_eq_some_iff, idText?_eq_some_iff]
    constructor
    · rintro ⟨text, ⟨fits, rfl⟩, rfl⟩
      simpa using fits
    · rintro ⟨fits, rfl⟩
      exact ⟨_, ⟨fits id rfl, rfl⟩, rfl⟩

theorem mapM_idText?_eq_some_iff {subject : Subject} {ids : List (Id subject)}
    {texts : List (List Char)}
    : ids.mapM idText? = some texts
      ↔ (∀ id ∈ ids, id.word.toNat < Nat.pow 2 63) ∧ texts = ids.map idDigits := by
  induction ids generalizing texts with
  | nil => simp [eq_comm]
  | cons id ids ih =>
    rw [List.mapM_cons]
    constructor
    · intro written
      obtain ⟨first, one, written⟩ := Option.bind_eq_some_iff.mp written
      obtain ⟨rest, later, written⟩ := Option.bind_eq_some_iff.mp written
      obtain ⟨fits, rfl⟩ := idText?_eq_some_iff.mp one
      obtain ⟨fit, rfl⟩ := ih.mp later
      cases written
      exact ⟨List.forall_mem_cons.mpr ⟨fits, fit⟩, rfl⟩
    · rintro ⟨fit, rfl⟩
      obtain ⟨fits, fit⟩ := List.forall_mem_cons.mp fit
      rw [idText?_eq_some_iff.mpr ⟨fits, rfl⟩, ih.mpr ⟨fit, rfl⟩]
      rfl

/-- The sections of a configuration as they are written. -/
def texts (config : Config) : List (List Char) := [
  sectionText "guild" [entryText "id" (idDigits config.community)],
  sectionText "roles" [
    entryText "pending" (idDigits config.roles.pending),
    entryText "baseline" (arrayText (config.roles.baseline.map idDigits)),
    entryText "verified" (idDigits config.roles.verified),
    optionalEntry "reviewers" (config.roles.reviewers.map idDigits)],
  sectionText "channels" [
    entryText "review" (idDigits config.channels.review),
    entryText "reminder" (idDigits config.channels.reminder),
    optionalEntry "audit" (config.channels.audit.map idDigits)],
  sectionText "policy" [
    stringEntry "warning_after" config.policy.warningAfter,
    stringEntry "removal_after" config.policy.removalAfter,
    entryText "confirmation_threshold" (floatText config.policy.confirmationThreshold),
    stringEntry "confirmation_timeout" config.policy.confirmationTimeout,
    stringEntry "reconcile_interval" config.policy.reconcileInterval,
    stringEntry "approve_token" config.policy.approveToken,
    stringEntry "deny_token" config.policy.denyToken],
  sectionText "reminder" [
    stringEntry "frequency" config.reminder.frequency,
    optionalEntry "message" (config.reminder.message.map (quoted ·.toList))],
  sectionText "store" [stringEntry "path" config.storePath],
  sectionText "logging" [
    stringEntry "level" config.logging.level,
    optionalEntry "file" (config.logging.file.map (quoted ·.toList))]]

/-- A configuration is written down exactly when its identifiers fit. -/
theorem text?_eq_some_iff {config : Config} {text : String}
    : config.text? = some text
      ↔ config.Fits ∧ text = String.ofList (['\n'].intercalate config.texts) := by
  constructor
  · intro written
    unfold text? at written
    obtain ⟨community, one, written⟩ := Option.bind_eq_some_iff.mp written
    obtain ⟨pending, two, written⟩ := Option.bind_eq_some_iff.mp written
    obtain ⟨baseline, three, written⟩ := Option.bind_eq_some_iff.mp written
    obtain ⟨verified, four, written⟩ := Option.bind_eq_some_iff.mp written
    obtain ⟨reviewers, five, written⟩ := Option.bind_eq_some_iff.mp written
    obtain ⟨review, six, written⟩ := Option.bind_eq_some_iff.mp written
    obtain ⟨reminder, seven, written⟩ := Option.bind_eq_some_iff.mp written
    obtain ⟨audit, eight, written⟩ := Option.bind_eq_some_iff.mp written
    obtain ⟨communityFits, rfl⟩ := idText?_eq_some_iff.mp one
    obtain ⟨pendingFits, rfl⟩ := idText?_eq_some_iff.mp two
    obtain ⟨baselineFits, rfl⟩ := mapM_idText?_eq_some_iff.mp three
    obtain ⟨verifiedFits, rfl⟩ := idText?_eq_some_iff.mp four
    obtain ⟨reviewersFit, rfl⟩ := optionalId?_eq_some_iff.mp five
    obtain ⟨reviewFits, rfl⟩ := idText?_eq_some_iff.mp six
    obtain ⟨reminderFits, rfl⟩ := idText?_eq_some_iff.mp seven
    obtain ⟨auditFits, rfl⟩ := optionalId?_eq_some_iff.mp eight
    cases written
    exact ⟨fits_iff.mpr ⟨communityFits, pendingFits, baselineFits, verifiedFits, reviewersFit,
      reviewFits, reminderFits, auditFits⟩, rfl⟩
  · rintro ⟨fits, rfl⟩
    obtain ⟨community, pending, baseline, verified, reviewers, review, reminder, audit⟩ :=
      fits_iff.mp fits
    unfold text?
    rw [idText?_eq_some_iff.mpr ⟨community, rfl⟩, idText?_eq_some_iff.mpr ⟨pending, rfl⟩,
      mapM_idText?_eq_some_iff.mpr ⟨baseline, rfl⟩, idText?_eq_some_iff.mpr ⟨verified, rfl⟩,
      optionalId?_eq_some_iff.mpr ⟨reviewers, rfl⟩, idText?_eq_some_iff.mpr ⟨review, rfl⟩,
      idText?_eq_some_iff.mpr ⟨reminder, rfl⟩, optionalId?_eq_some_iff.mpr ⟨audit, rfl⟩]
    rfl

-------------------------------------------------------------------------------
-- What is written reads back
-------------------------------------------------------------------------------

theorem readsAs_id {subject : Subject} {id : Id subject} (fits : id.word.toNat < Nat.pow 2 63)
    : ReadsAs (idDigits id) (idValue id) :=
  readsAs_digits fits

theorem readsAs_ids {subject : Subject} {ids : List (Id subject)}
    (fit : ∀ id ∈ ids, id.word.toNat < Nat.pow 2 63)
    : ReadsAs (arrayText (ids.map idDigits)) (.array (ids.map idValue)) := by
  have numbers : ReadsAs _ _ :=
    readsAs_arrayText
      (by simpa using fit : ∀ n ∈ ids.map fun id => id.word.toNat, n < Nat.pow 2 63)
  rw [List.map_map, List.map_map] at numbers
  exact numbers

/-- Each section that is written consists of the lines of that section. -/
theorem writesLines_of_mem {config : Config} (fits : config.Fits)
    (reads
      : readFloat? (floatText config.policy.confirmationThreshold)
        = some config.policy.confirmationThreshold)
    : ∀ written ∈ config.texts.zip config.sections,
        WritesLines written.1 (sectionLines written.2) := by
  obtain ⟨community, pending, baseline, verified, reviewers, review, reminder, audit⟩ :=
    fits_iff.mp fits
  intro written member
  simp only [texts, sections, List.zip_cons_cons, List.zip_nil_right, List.mem_cons,
    List.not_mem_nil, or_false] at member
  rcases member with rfl | rfl | rfl | rfl | rfl | rfl | rfl
  · exact writesLines_section (by decide) (.entry (by decide) (readsAs_id community) .nil)
  · exact writesLines_section (by decide)
      (.entry (by decide) (readsAs_id pending)
        (.entry (by decide) (readsAs_ids baseline)
          (.entry (by decide) (readsAs_id verified)
            (.optional (by decide) (fun id present => readsAs_id (reviewers id present)) .nil))))
  · exact writesLines_section (by decide)
      (.entry (by decide) (readsAs_id review)
        (.entry (by decide) (readsAs_id reminder)
          (.optional (by decide) (fun id present => readsAs_id (audit id present)) .nil)))
  · exact writesLines_section (by decide)
      (.entry (by decide) (readsAs_quoted _)
        (.entry (by decide) (readsAs_quoted _)
          (.entry (by decide) (readsAs_float reads)
            (.entry (by decide) (readsAs_quoted _)
              (.entry (by decide) (readsAs_quoted _)
                (.entry (by decide) (readsAs_quoted _)
                  (.entry (by decide) (readsAs_quoted _) .nil)))))))
  · exact writesLines_section (by decide)
      (.entry (by decide) (readsAs_quoted _)
        (.optional (by decide) (fun text _ => readsAs_quoted text) .nil))
  · exact writesLines_section (by decide) (.entry (by decide) (readsAs_quoted _) .nil)
  · exact writesLines_section (by decide)
      (.entry (by decide) (readsAs_quoted _)
        (.optional (by decide) (fun path _ => readsAs_quoted path) .nil))

/-- A configuration that was written down is read as it was. -/
theorem read?_of_text? {config : Config} {text : String} (storePath : String)
    (reads
      : readFloat? (floatText config.policy.confirmationThreshold)
        = some config.policy.confirmationThreshold)
    (written : config.text? = some text)
    : read? storePath text = some config := by
  obtain ⟨fits, rfl⟩ := text?_eq_some_iff.mp written
  have lines := writesLines_intercalate (writesLines_of_mem fits reads)
  rw [List.map_fst_zip (by exact Nat.le_refl 7), List.map_snd_zip (by exact Nat.le_refl 7)] at lines
  have begins : (['\n'].intercalate config.texts).head? = some '[' := rfl
  unfold Config.read?
  rw [lines.read? (by rw [begins]; decide), document?_sections]
  exact ofDocument?_document config storePath

end Config

-------------------------------------------------------------------------------
-- Saving and loading
-------------------------------------------------------------------------------

/-- A file can be written at a path: the directories above it are there or can be made, and no
directory stands in its place.
-/
def Files.Writable (files : Files) (path : FilePath) : Prop :=
  ∃ made place,
    files.makeParent path = .ok made
    ∧ made.locate? path = some place
    ∧ path.toDirectory = false
    ∧ made.isDirectory place = false

/-- What is written at such a path can be read there. -/
theorem Files.Writable.write {files : Files} {path : FilePath} (writable : files.Writable path)
    (content : String)
    : ∃ after,
        files.writeWithParents path content = (true, after)
        ∧ after.readText? path = some content := by
  obtain ⟨made, place, parents, located, file, free⟩ := writable
  have put : made.write? path content = some (made.put place (.text content)) := by
    simp [write?, located, file, free]
  refine ⟨made.put place (.text content), ?_, readText?_of_write? put⟩
  simp only [writeWithParents, parents, put]

namespace Config

theorem save_of_not_fits {config : Config} (large : ¬ config.Fits) (files : Files)
    (path : FilePath)
    : config.save files path = (.error .serialize, files) := by
  have none_ : config.text? = none :=
    Option.eq_none_iff_forall_ne_some.mpr fun text written =>
      large (text?_eq_some_iff.mp written).1
  simp only [save, none_]

theorem save_of_fits {config : Config} (fits : config.Fits) (files : Files) (path : FilePath)
    : ∃ text, config.text? = some text ∧ config.save files path = writeText files path text := by
  have written := text?_eq_some_iff.mpr ⟨fits, rfl⟩
  exact ⟨_, written, by simp only [save, written]⟩

theorem not_fits_iff {config : Config}
    : ¬ config.Fits ↔ ∃ word ∈ config.words, Nat.pow 2 63 - 1 < word.toNat := by
  unfold Fits
  generalize limited : Nat.pow 2 63 = limit
  have positive : 0 < limit := by
    rw [← limited]
    decide
  simp only [Classical.not_forall, Nat.not_lt, exists_prop]
  refine exists_congr fun word => and_congr_right fun _ => ?_
  omega

/-- A configuration is refused for saving exactly when one of its identifiers is beyond the whole
numbers with sign, and then nothing changes. Otherwise, at a path where a file can be written, it
is written there, and loading the file gives the configuration if its settings are in order and
what is wrong with them if not. Of doubles it is asked that the threshold, written down, reads as
itself.
-/
theorem saves_and_loads_back (config : Config) (files : Files) (path : FilePath)
    (storePath : String)
    (reads
      : readFloat? (floatText config.policy.confirmationThreshold)
        = some config.policy.confirmationThreshold)
    : ((config.save files path).1 = .error .serialize
        ↔ ∃ word ∈ config.words, Nat.pow 2 63 - 1 < word.toNat)
      ∧ ((∃ word ∈ config.words, Nat.pow 2 63 - 1 < word.toNat)
        → (config.save files path).2 = files)
      ∧ (¬ (∃ word ∈ config.words, Nat.pow 2 63 - 1 < word.toNat)
        → files.Writable path
        → (config.save files path).1 = .ok ()
          ∧ load (config.save files path).2 path storePath
            = match config.settings with
              | .ok _ => .ok config
              | .error refusal => .error (.refused refusal)) := by
  rw [← not_fits_iff]
  refine ⟨⟨fun refused fits => ?_, fun large => ?_⟩, fun large => ?_, fun fits writable => ?_⟩
  · obtain ⟨text, -, saved⟩ := save_of_fits fits files path
    rw [saved, writeText] at refused
    split at refused <;> cases refused
  · rw [save_of_not_fits large]
  · rw [save_of_not_fits large]
  · obtain ⟨text, written, saved⟩ := save_of_fits (Decidable.not_not.mp fits) files path
    obtain ⟨after, wrote, holds⟩ := writable.write text
    rw [saved, writeText, wrote]
    refine ⟨rfl, ?_⟩
    simp only [load, holds, read?_of_text? storePath reads written]
    cases config.settings <;> rfl

/-- A configuration with quotes of both kinds, backslashes, line ends and a control character in its
texts, saved where the directory is still missing.
-/
theorem saves_and_loads_back_of_quotes
    : let config : Config :=
        { Config.ofIds ⟨100⟩ ⟨200⟩ ⟨300⟩ ⟨400⟩ ⟨500⟩ "C:\x5cwarden\x5c\x27db\x27" with
          roles := ⟨⟨200⟩, [⟨1⟩, ⟨9223372036854775807⟩], ⟨300⟩, some ⟨0⟩⟩
          policy := { PolicySection.standard with confirmationThreshold := 0.25 }
          reminder := ⟨"28h", some "\x22\x22\x22 \x27\x27\x27\nread\x07 \x5crules\x22\x22"⟩ }
      let path := FilePath.ofString "etc/warden.toml"
      readFloat? (floatText config.policy.confirmationThreshold)
          = some config.policy.confirmationThreshold
        ∧ Files.empty.Writable path
        ∧ config.Fits
        ∧ (config.save .empty path).1 = .ok ()
        ∧ load (config.save .empty path).2 path "warden.db" = .ok config := by
  intro config path
  have reads : readFloat? (floatText config.policy.confirmationThreshold)
      = some config.policy.confirmationThreshold := by
    decide +kernel
  have writable : Files.empty.Writable path := by
    exact ⟨_, ["etc", "warden.toml"], rfl, by decide +kernel, by decide +kernel, by decide +kernel⟩
  have fits : config.Fits := by decide +kernel
  obtain ⟨-, -, stands⟩ := saves_and_loads_back config .empty path "warden.db" reads
  obtain ⟨saved, loaded⟩ := stands (fun large => not_fits_iff.mpr large fits) writable
  have inOrder : config.settings.isOk = true := by decide +kernel
  cases valid : config.settings with
  | error refusal =>
    rw [valid] at inOrder
    cases inOrder
  | ok settings =>
    rw [valid] at loaded
    exact ⟨reads, writable, fits, saved, loaded⟩

end Config

end Gatehouse
