import Mathlib.Data.List.Chain
import Gatehouse.Proofs.Config.RoundTrip
import Gatehouse.Proofs.Toml.Extent
import Gatehouse.Proofs.Toml.Layout
import Gatehouse.Proofs.Toml.Upkeep

/-! Configuration files created and loaded. The template is read line by line up to the place of the
store and behind it; the place itself stands between two quotes as it is, so the file is loaded with
that place exactly when all its characters stand for themselves: main statement
`created_is_loaded_iff`.
-/

namespace Gatehouse.Config

open Toml

-------------------------------------------------------------------------------
-- Settings of the template
-------------------------------------------------------------------------------

/-- The configuration that the template shows. -/
def starter (storePath : String) : Config := .ofIds ⟨1⟩ ⟨2⟩ ⟨3⟩ ⟨10⟩ ⟨11⟩ storePath

/-- The place of the store is only passed on to the settings. -/
theorem settings_storePath (config : Config) (storePath : String)
    : ({ config with storePath := storePath } : Config).settings
      = (fun settings => { settings with storePath := storePath }) <$> config.settings := by
  unfold settings
  simp only [baselineRoles, map_bind, map_pure]

/-- The settings of the template are in order, whatever the place of the store. -/
theorem starter_settings (storePath : String)
    : ∃ settings, (starter storePath).settings = .ok settings := by
  have inOrder : (starter "").settings.isOk = true := by decide +kernel
  have same := settings_storePath (starter "") storePath
  cases valid : (starter "").settings with
  | error refusal =>
      rw [valid] at inOrder
      cases inOrder
  | ok settings =>
      rw [valid] at same
      exact ⟨_, same⟩

-------------------------------------------------------------------------------
-- Lines of the template
-------------------------------------------------------------------------------

/-- The lines of the template before the place of the store. -/
def headLines : List Line :=
  ((starter "").sections.take 5).flatMap sectionLines ++ [.table [] "store"]

/-- The lines of the template behind the place of the store. -/
def tailLines : List Line := sectionLines ("logging", LoggingSection.standard.entries)

theorem starter_lines (storePath : String)
    : (starter storePath).sections.flatMap sectionLines
      = headLines ++ .entry [] "path" (.string storePath) :: tailLines := by
  rfl

/-- An entry whose text stands between two quotes as it is. -/
theorem readsUpTo_itself {key text : String} {chars more rest : List Char} {lines : List Line}
    (bare : IsBare key) (shown : chars = key.toList ++ [' ', '=', ' ', quote])
    (stand : ∀ c ∈ text.toList, StandsForItself c) (later : ReadsUpTo more lines rest)
    : ReadsUpTo ((String.ofList chars).toList ++ (text.toList ++ ("\"\n".toList ++ more)))
        (.entry [] key (.string text) :: lines) rest := by
  have whole := later.line (writesLine_entry bare (readsAs_itself stand))
  rw [shown, String.toList_ofList]
  simpa [entryText, quote] using whole

theorem readsAs_threshold
    : ReadsAs (floatText PolicySection.standard.confirmationThreshold)
        (.float PolicySection.standard.confirmationThreshold) :=
  readsAs_float (by decide +kernel)

/-- The template is read line by line up to the place of the store. -/
theorem readsUpTo_head (text : List Char)
    : ReadsUpTo (templateHead.toList ++ text) headLines ("path = \"".toList ++ text) := by
  unfold templateHead
  simp only [String.toList_append, List.append_assoc]
  refine .comment rfl rfl <| .comment rfl rfl <| .comment rfl rfl <| .empty ?_
  -- guild
  refine .header (by decide) rfl <| .comment rfl rfl
    <| .entry (by decide) (readsAs_digits (by decide)) (by decide +kernel) <| .empty ?_
  -- roles
  refine .header (by decide) rfl <| .comment rfl rfl
    <| .entry (by decide) (readsAs_digits (by decide)) (by decide +kernel) <| .empty ?_
  refine .comment rfl rfl <| .entry (by decide) (readsAs_ids fun _ => nofun) rfl <| .empty ?_
  refine .comment rfl rfl
    <| .entry (by decide) (readsAs_digits (by decide)) (by decide +kernel) <| .empty ?_
  refine .comment rfl rfl <| .comment rfl rfl <| .empty ?_
  -- channels
  refine .header (by decide) rfl <| .comment rfl rfl
    <| .entry (by decide) (readsAs_digits (by decide)) (by decide +kernel) <| .empty ?_
  refine .comment rfl rfl
    <| .entry (by decide) (readsAs_digits (by decide)) (by decide +kernel) <| .empty ?_
  refine .comment rfl rfl <| .comment rfl rfl <| .empty ?_
  -- policy
  refine .header (by decide) rfl <| .comment rfl rfl
    <| .entry (by decide) (readsAs_itself (by decide)) rfl <| .empty ?_
  refine .comment rfl rfl
    <| .entry (by decide) (readsAs_itself (by decide)) rfl <| .empty ?_
  refine .comment rfl rfl <| .comment rfl rfl
    <| .entry (by decide) readsAs_threshold (by decide +kernel) <| .empty ?_
  refine .comment rfl rfl
    <| .entry (by decide) (readsAs_itself (by decide)) rfl <| .empty ?_
  refine .comment rfl rfl
    <| .entry (by decide) (readsAs_itself (by decide)) rfl <| .empty ?_
  refine readsUpTo_itself (by decide) rfl (by decide)
    <| readsUpTo_itself (by decide) rfl (by decide) <| .empty ?_
  -- reminder
  refine .header (by decide) rfl <| .comment rfl rfl
    <| .entry (by decide) (readsAs_itself (by decide)) rfl <| .empty ?_
  refine .comment rfl rfl <| .comment rfl rfl <| .empty ?_
  -- store
  exact .header (by decide) rfl <| .comment rfl rfl <| .refl _

/-- No two quotes stand side by side in a text. -/
def Unpaired (text : List Char) : Prop := text.IsChain fun c d => ¬ (c = quote ∧ d = quote)

instance (text : List Char) : Decidable (Unpaired text) :=
  inferInstanceAs (Decidable (text.IsChain fun c d => ¬ (c = quote ∧ d = quote)))

theorem Unpaired.line {chars more : List Char} (own : Unpaired chars)
    (ends : chars.getLast? = some '\n') (later : Unpaired more)
    : Unpaired ((String.ofList chars).toList ++ more) := by
  rw [String.toList_ofList]
  refine List.isChain_append.mpr ⟨own, later, fun c last d _ both => ?_⟩
  rw [ends] at last
  cases last
  exact absurd both.1 (by decide)

theorem Unpaired.not_infix {text : List Char} (unpaired : Unpaired text)
    : ¬ [quote, quote] <:+: text := by
  intro part
  have pair := List.IsChain.infix unpaired part
  simp at pair

/-- Behind the place of the store the template ends its line and is read to its end, and no two
quotes stand side by side in it.
-/
theorem exists_templateTail
    : ∃ tail,
        templateTail.toList = quote :: '\n' :: tail
        ∧ ReadsUpTo tail tailLines []
        ∧ Unpaired tail := by
  unfold templateTail
  simp only [String.toList_append, List.append_assoc]
  refine ⟨_, by rfl, ?_, ?_⟩
  · refine .empty <| .header (by decide) rfl <| .comment rfl rfl
      <| .entry (by decide) (readsAs_itself (by decide)) rfl <| .empty ?_
    rw [← List.append_nil "# file = \"/var/log/warden/warden.log\"\n".toList]
    exact .comment rfl rfl <| .comment rfl rfl <| .refl []
  · refine .line (by decide) rfl <| .line (by decide) rfl <| .line (by decide) rfl
      <| .line (by decide) rfl <| .line (by decide) rfl <| .line (by decide +kernel) rfl ?_
    rw [← List.append_nil "# file = \"/var/log/warden/warden.log\"\n".toList]
    exact .line (by decide +kernel) rfl .nil

-------------------------------------------------------------------------------
-- Reading the template
-------------------------------------------------------------------------------

theorem template_toList (storePath : String)
    : (template storePath).toList
      = templateHead.toList ++ (storePath.toList ++ templateTail.toList) := by
  simp only [template, String.toList_append, List.append_assoc]

/-- The template begins with a comment, not with a mark. -/
theorem template_unmarked (storePath : String)
    : (template storePath).toList.head? ≠ some byteOrderMark := by
  have begins : templateHead.toList.head? = some '#' := by
    unfold templateHead
    simp only [String.toList_append, List.append_assoc]
    rfl
  rw [template_toList, List.head?_append, begins, Option.some_or]
  decide

/-- With a place whose characters stand for themselves, the template is read as what it shows. -/
theorem read?_template {storePath : String} (stand : ∀ c ∈ storePath.toList, StandsForItself c)
    (fallback : String)
    : read? fallback (template storePath) = some (starter storePath) := by
  obtain ⟨tail, behind, readsTail, -⟩ := exists_templateTail
  have store := readsUpTo_itself (by decide : IsBare "path") rfl stand readsTail
  have whole
      : ReadsUpTo (template storePath).toList ((starter storePath).sections.flatMap sectionLines)
          [] := by
    rw [template_toList, behind, starter_lines]
    exact (readsUpTo_head _).trans store
  rw [read?, read?_eq (template_unmarked storePath), whole.readLinesOf_eq]
  simp only [Option.bind_some, document?_sections]
  exact ofDocument?_document _ fallback

theorem store_of_ofDocument? {fallback : String} {document : Entries} {config : Config}
    (read : ofDocument? fallback document = some config)
    : optional? document "store" fallback (Value.defaulted? 0 "path" fallback Value.string?)
      = some config.storePath := by
  simp only [ofDocument?, Option.bind_eq_bind, Option.bind_eq_some_iff, Option.pure_def,
    Option.some.injEq] at read
  obtain ⟨_, -, _, -, _, -, _, -, _, -, _, -, _, -, _, -, path, found, _, -, rfl⟩ := read
  exact found

/-- The place of the store that a document gives is the one that is read off it. -/
theorem storePath_of_text? {path fallback : String} {document : Entries} {config : Config}
    (given : document.text? ["store", "path"] = some path)
    (read : ofDocument? fallback document = some config)
    : config.storePath = path := by
  have found := store_of_ofDocument? read
  rw [Entries.text?] at given
  split at given
  · cases given
  · next inner held =>
    rw [Entries.text?] at given
    split at given
    · next text entry =>
      cases given
      simpa [optional?, held, Value.defaulted?, Value.field?, entry, Value.string?] using found.symm
    · cases given
    · cases given
  · cases given

/-- Whatever lines follow, the place of the store is the one that the template's lines give. -/
theorem storePath_of_lines {path fallback : String} {more : List Line} {document : Entries}
    {config : Config}
    (put : document? (headLines ++ .entry [] "path" (.string path) :: more) = some document)
    (read : ofDocument? fallback document = some config)
    : config.storePath = path := by
  let shown := (starter path).sections.take 6
  have lines
      : headLines ++ .entry [] "path" (.string path) :: more
        = shown.flatMap sectionLines ++ more := by
    rfl
  rw [document?, lines, List.foldlM_append] at put
  obtain ⟨last, whole, rfl⟩ := Option.map_eq_some_iff.mp put
  obtain ⟨draft, begun, added⟩ := Option.bind_eq_some_iff.mp whole
  have names : (Draft.empty.entries.map Prod.fst ++ shown.map Prod.fst).Nodup := by
    simp [shown, sections, Draft.empty]
  have first := foldlM_sections names fun section_ member =>
    nodup_of_mem_sections section_ (List.mem_of_mem_take member)
  rw [begun, Option.map_some] at first
  refine storePath_of_text? (foldlM_keeps added _ _ ?_) read
  rw [Option.some.inj first]
  rfl

/-- When the template is read, the place of the store is what is read between its quotes. -/
theorem storePath_of_read? {storePath fallback : String} {config : Config}
    (read : read? fallback (template storePath) = some config)
    : ∃ chars left,
        readQuoted (quote :: (storePath.toList ++ templateTail.toList)) = some (chars, left)
        ∧ (endLine? left).isSome
        ∧ config.storePath = String.ofList chars := by
  obtain ⟨document, parsed, read⟩ := Option.bind_eq_some_iff.mp read
  rw [read?_eq (template_unmarked storePath)] at parsed
  obtain ⟨lines, parsed, put⟩ := Option.bind_eq_some_iff.mp parsed
  rw [template_toList] at parsed
  obtain ⟨fuel, later, behind, rfl⟩ := (readsUpTo_head _).of_readLinesOf parsed
  obtain ⟨chars, left, more, quoted, ends, rfl⟩ :=
    exists_of_readLinesOf_quoted (by decide : IsBare "path") behind
  exact ⟨chars, left, quoted, ends, storePath_of_lines put read⟩

-------------------------------------------------------------------------------
-- Creating and loading
-------------------------------------------------------------------------------

/-- A file that holds a text is loaded when the text is read and the settings are in order. -/
theorem load_eq_ok_iff {files : Files} {path : FilePath} {text : String}
    (holds : files.readText? path = some text) {fallback : String} {config : Config}
    : load files path fallback = .ok config
      ↔ read? fallback text = some config ∧ ∃ settings, config.settings = .ok settings := by
  constructor
  · intro loaded
    refine ⟨?_, settings_of_load loaded⟩
    simp only [load, holds] at loaded
    split at loaded
    · cases loaded
    · next found read =>
      split at loaded
      · cases loaded
      · cases loaded
        exact read
  · rintro ⟨read, settings, valid⟩
    simp only [load, holds, read, valid]

theorem load_of_unread {files : Files} {path : FilePath} {text fallback : String}
    (holds : files.readText? path = some text) (unread : read? fallback text = none)
    : load files path fallback = .error .parse := by
  simp only [load, holds, unread]

/-- A configuration file can be created wherever a file can be written. It is loaded with the place
of the store that it was created for, the defaults of the policy and no file for the log, exactly
when every character of that place stands for itself between quotes: none is a quote, a backslash, a
line end or another of the control characters that only an escape can write.
-/
theorem created_is_loaded_iff {files : Files} {path : FilePath} (writable : files.Writable path)
    (storePath fallback : String)
    : (createDefault files path storePath).1 = .ok ()
      ∧ ((∃ config,
            load (createDefault files path storePath).2 path fallback = .ok config
            ∧ config.storePath = storePath
            ∧ config.policy = .standard
            ∧ config.logging = .standard)
          ↔ ∀ c ∈ storePath.toList, isPlain c = true ∧ c ≠ '"' ∧ c ≠ '\\') := by
  obtain ⟨after, wrote, holds⟩ := writable.write (template storePath)
  rw [createDefault, writeText, wrote]
  refine ⟨rfl, ?_, ?_⟩
  · rintro ⟨config, loaded, same, -, -⟩
    obtain ⟨read, -⟩ := (load_eq_ok_iff holds).mp loaded
    obtain ⟨chars, left, quoted, -, shown⟩ := storePath_of_read? read
    obtain ⟨tail, behind, -, unpaired⟩ := exists_templateTail
    obtain rfl : chars = storePath.toList := by rw [← same, shown, String.toList_ofList]
    rw [behind] at quoted
    intro c member
    have stands := (readQuoted_itself_iff unpaired.not_infix).mp ⟨left, quoted⟩ c member
    exact ⟨stands.plain, stands.noQuote, stands.noEscape⟩
  · intro stand
    have stands (c : Char) (member : c ∈ storePath.toList) : StandsForItself c :=
      ⟨(stand c member).1, (stand c member).2.1, (stand c member).2.2⟩
    have loaded := (load_eq_ok_iff holds).mpr
      ⟨read?_template stands fallback, starter_settings storePath⟩
    exact ⟨starter storePath, loaded, rfl, rfl, rfl⟩

/-- A file can be written where not even its directory is there yet. -/
theorem writable_empty
    : Files.empty.Writable (FilePath.ofString "etc/warden.toml") :=
  ⟨_, ["etc", "warden.toml"], rfl, by decide +kernel, by decide +kernel, by decide +kernel⟩

/-- A place with blanks, a tab and letters beyond the basic ones is loaded as it is. -/
theorem created_is_loaded_of_plain
    : let path := FilePath.ofString "etc/warden.toml"
      let storePath := "/srv/Gäste\t\x27neu\x27/warden.db"
      Files.empty.Writable path
        ∧ (createDefault .empty path storePath).1 = .ok ()
        ∧ ∃ config,
            load (createDefault .empty path storePath).2 path "warden.db" = .ok config
            ∧ config.storePath = storePath
            ∧ config.policy = .standard
            ∧ config.logging = .standard := by
  intro path storePath
  have writable : Files.empty.Writable path := writable_empty
  have stands : ∀ c ∈ storePath.toList, StandsForItself c := by decide +kernel
  obtain ⟨created, loaded⟩ := created_is_loaded_iff writable storePath "warden.db"
  refine ⟨writable, created, loaded.mpr fun c member => ?_⟩
  exact ⟨(stands c member).plain, (stands c member).noQuote, (stands c member).noEscape⟩

/-- A created file whose template cannot be read is refused when it is loaded. -/
theorem load_createDefault_of_unread {files : Files} {path : FilePath}
    (writable : files.Writable path) {storePath fallback : String}
    (unread : read? fallback (template storePath) = none)
    : load (createDefault files path storePath).2 path fallback = .error .parse := by
  obtain ⟨after, wrote, holds⟩ := writable.write (template storePath)
  rw [createDefault, writeText, wrote]
  exact load_of_unread holds unread

/-- A quote ends the place of the store, and then the line may not go on. -/
theorem read?_template_of_quote (fallback : String)
    : read? fallback (template "a\"b") = none := by
  refine Option.eq_none_iff_forall_ne_some.mpr fun config read => ?_
  obtain ⟨chars, left, quoted, ends, -⟩ := storePath_of_read? read
  rw [show "a\"b".toList = ['a', quote, 'b'] from rfl] at quoted
  generalize templateTail.toList = tail at quoted
  have line : readQuoted (quote :: 'a' :: quote :: 'b' :: tail) = some (['a'], 'b' :: tail) := by
    have one (rest : List Char) : 'a' :: quote :: 'b' :: tail ≠ quote :: quote :: rest :=
      fun same => absurd (List.cons.inj same).1 (by decide)
    rw [readQuoted_line one, readQuotedLine, if_pos rfl]
    exact readBasic_itself (by decide : ∀ c ∈ ['a'], StandsForItself c) _
  obtain ⟨-, rfl⟩ := Prod.mk.inj (Option.some.inj (line.symm.trans quoted))
  cases ends

/-- With a quote in the place of the store, the file that was created cannot be read. -/
theorem created_is_not_loaded_with_quote
    : let path := FilePath.ofString "etc/warden.toml"
      Files.empty.Writable path
        ∧ load (createDefault .empty path "a\"b").2 path "warden.db" = .error .parse
        ∧ ¬ ∃ config,
            load (createDefault .empty path "a\"b").2 path "warden.db" = .ok config
            ∧ config.storePath = "a\"b"
            ∧ config.policy = .standard
            ∧ config.logging = .standard := by
  intro path
  have writable : Files.empty.Writable path := writable_empty
  have refused := load_createDefault_of_unread writable (read?_template_of_quote "warden.db")
  refine ⟨writable, refused, ?_⟩
  rintro ⟨config, loaded, -⟩
  rw [refused] at loaded
  cases loaded

end Gatehouse.Config
