import Gatehouse.Proofs.Config.Coherence
import Gatehouse.Proofs.Config.Creation

/-! The judgement of configurations. Each check is stated for itself, without the order in which the
checks are made: what it finds wrong with a configuration. The settings of a configuration report
the first of all that is wrong, and are given exactly when nothing is.
-/

namespace Gatehouse

/-- A number is neither above nor below what is not a number. -/
theorem Float.not_isNaN_of_le {a b : Float} (below : a ≤ b)
    : b.isNaN = false := by
  have compared : Option.any Ordering.isLE (a.toModel.unpack.compare b.toModel.unpack) = true :=
    of_decide_eq_true below
  change b.toModel.unpack.isNaN = false
  generalize a.toModel.unpack = x at compared
  generalize b.toModel.unpack = y at compared ⊢
  cases y with
  | notANumber => cases x <;> cases compared
  | _ => rfl

open Toml

namespace Config

-------------------------------------------------------------------------------
-- Reports of faults
-------------------------------------------------------------------------------

/-- An outcome reports faults: it is refused for the first of them, and not refused when there is
none.
-/
inductive Reports {α : Type} : Except Refusal α → List Refusal → Prop
  | refused (refusal : Refusal) (others : List Refusal)
    : Reports (.error refusal) (refusal :: others)
  | accepted (value : α) : Reports (.ok value) []

namespace Reports

variable {α β : Type} {outcome : Except Refusal α} {faults : List Refusal}

/-- Steps in turn report the faults of each, in turn. What comes after a refusal is not reported. -/
theorem bind {next : α → Except Refusal β} {others : List (List Refusal)}
    (first : Reports outcome faults)
    (rest : ∀ value, outcome = .ok value → Reports (next value) others.flatten)
    : Reports (outcome >>= next) (faults :: others).flatten := by
  cases first with
  | refused refusal more => exact .refused refusal (more ++ others.flatten)
  | accepted value => exact rest value rfl

theorem isOk_iff (reports : Reports outcome faults)
    : (∃ value, outcome = .ok value) ↔ faults = [] := by
  cases reports with
  | refused refusal others => simp
  | accepted value => simp

theorem eq_error_iff (reports : Reports outcome faults) (refusal : Refusal)
    : outcome = .error refusal ↔ faults.head? = some refusal := by
  cases reports with
  | refused refusal others => simp
  | accepted value => simp

end Reports

-------------------------------------------------------------------------------
-- What is wrong with a configuration
-------------------------------------------------------------------------------

/-- What is wrong with a text that gives a duration: it cannot be read. -/
def unreadable (field text : String) : List Refusal :=
  match Duration.read text with
  | .error fault => [.duration field fault]
  | .ok _ => []

/-- What is wrong with a text that gives a period: it cannot be read, or it is read as no time at
all.
-/
def aperiodic (field text : String) : List Refusal :=
  match Duration.read text with
  | .error fault => [.duration field fault]
  | .ok period => if period = .zero then [.disagreement (.zero field)] else []

/-- What is wrong with two horizons that can be read: the removal does not come after the
warning.
-/
def hasty (warningAfter removalAfter : String) : List Refusal :=
  match Duration.read warningAfter, Duration.read removalAfter with
  | .ok warning, .ok removal =>
      if warning < removal then [] else [.disagreement .removalNotLater]
  | _, _ => []

/-- What is wrong where a condition is not met. -/
def unmet (condition : Prop) [Decidable condition] (disagreement : Disagreement)
    : List Refusal :=
  if condition then [] else [.disagreement disagreement]

/-- All that is wrong with a configuration, in the order in which it is looked for. -/
def faults (config : Config) : List Refusal :=
  let policy := config.policy
  let threshold := policy.confirmationThreshold
  [ unreadable "policy.warning_after" policy.warningAfter,
    unreadable "policy.removal_after" policy.removalAfter,
    hasty policy.warningAfter policy.removalAfter,
    unmet (0.0 ≤ threshold ∧ threshold ≤ 1.0) (.thresholdOutside threshold),
    aperiodic "policy.confirmation_timeout" policy.confirmationTimeout,
    aperiodic "policy.reconcile_interval" policy.reconcileInterval,
    aperiodic "reminder.frequency" config.reminder.frequency,
    unmet (policy.approveToken ≠ policy.denyToken) .sameTokens,
    unmet (config.roles.pending ≠ config.roles.verified) .sameRoles ].flatten

/-- A configuration is sound when every duration can be read, a removal comes after its warning, the
threshold is a number between none and all, what is waited for takes time, and what is to be told
apart differs.
-/
structure Sound (config : Config) : Prop where
  horizons
    : ∃ warning removal,
        Duration.read config.policy.warningAfter = .ok warning
        ∧ Duration.read config.policy.removalAfter = .ok removal
        ∧ warning < removal
  share : 0.0 ≤ config.policy.confirmationThreshold ∧ config.policy.confirmationThreshold ≤ 1.0
  number : config.policy.confirmationThreshold.isNaN = false
  timeout
    : ∃ period, Duration.read config.policy.confirmationTimeout = .ok period ∧ period ≠ .zero
  interval
    : ∃ period, Duration.read config.policy.reconcileInterval = .ok period ∧ period ≠ .zero
  frequency : ∃ period, Duration.read config.reminder.frequency = .ok period ∧ period ≠ .zero
  tokens : config.policy.approveToken ≠ config.policy.denyToken
  roles : config.roles.pending ≠ config.roles.verified

theorem unreadable_eq_nil_iff {field text : String}
    : unreadable field text = [] ↔ ∃ period, Duration.read text = .ok period := by
  unfold unreadable
  cases Duration.read text with
  | error fault => simp
  | ok period => simp

theorem aperiodic_eq_nil_iff {field text : String}
    : aperiodic field text = []
      ↔ ∃ period, Duration.read text = .ok period ∧ period ≠ .zero := by
  unfold aperiodic
  cases Duration.read text with
  | error fault => simp
  | ok period => simp

theorem hasty_of_read {warningAfter removalAfter : String} {warning removal : Duration}
    (first : Duration.read warningAfter = .ok warning)
    (second : Duration.read removalAfter = .ok removal)
    : hasty warningAfter removalAfter = unmet (warning < removal) .removalNotLater := by
  simp only [hasty, first, second, unmet]

theorem unmet_eq_nil_iff {condition : Prop} [Decidable condition] {disagreement : Disagreement}
    : unmet condition disagreement = [] ↔ condition := by
  simp [unmet]

/-- Nothing is wrong with a configuration exactly when it is sound. -/
theorem faults_eq_nil_iff {config : Config}
    : config.faults = [] ↔ config.Sound := by
  simp only [faults, List.flatten_cons, List.flatten_nil, List.append_eq_nil_iff,
    unreadable_eq_nil_iff, aperiodic_eq_nil_iff, unmet_eq_nil_iff, and_true]
  constructor
  · rintro ⟨⟨warning, first⟩, ⟨removal, second⟩, later, share, timeout, interval, frequency, tokens,
      roles⟩
    rw [hasty_of_read first second, unmet_eq_nil_iff] at later
    exact
      { horizons := ⟨warning, removal, first, second, later⟩
        share := share
        number := Float.not_isNaN_of_le share.1
        timeout := timeout
        interval := interval
        frequency := frequency
        tokens := tokens
        roles := roles }
  · intro sound
    obtain ⟨warning, removal, first, second, later⟩ := sound.horizons
    refine ⟨⟨warning, first⟩, ⟨removal, second⟩, ?_, sound.share, sound.timeout, sound.interval,
      sound.frequency, sound.tokens, sound.roles⟩
    rw [hasty_of_read first second, unmet_eq_nil_iff]
    exact later

-------------------------------------------------------------------------------
-- What the checks report
-------------------------------------------------------------------------------

theorem readDuration_reports (field text : String)
    : Reports (readDuration field text) (unreadable field text) := by
  unfold readDuration unreadable
  cases Duration.read text with
  | error fault => exact .refused _ []
  | ok period => exact .accepted period

theorem read_of_readDuration {field text : String} {period : Duration}
    (found : readDuration field text = .ok period)
    : Duration.read text = .ok period := by
  unfold readDuration at found
  cases read : Duration.read text with
  | error fault =>
      rw [read] at found
      cases found
  | ok other =>
      rw [read] at found
      cases found
      rfl

theorem require_reports {condition : Bool} {meaning : Prop} [Decidable meaning]
    (means : condition = true ↔ meaning) (disagreement : Disagreement)
    : Reports (require condition disagreement) (unmet meaning disagreement) := by
  by_cases met : meaning
  · rw [unmet, if_pos met, means.mpr met]
    exact .accepted ()
  · rw [unmet, if_neg met, Bool.eq_false_iff.mpr fun holds => met (means.mp holds)]
    exact .refused _ []

theorem readPeriod_reports (field text : String)
    : Reports (readPeriod field text) (aperiodic field text) := by
  unfold readPeriod aperiodic readDuration
  cases Duration.read text with
  | error fault => exact .refused _ []
  | ok period =>
      change Reports (if period.nanos == 0 then throw _ else pure period) (if _ then _ else _)
      have same : (period.nanos == 0) = true ↔ period = .zero := by
        cases period
        simp [Duration.zero]
      by_cases none : period = .zero
      · rw [if_pos (same.mpr none), if_pos none]
        exact .refused _ []
      · rw [if_neg (mt same.mp none), if_neg none]
        exact .accepted period

theorem isShare_iff {threshold : Float}
    : isShare threshold = true ↔ 0.0 ≤ threshold ∧ threshold ≤ 1.0 := by
  simp [isShare]

/-- The settings of a configuration report all that is wrong with it: the checks in turn report
what each finds, and the comparison of the horizons comes after both were read.
-/
theorem settings_reports (config : Config)
    : Reports config.settings config.faults := by
  unfold settings faults
  refine (readDuration_reports _ _).bind fun warning first => ?_
  refine (readDuration_reports _ _).bind fun removal second => ?_
  rw [hasty_of_read (read_of_readDuration first) (read_of_readDuration second)]
  refine (require_reports decide_eq_true_iff _).bind fun _ _ => ?_
  refine (require_reports isShare_iff _).bind fun _ _ => ?_
  refine (readPeriod_reports _ _).bind fun timeout _ => ?_
  refine (readPeriod_reports _ _).bind fun interval _ => ?_
  refine (readPeriod_reports _ _).bind fun frequency _ => ?_
  refine (require_reports decide_eq_true_iff _).bind fun _ _ => ?_
  refine (require_reports decide_eq_true_iff _).bind fun _ _ => ?_
  exact .accepted _

-------------------------------------------------------------------------------
-- The judgement
-------------------------------------------------------------------------------

/-- A configuration is judged by what is wrong with it: it has settings exactly when it is sound,
and is refused for the first of its faults otherwise. Its settings count the configured roles and
the role of the community itself as no verification, and the member who is admitted loses the same
role that the classification looks for. No file is loaded but with a configuration that has
settings.
-/
structure Judged (config : Config) : Prop where
  accepted : (∃ settings, config.settings = .ok settings) ↔ config.Sound
  refused
    : ∀ refusal, config.settings = .error refusal ↔ config.faults.head? = some refusal
  baseline
    : ∀ settings, config.settings = .ok settings →
        ∀ role,
          role ∈ settings.reconcile.policy.baselineRoles
          ↔ role ∈ config.roles.baseline ∨ role = ⟨config.community.word⟩
  pending
    : ∀ settings, config.settings = .ok settings →
        settings.admission.pendingRole = settings.reconcile.policy.pendingRole
        ∧ settings.reconcile.policy.pendingRole = config.roles.pending
  loaded
    : ∀ files path storePath, load files path storePath = .ok config →
        ∃ settings, config.settings = .ok settings

/-- Every configuration is judged by what is wrong with it. -/
theorem settings_judged (config : Config)
    : config.Judged where
  accepted := (settings_reports config).isOk_iff.trans faults_eq_nil_iff
  refused := (settings_reports config).eq_error_iff
  baseline settings valid role := by
    have coherent := coherent_of_settings valid
    rw [coherent.baselineRoles, baselineRoles, OrderedSet.mem_insert, OrderedSet.mem_ofList]
    exact or_comm
  pending settings valid := by
    have coherent := coherent_of_settings valid
    rw [coherent.admission, coherent.pendingRole]
    exact ⟨rfl, rfl⟩
  loaded _ _ _ found := settings_of_load found

/-- The configuration that is written for a start is loaded and judged sound: the classification and
the admission name its pending role, and only the role of the community counts as no verification.
-/
theorem settings_judged_when_created
    : let path := FilePath.ofString "etc/warden.toml"
      let files := (createDefault .empty path "warden.db").2
      let config := starter "warden.db"
      load files path "warden.db" = .ok config
      ∧ config.Sound
      ∧ config.faults = []
      ∧ ∃ settings,
          config.settings = .ok settings
          ∧ settings.admission.pendingRole = ⟨2⟩
          ∧ settings.reconcile.policy.pendingRole = ⟨2⟩
          ∧ ∀ role, role ∈ settings.reconcile.policy.baselineRoles ↔ role = ⟨1⟩ := by
  intro path files config
  have judged := settings_judged config
  have loaded : load files path "warden.db" = .ok config := by
    obtain ⟨after, wrote, holds⟩ := writable_empty.write (template "warden.db")
    have created : files = after := congrArg Prod.snd wrote
    rw [created]
    have plain : ∀ c ∈ "warden.db".toList, StandsForItself c := by decide
    exact (load_eq_ok_iff holds).mpr ⟨read?_template plain _, starter_settings _⟩
  have valid := judged.loaded files path "warden.db" loaded
  have sound := judged.accepted.mp valid
  obtain ⟨settings, valid⟩ := valid
  obtain ⟨same, pending⟩ := judged.pending settings valid
  refine ⟨loaded, sound, faults_eq_nil_iff.mpr sound, settings, valid, same.trans pending, pending,
    fun role => (judged.baseline settings valid role).trans ?_⟩
  simp [config, starter, Config.ofIds]

-- The period that is none and the tokens that are the same come later.
example
    : let policy := { PolicySection.standard with
        removalAfter := "soon", confirmationTimeout := "0s", denyToken := "✅" }
      { starter "warden.db" with policy := policy }.settings
      = .error (.duration "policy.removal_after" (.numberExpected 0)) := by
  rfl

end Config

end Gatehouse
