import Gatehouse.Config.Settings

/-! What holds of the settings of a configuration once it is not refused: the parts are taken
over as they are written, and they agree as far as it was checked.
-/

namespace Gatehouse

/-- A step that went on was a success, and so was what came after it. -/
theorem exists_of_bind_eq_ok {ε α β : Type} {first : Except ε α} {next : α → Except ε β}
    {result : β} (h : first >>= next = .ok result)
    : ∃ value, first = .ok value ∧ next value = .ok result := by
  cases first with
  | error fault => cases h
  | ok value => exact ⟨value, rfl, h⟩

namespace Config

/-- A condition that was required and did not stop the rest is met. -/
theorem of_require_bind {β : Type} {condition : Bool} {disagreement : Disagreement}
    {next : Unit → Except Refusal β} {result : β}
    (h : require condition disagreement >>= next = .ok result)
    : condition = true ∧ next () = .ok result := by
  cases condition with
  | false => cases h
  | true => exact ⟨rfl, h⟩

/-- Settings take over the roles of a configuration, and its parts agree. -/
structure Coherent (config : Config) (settings : Settings) : Prop where
  pendingRole : settings.reconcile.policy.pendingRole = config.roles.pending
  baselineRoles : settings.reconcile.policy.baselineRoles = config.baselineRoles
  admission : settings.admission = .ofRoles config.roles.verified config.roles.pending
  horizons
    : settings.reconcile.policy.warningAfter < settings.reconcile.policy.removalAfter
  share : isShare settings.reconcile.gate.threshold = true
  tokens : settings.reconcile.gate.approveToken ≠ settings.reconcile.gate.denyToken
  roles : config.roles.pending ≠ config.roles.verified

/-- The settings of a configuration are coherent with it. -/
theorem coherent_of_settings {config : Config} {settings : Settings}
    (valid : config.settings = .ok settings)
    : config.Coherent settings := by
  unfold Config.settings at valid
  obtain ⟨warningAfter, -, valid⟩ := exists_of_bind_eq_ok valid
  obtain ⟨removalAfter, -, valid⟩ := exists_of_bind_eq_ok valid
  obtain ⟨horizons, valid⟩ := of_require_bind valid
  obtain ⟨share, valid⟩ := of_require_bind valid
  obtain ⟨timeout, -, valid⟩ := exists_of_bind_eq_ok valid
  obtain ⟨interval, -, valid⟩ := exists_of_bind_eq_ok valid
  obtain ⟨frequency, -, valid⟩ := exists_of_bind_eq_ok valid
  obtain ⟨tokens, valid⟩ := of_require_bind valid
  obtain ⟨roles, valid⟩ := of_require_bind valid
  cases valid
  exact
    { pendingRole := rfl
      baselineRoles := rfl
      admission := rfl
      horizons := of_decide_eq_true horizons
      share := share
      tokens := of_decide_eq_true tokens
      roles := of_decide_eq_true roles }

end Config

end Gatehouse
