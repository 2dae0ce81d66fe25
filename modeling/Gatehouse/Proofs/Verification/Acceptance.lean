import Gatehouse.Proofs.Config.Coherence
import Gatehouse.Proofs.Verification.Round

/-! Whether acceptance lasts. A member who was accepted holds the verified role from then on.
That keeps it out of every later batch when the role counts as verification, which a
configuration that is not refused leaves open.
-/

namespace Gatehouse

-------------------------------------------------------------------------------
-- Accepting a member
-------------------------------------------------------------------------------

namespace AdmissionSettings

/-- The record of a member after it was accepted. -/
def accepted (settings : AdmissionSettings) (record : Member) : Member :=
  if record.holds settings.pendingRole then
    (record.grant settings.verifiedRole).revoke settings.pendingRole
  else record.grant settings.verifiedRole

theorem id_accepted (settings : AdmissionSettings) (record : Member)
    : (settings.accepted record).id = record.id := by
  unfold accepted
  split <;> rfl

/-- A member who was accepted holds the verified role, as it is not the pending role. -/
theorem holds_accepted {settings : AdmissionSettings} {record : Member}
    (apart : settings.verifiedRole ≠ settings.pendingRole)
    : (settings.accepted record).holds settings.verifiedRole = true := by
  have granted : (record.grant settings.verifiedRole).holds settings.verifiedRole = true :=
    Member.holds_grant.mpr (.inl rfl)
  unfold accepted
  split
  · exact Member.holds_revoke.mpr ⟨apart, granted⟩
  · exact granted

/-- The private messages of a community after a member was told something, if it could be. -/
def told (before : Community) (member : MemberId) (text : String) : List (MemberId × String) :=
  if before.directFailures.contains member then before.directMessages
  else before.directMessages ++ [(member, text)]

/-- Telling a member something adds to the private messages, if it can be told. -/
theorem tell_course (now : Instant) (before : Community) (member : MemberId)
    (text note : String)
    : ∃ made,
        (tell member text note).Course now before ()
          { before with directMessages := told before member text } made := by
  have called := Program.Course.call now before (.sendDirect member text)
  unfold tell told
  simp only [Community.answer, Community.sendDirect] at called
  split at called
  · next fails =>
    rw [if_pos fails]
    exact ⟨_, called.followed (.log _ _ _)⟩
  · next able =>
    rw [if_neg able]
    exact ⟨_, called.followed .done⟩

/-- A change of roles that no injected failure stops puts the changed record in its place. -/
theorem changeRoles_eq {before : Community} {id : MemberId} {record : Member}
    (found : before.member? id = some record) (able : before.roleFailures.find? id = none)
    (attempt : String) (change : Member → Member)
    : before.changeRoles id attempt change
      = (.ok (), { before with members := before.members.add (change record) }) := by
  have found : before.members.find? id = some record := found
  unfold Community.changeRoles
  rw [able, found]

/-- A change of roles that an injected failure stops, or that finds nobody, changes nothing. -/
theorem changeRoles_refused {before : Community} {id : MemberId}
    (refuses : before.roleFailures.find? id ≠ none ∨ before.member? id = none)
    (attempt : String) (change : Member → Member)
    : ∃ failure, before.changeRoles id attempt change = (.error failure, before) := by
  unfold Community.changeRoles
  cases able : before.roleFailures.find? id with
  | some code => exact ⟨_, rfl⟩
  | none =>
      have absent : before.members.find? id = none := refuses.resolve_left (absurd able)
      rw [absent]
      exact ⟨_, rfl⟩

section Courses

variable {before : Community} {record held : Member}

/-- An admission whose first change of roles is refused ends there and changes nothing. -/
theorem accept_refused (now : Instant) (settings : AdmissionSettings)
    (refuses : before.roleFailures.find? record.id ≠ none ∨ before.member? record.id = none)
    : ∃ failure made, (settings.accept record).Course now before (.error failure) before made := by
  obtain ⟨failure, refused⟩ :=
    changeRoles_refused refuses
      ("add role " ++ settings.verifiedRole.text ++ " to " ++ record.id.text)
      (·.grant settings.verifiedRole)
  have granting := Program.Course.call now before
    (.addRole record.id settings.verifiedRole reason)
  simp only [Community.answer, refused] at granting
  exact ⟨failure, _, .after_log (granting.followed .done)⟩

/-- The second change of roles is made in any case: what stops it would have stopped the first. -/
theorem dropPending_course (now : Instant) (settings : AdmissionSettings)
    (found : before.member? record.id = some held)
    (able : before.roleFailures.find? record.id = none)
    : ∃ made,
        (settings.dropPending record).Course now before (.ok ())
          { before with
            members :=
              before.members.add
                (if record.holds settings.pendingRole then held.revoke settings.pendingRole
                else held) }
          made := by
  have revoking := Program.Course.call now before
    (.removeRole record.id settings.pendingRole reason)
  simp only [Community.answer, changeRoles_eq found able] at revoking
  unfold dropPending
  split
  · exact ⟨_, revoking⟩
  · have own : held.id = record.id := Roster.id_of_find? found
    rw [Roster.add_of_find? (own ▸ found)]
    exact ⟨_, .done⟩

/-- An admission that is not refused leaves the member with the roles of an accepted one, and the
member is told if it can be.
-/
theorem accept_granted (now : Instant) (settings : AdmissionSettings)
    (found : before.member? record.id = some held) (roles : held.roles = record.roles)
    (able : before.roleFailures.find? record.id = none)
    : ∃ made,
        (settings.accept record).Course now before (.ok ())
          { before with
            members := before.members.add (settings.accepted held)
            directMessages := told before record.id settings.verifiedMessage }
          made := by
  have granting := Program.Course.call now before
    (.addRole record.id settings.verifiedRole reason)
  simp only [Community.answer, changeRoles_eq found able] at granting
  have own : held.id = record.id := Roster.id_of_find? found
  let granted := held.grant settings.verifiedRole
  let between : Community := { before with members := before.members.add granted }
  have there : between.member? record.id = some granted := Roster.find?_add.trans (if_pos own)
  obtain ⟨dropped, dropping⟩ := dropPending_course now settings there able
  have same : (if record.holds settings.pendingRole then granted.revoke settings.pendingRole
      else granted) = settings.accepted held := by
    unfold accepted Member.holds
    rw [roles]
  have named : granted.id = (settings.accepted held).id := (settings.id_accepted held).symm
  rw [same, Roster.add_add named] at dropping
  obtain ⟨more, telling⟩ :=
    tell_course now { before with members := before.members.add (settings.accepted held) }
      record.id settings.verifiedMessage "Failed to send verification confirmation"
  exact ⟨_, .after_log (granting.bind (dropping.bind (telling.followed .done)))⟩

/-- Accepting a member who is there fails when a failure is injected for it, and otherwise
leaves it with the roles of an accepted member. Beside the members at most the private messages
change.
-/
theorem accept_course (now : Instant) (settings : AdmissionSettings)
    (found : before.member? record.id = some record)
    : ∃ outcome roster messages made,
        (settings.accept record).Course now before outcome
          { before with members := roster, directMessages := messages } made
        ∧ (before.roleFailures.find? record.id = none → outcome = .ok ())
        ∧ (outcome = .ok () → roster.find? record.id = some (settings.accepted record)) := by
  cases able : before.roleFailures.find? record.id with
  | some code =>
      obtain ⟨failure, made, refused⟩ :=
        accept_refused now settings (.inl (by simp [able]) : _ ∨ before.member? record.id = none)
      exact ⟨_, before.members, before.directMessages, made, refused, nofun, nofun⟩
  | none =>
      obtain ⟨made, granted⟩ := accept_granted now settings found rfl able
      exact ⟨_, _, _, made, granted, fun _ => rfl,
        fun _ => Roster.find?_add.trans (if_pos (settings.id_accepted record))⟩

end Courses

end AdmissionSettings

-------------------------------------------------------------------------------
-- What may happen since
-------------------------------------------------------------------------------

namespace Settings

/-- Worlds that come after a world by passes, at any instants and with any sinks, and by changes
of any kind that leave the roles of a member as they are.
-/
inductive Leads (settings : Settings) (id : MemberId) (start : World) : World → Prop
  | here : settings.Leads id start start
  | pass {world : World} (earlier : settings.Leads id start world) (sink : AuditSink)
    (at_ : Instant)
    : settings.Leads id start
        (Round.mk settings.reconcile sink { world with clock := at_ }).after
  | other {world later : World} (earlier : settings.Leads id start world)
    (kept
      : ∀ record,
          later.community.member? id = some record
          → ∃ former,
            world.community.member? id = some former ∧ former.roles = record.roles)
    : settings.Leads id start later

/-- A role that a member holds stays with it as long as it is there, by induction over what
happens: a pass grants roles and takes none.
-/
theorem Leads.holds {settings : Settings} {id : MemberId} {start later : World} {role : RoleId}
    (leads : settings.Leads id start later)
    (held : ∀ record, start.community.member? id = some record → record.holds role = true)
    : ∀ record, later.community.member? id = some record → record.holds role = true := by
  induction leads with
  | here => exact held
  | @pass world earlier sink at_ ih =>
      intro record found
      let round : Round := ⟨settings.reconcile, sink, { world with clock := at_ }⟩
      have found : round.after.community.member? id = some record := found
      rw [round.change.members id] at found
      split at found
      · cases found
      · obtain ⟨former, earlier, rfl⟩ := Option.map_eq_some_iff.mp found
        have holds := ih former earlier
        split
        · exact Member.holds_grant.mpr (.inr holds)
        · exact holds
  | other earlier kept ih =>
      intro record found
      obtain ⟨former, earlier, same⟩ := kept record found
      have holds := ih former earlier
      unfold Member.holds at holds ⊢
      rw [← same]
      exact holds

/-- Acceptance lasts: whoever is there and is accepted is in no batch of a later pass, whatever
happens in between that leaves its roles to the passes.
-/
def AcceptanceLasts (settings : Settings) : Prop :=
  ∀ (world later : World) (record : Member) (sink : AuditSink) (at_ : Instant)
      (report : PassReport),
    world.community.member? record.id = some record
    → ((settings.admission.accept record).run World.handle world).1 = .ok ()
    → settings.Leads record.id
        ((settings.admission.accept record).run World.handle world).2 later
    → (Round.mk settings.reconcile sink { later with clock := at_ }).result = .ok report
    → record.id ∉ report.classification.needsWarning.members
      ∧ record.id ∉ report.classification.needsRemoval.members

/-- Nobody is ever due anything: no two instants are further apart than the first horizon. -/
def NobodyLate (settings : Settings) : Prop :=
  ∀ (now joined : Instant) (age : Duration),
    now.since? joined = some age → age ≤ settings.reconcile.policy.warningAfter

end Settings

-------------------------------------------------------------------------------
-- When acceptance lasts
-------------------------------------------------------------------------------

/-- A late newcomer whose only role does not count as verification is due something. -/
theorem Policy.due_grant_neutral {policy : Policy} {now : Instant} {newcomer : Member}
    {role : RoleId} {age : Duration} (neutral : policy.isNeutral role = true)
    (apart : role ≠ policy.pendingRole) (bare : newcomer.roles = ∅)
    (aged : age? now newcomer = some age) (late : policy.warningAfter < age)
    : policy.due now (newcomer.grant role) ≠ .nothing := by
  have only (other : RoleId) : other ∈ (newcomer.grant role).roles ↔ other = role := by
    simp [Member.grant, bare]
  refine due_ne_nothing_iff.mpr ⟨age, aged, ?_, .inr ⟨late, ?_⟩⟩
  · refine List.all_eq_true.mpr fun other held => ?_
    rw [(only other).mp (OrderedSet.mem_toList.mp held)]
    exact neutral
  · refine Bool.eq_false_iff.mpr fun holds => ?_
    exact apart ((only policy.pendingRole).mp (OrderedSet.contains_iff.mp holds)).symm

namespace Config.Coherent

variable {config : Config} {settings : Settings}

/-- Whoever was accepted holds the verified role, for it is not the pending role. -/
theorem holds_verified (coherent : config.Coherent settings) {world : World}
    {record later : Member} (found : world.community.member? record.id = some record)
    (accepted : ((settings.admission.accept record).run World.handle world).1 = .ok ())
    (kept
      : ((settings.admission.accept record).run World.handle world).2.community.member?
          record.id
        = some later)
    : later.holds config.roles.verified = true := by
  obtain ⟨outcome, roster, messages, made, course, -, roles⟩ :=
    AdmissionSettings.accept_course world.clock settings.admission found
  obtain ⟨value, ⟨journal, after⟩, -⟩ := course.ran world
  have roles := roles (value.symm.trans accepted)
  rw [after] at kept
  have same : later = settings.admission.accepted record :=
    Option.some.inj (kept.symm.trans roles)
  have verifiedRole : config.roles.verified = settings.admission.verifiedRole := by
    rw [coherent.admission]
    rfl
  have pendingRole : config.roles.pending = settings.admission.pendingRole := by
    rw [coherent.admission]
    rfl
  rw [same, verifiedRole]
  refine AdmissionSettings.holds_accepted ?_
  rw [← verifiedRole, ← pendingRole]
  exact coherent.roles.symm

/-- Acceptance lasts when the verified role counts as verification: whoever holds it is not
unverified.
-/
theorem lasts_of_counts (coherent : config.Coherent settings)
    (counts : config.roles.verified ∉ config.baselineRoles)
    : settings.AcceptanceLasts := by
  intro world later record sink at_ report found accepted leads returned
  obtain ⟨granted, settled, removing, conducted⟩ := Round.conducted_of_result returned
  rw [← not_or, conducted.mem_batches]
  intro isDue
  obtain ⟨current, present, something⟩ := isDue
  have holds := leads.holds
    (fun _ kept => coherent.holds_verified found accepted kept) current present
  obtain ⟨age, -, unverified, -⟩ := Policy.due_ne_nothing_iff.mp something
  have neutral := List.all_eq_true.mp unverified config.roles.verified
    (OrderedSet.contains_iff.mp holds)
  simp only [Policy.isNeutral, coherent.pendingRole, coherent.baselineRoles, Bool.or_eq_true,
    decide_eq_true_eq, OrderedSet.contains_iff] at neutral
  exact neutral.elim (fun same => coherent.roles same.symm) counts

/-- Acceptance lasts when nobody is ever due anything. -/
theorem lasts_of_nobodyLate (coherent : config.Coherent settings)
    (nobody : settings.NobodyLate)
    : settings.AcceptanceLasts := by
  intro world later record sink at_ report found accepted leads returned
  obtain ⟨granted, settled, removing, conducted⟩ := Round.conducted_of_result returned
  rw [← not_or, conducted.mem_batches]
  intro isDue
  obtain ⟨current, present, something⟩ := isDue
  obtain ⟨age, aged, -, late⟩ := Policy.due_ne_nothing_iff.mp something
  have young : age ≤ settings.reconcile.policy.warningAfter := by
    unfold Policy.age? at aged
    split at aged
    · cases aged
    · obtain ⟨joined, -, since⟩ := Option.bind_eq_some_iff.mp aged
      exact nobody _ joined age since
  -- The second horizon lies beyond the first, so nobody reaches it either.
  have horizons := coherent.horizons
  rcases late with overdue | ⟨late, -⟩
  · exact absurd young (Nat.not_le_of_lt (Nat.lt_trans horizons overdue))
  · exact absurd young (Nat.not_le_of_lt late)

/-- Acceptance does not last when the verified role does not count as verification and someone
can be late enough. Witness: a member without roles, who still holds nothing that counts after
its acceptance.
-/
theorem not_lasts (coherent : config.Coherent settings)
    (neutral : config.roles.verified ∈ config.baselineRoles) {now joined : Instant}
    {age : Duration} (since : now.since? joined = some age)
    (late : settings.reconcile.policy.warningAfter < age)
    : ¬ settings.AcceptanceLasts := by
  intro lasts
  -- The newcomer is accepted at once; the pass begins when it is late.
  let record : Member := ⟨⟨1⟩, some joined, ∅, false⟩
  let world := World.start (Community.ofMembers now [record])
  have found : world.community.member? record.id = some record := by
    change ((∅ : Roster).add record).find? record.id = _
    rw [Roster.find?_add]
    exact if_pos rfl
  obtain ⟨outcome, roster, messages, made, course, accepts, roles⟩ :=
    AdmissionSettings.accept_course world.clock settings.admission found
  obtain ⟨value, ⟨journal, after⟩, -⟩ := course.ran world
  have accepted := accepts rfl
  have roles := roles accepted
  let round : Round :=
    ⟨settings.reconcile, .file,
      { ((settings.admission.accept record).run World.handle world).2 with clock := now }⟩
  have readable : round.before.community.listingFailure = none := by
    have same := congrArg (fun world : World => world.community.listingFailure) after
    exact same
  obtain ⟨report, granted, settled, removing, conducted⟩ := round.conducted readable
  have apart := lasts world _ record .file now report found (value.trans accepted) .here
    conducted.result
  rw [← not_or, conducted.mem_batches] at apart
  have same : settings.admission.accepted record = record.grant config.roles.verified := by
    rw [coherent.admission]
    rfl
  have neutral : settings.reconcile.policy.isNeutral config.roles.verified = true := by
    simp [Policy.isNeutral, coherent.baselineRoles, neutral]
  have apart' : config.roles.verified ≠ settings.reconcile.policy.pendingRole := by
    rw [coherent.pendingRole]
    exact coherent.roles.symm
  refine apart ⟨record.grant config.roles.verified, ?_,
    Policy.due_grant_neutral neutral apart' rfl since late⟩
  have kept := congrArg (fun world : World => world.community.member? record.id) after
  rw [same] at roles
  exact kept.trans roles

end Config.Coherent

/-- Acceptance lasts under the settings of a configuration exactly when its verified role is
neither one of its baseline roles nor the role that everyone holds, or nobody is ever due
anything.
-/
theorem Config.acceptance_lasts_iff {config : Config} {settings : Settings}
    (valid : config.settings = .ok settings)
    : settings.AcceptanceLasts
      ↔ (config.roles.verified ∉ config.roles.baseline
          ∧ config.roles.verified ≠ config.community.everyone)
        ∨ settings.NobodyLate := by
  have coherent := coherent_of_settings valid
  have counts
      : config.roles.verified ∉ config.baselineRoles
        ↔ config.roles.verified ∉ config.roles.baseline
          ∧ config.roles.verified ≠ config.community.everyone := by
    simp only [baselineRoles, OrderedSet.mem_insert, OrderedSet.mem_ofList, not_or,
      and_comm]
  rw [← counts]
  constructor
  · intro lasts
    by_cases neutral : config.roles.verified ∈ config.baselineRoles
    · refine .inr fun now joined age since => Nat.le_of_not_lt fun late => ?_
      exact coherent.not_lasts neutral since late lasts
    · exact .inl neutral
  · intro holds
    rcases holds with counts | nobody
    · exact coherent.lasts_of_counts counts
    · exact coherent.lasts_of_nobodyLate nobody

/-- The condition for the configuration with all its defaults, which does not name the verified
role a baseline role.
-/
theorem Config.acceptance_lasts_iff_of_defaults
    : let config := Config.ofIds ⟨100⟩ ⟨200⟩ ⟨300⟩ ⟨400⟩ ⟨500⟩ "warden.db"
      ∃ settings,
        config.settings = .ok settings
        ∧ (settings.AcceptanceLasts
          ↔ (config.roles.verified ∉ config.roles.baseline
              ∧ config.roles.verified ≠ config.community.everyone)
            ∨ settings.NobodyLate) :=
  ⟨_, rfl, Config.acceptance_lasts_iff rfl⟩

/-- A configuration that is not refused although its verified role is a baseline role. Under its
settings acceptance does not last: ten days after it joined, a member who was accepted is due a
warning.
-/
theorem Config.acceptance_need_not_last
    : ∃ settings,
        Config.settings
            { Config.ofIds ⟨100⟩ ⟨200⟩ ⟨300⟩ ⟨400⟩ ⟨500⟩ "warden.db" with
              roles := ⟨⟨200⟩, [⟨300⟩], ⟨300⟩, none⟩ }
          = .ok settings
        ∧ ¬ settings.AcceptanceLasts := by
  let now : Instant := ⟨10, 0, 0, by decide, by decide, by decide, by decide⟩
  have tenDays : now.since? .epoch = some (.ofSeconds 864000) := by decide +kernel
  obtain ⟨settings, valid, late⟩
      : ∃ settings,
          Config.settings
              { Config.ofIds ⟨100⟩ ⟨200⟩ ⟨300⟩ ⟨400⟩ ⟨500⟩ "warden.db" with
                roles := ⟨⟨200⟩, [⟨300⟩], ⟨300⟩, none⟩ }
            = .ok settings
          ∧ settings.reconcile.policy.warningAfter < .ofSeconds 864000 := by
    refine ⟨_, rfl, ?_⟩
    decide
  exact ⟨settings, valid,
    (coherent_of_settings valid).not_lasts (OrderedSet.contains_iff.mp rfl) tenDays late⟩

end Gatehouse
