import Gatehouse.Proofs.Verification.Acceptance

/-! An admission is carried out as a whole or not at all. It makes two changes of roles and
nothing is taken back when the second one fails; but whatever stops the second one would have
stopped the first.
-/

namespace Gatehouse

namespace AdmissionSettings

-------------------------------------------------------------------------------
-- The record of an accepted member
-------------------------------------------------------------------------------

section Records

variable {settings : AdmissionSettings}

/-- An accepted member has one role more and one less: the pending role is taken from a member
who does not hold it without any effect.
-/
theorem accepted_eq (apart : settings.verifiedRole ≠ settings.pendingRole) (record : Member)
    : settings.accepted record
      = { record with
          roles := (record.roles.insert settings.verifiedRole).erase settings.pendingRole } := by
  unfold accepted
  split
  · rfl
  · next without =>
    have absent : ¬ settings.pendingRole ∈ record.roles := without ∘ OrderedSet.contains_iff.mpr
    have same : (record.roles.insert settings.verifiedRole).erase settings.pendingRole
        = record.roles.insert settings.verifiedRole := by
      refine OrderedSet.ext fun role => ?_
      rw [OrderedSet.mem_erase, and_iff_right_iff_imp]
      rintro member rfl
      exact (OrderedSet.mem_insert.mp member).elim (Ne.symm apart) absent
    rw [same]
    rfl

/-- Whoever is accepted once more stays as it is. -/
theorem accepted_accepted (apart : settings.verifiedRole ≠ settings.pendingRole)
    (record : Member)
    : settings.accepted (settings.accepted record) = settings.accepted record := by
  simp only [accepted_eq apart]
  refine congrArg (fun roles => { record with roles := roles }) (OrderedSet.ext fun role => ?_)
  simp only [OrderedSet.mem_erase, OrderedSet.mem_insert]
  constructor
  · rintro ⟨other, granted | ⟨-, held⟩⟩
    · exact ⟨other, .inl granted⟩
    · exact ⟨other, held⟩
  · rintro ⟨other, held⟩
    exact ⟨other, .inr ⟨other, held⟩⟩

end Records

-------------------------------------------------------------------------------
-- What an admission does
-------------------------------------------------------------------------------

/-- Nothing keeps the roles of a member from being changed: the member is there and no failure
is injected for it.
-/
def Admissible (community : Community) (id : MemberId) : Prop :=
  community.roleFailures.find? id = none ∧ community.member? id ≠ none

/-- What an admission does in a world, from the outcome that it returns and the world that it
leaves.
-/
structure AllOrNothing (settings : AdmissionSettings) (record : Member) (world : World)
    (outcome : Outcome Unit) (after : World) : Prop where
  /-- Beside the community only the journal may change. -/
  beside
    : ∃ journal, after = { world with community := after.community, journal := journal }
  /-- It succeeds exactly when nothing keeps the roles of the member from being changed. -/
  succeeds : outcome = .ok () ↔ Admissible world.community record.id
  /-- One that fails leaves the whole community as it was. -/
  nothing : ∀ failure, outcome = .error failure → after.community = world.community
  /-- One that succeeds adds the verified role and takes the pending role of this member, and
  everyone else is found as before.
  -/
  roles
    : outcome = .ok ()
      → ∀ id,
        after.community.member? id
          = if id = record.id then
              (world.community.member? id).map fun held =>
                { held with
                  roles := (held.roles.insert settings.verifiedRole).erase settings.pendingRole }
            else world.community.member? id
  /-- Beside the members it adds one private message, if the member can be told anything. -/
  rest
    : outcome = .ok ()
      → after.community
        = { world.community with
            members := after.community.members
            directMessages :=
              if world.community.directFailures.contains record.id then
                world.community.directMessages
              else world.community.directMessages ++ [(record.id, settings.verifiedMessage)] }
  /-- Accepting the member once more, as it is then recorded, changes no member, and succeeds if
  the first time did.
  -/
  again
    : ∀ refreshed,
      after.community.member? record.id = some refreshed
      → ((settings.accept refreshed).run World.handle after).2.community.members
          = after.community.members
        ∧ (outcome = .ok () → ((settings.accept refreshed).run World.handle after).1 = .ok ())

/-- A community in which a member whose record is held was accepted. -/
def admitted (settings : AdmissionSettings) (before : Community) (id : MemberId) (held : Member)
    : Community :=
  { before with
    members := before.members.add (settings.accepted held)
    directMessages := told before id settings.verifiedMessage }

section Run

variable {settings : AdmissionSettings} {world : World} {record held : Member}

/-- Only the member who was accepted is found otherwise than before. -/
theorem member?_admitted {before : Community} {id : MemberId}
    (found : before.member? id = some held) (other : MemberId)
    : (settings.admitted before id held).member? other
      = if other = id then some (settings.accepted held) else before.member? other := by
  have named : (settings.accepted held).id = id :=
    (settings.id_accepted held).trans (Roster.id_of_find? found)
  change (before.members.add (settings.accepted held)).find? other = _
  rw [Roster.find?_add, named]
  exact ite_congr (propext eq_comm) (fun _ => rfl) (fun _ => rfl)

/-- To accept a member once more changes no member. -/
theorem members_admitted_again (apart : settings.verifiedRole ≠ settings.pendingRole)
    (before : Community) (id other : MemberId)
    : (settings.admitted (settings.admitted before id held) other
        (settings.accepted held)).members
      = (settings.admitted before id held).members := by
  unfold admitted
  rw [accepted_accepted apart]
  exact Roster.add_add rfl

/-- A member whose roles cannot be changed is not admitted, and the community stays as it is. -/
theorem accept_run_refused (settings : AdmissionSettings) (world : World)
    (refuses : ¬ Admissible world.community record.id)
    : ∃ failure journal,
        (settings.accept record).run World.handle world
          = (.error failure, { world with journal := journal }) := by
  rw [Admissible, Classical.not_and_iff_not_or_not, Classical.not_not] at refuses
  obtain ⟨failure, made, course⟩ := accept_refused world.clock settings refuses
  obtain ⟨journal, ran⟩ := (course world rfl rfl).1
  exact ⟨failure, journal, ran⟩

/-- A member who is there and whose roles can be changed is admitted. -/
theorem accept_run_granted (settings : AdmissionSettings) (world : World)
    (able : world.community.roleFailures.find? record.id = none)
    (found : world.community.member? record.id = some held) (roles : held.roles = record.roles)
    : ∃ journal,
        (settings.accept record).run World.handle world
          = (.ok (),
              { world with
                community := settings.admitted world.community record.id held
                journal := journal }) := by
  obtain ⟨made, course⟩ := accept_granted world.clock settings found roles able
  exact (course world rfl rfl).1

/-- An admission does all that it is to do or nothing, when it goes by the roles that the member
has.
-/
theorem accept_all_or_nothing (apart : settings.verifiedRole ≠ settings.pendingRole)
    (current : ∀ held, world.community.member? record.id = some held → held.roles = record.roles)
    : settings.AllOrNothing record world
        ((settings.accept record).run World.handle world).1
        ((settings.accept record).run World.handle world).2 := by
  by_cases admissible : Admissible world.community record.id
  · have ⟨able, there⟩ := admissible
    obtain ⟨held, found⟩ := Option.ne_none_iff_exists'.mp there
    obtain ⟨journal, ran⟩ := accept_run_granted settings world able found (current held found)
    rw [ran]
    refine ⟨⟨journal, rfl⟩, ⟨fun _ => admissible, fun _ => rfl⟩, nofun, fun _ id => ?_,
      fun _ => rfl, fun refreshed now => ?_⟩
    · rw [member?_admitted found]
      split
      · next this => rw [this, found, accepted_eq apart, Option.map_some]
      · rfl
    · have own : refreshed.id = record.id := Roster.id_of_find? now
      have stays : settings.accepted held = refreshed := by
        rw [member?_admitted found, if_pos rfl] at now
        exact Option.some.inj now
      rw [← own] at able now
      obtain ⟨further, again⟩ :=
        accept_run_granted settings
          { world with
            community := settings.admitted world.community record.id held
            journal := journal }
          able now rfl
      rw [again, ← stays]
      exact ⟨members_admitted_again apart _ _ _, fun _ => rfl⟩
  · obtain ⟨failure, journal, ran⟩ := accept_run_refused settings world admissible
    rw [ran]
    refine ⟨⟨journal, rfl⟩, ⟨nofun, fun able => absurd able admissible⟩, fun _ _ => rfl, nofun,
      nofun, fun refreshed now => ?_⟩
    have own : refreshed.id = record.id := Roster.id_of_find? now
    obtain ⟨_, further, again⟩ :=
      accept_run_refused settings { world with journal := journal } (own ▸ admissible)
    rw [again]
    exact ⟨rfl, nofun⟩

/-- A newcomer who holds the pending role is admitted as a whole, and holds the verified role
alone afterwards.
-/
theorem accept_all_or_nothing_of_newcomer
    : let settings := ofRoles ⟨3⟩ ⟨2⟩
      let newcomer : Member := ⟨⟨1⟩, none, .ofList [⟨2⟩], false⟩
      let world := World.start (.ofMembers .epoch [newcomer])
      let after := ((settings.accept newcomer).run World.handle world).2
      settings.verifiedRole ≠ settings.pendingRole
      ∧ (∀ held,
          world.community.member? newcomer.id = some held → held.roles = newcomer.roles)
      ∧ settings.AllOrNothing newcomer world
          ((settings.accept newcomer).run World.handle world).1 after
      ∧ after.community.member? ⟨1⟩ = some { newcomer with roles := .ofList [⟨3⟩] }
      ∧ after.community.directMessages = [(⟨1⟩, defaultVerified)] := by
  intro settings newcomer world after
  have apart : settings.verifiedRole ≠ settings.pendingRole := by decide
  have current
      : ∀ held, world.community.member? newcomer.id = some held
        → held.roles = newcomer.roles := by
    intro held found
    have itself : world.community.member? newcomer.id = some newcomer := rfl
    rw [Option.some.inj (found.symm.trans itself)]
  have whole
      : settings.AllOrNothing newcomer world
          ((settings.accept newcomer).run World.handle world).1 after :=
    accept_all_or_nothing apart current
  have succeeded := whole.succeeds.mpr ⟨rfl, nofun⟩
  refine ⟨apart, current, whole, ?_, ?_⟩
  · rw [whole.roles succeeded]
    rfl
  · rw [whole.rest succeeded]
    rfl

end Run

end AdmissionSettings

end Gatehouse
