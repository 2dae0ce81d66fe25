import Gatehouse.Proofs.Verification.Acceptance
import Gatehouse.Proofs.Verification.Attempting

/-! Passes among admissions. Between any two effects of a pass members may be accepted. A pass
goes by its listing: whoever was accepted before that is left alone, and whoever is accepted
only afterwards is dealt with as if it had not been.
-/

namespace Gatehouse

open Program (AsksOnly exchangesOf)

-------------------------------------------------------------------------------
-- Programs among admissions
-------------------------------------------------------------------------------

/-- What happens while a program runs among admissions: an effect of the program with its
answer, or a whole admission with its outcome.
-/
inductive Happening
  | effect (exchange : Sigma Effect.Reply)
  | admission (record : Member) (outcome : Outcome Unit)

namespace Happening

def said? : Happening → Option (Sigma Effect.Reply)
  | effect exchange => some exchange
  | admission .. => none

/-- What the program says in the course of happenings. -/
def saidIn (happenings : List Happening) : List (Sigma Effect.Reply) :=
  happenings.filterMap said?

@[simp] theorem saidIn_append {happenings more : List Happening}
    : saidIn (happenings ++ more) = saidIn happenings ++ saidIn more :=
  List.filterMap_append

/-- An admission of someone went well in the course of happenings. -/
def AcceptedIn (happenings : List Happening) (id : MemberId) : Prop :=
  ∃ record, record.id = id ∧ .admission record (.ok ()) ∈ happenings

theorem acceptedIn_append {happenings more : List Happening} {id : MemberId}
    : AcceptedIn (happenings ++ more) id ↔ AcceptedIn happenings id ∨ AcceptedIn more id := by
  simp only [AcceptedIn, List.mem_append, and_or_left, exists_or]

/-- The member to whom the program has given a role or whom it has removed. -/
def struck? : Happening → Option MemberId
  | effect exchange =>
      (Effect.exchange? exchange).bind fun call => call.granted?.or call.removed?
  | admission .. => none

end Happening

open Happening (saidIn AcceptedIn)

namespace AdmissionSettings

variable {α β : Type} {settings : AdmissionSettings}

/-- A program runs among admissions: before each of its effects, and after the last, any members
may be accepted, with any record of theirs. It tells what happens and in what value and world it
ends.
-/
inductive RunsAmid (settings : AdmissionSettings) {α : Type}
    : Program α → World → List Happening → α → World → Prop
  | done (value : α) (world : World) : settings.RunsAmid (.done value) world [] value world
  | effect {effect : Effect} {next : effect.Reply → Program α} {world after : World}
    {later : List Happening} {value : α}
    (rest
      : settings.RunsAmid (next (World.handle effect world).1) (World.handle effect world).2
          later value after)
    : settings.RunsAmid (.request effect next) world
        (.effect ⟨effect, (World.handle effect world).1⟩ :: later) value after
  | admission {p : Program α} {world after : World} (record : Member)
    {later : List Happening} {value : α}
    (rest
      : settings.RunsAmid p ((settings.accept record).run World.handle world).2 later value
          after)
    : settings.RunsAmid p world
        (.admission record ((settings.accept record).run World.handle world).1 :: later) value
        after

namespace RunsAmid

variable {world after : World} {happenings : List Happening}

/-- A program that nobody interrupts runs as it would alone, by induction over the program. -/
theorem alone (p : Program α) (world : World)
    : settings.RunsAmid p world ((p.trace World.handle world).map .effect)
        (p.run World.handle world).1 (p.run World.handle world).2 := by
  induction p generalizing world with
  | done value => exact .done value world
  | request effect next ih => exact .effect (ih _ _)

/-- What a program says among admissions is one of its conversations. -/
theorem conversation {p : Program α} {value : α}
    (run : settings.RunsAmid p world happenings value after)
    : p.Converses (saidIn happenings) value := by
  induction run with
  | done value => exact .done value
  | effect rest ih => exact .request ih
  | admission record rest ih => exact ih

/-- Two programs in turn run among admissions one after the other, by induction over what
happens.
-/
theorem of_bind {p : Program α} {f : α → Program β} {result : β}
    (run : settings.RunsAmid (p >>= f) world happenings result after)
    : ∃ earlier value middle later,
        happenings = earlier ++ later
        ∧ settings.RunsAmid p world earlier value middle
        ∧ settings.RunsAmid (f value) middle later result after := by
  generalize whole : (p >>= f) = program at run
  induction run generalizing p with
  | done result world =>
      cases p with
      | done value =>
          have whole : f value = .done result := whole
          exact ⟨[], value, world, [], rfl, .done value world, whole ▸ .done result world⟩
      | request effect next => cases whole
  | @effect effect next world after later result rest ih =>
      cases p with
      | done value =>
          have whole : f value = .request effect next := whole
          exact ⟨[], value, world, _, rfl, .done value world, whole ▸ .effect rest⟩
      | request own mine =>
          cases whole
          obtain ⟨earlier, value, middle, later, rfl, first, second⟩ := ih rfl
          exact ⟨_, value, middle, later, rfl, .effect first, second⟩
  | admission record rest ih =>
      obtain ⟨earlier, value, middle, later, rfl, first, second⟩ := ih whole
      exact ⟨_, value, middle, later, rfl, .admission record first, second⟩

/-- After the end of a program there are only admissions, by induction over what happens. -/
theorem of_done {value ended : α}
    (run : settings.RunsAmid (.done value) world happenings ended after)
    : ended = value ∧ settings.RunsAmid (pure ()) world happenings () after := by
  generalize finished : Program.done value = program at run
  induction run with
  | done ended world =>
      cases finished
      exact ⟨rfl, .done () world⟩
  | effect rest ih => cases finished
  | admission record rest ih =>
      obtain ⟨same, since⟩ := ih finished
      exact ⟨same, .admission record since⟩

/-- Around a single request there are only admissions, by induction over what happens. -/
theorem of_ask {effect : Effect} {reply : effect.Reply}
    (run : settings.RunsAmid (Program.ask effect) world happenings reply after)
    : ∃ earlier middle later,
        happenings = earlier ++ .effect ⟨effect, reply⟩ :: later
        ∧ settings.RunsAmid (pure ()) world earlier () middle
        ∧ reply = (World.handle effect middle).1
        ∧ settings.RunsAmid (pure ()) (World.handle effect middle).2 later () after := by
  generalize single : Program.ask effect = program at run
  induction run with
  | done value world => cases single
  | @effect own next world after later value rest ih =>
      cases single
      obtain ⟨rfl, since⟩ := rest.of_done
      exact ⟨[], world, later, rfl, .done () world, rfl, since⟩
  | admission record rest ih =>
      obtain ⟨earlier, middle, later, rfl, before, answered, since⟩ := ih single
      exact ⟨_, middle, later, rfl, .admission record before, answered, since⟩

end RunsAmid

end AdmissionSettings

-------------------------------------------------------------------------------
-- Who was accepted holds the verified role
-------------------------------------------------------------------------------

/-- Whoever is there under an identifier holds a role. -/
def Community.Shows (community : Community) (role : RoleId) (id : MemberId) : Prop :=
  ∀ record, community.member? id = some record → record.holds role = true

/-- A change of roles that takes a role from nobody takes it from nobody in the community. -/
theorem Community.Shows.changeRoles {community : Community} {role : RoleId} {id : MemberId}
    (shows : community.Shows role id) (change : Member → Member)
    (own : ∀ record, (change record).id = record.id)
    (keeps : ∀ record, record.holds role = true → (change record).holds role = true)
    (member : MemberId) (attempt : String)
    : (community.changeRoles member attempt change).2.Shows role id := by
  unfold Community.changeRoles
  split
  · exact shows
  · split
    · exact shows
    · next former found =>
      intro record present
      change (community.members.add (change former)).find? id = some record at present
      rw [Roster.find?_add, own, Roster.id_of_find? found] at present
      split at present
      · next same =>
        subst same
        cases present
        exact keeps former (shows former found)
      · exact shows record present

/-- A change that gives everyone a role and goes well has given it to its member. -/
theorem Community.shows_changeRoles {community : Community} {role : RoleId}
    (change : Member → Member) (own : ∀ record, (change record).id = record.id)
    (gives : ∀ record, (change record).holds role = true) {member : MemberId}
    {attempt : String} {value : Unit}
    (went : (community.changeRoles member attempt change).1 = .ok value)
    : (community.changeRoles member attempt change).2.Shows role member := by
  unfold Community.changeRoles at went ⊢
  split at went
  · cases went
  · split at went
    · cases went
    · next former found =>
      intro record present
      change (community.members.add (change former)).find? member = some record at present
      rw [Roster.find?_add, own, Roster.id_of_find? found, if_pos rfl] at present
      cases present
      exact gives former

namespace AdmissionSettings

variable {settings : AdmissionSettings}

/-- Granting the verified role takes it from nobody, and when it goes well the member holds it. -/
theorem granting_shows (settings : AdmissionSettings) (before : Community) (member : MemberId)
    : let answered := before.answer (.addRole member settings.verifiedRole reason)
      (∀ id,
          before.Shows settings.verifiedRole id
          → answered.2.Shows settings.verifiedRole id)
        ∧ (answered.1 = .ok () → answered.2.Shows settings.verifiedRole member) := by
  have gives (held : Member)
      : (held.grant settings.verifiedRole).holds settings.verifiedRole = true :=
    Member.holds_grant.mpr (.inl rfl)
  refine ⟨fun id shows => ?_, fun went => ?_⟩
  · exact shows.changeRoles (·.grant _) (fun _ => rfl) (fun held _ => gives held) member _
  · exact Community.shows_changeRoles (·.grant _) (fun _ => rfl) gives went

/-- Dropping the pending role takes the verified role, which is another, from nobody. -/
theorem dropPending_shows (apart : settings.verifiedRole ≠ settings.pendingRole) (now : Instant)
    (before : Community) (record : Member)
    : ∃ outcome after made,
        (settings.dropPending record).Course now before outcome after made
        ∧ ∀ id,
          before.Shows settings.verifiedRole id → after.Shows settings.verifiedRole id := by
  unfold dropPending
  split
  · refine ⟨_, _, _, .call now before _, fun id shows => ?_⟩
    exact shows.changeRoles (·.revoke settings.pendingRole) (fun _ => rfl)
      (fun held holds => Member.holds_revoke.mpr ⟨apart, holds⟩) record.id _
  · exact ⟨_, before, _, .done, fun _ shows => shows⟩

/-- An admission, with whatever record of the member, takes the verified role from nobody, and
when it goes well its member holds it.
-/
theorem accept_shows (apart : settings.verifiedRole ≠ settings.pendingRole) (now : Instant)
    (before : Community) (record : Member)
    : ∃ outcome after made,
        (settings.accept record).Course now before outcome after made
        ∧ (∀ id, before.Shows settings.verifiedRole id → after.Shows settings.verifiedRole id)
        ∧ (outcome = .ok () → after.Shows settings.verifiedRole record.id) := by
  have granting := Program.Course.call now before
    (.addRole record.id settings.verifiedRole reason)
  obtain ⟨kept, given⟩ := settings.granting_shows before record.id
  unfold accept
  generalize before.answer (.addRole record.id settings.verifiedRole reason) = answered
    at granting kept given
  obtain ⟨outcome, middle⟩ := answered
  cases outcome with
  | error failure => exact ⟨_, middle, _, .after_log (granting.followed .done), kept, nofun⟩
  | ok value =>
      obtain ⟨outcome, after, made, dropping, drops⟩ := dropPending_shows apart now middle record
      have whole (id : MemberId) (shows : before.Shows settings.verifiedRole id) :=
        drops id (kept id shows)
      cases outcome with
      | error failure =>
          exact ⟨_, after, _, .after_log (granting.bind (dropping.followed .done)), whole, nofun⟩
      | ok value =>
          obtain ⟨more, telling⟩ :=
            tell_course now after record.id settings.verifiedMessage
              "Failed to send verification confirmation"
          exact ⟨_, _, _, .after_log (granting.bind (dropping.bind (telling.followed .done))),
            whole, fun _ => drops record.id (given rfl)⟩

/-- An effect that leaves the members and the clock as they are. -/
def LeavesMembers (effect : Effect) : Prop :=
  ∀ world : World,
    (World.handle effect world).2.community.members = world.community.members
    ∧ (World.handle effect world).2.clock = world.clock

/-- While a program does only what leaves the members as they are, whoever held the verified
role or is accepted comes to hold it, by induction over what happens.
-/
theorem RunsAmid.shows {α : Type} {p : Program α} {world after : World}
    {happenings : List Happening} {value : α}
    (run : settings.RunsAmid p world happenings value after)
    (apart : settings.verifiedRole ≠ settings.pendingRole)
    (leaves : ∀ exchange ∈ saidIn happenings, LeavesMembers exchange.1)
    : after.clock = world.clock
      ∧ ∀ id,
        world.community.Shows settings.verifiedRole id ∨ AcceptedIn happenings id
        → after.community.Shows settings.verifiedRole id := by
  induction run with
  | done value world =>
      refine ⟨rfl, fun id held => held.elim (fun shows => shows) fun accepted => ?_⟩
      obtain ⟨record, -, listed⟩ := accepted
      cases listed
  | @effect effect next world after later value rest ih =>
      obtain ⟨members, time⟩ := leaves _ List.mem_cons_self world
      obtain ⟨clock, shows⟩ := ih fun exchange said =>
        leaves exchange (List.mem_cons_of_mem _ said)
      refine ⟨clock.trans time, fun id held => shows id (held.imp (fun holds => ?_) ?_)⟩
      · unfold Community.Shows Community.member? at holds ⊢
        rw [members]
        exact holds
      · rintro ⟨record, same, listed⟩
        exact ⟨record, same, (List.mem_cons.mp listed).resolve_left nofun⟩
  | @admission p world after record later value rest ih =>
      obtain ⟨outcome, middle, made, course, kept, given⟩ :=
        accept_shows apart world.clock world.community record
      obtain ⟨ended, ⟨journal, since⟩, -⟩ := course.ran world
      obtain ⟨clock, shows⟩ := ih leaves
      rw [since] at clock shows
      refine ⟨clock, fun id held => shows id ?_⟩
      rcases held with held | ⟨accepted, rfl, listed⟩
      · exact .inl (kept id held)
      · rcases List.mem_cons.mp listed with here | there
        · obtain ⟨rfl, went⟩ := Happening.admission.inj here
          exact .inl (given (ended.symm.trans went.symm))
        · exact .inr ⟨accepted, rfl, there⟩

/-- While a program runs that asks only for what leaves the members as they are, whoever held
the verified role or is accepted comes to hold it.
-/
theorem RunsAmid.shows_of_asksOnly {α : Type} {p : Program α} {world after : World}
    {happenings : List Happening} {value : α}
    (run : settings.RunsAmid p world happenings value after)
    (apart : settings.verifiedRole ≠ settings.pendingRole) (asks : p.AsksOnly LeavesMembers)
    : after.clock = world.clock
      ∧ ∀ id,
        world.community.Shows settings.verifiedRole id ∨ AcceptedIn happenings id
        → after.community.Shows settings.verifiedRole id :=
  run.shows apart (asks _ _ run.conversation)

end AdmissionSettings

-------------------------------------------------------------------------------
-- A pass among admissions
-------------------------------------------------------------------------------

namespace ReconcileSettings

variable {settings : ReconcileSettings} {admission : AdmissionSettings} {sink : AuditSink}
  {world after : World} {happenings : List Happening}
  {result : Except SnapshotUnavailable PassReport}

/-- A pass among admissions up to its listing and from there on. Until then it makes no call,
and whoever is accepted by then holds the verified role in the listing; what comes after goes by
the listing.
-/
theorem pass_opening (apart : admission.verifiedRole ≠ admission.pendingRole)
    (run : admission.RunsAmid (settings.pass sink) world happenings result after)
    : ∃ (community : Community) (earlier later : List Happening)
        (listed : Outcome (List Member)),
        happenings = earlier ++ .effect ⟨.call .listMembers, listed⟩ :: later
        ∧ exchangesOf (saidIn earlier) = []
        ∧ (∀ id, AcceptedIn earlier id → community.Shows admission.verifiedRole id)
        ∧ listed = community.listing community.memberList
        ∧ match listed with
          | .error failure =>
              result = .error ⟨failure⟩ ∧ attemptsIn (exchangesOf (saidIn later)) = []
          | .ok members =>
              ∃ report,
                result = .ok report
                ∧ settings.GoesBy world.clock members (exchangesOf (saidIn later)) report := by
  unfold pass at run
  obtain ⟨timed, startedAt, first, rest, rfl, reading, run⟩ := run.of_bind
  obtain ⟨noted, _, second, rest, rfl, remark, run⟩ := run.of_bind
  obtain ⟨listing, listed, third, rest, rfl, asking, acts⟩ := run.of_bind
  obtain ⟨before, middle, since, rfl, waiting, answered, admitting⟩ := asking.of_ask
  -- The instant of the pass is the time of its world, for admissions do not move the clock.
  obtain ⟨opening, told, closing, same, opens, told_eq, -⟩ := reading.of_ask
  have instant : startedAt = world.clock :=
    told_eq.trans (opens.shows_of_asksOnly apart (.pure ())).1
  subst instant
  obtain ⟨-, shown⟩ := reading.shows_of_asksOnly apart (.ask fun _ => ⟨rfl, rfl⟩)
  obtain ⟨-, kept⟩ := remark.shows_of_asksOnly apart (.ask fun _ => ⟨rfl, rfl⟩)
  obtain ⟨-, held⟩ := waiting.shows_of_asksOnly apart (.pure ())
  have said := acts.conversation
  refine ⟨middle.community, timed ++ (noted ++ before), since ++ rest, listed, ?_, ?_, ?_,
    answered, ?_⟩
  · simp only [List.append_assoc, List.cons_append]
  · rw [Happening.saidIn_append, Happening.saidIn_append, reading.conversation.of_ask,
      remark.conversation.of_ask, waiting.conversation.of_pure.1]
    rfl
  · intro id accepted
    rw [Happening.acceptedIn_append, Happening.acceptedIn_append] at accepted
    rcases accepted with early | early | early
    · exact held id (.inl (kept id (.inl (shown id (.inr early)))))
    · exact held id (.inl (kept id (.inr early)))
    · exact held id (.inr early)
  · rw [Happening.saidIn_append, admitting.conversation.of_pure.1, List.nil_append]
    cases listed with
    | error failure =>
        obtain ⟨_, _, noting, said⟩ := said.of_inward (Program.log_inward _ _ _)
        obtain ⟨second, _, last, rfl, report, ended⟩ := said.of_bind
        obtain ⟨rfl, rfl⟩ := ended.of_pure
        refine ⟨rfl, ?_⟩
        rw [noting, List.append_nil, (emit_idle _ _ _).attemptsIn_eq_nil report]
    | ok members =>
        obtain ⟨acted, report, last, same, acting, ended⟩ := said.of_bind
        obtain ⟨rfl, rfl⟩ := ended.of_pure
        rw [same, List.append_nil]
        exact ⟨report, rfl, act_goesBy acting⟩

/-- Whoever shows a role that counts as verification is in neither batch of the listing. -/
theorem not_due_of_shows {community : Community} {policy : Policy} {role : RoleId}
    {id : MemberId} (counts : policy.isNeutral role = false) (shows : community.Shows role id)
    (now : Instant) {what : Due} (something : what ≠ .nothing)
    : id ∉ policy.whoIsDue now community.memberList what := by
  intro isDue
  obtain ⟨record, found, rfl⟩ := Community.mem_whoIsDue.mp isDue
  obtain ⟨-, -, unverified, -⟩ := Policy.due_ne_nothing_iff.mp something
  have neutral := List.all_eq_true.mp unverified role
    (OrderedSet.contains_iff.mp (shows record found))
  rw [counts] at neutral
  cases neutral

/-- Whoever is in neither batch of a listing has nothing attempted on it by a pass over the
listing.
-/
theorem not_mem_attempts {report : PassReport} {id : MemberId}
    (unwarned : id ∉ report.classification.needsWarning.members)
    (unremoved : id ∉ report.classification.needsRemoval.members) (action : Action)
    : (action, id) ∉ attempts report := by
  intro attempted
  rcases List.mem_append.mp attempted with warned | removed
  · obtain ⟨other, listed, same⟩ := List.mem_map.mp warned
    cases same
    exact unwarned (OrderedSet.mem_toList.mp listed)
  · obtain ⟨other, listed, same⟩ := List.mem_map.mp removed
    cases same
    exact unremoved (OrderedSet.mem_toList.mp
      ((report.removal.released_sublist report.classification.needsRemoval).subset listed))

/-- However admissions fall between the steps of a pass, the pass goes by its listing: it carries out
the warning batch of the listing, consults the gate about its removal batch and carries that out
exactly if the gate permits, and attempts nothing else. So nothing is attempted on a member whose
acceptance came before the listing, when the verified role counts as verification and is not the
pending role. Without a listing nothing is attempted at all.
-/
theorem pass_goes_by_listing (counts : settings.policy.isNeutral admission.verifiedRole = false)
    (apart : admission.verifiedRole ≠ admission.pendingRole)
    (run : admission.RunsAmid (settings.pass sink) world happenings result after)
    : ∃ (earlier later : List Happening) (listed : Outcome (List Member)),
        happenings = earlier ++ .effect ⟨.call .listMembers, listed⟩ :: later
        ∧ exchangesOf (saidIn earlier) = []
        ∧ match listed with
          | .error failure =>
              result = .error ⟨failure⟩ ∧ attemptsIn (exchangesOf (saidIn happenings)) = []
          | .ok members =>
              ∃ report,
                result = .ok report
                ∧ settings.GoesBy world.clock members (exchangesOf (saidIn later)) report
                ∧ attemptsIn (exchangesOf (saidIn happenings)) = attempts report
                ∧ ∀ id,
                  AcceptedIn earlier id
                  → ∀ action, (action, id) ∉ attemptsIn (exchangesOf (saidIn happenings)) := by
  obtain ⟨community, earlier, later, listed, rfl, silent, shows, listing, rest⟩ :=
    pass_opening apart run
  refine ⟨earlier, later, listed, rfl, silent, ?_⟩
  have all
      : attemptsIn
          (exchangesOf (saidIn (earlier ++ .effect ⟨.call .listMembers, listed⟩ :: later)))
        = attemptsIn (exchangesOf (saidIn later)) := by
    rw [Happening.saidIn_append, Program.exchangesOf_append, silent, List.nil_append]
    rfl
  rw [all]
  cases listed with
  | error failure => exact rest
  | ok members =>
      obtain ⟨report, returned, goesBy⟩ := rest
      have listing : members = community.memberList := by
        unfold Community.listing at listing
        split at listing
        · cases listing
        · exact Except.ok.inj listing
      have unlisted (what : Due) (something : what ≠ .nothing) {id : MemberId}
          (accepted : AcceptedIn earlier id)
          : id ∉ settings.policy.whoIsDue world.clock members what := by
        rw [listing]
        exact not_due_of_shows counts (shows id accepted) world.clock something
      rw [goesBy.attempts]
      refine ⟨report, returned, goesBy, rfl, fun id accepted => not_mem_attempts ?_ ?_⟩
      · rw [goesBy.classified]
        exact unlisted .warning nofun accepted
      · rw [goesBy.classified]
        exact unlisted .removal nofun accepted

-------------------------------------------------------------------------------
-- Accepted after the listing
-------------------------------------------------------------------------------

/-- Whoever is accepted before a step of a pass is not struck by that step, in any run among
admissions.
-/
def SparesAccepted (settings : ReconcileSettings) (sink : AuditSink)
    (admission : AdmissionSettings)
    : Prop :=
  ∀ (world after : World) (happenings : List Happening)
      (result : Except SnapshotUnavailable PassReport),
    admission.RunsAmid (settings.pass sink) world happenings result after
    → ∀ (earlier later : List Happening) (happening : Happening) (id : MemberId),
      happenings = earlier ++ happening :: later
      → happening.struck? = some id
      → ¬ AcceptedIn earlier id

/-- Where accepted members are spared, nobody is struck after its acceptance. -/
theorem SparesAccepted.not_struck (spares : settings.SparesAccepted sink admission)
    (earlier : List Happening) {later : List Happening} {id : MemberId}
    (run : admission.RunsAmid (settings.pass sink) world (earlier ++ later) result after)
    (accepted : AcceptedIn earlier id)
    : id ∉ later.filterMap Happening.struck? := by
  intro struck
  obtain ⟨happening, listed, strikes⟩ := List.mem_filterMap.mp struck
  obtain ⟨before, since, rfl⟩ := List.append_of_mem listed
  refine spares world after _ result run (earlier ++ before) since happening id ?_ strikes ?_
  · rw [List.append_assoc]
  · exact Happening.acceptedIn_append.mpr (.inl accepted)

/-- Settings under which a reviewer is asked about every removal. -/
def cautious : ReconcileSettings :=
  ⟨⟨.ofSeconds 259200, .ofSeconds 2592000, ⟨200⟩, .ofList [⟨100⟩]⟩,
    ⟨0.0, .ofSeconds 300, ⟨400⟩, none, "yes", "no"⟩, .ofSeconds 1800⟩

/-- A member who has not verified yet. -/
def newcomer : Member := ⟨⟨7⟩, some .epoch, .ofList [⟨100⟩], false⟩

/-- Forty days on, with a reviewer who will approve. -/
def overdue : World :=
  World.start ((Community.ofMembers ((Instant.ofParts? 40 0 0).getD .epoch) [newcomer]).script
    ⟨"yes", ⟨9⟩, false, true⟩)

/-- How a pass goes over the newcomer who is accepted just before it. -/
theorem pass_goes_by_listing_for_newcomer
    : let admission := AdmissionSettings.ofRoles ⟨300⟩ ⟨200⟩
      ∃ happenings result after,
        cautious.policy.isNeutral admission.verifiedRole = false
        ∧ admission.verifiedRole ≠ admission.pendingRole
        ∧ admission.RunsAmid (cautious.pass .file) overdue happenings result after
        ∧ ∃ (earlier later : List Happening) (listed : Outcome (List Member)),
          happenings = earlier ++ .effect ⟨.call .listMembers, listed⟩ :: later
          ∧ exchangesOf (saidIn earlier) = []
          ∧ match listed with
            | .error failure =>
                result = .error ⟨failure⟩ ∧ attemptsIn (exchangesOf (saidIn happenings)) = []
            | .ok members =>
                ∃ report,
                  result = .ok report
                  ∧ cautious.GoesBy overdue.clock members (exchangesOf (saidIn later)) report
                  ∧ attemptsIn (exchangesOf (saidIn happenings)) = attempts report
                  ∧ ∀ id,
                    AcceptedIn earlier id
                    → ∀ action,
                      (action, id) ∉ attemptsIn (exchangesOf (saidIn happenings)) := by
  have run :=
    (.admission newcomer (.alone _ _)
      : (AdmissionSettings.ofRoles ⟨300⟩ ⟨200⟩).RunsAmid (cautious.pass .file) overdue _ _ _)
  exact ⟨_, _, _, rfl, by decide, run, pass_goes_by_listing rfl (by decide) run⟩

/-- A member who is accepted after it was listed is struck all the same. Witness: the newcomer,
accepted as soon as it is listed, is removed once the reviewer approves.
-/
theorem accepted_after_listing_is_removed
    : let admission := AdmissionSettings.ofRoles ⟨300⟩ ⟨200⟩
      cautious.policy.isNeutral admission.verifiedRole = false
        ∧ admission.verifiedRole ≠ admission.pendingRole
        ∧ ¬ cautious.SparesAccepted .file admission := by
  refine ⟨rfl, by decide, fun spares => ?_⟩
  have run :=
    (.effect (.effect (.effect (.admission newcomer (.alone _ _))))
      : (AdmissionSettings.ofRoles ⟨300⟩ ⟨200⟩).RunsAmid (cautious.pass .file) overdue _ _ _)
  have accepted (first second third : Happening)
      : AcceptedIn [first, second, third, .admission newcomer (.ok ())] newcomer.id :=
    ⟨newcomer, rfl, by simp⟩
  exact spares.not_struck [_, _, _, _] run (accepted _ _ _) (by decide +kernel)

end ReconcileSettings

end Gatehouse
