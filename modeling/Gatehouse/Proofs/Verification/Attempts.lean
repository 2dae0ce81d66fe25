import Gatehouse.Proofs.Program.Course
import Gatehouse.Verification.Execution

/-! What attempts on a batch come to. On members who are there an attempt fails exactly when a
failure is injected for the member, so the outcomes, the tally and the change of the roster all
follow from the failures that the community was told of beforehand.
-/

namespace Gatehouse

-------------------------------------------------------------------------------
-- Tallies
-------------------------------------------------------------------------------

/-- How an attempt on a member ends when failures are injected for some. -/
def injected (failures : OrderedMap MemberId FailureCode) (attempt : MemberId → String)
    (member : MemberId) : Outcome Unit :=
  match failures.find? member with
  | some code => .error ⟨code, attempt member⟩
  | none => .ok ()

def wentWell : Outcome Unit → Bool
  | .ok _ => true
  | .error _ => false

/-- An attempt failed with a code. -/
def failedWith (code : FailureCode) : Outcome Unit → Bool
  | .ok _ => false
  | .error failure => failure.code = code

/-- Those of a list of members for whom no failure is injected. -/
def unhindered (failures : OrderedMap MemberId FailureCode) (ids : List MemberId)
    : List MemberId :=
  ids.filter fun id => failures.find? id = none

section Injected

variable {failures : OrderedMap MemberId FailureCode} {attempt : MemberId → String}
  {member : MemberId}

@[simp] theorem wentWell_injected
    : wentWell (injected failures attempt member) = decide (failures.find? member = none) := by
  unfold injected
  cases failures.find? member <;> simp [wentWell]

@[simp] theorem failedWith_injected {code : FailureCode}
    : failedWith code (injected failures attempt member)
      = decide (failures.find? member = some code) := by
  unfold injected
  cases failures.find? member <;> simp [failedWith]

@[simp] theorem mem_unhindered {ids : List MemberId}
    : member ∈ unhindered failures ids ↔ member ∈ ids ∧ failures.find? member = none := by
  simp [unhindered]

@[simp] theorem unhindered_nil
    : unhindered failures [] = [] := rfl

@[simp] theorem unhindered_snoc {ids : List MemberId}
    : unhindered failures (ids ++ [member])
      = unhindered failures ids ++ if failures.find? member = none then [member] else [] := by
  simp only [unhindered, List.filter_append, List.filter_cons, List.filter_nil,
    decide_eq_true_eq]

end Injected

/-- The number of times that something occurred, when it occurred at all. -/
def occurrences (n : Nat) : Option Nat := if n = 0 then none else some n

namespace Tally

/-- A tally has counted outcomes: all of them, those that went well, and for each code those that
failed with it.
-/
structure Counts (tally : Tally) (outcomes : List (Outcome Unit)) : Prop where
  requested : tally.requested = outcomes.length
  succeeded : tally.succeeded = outcomes.countP wentWell
  failures
    : ∀ code, tally.failures.find? code = occurrences (outcomes.countP (failedWith code))

theorem counts_empty
    : empty.Counts [] :=
  ⟨rfl, rfl, fun _ => rfl⟩

/-- Recording counts one outcome more. -/
theorem Counts.record {tally : Tally} {outcomes : List (Outcome Unit)}
    (counts : tally.Counts outcomes) (outcome : Outcome Unit)
    : (tally.record outcome).Counts (outcomes ++ [outcome]) := by
  obtain ⟨requested, succeeded, failures⟩ := counts
  cases outcome with
  | ok value =>
      refine ⟨?_, ?_, fun code => ?_⟩
      · simp [Tally.record, requested]
      · simp [Tally.record, succeeded, wentWell]
      · simp [Tally.record, failures, failedWith]
  | error failure =>
      refine ⟨?_, ?_, fun code => ?_⟩
      · simp [Tally.record, requested]
      · simp [Tally.record, succeeded, wentWell]
      · simp only [Tally.record, OrderedMap.find?_insert, failures, List.countP_append,
          List.countP_singleton, failedWith, decide_eq_true_eq]
        by_cases same : failure.code = code
        · rw [if_pos same, if_pos same, same]
          unfold occurrences
          split
          · next zero => rw [zero]; rfl
          · rfl
        · rw [if_neg same, if_neg same]
          rfl

/-- Recording outcomes in turn counts them all, by induction over them. -/
theorem Counts.foldl {tally : Tally} {before : List (Outcome Unit)}
    (counts : tally.Counts before) (outcomes : List (Outcome Unit))
    : (outcomes.foldl Tally.record tally).Counts (before ++ outcomes) := by
  induction outcomes generalizing tally before with
  | nil => simpa using counts
  | cons outcome rest ih => simpa using ih (counts.record outcome)

/-- A tally tells what came of a batch: it asked for every member, went well for those without an
injected failure, and failed for the others with the codes injected for them.
-/
structure Tells (tally : Tally) (batch : OrderedSet MemberId)
    (failures : OrderedMap MemberId FailureCode) : Prop where
  requested : tally.requested = batch.size
  succeeded : tally.succeeded = batch.toList.countP fun id => failures.find? id = none
  failures
    : ∀ code,
        tally.failures.find? code
          = occurrences (batch.toList.countP fun id => failures.find? id = some code)

/-- The tally of a batch whose attempts fail as injected tells what came of it. -/
theorem tells_of_injected {batch : OrderedSet MemberId}
    {failures : OrderedMap MemberId FailureCode} (attempt : MemberId → String)
    : Tells ((batch.toList.map (injected failures attempt)).foldl Tally.record empty) batch
        failures := by
  obtain ⟨requested, succeeded, codes⟩ :=
    counts_empty.foldl (batch.toList.map (injected failures attempt))
  refine ⟨?_, ?_, fun code => ?_⟩
  · simpa [OrderedSet.size] using requested
  · rw [succeeded, List.nil_append, List.countP_map]
    exact List.countP_congr fun id _ => by simp
  · rw [codes, List.nil_append, List.countP_map]
    exact congrArg occurrences (List.countP_congr fun id _ => by simp)

/-- Nothing has failed exactly when no failure is injected for a member of the batch. -/
theorem Tells.failed_eq_zero_iff {tally : Tally} {batch : OrderedSet MemberId}
    {failures : OrderedMap MemberId FailureCode} (tells : tally.Tells batch failures)
    : tally.failed = 0 ↔ ∀ id ∈ batch, failures.find? id = none := by
  have most := List.countP_le_length (p := fun id => decide (failures.find? id = none))
    (l := batch.toList)
  have all : batch.toList.countP (fun id => failures.find? id = none) = batch.toList.length
      ↔ ∀ id ∈ batch, failures.find? id = none := by
    simp only [List.countP_eq_length, decide_eq_true_eq, OrderedSet.mem_toList]
  rw [← all, Tally.failed, tells.requested, tells.succeeded, OrderedSet.size]
  omega

end Tally

-------------------------------------------------------------------------------
-- Attempts in turn
-------------------------------------------------------------------------------

/-- Attempts in turn take the course of each: what one attempt keeps about the members attempted
so far holds of all in the end. Witness: induction over the members still to come.
-/
theorem attemptEach_course (now : Instant) (action : MemberId → Program (Outcome Unit))
    (outcome : MemberId → Outcome Unit) (made : MemberId → Exchange)
    (Done : List MemberId → Community → Prop) (all : List MemberId)
    (attempt
      : ∀ earlier id later,
          all = earlier ++ id :: later
          → ∀ before,
              Done earlier before
              → ∃ after,
                  (action id).Course now before (outcome id) after [made id]
                  ∧ Done (earlier ++ [id]) after)
    (rest earlier : List MemberId) (split : all = earlier ++ rest) (tally : Tally)
    (before : Community) (done : Done earlier before)
    : ∃ after,
        (attemptEach action tally rest).Course now before
          ((rest.map outcome).foldl Tally.record tally) after (rest.map made)
        ∧ Done all after := by
  induction rest generalizing earlier tally before with
  | nil =>
      rw [List.append_nil] at split
      exact ⟨before, .done, split ▸ done⟩
  | cons id later ih =>
      obtain ⟨middle, first, kept⟩ := attempt earlier id later split before done
      obtain ⟨after, others, finished⟩ :=
        ih (earlier ++ [id]) (by simp [split]) (tally.record (outcome id)) middle kept
      exact ⟨after, first.bind others, finished⟩

/-- A remark on the failures of attempts changes nothing about what they came to. -/
theorem noteFailures_course {now : Instant} {attempts : Program Tally} {tally : Tally}
    {before after : Community} {made : List Exchange}
    (course : attempts.Course now before tally after made) (verb noun : String)
    : (do
        let tally ← attempts
        noteFailures tally verb noun
        pure tally : Program Tally).Course now before tally after made := by
  have noted : (noteFailures tally verb noun).Course now after () after [] := by
    unfold noteFailures
    split
    · exact .done
    · exact .log _ _ _
  exact course.followed (noted.followed .done)

-------------------------------------------------------------------------------
-- Roles
-------------------------------------------------------------------------------

def grantAttempt (role : RoleId) (member : MemberId) : String :=
  "add role " ++ role.text ++ " to " ++ member.text

/-- Between two rosters a role was granted to members, and nobody else's record has changed. -/
def Roster.Granted (before after : Roster) (role : RoleId) (ids : List MemberId) : Prop :=
  ∀ id,
    after.find? id
      = (before.find? id).map fun record => if id ∈ ids then record.grant role else record

theorem Roster.granted_nil {roster : Roster} {role : RoleId}
    : roster.Granted roster role [] :=
  fun id => by simp

/-- Granting a role keeps everyone on the roster. -/
theorem Roster.Granted.isSome_find? {before after : Roster} {role : RoleId}
    {ids : List MemberId} (granted : before.Granted after role ids) (id : MemberId)
    : (after.find? id).isSome = (before.find? id).isSome := by
  rw [granted id, Option.isSome_map]

/-- One grant more, to a member who is there and has not had one, fails as injected. -/
theorem Roster.Granted.snoc {start : Community} {roster : Roster} {role : RoleId}
    {ids : List MemberId} {id : MemberId}
    (granted : start.members.Granted roster role (unhindered start.roleFailures ids))
    (fresh : id ∉ ids) (present : (start.member? id).isSome) (reason : String)
    : ∃ later,
        { start with members := roster }.answer (.addRole id role reason)
          = (injected start.roleFailures (grantAttempt role) id,
              { start with members := later })
        ∧ start.members.Granted later role (unhindered start.roleFailures (ids ++ [id])) := by
  obtain ⟨record, here⟩ := Option.isSome_iff_exists.mp present
  have here : start.members.find? id = some record := here
  have found : roster.find? id = some record := by simpa [here, fresh] using granted id
  have own : (record.grant role).id = id := (roster.id_of_find? found : record.id = id)
  simp only [Community.answer, Community.changeRoles, injected]
  cases fails : start.roleFailures.find? id with
  | some code => exact ⟨roster, rfl, by simpa [fails] using granted⟩
  | none =>
      simp only [found]
      refine ⟨roster.add (record.grant role), rfl, fun other => ?_⟩
      rw [Roster.find?_add, own]
      by_cases same : id = other
      · subst same
        simp [here, fails]
      · have others := granted other
        have apart : other ≠ id := fun eq => same eq.symm
        rw [if_neg same]
        simpa [apart, fails] using others

/-- A member of an ascending list of attempts has not been attempted before. -/
theorem OrderedSet.fresh_of_split {members : OrderedSet MemberId}
    {earlier later : List MemberId} {id : MemberId}
    (split : members.toList = earlier ++ id :: later)
    : id ∉ earlier ∧ id ∈ members := by
  have distinct := members.nodup_toList
  rw [split] at distinct
  constructor
  · intro again
    exact (List.nodup_append.mp distinct).2.2 id again id List.mem_cons_self rfl
  · exact OrderedSet.mem_toList.mp (by simp [split])

/-- Giving a role to members who are all there: the outcomes are those injected, and the roster
changes by the grants that go well.
-/
theorem assignRole_course {members : OrderedSet MemberId} (now : Instant) (before : Community)
    (present : ∀ id ∈ members, (before.member? id).isSome) (role : RoleId) (reason : String)
    : ∃ tally roster,
        (assignRole members role reason).Course now before tally
          { before with members := roster }
          (members.toList.map fun id =>
            ⟨.addRole id role reason, injected before.roleFailures (grantAttempt role) id⟩)
        ∧ tally.Tells members before.roleFailures
        ∧ before.members.Granted roster role
            (unhindered before.roleFailures members.toList) := by
  obtain ⟨_, course, roster, rfl, granted⟩ := attemptEach_course now
    (fun id => Program.call (.addRole id role reason))
    (injected before.roleFailures (grantAttempt role))
    (fun id =>
      ⟨.addRole id role reason, injected before.roleFailures (grantAttempt role) id⟩)
    (fun ids community =>
      ∃ roster,
        community = { before with members := roster }
        ∧ before.members.Granted roster role (unhindered before.roleFailures ids))
    members.toList
    (by
      intro earlier id later split before' done
      obtain ⟨roster, rfl, granted⟩ := done
      obtain ⟨fresh, member⟩ := OrderedSet.fresh_of_split split
      obtain ⟨next, answered, further⟩ := granted.snoc fresh (present id member) reason
      have called := Program.Course.call now { before with members := roster }
        (.addRole id role reason)
      rw [answered] at called
      exact ⟨_, called, next, rfl, further⟩)
    members.toList [] rfl .empty before ⟨before.members, rfl, Roster.granted_nil⟩
  refine ⟨_, roster, ?_, Tally.tells_of_injected (grantAttempt role), granted⟩
  exact .after_log (noteFailures_course course "assign" "roles")

-------------------------------------------------------------------------------
-- Removals
-------------------------------------------------------------------------------

/-- What a failed removal says it attempted. -/
def kickAttempt (member : MemberId) : String := "kick " ++ member.text

/-- Between two rosters members were removed, and nobody else's record has changed. -/
def Roster.Dismissed (before after : Roster) (ids : List MemberId) : Prop :=
  ∀ id, after.find? id = if id ∈ ids then none else before.find? id

theorem Roster.dismissed_nil {roster : Roster}
    : roster.Dismissed roster [] :=
  fun id => by simp

/-- One removal more, of a member who is there and has not been removed, fails as injected. -/
theorem Roster.Dismissed.snoc {start : Community} {roster : Roster} {ids : List MemberId}
    {id : MemberId}
    (dismissed : start.members.Dismissed roster (unhindered start.kickFailures ids))
    (fresh : id ∉ ids) (present : (start.member? id).isSome) (reason : String)
    : ∃ later,
        { start with
            members := roster
            kicked := start.kicked ++ unhindered start.kickFailures ids }.answer
            (.kick id reason)
          = (injected start.kickFailures kickAttempt id,
              { start with
                members := later
                kicked := start.kicked ++ unhindered start.kickFailures (ids ++ [id]) })
        ∧ start.members.Dismissed later (unhindered start.kickFailures (ids ++ [id])) := by
  obtain ⟨record, here⟩ := Option.isSome_iff_exists.mp present
  have here : start.members.find? id = some record := here
  have found : roster.find? id = some record := by
    rw [dismissed id, if_neg fun gone => fresh (mem_unhindered.mp gone).1, here]
  simp only [Community.answer, Community.kick, injected]
  cases fails : start.kickFailures.find? id with
  | some code =>
      exact ⟨roster, by simp [fails, kickAttempt], by simpa [fails] using dismissed⟩
  | none =>
      simp only [found]
      refine ⟨roster.remove id, by simp [fails], fun other => ?_⟩
      rw [Roster.find?_remove, dismissed other]
      by_cases same : id = other
      · subst same
        simp [fails]
      · have apart : other ≠ id := fun eq => same eq.symm
        simp [same, apart, fails]

/-- Removing members who are all there: the outcomes are those injected, and the removals that
go well change the roster and are kept in order.
-/
theorem removeMembers_course {members : OrderedSet MemberId} (now : Instant) (before : Community)
    (present : ∀ id ∈ members, (before.member? id).isSome) (reason : String)
    : ∃ tally roster,
        (removeMembers members reason).Course now before tally
          { before with
            members := roster
            kicked := before.kicked ++ unhindered before.kickFailures members.toList }
          (members.toList.map fun id =>
            ⟨.kick id reason, injected before.kickFailures kickAttempt id⟩)
        ∧ tally.Tells members before.kickFailures
        ∧ before.members.Dismissed roster
            (unhindered before.kickFailures members.toList) := by
  obtain ⟨_, course, roster, rfl, dismissed⟩ := attemptEach_course now
    (fun id => Program.call (.kick id reason))
    (injected before.kickFailures kickAttempt)
    (fun id => ⟨.kick id reason, injected before.kickFailures kickAttempt id⟩)
    (fun ids community =>
      ∃ roster,
        community
          = { before with
              members := roster
              kicked := before.kicked ++ unhindered before.kickFailures ids }
        ∧ before.members.Dismissed roster (unhindered before.kickFailures ids))
    members.toList
    (by
      intro earlier id later split before' done
      obtain ⟨roster, rfl, dismissed⟩ := done
      obtain ⟨fresh, member⟩ := OrderedSet.fresh_of_split split
      obtain ⟨next, answered, further⟩ := dismissed.snoc fresh (present id member) reason
      have called := Program.Course.call now
        { before with
          members := roster
          kicked := before.kicked ++ unhindered before.kickFailures earlier }
        (.kick id reason)
      rw [answered] at called
      exact ⟨_, called, next, rfl, further⟩)
    members.toList [] rfl .empty before
    ⟨before.members, by simp [unhindered], Roster.dismissed_nil⟩
  refine ⟨_, roster, ?_, Tally.tells_of_injected kickAttempt, dismissed⟩
  exact .after_log (noteFailures_course course "remove" "members")

end Gatehouse
