import Mathlib.Algebra.GroupWithZero.Nat
import Gatehouse.Proofs.Verification.Asking
import Gatehouse.Proofs.Verification.Attempts

/-! What a batch comes to on any platform. However its calls are answered, all members of the batch
are called for once and in ascending order, and the tally accounts for every answer.
-/

namespace Gatehouse

open Program (AsksOnly Converses exchangesOf)

-------------------------------------------------------------------------------
-- Sums of counts
-------------------------------------------------------------------------------

namespace OrderedMap

variable {κ : Type} [Ranked κ] {key : κ} {count : Nat}

/-- A count that is set takes the place of the one before in the sum, by induction over the
entries.
-/
theorem sum_insertEntry {entries : List (κ × Nat)} (h : AscendingKeys entries)
    : ((insertEntry key count entries).map Prod.snd).sum + (lookup key entries).getD 0
      = (entries.map Prod.snd).sum + count := by
  induction entries with
  | nil => simp [insertEntry, lookup]
  | cons head rest ih =>
      obtain ⟨headKey, headCount⟩ := head
      obtain ⟨below, tail⟩ := List.pairwise_cons.mp h
      rcases Nat.lt_trichotomy (rank key) (rank headKey) with lower | same | higher
      · have absent : lookup key rest = none :=
          lookup_eq_none_of_below fun entry member => Nat.lt_trans lower (below entry member)
        simp only [insertEntry, lookup, if_pos lower, if_neg (Nat.ne_of_gt lower), absent,
          List.map_cons, List.sum_cons, Option.getD_none]
        omega
      · simp only [insertEntry, lookup, same, Nat.lt_irrefl, if_false, if_true, List.map_cons,
          List.sum_cons, Option.getD_some]
        omega
      · have further := ih tail
        simp only [insertEntry, lookup, if_neg (Nat.lt_asymm higher), if_pos higher,
          if_neg (Nat.ne_of_lt higher), List.map_cons, List.sum_cons]
        omega

theorem sum_values_insert (counts : OrderedMap κ Nat) (key : κ) (count : Nat)
    : (counts.insert key count).values.sum + (counts.find? key).getD 0
      = counts.values.sum + count :=
  sum_insertEntry counts.ascending

/-- A key is listed exactly when it maps to something. -/
theorem mem_keys_iff {ν : Type} {m : OrderedMap κ ν}
    : key ∈ m.keys ↔ ∃ value, m.find? key = some value := by
  simp only [find?_eq_some_iff, keys, List.mem_map, Prod.exists, exists_and_right, exists_eq_right]

end OrderedMap

-------------------------------------------------------------------------------
-- Tallies that account for outcomes
-------------------------------------------------------------------------------

namespace Tally

/-- Recording keeps the successes and the counted failures as many as the attempts. -/
theorem record_balanced {tally : Tally}
    (balanced : tally.succeeded + tally.failures.values.sum = tally.requested)
    (outcome : Outcome Unit)
    : (tally.record outcome).succeeded + (tally.record outcome).failures.values.sum
      = (tally.record outcome).requested := by
  cases outcome with
  | ok value =>
      simp only [record]
      omega
  | error failure =>
      have one :=
        tally.failures.sum_values_insert failure.code
          ((tally.failures.find? failure.code).getD 0 + 1)
      simp only [record]
      omega

theorem foldl_record_balanced {tally : Tally}
    (balanced : tally.succeeded + tally.failures.values.sum = tally.requested)
    (outcomes : List (Outcome Unit))
    : (outcomes.foldl record tally).succeeded + (outcomes.foldl record tally).failures.values.sum
      = (outcomes.foldl record tally).requested := by
  induction outcomes generalizing tally with
  | nil => exact balanced
  | cons outcome rest ih => exact ih (record_balanced balanced outcome)

/-- A tally accounts for outcomes: it has counted them, its counts add up, and the codes that it
names are those that occurred, each once and in order.
-/
structure AccountsFor (tally : Tally) (outcomes : List (Outcome Unit)) : Prop
    extends tally.Counts outcomes where
  balanced : tally.succeeded + tally.failures.values.sum = tally.requested
  within : tally.succeeded ≤ tally.requested
  failed : tally.failed = tally.failures.values.sum
  ascending : Ascending tally.failureCodes
  codes
    : ∀ code, code ∈ tally.failureCodes ↔ ∃ message, .error ⟨code, message⟩ ∈ outcomes

/-- What occurred is counted. -/
theorem exists_occurrences {n : Nat}
    : (∃ count, occurrences n = some count) ↔ 0 < n := by
  cases n with
  | zero => simp [occurrences]
  | succ n => simp [occurrences]

/-- A code has failures counted exactly when an outcome failed with it. -/
theorem Counts.mem_failureCodes {tally : Tally} {outcomes : List (Outcome Unit)}
    (counts : tally.Counts outcomes) (code : FailureCode)
    : code ∈ tally.failureCodes ↔ ∃ message, .error ⟨code, message⟩ ∈ outcomes := by
  rw [failureCodes, OrderedMap.mem_keys_iff, counts.failures code, exists_occurrences,
    List.countP_pos_iff]
  constructor
  · rintro ⟨outcome, member, failed⟩
    cases outcome with
    | ok value => cases failed
    | error failure =>
        obtain ⟨own, message⟩ := failure
        cases of_decide_eq_true failed
        exact ⟨message, member⟩
  · rintro ⟨message, member⟩
    exact ⟨_, member, decide_eq_true rfl⟩

/-- The tally of outcomes recorded in turn accounts for them. -/
theorem accountsFor_foldl (outcomes : List (Outcome Unit))
    : (outcomes.foldl record empty).AccountsFor outcomes := by
  have counts := counts_empty.foldl outcomes
  have balanced := foldl_record_balanced (rfl : empty.succeeded + empty.failures.values.sum = 0)
    outcomes
  rw [List.nil_append] at counts
  exact
    { counts with
      balanced := balanced
      within := by omega
      failed := by rw [failed]; omega
      ascending := List.pairwise_map.mpr (OrderedMap.ascending _)
      codes := counts.mem_failureCodes }

end Tally

-------------------------------------------------------------------------------
-- Batches
-------------------------------------------------------------------------------

section Batches

variable {exchange : MemberId → Outcome Unit → Exchange} {tally : Tally}
  {said : List (Sigma Effect.Reply)}

/-- Attempts in turn call once for each of the members given and record the answers, by induction
over the members.
-/
theorem attemptEach_outcomes {action : MemberId → Program (Outcome Unit)}
    (each
      : ∀ id said outcome,
          (action id).Converses said outcome → exchangesOf said = [exchange id outcome])
    {ids : List MemberId} {result : Tally}
    (conversation : (attemptEach action tally ids).Converses said result)
    : ∃ outcomes,
        outcomes.length = ids.length
        ∧ exchangesOf said = List.zipWith exchange ids outcomes
        ∧ result = outcomes.foldl Tally.record tally := by
  induction ids generalizing tally said with
  | nil =>
      obtain ⟨rfl, rfl⟩ := conversation.of_pure
      exact ⟨[], rfl, rfl, rfl⟩
  | cons id rest ih =>
      obtain ⟨earlier, outcome, later, rfl, first, others⟩ := conversation.of_bind
      obtain ⟨outcomes, length, made, counted⟩ := ih others
      refine ⟨outcome :: outcomes, congrArg (· + 1) length, ?_, counted⟩
      rw [Program.exchangesOf_append, each id earlier outcome first, made]
      rfl

/-- A remark before attempts and one on their failures make no calls, and leave the tally. -/
theorem exists_of_noted {attempts : Program Tally} {level : Journal.Level}
    {message verb noun : String} {fields : List (String × String)}
    (conversation
      : (do
          Program.log level message fields
          let tally ← attempts
          noteFailures tally verb noun
          pure tally : Program Tally).Converses said tally)
    : ∃ made, attempts.Converses made tally ∧ exchangesOf said = exchangesOf made := by
  obtain ⟨before, _, rest, rfl, remark, whole⟩ := conversation.of_bind
  obtain ⟨made, counted, after, rfl, attempting, closing⟩ := whole.of_bind
  obtain ⟨noted, _, last, rfl, noting, ended⟩ := closing.of_bind
  obtain ⟨rfl, rfl⟩ := ended.of_pure
  refine ⟨made, attempting, ?_⟩
  have first := (AsksOnly.ask trivial).exchangesOf_eq_nil remark
  have final :=
    (noteFailures_asksOnly (fun _ => trivial) _ _ _).exchangesOf_eq_nil noting
  simp only [Program.exchangesOf_append, first, final, List.append_nil, List.nil_append]

/-- A batch was carried out: each member was called for once, in ascending order and whatever came
of the calls before, and the tally accounts for the answers.
-/
def CarriedOut (members : OrderedSet MemberId) (exchange : MemberId → Outcome Unit → Exchange)
    (made : List Exchange) (tally : Tally) : Prop :=
  ∃ outcomes : List (Outcome Unit),
    outcomes.length = members.size
    ∧ made = List.zipWith exchange members.toList outcomes
    ∧ tally.AccountsFor outcomes

/-- Attempts on a batch, noted before and after, carry it out. -/
theorem carriedOut_of_noted {members : OrderedSet MemberId}
    {action : MemberId → Program (Outcome Unit)}
    (each
      : ∀ id said outcome,
          (action id).Converses said outcome → exchangesOf said = [exchange id outcome])
    {level : Journal.Level} {message verb noun : String} {fields : List (String × String)}
    (conversation
      : (do
          Program.log level message fields
          let tally ← attemptEach action .empty members.toList
          noteFailures tally verb noun
          pure tally : Program Tally).Converses said tally)
    : CarriedOut members exchange (exchangesOf said) tally := by
  obtain ⟨made, attempting, same⟩ := exists_of_noted conversation
  obtain ⟨outcomes, length, called, rfl⟩ := attemptEach_outcomes each attempting
  exact ⟨outcomes, length, same.trans called, Tally.accountsFor_foldl outcomes⟩

/-- A single call is one exchange. -/
theorem exchangesOf_call {call : Call} {reply : call.Reply}
    (single : (Program.call call).Converses said reply)
    : exchangesOf said = [⟨call, reply⟩] := by
  rw [single.of_ask]
  rfl

end Batches

/-- On every platform, whatever state it keeps and however it answers from it, giving a role to a
batch and removing a batch are carried out in full.
-/
theorem batches_carried_out {σ : Type} (platform : Program.Handler σ) (state : σ)
    (members : OrderedSet MemberId) (role : RoleId) (reason : String)
    : CarriedOut members (fun id outcome => ⟨.addRole id role reason, outcome⟩)
        (exchangesOf ((assignRole members role reason).trace platform state))
        ((assignRole members role reason).run platform state).1
      ∧ CarriedOut members (fun id outcome => ⟨.kick id reason, outcome⟩)
          (exchangesOf ((removeMembers members reason).trace platform state))
          ((removeMembers members reason).run platform state).1 :=
  ⟨carriedOut_of_noted (fun _ _ _ single => exchangesOf_call single) (.of_trace platform _ state),
    carriedOut_of_noted (fun _ _ _ single => exchangesOf_call single) (.of_trace platform _ state)⟩

end Gatehouse
