import Gatehouse.Schedule.Shutdown

/-! Who watches a signal learns of it in time. Receivers may come and wait at any time: before the
signal, after it, or when its handle is gone. No wake-up is lost between two looks of a receiver,
so every wait is over in the moment in which the signal ends, or at once if it has ended before.
-/

namespace Gatehouse.Shutdown

-------------------------------------------------------------------------------
-- Looks and turns
-------------------------------------------------------------------------------

variable {signal : Shutdown} {receiver other : Nat}

/-- No receiver has seen what is not there yet. -/
def Sound (signal : Shutdown) : Prop :=
  ∀ version ∈ signal.seen, version ≤ signal.version

theorem Sound.look (sound : signal.Sound) (receiver : Nat)
    : (signal.look receiver).2.Sound := by
  intro version listed
  rcases List.mem_or_eq_of_mem_set listed with earlier | same
  · exact sound version earlier
  · exact Nat.le_of_eq same

/-- A receiver that looks takes the news from nobody else. -/
theorem hasNews_look (signal : Shutdown) (apart : receiver ≠ other)
    : (signal.look receiver).2.hasNews other = signal.hasNews other := by
  simp only [hasNews, look, List.getElem?_set_ne apart]

/-- A trigger is news to every receiver, for none has seen its version. -/
theorem Sound.hasNews_trigger (sound : signal.Sound) (held : signal.isOrphan = false)
    (receiver : Nat)
    : signal.trigger.hasNews receiver = true := by
  have unseen : signal.seen[receiver]? ≠ some (signal.version + 1) := by
    intro ahead
    have bound := sound _ (List.mem_of_getElem? ahead)
    omega
  simp [hasNews, trigger, held, unseen]

/-- Where the end is news to a receiver, its turn tells whether the signal has ended. -/
theorem resume_fst (news : signal.hasEnded = true → signal.hasNews receiver = true)
    : (signal.resume receiver).1 = signal.hasEnded := by
  unfold resume
  split
  · rfl
  · next quiet =>
    cases ended : signal.hasEnded with
    | false => rfl
    | true => exact absurd (news ended) quiet

/-- A turn leaves the signal as it is or as a look leaves it. -/
theorem resume_snd (signal : Shutdown) (receiver : Nat)
    : (signal.resume receiver).2 = signal
      ∨ (signal.resume receiver).2 = (signal.look receiver).2 := by
  unfold resume
  split
  · exact .inr rfl
  · exact .inl rfl

-------------------------------------------------------------------------------
-- A wait with a limit
-------------------------------------------------------------------------------

/-- A wait that nothing is done in is over at once when the signal has ended, and else in vain. -/
theorem await_nothing (signal : Shutdown) (receiver limit : Nat)
    : (signal.await receiver limit .nothing).1
      = (signal.hasEnded, if signal.hasEnded then 0 else limit) := rfl

/-- What happens to a signal wakes a receiver that has looked, if it ends the signal. -/
theorem resume_trigger_look (held : signal.isOrphan = false)
    : ((signal.look receiver).2.trigger.resume receiver).1 = true := by
  have ended : (signal.look receiver).2.trigger.hasEnded = true := by
    simp [hasEnded, look, trigger, held]
  refine (resume_fst fun _ => ?_).trans ended
  -- Its last look was at the version before.
  have unseen : (signal.seen.set receiver signal.version)[receiver]?
      ≠ some (signal.version + 1) := by
    rw [List.getElem?_set_self']
    cases signal.seen[receiver]? <;> simp
  simp [hasNews, look, trigger, held, unseen]

theorem resume_drop_look (signal : Shutdown) (receiver : Nat)
    : ((signal.look receiver).2.drop.resume receiver).1 = true := by
  have ended : (signal.look receiver).2.drop.hasEnded = true := by
    simp [hasEnded, look, drop]
  exact (resume_fst fun _ => by simp [hasNews, drop]).trans ended

/-- A wait in which something is done that ends the signal is over at once when the signal had
ended, else when that is done, if this is within its limit. Both are over when that is done.
-/
theorem await_acted (signal : Shutdown) (receiver limit after : Nat)
    : (signal.await receiver limit (.trigger after)).1
          = (signal.hasEnded || decide (after ≤ limit), after)
        ∧ (signal.await receiver limit (.drop after)).1
          = (signal.hasEnded || decide (after ≤ limit), after) := by
  cases ended : signal.hasEnded with
  | true =>
      have looked : (signal.look receiver).1 = true := ended
      simp [await, looked]
  | false =>
      have looked : (signal.look receiver).1 = false := ended
      have held : signal.isOrphan = false := by
        unfold hasEnded at ended
        exact (Bool.or_eq_false_iff.mp ended).2
      by_cases inTime : after ≤ limit
      · simp [await, looked, inTime, resume_trigger_look held, resume_drop_look]
      · have late : max limit after = after := Nat.max_eq_right (Nat.le_of_not_le inTime)
        simp [await, looked, inTime, late]

-------------------------------------------------------------------------------
-- Vigils
-------------------------------------------------------------------------------

/-- What is done with a signal: through its handle, to a receiver, or by a receiver that waits
and gets a turn.
-/
inductive Deed
  | trigger
  | drop
  | subscribe
  | clone (receiver : Nat)
  | wait (receiver : Nat)
  /-- The receiver gives up its wait. -/
  | leave (receiver : Nat)
  | turn (receiver : Nat)
deriving DecidableEq

/-- What is done is not about the wait of a receiver. -/
def Deed.Spares (deed : Deed) (receiver : Nat) : Prop :=
  deed ≠ .wait receiver ∧ deed ≠ .leave receiver

/-- A signal with the receivers that wait for it, and those whose waits were over in the present
moment.
-/
structure Vigil where
  signal : Shutdown
  waiting : List Nat
  released : List Nat

/-- The signal was triggered or its handle dropped. -/
def Ended (deeds : List Deed) : Prop := .trigger ∈ deeds ∨ .drop ∈ deeds

instance (deeds : List Deed) : Decidable (Ended deeds) := inferInstanceAs (Decidable (_ ∨ _))

theorem Ended.append {deeds : List Deed} (ended : Ended deeds) (more : List Deed)
    : Ended (deeds ++ more) :=
  ended.imp (List.mem_append_left more) (List.mem_append_left more)

namespace Vigil

def start : Vigil := ⟨.fresh, [], []⟩

/-- A receiver begins to wait: it looks at the signal. -/
def wait (vigil : Vigil) (receiver : Nat) : Vigil :=
  match vigil.signal.look receiver with
  | (true, signal) => { vigil with signal := signal, released := receiver :: vigil.released }
  | (false, signal) => { vigil with signal := signal, waiting := receiver :: vigil.waiting }

def leave (vigil : Vigil) (receiver : Nat) : Vigil :=
  { vigil with waiting := vigil.waiting.filter fun other => other ≠ receiver }

/-- A receiver that waits gets a turn. -/
def turn (vigil : Vigil) (receiver : Nat) : Vigil :=
  match vigil.signal.resume receiver with
  | (true, signal) =>
      { vigil.leave receiver with signal := signal, released := receiver :: vigil.released }
  | (false, signal) => { vigil with signal := signal }

/-- What a deed makes of a vigil. Through a handle that is gone nothing can be done, and a receiver
that waits can do nothing else.
-/
def act? (vigil : Vigil) : Deed → Option Vigil
  | .trigger =>
      if vigil.signal.isOrphan then none else some { vigil with signal := vigil.signal.trigger }
  | .drop =>
      if vigil.signal.isOrphan then none else some { vigil with signal := vigil.signal.drop }
  | .subscribe => vigil.signal.subscribe?.map fun signal => { vigil with signal := signal }
  | .clone receiver =>
      if receiver ∈ vigil.waiting then none
      else (vigil.signal.clone? receiver).map fun signal => { vigil with signal := signal }
  | .wait receiver =>
      if receiver ∈ vigil.waiting ∨ vigil.signal.seen.length ≤ receiver then none
      else some (vigil.wait receiver)
  | .leave receiver => if receiver ∈ vigil.waiting then some (vigil.leave receiver) else none
  | .turn receiver => if receiver ∈ vigil.waiting then some (vigil.turn receiver) else none

/-- What a deed that can be done makes of a vigil, and what lets it be done. A receiver that is new
has seen the present version, or what another one has seen.
-/
inductive Does (vigil : Vigil) : Deed → Vigil → Prop
  | trigger (held : vigil.signal.isOrphan = false)
    : vigil.Does .trigger { vigil with signal := vigil.signal.trigger }
  | drop : vigil.Does .drop { vigil with signal := vigil.signal.drop }
  | join {deed : Deed} {version : Nat}
    (joins : deed = .subscribe ∨ ∃ receiver, deed = .clone receiver)
    (seen : version = vigil.signal.version ∨ version ∈ vigil.signal.seen)
    : vigil.Does deed
        { vigil with signal := { vigil.signal with seen := vigil.signal.seen ++ [version] } }
  | wait {receiver : Nat} (idle : receiver ∉ vigil.waiting)
    (there : receiver < vigil.signal.seen.length)
    : vigil.Does (.wait receiver) (vigil.wait receiver)
  | leave {receiver : Nat} : vigil.Does (.leave receiver) (vigil.leave receiver)
  | turn {receiver : Nat} (waits : receiver ∈ vigil.waiting)
    : vigil.Does (.turn receiver) (vigil.turn receiver)

theorem does_of_act? {vigil next : Vigil} {deed : Deed} (acted : vigil.act? deed = some next)
    : vigil.Does deed next := by
  cases deed with
  | trigger =>
      simp only [act?, Option.ite_none_left_eq_some, Bool.not_eq_true] at acted
      obtain ⟨held, same⟩ := acted
      cases same
      exact .trigger held
  | drop =>
      simp only [act?, Option.ite_none_left_eq_some] at acted
      obtain ⟨-, same⟩ := acted
      cases same
      exact .drop
  | subscribe =>
      simp only [act?, subscribe?, Option.map_eq_some_iff, Option.ite_none_left_eq_some] at acted
      obtain ⟨signal, ⟨-, joined⟩, rfl⟩ := acted
      cases joined
      exact .join (.inl rfl) (.inl rfl)
  | clone receiver =>
      simp only [act?, clone?, Option.ite_none_left_eq_some, Option.map_eq_some_iff] at acted
      obtain ⟨-, signal, ⟨version, seen, joined⟩, rfl⟩ := acted
      cases joined
      exact .join (.inr ⟨receiver, rfl⟩) (.inr (List.mem_of_getElem? seen))
  | wait receiver =>
      simp only [act?, Option.ite_none_left_eq_some, not_or, Nat.not_le] at acted
      obtain ⟨⟨idle, there⟩, same⟩ := acted
      cases same
      exact .wait idle there
  | leave receiver =>
      simp only [act?, Option.ite_none_right_eq_some] at acted
      obtain ⟨-, same⟩ := acted
      cases same
      exact .leave
  | turn receiver =>
      simp only [act?, Option.ite_none_right_eq_some] at acted
      obtain ⟨waits, same⟩ := acted
      cases same
      exact .turn waits

/-- In the end of a moment everyone who waits gets a turn. -/
def settle (vigil : Vigil) : Vigil := vigil.waiting.foldl turn vigil

/-- A moment: what is done in it, one after the other, and then the turns of those who wait. -/
def moment? (vigil : Vigil) (deeds : List Deed) : Option Vigil :=
  (deeds.foldlM act? { vigil with released := [] }).map settle

/-- The vigil at the end of some moments, if what is done in them can be done. -/
def run? (moments : List (List Deed)) : Option Vigil := moments.foldlM moment? start

-------------------------------------------------------------------------------
-- What a vigil keeps
-------------------------------------------------------------------------------

/-- A vigil in which these deeds were done: its signal tells what was done to it, and the end of
the signal is news to everyone who waits.
-/
structure Follows (vigil : Vigil) (deeds : List Deed) : Prop where
  triggered : vigil.signal.isTriggered = true ↔ .trigger ∈ deeds
  orphan : vigil.signal.isOrphan = true ↔ .drop ∈ deeds
  sound : vigil.signal.Sound
  distinct : vigil.waiting.Nodup
  there : ∀ receiver ∈ vigil.waiting, receiver < vigil.signal.seen.length
  news
    : ∀ receiver ∈ vigil.waiting,
        vigil.signal.hasEnded = true → vigil.signal.hasNews receiver = true
  timely : vigil.signal.hasEnded = false → vigil.released = []

namespace Follows

variable {vigil next : Vigil} {deeds : List Deed} {receiver : Nat}

theorem start
    : Vigil.start.Follows [] where
  triggered := by simp [Vigil.start, fresh]
  orphan := by simp [Vigil.start, fresh]
  sound := by simp [Vigil.start, Sound, fresh]
  distinct := List.nodup_nil
  there := nofun
  news := nofun
  timely _ := rfl

/-- A deed that leaves the signal as it is or as a look leaves it keeps all but whom it concerns. -/
theorem looked (follows : vigil.Follows deeds) {deed : Deed} {signal : Shutdown}
    {waiting released : List Nat}
    (same : signal = vigil.signal ∨ signal = (vigil.signal.look receiver).2)
    (untouched : deed ≠ .trigger ∧ deed ≠ .drop) (distinct : waiting.Nodup)
    (there : ∀ other ∈ waiting, other < vigil.signal.seen.length)
    (others
      : vigil.signal.hasEnded = true
        → ∀ other ∈ waiting, other ∈ vigil.waiting ∧ receiver ≠ other)
    (timely : vigil.signal.hasEnded = false → released = [])
    : (Vigil.mk signal waiting released).Follows (deeds ++ [deed]) := by
  have triggered : .trigger ∈ deeds ++ [deed] ↔ .trigger ∈ deeds := by
    simp [Ne.symm untouched.1]
  have orphan : .drop ∈ deeds ++ [deed] ↔ .drop ∈ deeds := by
    simp [Ne.symm untouched.2]
  rcases same with rfl | rfl
  · exact ⟨follows.triggered.trans triggered.symm, follows.orphan.trans orphan.symm,
      follows.sound, distinct, there,
      fun other listed ended => follows.news other (others ended other listed).1 ended, timely⟩
  · refine ⟨follows.triggered.trans triggered.symm, follows.orphan.trans orphan.symm,
      follows.sound.look receiver, distinct, fun other listed => ?_, fun other listed ended => ?_,
      timely⟩
    · exact Nat.lt_of_lt_of_eq (there other listed) List.length_set.symm
    · obtain ⟨earlier, apart⟩ := others ended other listed
      rw [hasNews_look vigil.signal apart]
      exact follows.news other earlier ended

/-- A receiver that begins to wait has seen what is there, and waits only if there is no end. -/
theorem wait (follows : vigil.Follows deeds) (idle : receiver ∉ vigil.waiting)
    (there : receiver < vigil.signal.seen.length)
    : (vigil.wait receiver).Follows (deeds ++ [.wait receiver]) := by
  unfold Vigil.wait
  split
  · next signal looked =>
    obtain ⟨ended, rfl⟩ := Prod.mk.inj looked
    refine follows.looked (.inr rfl) ⟨nofun, nofun⟩ follows.distinct follows.there
      (fun _ other listed => ⟨listed, fun same => idle (same ▸ listed)⟩) fun unended => ?_
    exact absurd (ended.symm.trans unended) nofun
  · next signal looked =>
    obtain ⟨unended, rfl⟩ := Prod.mk.inj looked
    refine follows.looked (.inr rfl) ⟨nofun, nofun⟩ (List.nodup_cons.mpr ⟨idle, follows.distinct⟩)
      ?_ (fun ended => absurd (unended.symm.trans ended) nofun) follows.timely
    rintro other (_ | ⟨_, listed⟩)
    · exact there
    · exact follows.there other listed

/-- A turn ends the wait of its receiver exactly when the signal has ended. -/
theorem turn_eq (follows : vigil.Follows deeds) (waits : receiver ∈ vigil.waiting)
    : ∃ signal,
        (signal = vigil.signal ∨ signal = (vigil.signal.look receiver).2)
        ∧ vigil.turn receiver
          = if vigil.signal.hasEnded then
              { vigil.leave receiver with signal := signal, released := receiver :: vigil.released }
            else { vigil with signal := signal } := by
  refine ⟨_, vigil.signal.resume_snd receiver, ?_⟩
  have told := resume_fst (follows.news receiver waits)
  unfold Vigil.turn
  split
  · next signal resumed =>
    rw [resumed] at told
    rw [← told, resumed]
    rfl
  · next signal resumed =>
    rw [resumed] at told
    rw [← told, resumed]
    rfl

theorem turn (follows : vigil.Follows deeds) (waits : receiver ∈ vigil.waiting)
    : (vigil.turn receiver).Follows (deeds ++ [.turn receiver]) := by
  obtain ⟨signal, same, turned⟩ := follows.turn_eq waits
  rw [turned]
  split
  · next ended =>
    refine follows.looked same ⟨nofun, nofun⟩ (follows.distinct.filter _) (fun other listed => ?_)
      (fun _ other listed => ?_) fun unended => absurd (ended.symm.trans unended) nofun
    · exact follows.there other (List.mem_filter.mp listed).1
    · obtain ⟨earlier, apart⟩ := List.mem_filter.mp listed
      exact ⟨earlier, fun same => by simp [same] at apart⟩
  · next unended =>
    exact follows.looked same ⟨nofun, nofun⟩ follows.distinct follows.there
      (fun ended => absurd ended unended) follows.timely

/-- A new receiver has seen nothing that is not there, and takes the news from nobody. -/
theorem joined (follows : vigil.Follows deeds) {deed : Deed} {version : Nat}
    (untouched : deed ≠ .trigger ∧ deed ≠ .drop) (seen : version ≤ vigil.signal.version)
    : { vigil with
          signal := { vigil.signal with seen := vigil.signal.seen ++ [version] } }.Follows
        (deeds ++ [deed]) := by
  refine ⟨?_, ?_, ?_, follows.distinct, fun other listed => ?_, fun other listed ended => ?_,
    follows.timely⟩
  · simpa [Ne.symm untouched.1] using follows.triggered
  · simpa [Ne.symm untouched.2] using follows.orphan
  · intro earlier listed
    rcases List.mem_append.mp listed with old | new
    · exact follows.sound earlier old
    · exact List.mem_singleton.mp new ▸ seen
  · exact Nat.lt_of_lt_of_le (follows.there other listed) (by simp)
  · have own := follows.news other listed ended
    simp only [hasNews] at own ⊢
    rwa [List.getElem?_append_left (follows.there other listed)]

/-- Whatever is done, the vigil goes on following. -/
theorem act (follows : vigil.Follows deeds) {deed : Deed} (acted : vigil.act? deed = some next)
    : next.Follows (deeds ++ [deed]) := by
  cases does_of_act? acted with
  | trigger held =>
      have ended : vigil.signal.trigger.hasEnded = true := by simp [trigger, hasEnded, held]
      refine ⟨?_, ?_, ?_, follows.distinct, ?_, fun other listed _ => ?_, fun unended => ?_⟩
      · simp [trigger, held]
      · simpa [trigger, held] using follows.orphan
      · intro version listed
        have known := follows.sound version (by simpa [trigger, held] using listed)
        simpa [trigger, held] using Nat.le_succ_of_le known
      · simpa [trigger, held] using follows.there
      · exact follows.sound.hasNews_trigger held other
      · exact absurd (ended.symm.trans unended) nofun
  | drop =>
      refine ⟨?_, ?_, follows.sound, follows.distinct, follows.there, ?_, ?_⟩
      · simpa [drop] using follows.triggered
      · simp [drop]
      · simp [drop, hasNews]
      · simp [drop, hasEnded]
  | join joins seen =>
      refine follows.joined ?_ (seen.elim Nat.le_of_eq (follows.sound _))
      rcases joins with rfl | ⟨receiver, rfl⟩ <;> exact ⟨nofun, nofun⟩
  | wait idle there => exact follows.wait idle there
  | leave =>
      refine ⟨?_, ?_, follows.sound, follows.distinct.filter _, fun other listed => ?_,
        fun other listed => ?_, follows.timely⟩
      · simpa [leave] using follows.triggered
      · simpa [leave] using follows.orphan
      · exact follows.there other (List.mem_filter.mp listed).1
      · exact follows.news other (List.mem_filter.mp listed).1
  | turn waits => exact follows.turn waits

/-- The signal has ended when it was triggered or its handle was dropped. -/
theorem ended_iff (follows : vigil.Follows deeds)
    : vigil.signal.hasEnded = true ↔ Ended deeds := by
  unfold hasEnded Ended
  rw [Bool.or_eq_true, follows.triggered, follows.orphan]

/-- What is done in a moment is followed, deed by deed, by induction over the deeds. -/
theorem acts (follows : vigil.Follows deeds) {more : List Deed}
    (acted : more.foldlM act? vigil = some next)
    : next.Follows (deeds ++ more) := by
  induction more generalizing vigil deeds with
  | nil =>
      cases acted
      rwa [List.append_nil]
  | cons deed later ih =>
      obtain ⟨middle, first, rest⟩ := Option.bind_eq_some_iff.mp acted
      have whole := ih (follows.act first) rest
      rwa [List.append_assoc] at whole

/-- In the beginning of a moment no wait was over in it. -/
theorem opened (follows : vigil.Follows deeds)
    : { vigil with released := [] }.Follows deeds :=
  { follows with timely := fun _ => rfl }

/-- Turns are no more than turns: they do nothing to the signal. -/
theorem of_turns {turns : List Nat} (follows : vigil.Follows (deeds ++ turns.map .turn))
    : vigil.Follows deeds where
  triggered := by simpa using follows.triggered
  orphan := by simpa using follows.orphan
  sound := follows.sound
  distinct := follows.distinct
  there := follows.there
  news := follows.news
  timely := follows.timely

end Follows

-------------------------------------------------------------------------------
-- Whose waits are over
-------------------------------------------------------------------------------

/-- A receiver waits, or its wait was over in the present moment. -/
def Attends (vigil : Vigil) (receiver : Nat) : Prop :=
  receiver ∈ vigil.waiting ∨ receiver ∈ vigil.released

section Moments

variable {vigil next : Vigil} {past deeds : List Deed} {receiver other : Nat}

theorem attends_wait (vigil : Vigil) (receiver other : Nat)
    : (vigil.wait receiver).Attends other ↔ other = receiver ∨ vigil.Attends other := by
  unfold wait Attends
  split <;> simp [or_left_comm, or_assoc]

theorem attends_turn (waits : receiver ∈ vigil.waiting) (other : Nat)
    : (vigil.turn receiver).Attends other ↔ vigil.Attends other := by
  unfold turn leave Attends
  split
  · by_cases same : other = receiver <;> simp [same, waits]
  · rfl

/-- What is not about the wait of a receiver leaves the receiver waiting, or its wait over. -/
theorem attends_act {deed : Deed} (acted : vigil.act? deed = some next)
    (spares : deed.Spares other)
    : next.Attends other ↔ vigil.Attends other := by
  cases does_of_act? acted with
  | trigger | drop | join => rfl
  | @wait receiver =>
      have apart : other ≠ receiver := fun same => spares.1 (same ▸ rfl)
      simp [attends_wait, apart]
  | @leave receiver =>
      have apart : other ≠ receiver := fun same => spares.2 (same ▸ rfl)
      simp [Attends, leave, apart]
  | turn waits => exact attends_turn waits other

/-- So do all the deeds of a moment, by induction over them. -/
theorem attends_acts (acted : deeds.foldlM act? vigil = some next)
    (spares : ∀ deed ∈ deeds, deed.Spares other)
    : next.Attends other ↔ vigil.Attends other := by
  induction deeds generalizing vigil with
  | nil =>
      cases acted
      rfl
  | cons deed later ih =>
      obtain ⟨middle, first, rest⟩ := Option.bind_eq_some_iff.mp acted
      have here := attends_act first (spares deed List.mem_cons_self)
      exact (ih rest fun deed listed => spares deed (List.mem_cons_of_mem _ listed)).trans here

/-- A receiver that begins to wait waits, or its wait is over. -/
theorem attends_of_wait (acted : vigil.act? (.wait receiver) = some next)
    : next.Attends receiver := by
  cases does_of_act? acted with
  | wait => exact (vigil.attends_wait receiver receiver).mpr (.inl rfl)
  | join joins => exact absurd joins (by simp)

/-- A turn takes its receiver from those who wait when the signal has ended. -/
theorem Follows.waiting_turn (follows : vigil.Follows past) (waits : receiver ∈ vigil.waiting)
    : (vigil.turn receiver).waiting
      = if vigil.signal.hasEnded then (vigil.leave receiver).waiting else vigil.waiting := by
  obtain ⟨signal, -, turned⟩ := follows.turn_eq waits
  rw [turned]
  split <;> rfl

/-- Of those who wait and get their turns nobody goes on waiting when the signal has ended, and
nobody is forgotten, by induction over those who get a turn.
-/
theorem Follows.turns (follows : vigil.Follows past) {turns : List Nat} (distinct : turns.Nodup)
    (wait : ∀ receiver ∈ turns, receiver ∈ vigil.waiting)
    : (turns.foldl Vigil.turn vigil).Follows past
      ∧ (∀ other, (turns.foldl Vigil.turn vigil).Attends other ↔ vigil.Attends other)
      ∧ (Ended past
          → ∀ other ∈ (turns.foldl Vigil.turn vigil).waiting,
            other ∈ vigil.waiting ∧ other ∉ turns) := by
  induction turns generalizing vigil with
  | nil => exact ⟨follows, fun _ => .rfl, fun _ other listed => ⟨listed, List.not_mem_nil⟩⟩
  | cons receiver later ih =>
      obtain ⟨new, apart⟩ := List.nodup_cons.mp distinct
      have waits := wait receiver List.mem_cons_self
      have turned := follows.waiting_turn waits
      have once : (vigil.turn receiver).Follows (past ++ [receiver].map .turn) :=
        follows.turn waits
      have next := once.of_turns
      have left (other : Nat) (listed : other ∈ later)
          : other ∈ (vigil.turn receiver).waiting := by
        have earlier := wait other (List.mem_cons_of_mem _ listed)
        rw [turned]
        split
        · have differs : other ≠ receiver := fun same => new (same ▸ listed)
          exact List.mem_filter.mpr ⟨earlier, decide_eq_true differs⟩
        · exact earlier
      obtain ⟨final, attends, gone⟩ := ih next apart left
      refine ⟨final, fun other => (attends other).trans (attends_turn waits other),
        fun ended other listed => ?_⟩
      obtain ⟨still, others⟩ := gone ended other listed
      rw [turned, if_pos (follows.ended_iff.mpr ended)] at still
      obtain ⟨earlier, differs⟩ := List.mem_filter.mp still
      refine ⟨earlier, fun served => ?_⟩
      rcases List.mem_cons.mp served with same | later
      · exact of_decide_eq_true differs same
      · exact others later

/-- In the end of a moment the waits of all are over when the signal has ended, and else of none. -/
theorem Follows.settle (follows : vigil.Follows past)
    : vigil.settle.Follows past
      ∧ (∀ other, other ∈ vigil.settle.waiting ↔ ¬ Ended past ∧ vigil.Attends other)
      ∧ ∀ other, other ∈ vigil.settle.released ↔ Ended past ∧ vigil.Attends other := by
  obtain ⟨final, attends, gone⟩ := follows.turns follows.distinct fun _ listed => listed
  change vigil.settle.Follows past at final
  change ∀ other, vigil.settle.Attends other ↔ vigil.Attends other at attends
  have nobody (ended : Ended past) (other : Nat) : other ∉ vigil.settle.waiting := fun listed =>
    (gone ended other listed).2 (gone ended other listed).1
  have early (unended : ¬ Ended past) : vigil.settle.released = [] :=
    final.timely (Bool.eq_false_iff.mpr fun ended => unended (final.ended_iff.mp ended))
  refine ⟨final, fun other => ?_, fun other => ?_⟩
  · rw [← attends other]
    constructor
    · exact fun listed => ⟨fun ended => nobody ended other listed, .inl listed⟩
    · rintro ⟨unended, waits | released⟩
      · exact waits
      · rw [early unended] at released
        cases released
  · rw [← attends other]
    constructor
    · intro listed
      refine ⟨Decidable.byContradiction fun unended => ?_, .inr listed⟩
      rw [early unended] at listed
      cases listed
    · rintro ⟨ended, waits | released⟩
      · exact absurd waits (nobody ended other)
      · exact released

/-- A moment in which nothing is done about the wait of a receiver: if it waits, its wait is over
in this moment when the signal has ended by then, and else it goes on.
-/
theorem Follows.moment (follows : vigil.Follows past) (lived : vigil.moment? deeds = some next)
    (other : Nat)
    : next.Follows (past ++ deeds)
      ∧ ((∀ deed ∈ deeds, deed.Spares other)
          → (other ∈ next.waiting ↔ ¬ Ended (past ++ deeds) ∧ other ∈ vigil.waiting)
            ∧ (other ∈ next.released ↔ Ended (past ++ deeds) ∧ other ∈ vigil.waiting)) := by
  obtain ⟨middle, acted, rfl⟩ := Option.map_eq_some_iff.mp lived
  obtain ⟨final, waiting, released⟩ := (follows.opened.acts acted).settle
  refine ⟨final, fun spares => ?_⟩
  have attends : middle.Attends other ↔ other ∈ vigil.waiting := by
    rw [attends_acts acted spares]
    simp [Attends]
  rw [waiting, released, attends]
  exact ⟨.rfl, .rfl⟩

/-- A receiver that begins to wait in a moment waits from then on, unless the signal has ended by
the end of the moment; then its wait is over in it.
-/
theorem Follows.moment_wait (follows : vigil.Follows past) {first since : List Deed}
    (lived : vigil.moment? (first ++ .wait receiver :: since) = some next)
    (spares : ∀ deed ∈ since, deed.Spares receiver)
    : (receiver ∈ next.waiting ↔ ¬ Ended (past ++ (first ++ .wait receiver :: since)))
      ∧ (receiver ∈ next.released ↔ Ended (past ++ (first ++ .wait receiver :: since))) := by
  obtain ⟨last, acted, rfl⟩ := Option.map_eq_some_iff.mp lived
  obtain ⟨final, waiting, released⟩ := (follows.opened.acts acted).settle
  rw [List.foldlM_append] at acted
  obtain ⟨middle, before, acted⟩ := Option.bind_eq_some_iff.mp acted
  obtain ⟨begun, here, after⟩ := Option.bind_eq_some_iff.mp acted
  have attends : last.Attends receiver := (attends_acts after spares).mpr (attends_of_wait here)
  rw [waiting, released]
  simp [attends]

/-- A receiver that waits unless the signal has ended does so through moments in which nothing is
done about its wait, by induction over the moments.
-/
theorem Follows.moments (follows : vigil.Follows past) {moments : List (List Deed)}
    (lived : moments.foldlM moment? vigil = some next) (other : Nat)
    : next.Follows (past ++ moments.flatten)
      ∧ ((∀ deed ∈ moments.flatten, deed.Spares other)
          → (other ∈ vigil.waiting ↔ ¬ Ended past)
          → (other ∈ next.waiting ↔ ¬ Ended (past ++ moments.flatten))) := by
  induction moments generalizing vigil past with
  | nil =>
      cases lived
      rw [List.flatten_nil, List.append_nil]
      exact ⟨follows, fun _ waits => waits⟩
  | cons deeds later ih =>
      obtain ⟨middle, first, rest⟩ := Option.bind_eq_some_iff.mp lived
      obtain ⟨between, here⟩ := follows.moment first other
      obtain ⟨final, after⟩ := ih between rest
      rw [List.flatten_cons, ← List.append_assoc]
      refine ⟨final, fun spares waits => after (fun deed listed => ?_) ?_⟩
      · exact spares deed (List.mem_append_right _ listed)
      · obtain ⟨goesOn, -⟩ := here fun deed listed => spares deed (List.mem_append_left _ listed)
        rw [goesOn, waits]
        exact ⟨And.left, fun unended => ⟨unended, fun ended => unended (ended.append _)⟩⟩

end Moments

-------------------------------------------------------------------------------
-- In time
-------------------------------------------------------------------------------

/-- Everyone who watches a signal learns of it in time. It reads as triggered when it was triggered,
and then for good. A wait is over in the first moment, not before it begins, by the end of which the
signal was triggered or its handle dropped, and in no other; so is a wait with a limit.
-/
structure Heeds (vigil : Vigil) (moments : List (List Deed)) : Prop where
  triggered : vigil.signal.isTriggered = true ↔ .trigger ∈ moments.flatten
  forGood
    : ∀ earlier later before,
        moments = earlier ++ later
        → run? earlier = some before
        → before.signal.isTriggered = true
        → vigil.signal.isTriggered = true
  released
    : ∀ earlier first since between receiver,
        moments = earlier ++ (first ++ .wait receiver :: since) :: between
        → (∀ deed ∈ since ++ between.flatten, deed.Spares receiver)
        → (receiver ∈ vigil.released
          ↔ Ended moments.flatten ∧ (between = [] ∨ ¬ Ended moments.dropLast.flatten))
  timely : ¬ Ended moments.flatten → vigil.released = []
  limited
    : ∀ receiver limit after,
        let ended := decide (Ended moments.flatten)
        (vigil.signal.await receiver limit .nothing).1 = (ended, if ended then 0 else limit)
        ∧ (vigil.signal.await receiver limit (.trigger after)).1
          = (ended || decide (after ≤ limit), after)
        ∧ (vigil.signal.await receiver limit (.drop after)).1
          = (ended || decide (after ≤ limit), after)

variable {vigil : Vigil} {moments : List (List Deed)}

theorem follows_of_run (lived : run? moments = some vigil)
    : vigil.Follows moments.flatten :=
  (Follows.start.moments lived 0).1

/-- In which moments a wait is over: it goes on through all moments before the signal has ended. -/
theorem released_iff_of_run {earlier between : List (List Deed)} {first since : List Deed}
    {receiver : Nat}
    (lived : run? (earlier ++ (first ++ .wait receiver :: since) :: between) = some vigil)
    (spares : ∀ deed ∈ since ++ between.flatten, deed.Spares receiver)
    : let moments := earlier ++ (first ++ .wait receiver :: since) :: between
      receiver ∈ vigil.released
        ↔ Ended moments.flatten ∧ (between = [] ∨ ¬ Ended moments.dropLast.flatten) := by
  dsimp only
  unfold run? at lived
  rw [List.foldlM_append] at lived
  obtain ⟨before, past, lived⟩ := Option.bind_eq_some_iff.mp lived
  obtain ⟨begun, here, lived⟩ := Option.bind_eq_some_iff.mp lived
  have follows := follows_of_run past
  obtain ⟨waits, released⟩ :=
    follows.moment_wait here fun deed listed => spares deed (List.mem_append_left _ listed)
  rcases List.eq_nil_or_concat between with rfl | ⟨middle, last, rfl⟩
  · cases lived
    simpa using released
  · have begins := (follows.moment here receiver).1
    rw [List.concat_eq_append, List.foldlM_append] at lived
    obtain ⟨present, through, lived⟩ := Option.bind_eq_some_iff.mp lived
    obtain ⟨_, ends, finished⟩ := Option.bind_eq_some_iff.mp lived
    cases finished
    simp only [List.concat_eq_append, List.flatten_append, List.flatten_singleton,
      List.mem_append] at spares
    obtain ⟨goes, goesOn⟩ := begins.moments through receiver
    have goesOn := goesOn (fun deed listed => spares deed (.inr (.inl listed))) waits
    have released :=
      ((goes.moment ends receiver).2 fun deed listed => spares deed (.inr (.inr listed))).2
    have whole : earlier ++ (first ++ .wait receiver :: since) :: middle.concat last
        = (earlier ++ (first ++ .wait receiver :: since) :: middle) ++ [last] := by simp
    rw [whole, List.dropLast_concat, released, goesOn]
    simp

/-- Whatever is done with a signal, in whatever order and by however many receivers, everyone who
watches it learns of it in time.
-/
theorem heeds_in_time (lived : run? moments = some vigil)
    : vigil.Heeds moments := by
  have follows := follows_of_run lived
  have ended : vigil.signal.hasEnded = decide (Ended moments.flatten) := by
    rw [Bool.eq_iff_iff, follows.ended_iff, decide_eq_true_iff]
  refine ⟨follows.triggered, ?_, ?_, fun unended => follows.timely ?_,
    fun receiver limit after => ?_⟩
  · rintro earlier later before rfl past triggered
    have known := (follows_of_run past).triggered.mp triggered
    rw [follows.triggered, List.flatten_append]
    exact List.mem_append_left _ known
  · rintro earlier first since between receiver rfl spares
    exact released_iff_of_run lived spares
  · rw [ended]
    exact decide_eq_false unended
  · rw [← ended]
    exact ⟨await_nothing _ _ _, await_acted _ _ _ _⟩

/-- A receiver that gives up, one that waits until the signal is triggered, and one that does so
and waits once more afterwards, as does one that comes only then: the last two are told at once.
-/
theorem heeds_in_time_of_latecomer
    : let moments : List (List Deed) :=
        [[.subscribe, .clone 0, .wait 0, .wait 1], [.turn 1, .leave 1, .wait 2],
          [.trigger, .subscribe, .drop], [.clone 1, .wait 3, .wait 0]]
      ∃ vigil, run? moments = some vigil ∧ vigil.released = [0, 3] ∧ vigil.Heeds moments :=
  ⟨_, rfl, rfl, heeds_in_time rfl⟩

end Vigil

end Gatehouse.Shutdown
