import Gatehouse.World

/-! What programs do to a community. A course of a program says which value it ends in, what
becomes of the community and which calls are exchanged, whatever the journal and the store hold.
Courses of the parts of a program make up the course of the whole.
-/

namespace Gatehouse

/-- A call with the answer that it got. -/
abbrev Exchange := Sigma Call.Reply

/-- An effect and its answer as an exchange, when the effect is a call. -/
def Effect.exchange? : Sigma Effect.Reply → Option Exchange
  | ⟨.call made, reply⟩ => some ⟨made, reply⟩
  | _ => none

/-- Waiting in a world is waiting in its community; beside that only the journal grows. -/
theorem World.await_eq (world : World) (wait : ReactionWait)
    : ∃ journal,
        world.await wait
          = ((world.community.await wait).1,
              { world with community := (world.community.await wait).2, journal := journal }) := by
  have noted (world : World) (missed : Nat)
      : ∃ journal, world.noteMissed missed = { world with journal := journal } := by
    unfold World.noteMissed
    split
    · exact ⟨_, rfl⟩
    · exact ⟨_, rfl⟩
  obtain ⟨journal, same⟩ := noted (world.beginWait wait.message).2
    ((world.beginWait wait.message).2.community.hub.missed (world.beginWait wait.message).1)
  unfold World.await World.look
  simp only [same]
  unfold Community.await
  cases sighted : (world.community.beginWait wait.message).2.look
      (world.community.beginWait wait.message).1 wait with
  | mk sighting community =>
      simp only [World.beginWait, sighted]
      cases sighting <;> exact ⟨_, rfl⟩

namespace Program

variable {α β : Type}

/-- The calls that a program makes in a world, in order. -/
def exchanges (p : Program α) (world : World) : List Exchange :=
  (p.trace World.handle world).filterMap Effect.exchange?

/-- A program takes a course at an instant when, in every world of that time and community, it
ends in the value, leaves the community and has made the exchanges; of the rest of the world
only the journal may change.
-/
def Course (p : Program α) (now : Instant) (before : Community) (value : α) (after : Community)
    (made : List Exchange) : Prop :=
  ∀ world : World,
    world.clock = now
    → world.community = before
    → (∃ journal,
        p.run World.handle world
          = (value, { world with community := after, journal := journal }))
      ∧ p.exchanges world = made

namespace Course

variable {now : Instant} {before middle after : Community} {value : α} {result : β}
  {made more : List Exchange}

theorem done
    : (pure value : Program α).Course now before value before [] := by
  intro world time here
  subst here
  exact ⟨⟨world.journal, rfl⟩, rfl⟩

/-- A program goes on from where its first part has led. -/
theorem bind {p : Program α} {f : α → Program β} (first : p.Course now before value middle made)
    (next : (f value).Course now middle result after more)
    : (p >>= f).Course now before result after (made ++ more) := by
  intro world time here
  obtain ⟨⟨journal, ran⟩, exchanged⟩ := first world time here
  obtain ⟨⟨last, ended⟩, further⟩ :=
    next { world with community := middle, journal := journal } time rfl
  constructor
  · refine ⟨last, ?_⟩
    rw [run_bind, ran]
    exact ended
  · unfold exchanges at exchanged further ⊢
    rw [trace_bind, List.filterMap_append, exchanged, ran]
    exact congrArg (made ++ ·) further

/-- A program that goes on without calls has made the calls of its first part. -/
theorem followed {p : Program α} {f : α → Program β}
    (first : p.Course now before value middle made)
    (next : (f value).Course now middle result after [])
    : (p >>= f).Course now before result after made := by
  have whole := first.bind next
  rw [List.append_nil] at whole
  exact whole

/-- An event in the journal is not noticed by the community. -/
theorem log (level : Journal.Level) (message : String) (fields : List (String × String))
    : (Program.log level message fields).Course now before () before [] := by
  intro world time here
  subst here
  exact ⟨⟨_, rfl⟩, rfl⟩

/-- A program that first writes to the journal goes on as if it had not. -/
theorem after_log {level : Journal.Level} {message : String} {fields : List (String × String)}
    {f : Unit → Program β} (next : (f ()).Course now before result after more)
    : (Program.log level message fields >>= f).Course now before result after more :=
  (log level message fields).bind next

theorem clock
    : Program.now.Course now before now before [] := by
  intro world time here
  subst time here
  exact ⟨⟨world.journal, rfl⟩, rfl⟩

theorem file (report : Report)
    : (Program.file report).Course now before (.ok ()) (before.fileReport report) [] := by
  intro world time here
  subst here
  exact ⟨⟨world.journal, rfl⟩, rfl⟩

/-- A call is answered by the community. -/
theorem call (now : Instant) (before : Community) (call : Call)
    : (Program.call call).Course now before (before.answer call).1 (before.answer call).2
        [⟨call, (before.answer call).1⟩] := by
  intro world time here
  subst here
  have answered
      : ∃ journal,
          world.call call
            = ((world.community.answer call).1,
                { world with
                  community := (world.community.answer call).2
                  journal := journal }) := by
    cases call with
    | awaitReaction wait => exact world.await_eq wait
    | _ => exact ⟨world.journal, rfl⟩
  obtain ⟨journal, same⟩ := answered
  refine ⟨⟨journal, same⟩, ?_⟩
  change [(⟨call, (world.call call).1⟩ : Exchange)] = _
  rw [same]

end Course

/-- A program that runs in a world does there what its course says. -/
theorem Course.ran {p : Program α} {value : α} {after : Community} {made : List Exchange}
    (world : World) (course : p.Course world.clock world.community value after made)
    : (p.run World.handle world).1 = value
      ∧ (∃ journal,
          (p.run World.handle world).2
            = { world with community := after, journal := journal })
      ∧ p.exchanges world = made := by
  obtain ⟨⟨journal, ran⟩, exchanged⟩ := course world rfl rfl
  rw [ran]
  exact ⟨rfl, ⟨journal, rfl⟩, exchanged⟩

end Program

end Gatehouse
