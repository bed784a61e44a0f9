import DotBackend.Data.Result

/-!
# Calls to the outside

A program that works with collaborators whose behaviour is unknown is a function on the
state of the world around it: a collaborator may answer anything, raise anything and
remember everything. Rules for what holds before and after such a program, and a wrapper
that keeps a log of what a collaborator answered.
-/

namespace DotBackend.Data

/-- A program that may raise, in a world that it does not know. -/
abbrev Outside (ω ε : Type) := ExceptT ε (StateM ω)

namespace Outside

variable {ω ε α β κ : Type}

/-- The outcome of a program, and the world behind it. -/
def outcome (program : Outside ω ε α) (world : ω) : Except ε α × ω :=
  program.run.run world

/-- A collaborator, given by its behaviour. -/
def call (behaviour : ω → Except ε α × ω) : Outside ω ε α :=
  ExceptT.mk behaviour

/-- `try`: what a program returns or raises. -/
def attempt {η : Type} (program : Outside ω ε α) : Outside ω η (Except ε α) :=
  call fun world => (.ok (program.outcome world).1, (program.outcome world).2)

/-- A computation that does not look at the world. -/
def lift (result : Except ε α) : Outside ω ε α :=
  call fun world => (result, world)

/-- A collaborator whose answers are written to a log. -/
def record (note : Except ε α → List κ) (program : Outside ω ε α) :
    Outside (ω × List κ) ε α :=
  call fun world => ((program.outcome world.1).1,
    ((program.outcome world.1).2, world.2 ++ note (program.outcome world.1).1))

/-- A program that knows only the second half of the world. -/
def inSecond {δ : Type} (program : Outside ω ε α) : Outside (δ × ω) ε α :=
  call fun world => ((program.outcome world.2).1, (world.1, (program.outcome world.2).2))

@[simp]
theorem outcome_pure (a : α) (world : ω) :
    outcome (pure a : Outside ω ε α) world = (.ok a, world) :=
  rfl

@[simp]
theorem outcome_throw (error : ε) (world : ω) :
    outcome (throw error : Outside ω ε α) world = (.error error, world) :=
  rfl

@[simp]
theorem outcome_lift (result : Except ε α) (world : ω) :
    outcome (lift result : Outside ω ε α) world = (result, world) :=
  rfl

@[simp]
theorem outcome_call (behaviour : ω → Except ε α × ω) (world : ω) :
    outcome (call behaviour) world = behaviour world :=
  rfl

@[simp]
theorem outcome_attempt {η : Type} (program : Outside ω ε α) (world : ω) :
    outcome (attempt program : Outside ω η _) world =
      (.ok (program.outcome world).1, (program.outcome world).2) :=
  rfl

@[simp]
theorem outcome_record (note : Except ε α → List κ) (program : Outside ω ε α) (world : ω)
    (log : List κ) : outcome (record note program) (world, log) =
      ((program.outcome world).1,
        ((program.outcome world).2, log ++ note (program.outcome world).1)) :=
  rfl

theorem outcome_bind (program : Outside ω ε α) (next : α → Outside ω ε β) (world : ω) :
    outcome (program >>= next) world =
      match (program.outcome world).1 with
      | .ok a => (next a).outcome (program.outcome world).2
      | .error error => (.error error, (program.outcome world).2) := by
  rcases returned : program.outcome world with ⟨result, after⟩
  have runs : program world = (result, after) := returned
  simp only [outcome, bind, ExceptT.bind, ExceptT.run, ExceptT.mk, StateT.bind, StateT.run, runs]
  cases result with
  | ok a => rfl
  | error error => rfl

theorem outcome_bind_of_ok {program : Outside ω ε α} {next : α → Outside ω ε β} {world after : ω}
    {a : α} (returned : program.outcome world = (.ok a, after)) :
    outcome (program >>= next) world = (next a).outcome after := by
  rw [outcome_bind, returned]

theorem outcome_bind_of_error {program : Outside ω ε α} {next : α → Outside ω ε β}
    {world after : ω} {error : ε} (raised : program.outcome world = (.error error, after)) :
    outcome (program >>= next) world = (.error error, after) := by
  rw [outcome_bind, raised]

/-! ## Before and after -/

/-- From every world that satisfies a condition, a program ends in an outcome and a world
that satisfy another. -/
def Triple (before : ω → Prop) (program : Outside ω ε α) (after : Except ε α → ω → Prop) : Prop :=
  ∀ world, before world → after (program.outcome world).1 (program.outcome world).2

variable {before stronger : ω → Prop} {after weaker : Except ε α → ω → Prop}
  {program : Outside ω ε α}

theorem triple_pure {a : α} (holds : ∀ world, before world → after (.ok a) world) :
    Triple before (pure a : Outside ω ε α) after :=
  holds

theorem triple_throw {error : ε} (holds : ∀ world, before world → after (.error error) world) :
    Triple before (throw error : Outside ω ε α) after :=
  holds

theorem triple_lift {result : Except ε α} (holds : ∀ world, before world → after result world) :
    Triple before (lift result : Outside ω ε α) after :=
  holds

/-- The rule of consequence. -/
theorem Triple.mono (triple : Triple before program after)
    (strengthens : ∀ world, stronger world → before world)
    (weakens : ∀ result world, after result world → weaker result world) :
    Triple stronger program weaker :=
  fun world holds => weakens _ _ (triple world (strengthens world holds))

/-- The rule of sequence: the second program continues from every value that the first
returns, and what the first raises is raised. -/
theorem Triple.bind {next : α → Outside ω ε β} {last : Except ε β → ω → Prop}
    (first : Triple before program after)
    (later : ∀ a, Triple (after (.ok a)) (next a) last)
    (raised : ∀ error world, after (.error error) world → last (.error error) world) :
    Triple before (program >>= next) last := by
  intro world holds
  have middle := first world holds
  rcases returned : program.outcome world with ⟨result, between⟩
  rw [returned] at middle
  cases result with
  | error error =>
      rw [outcome_bind_of_error returned]
      exact raised error between middle
  | ok a =>
      rw [outcome_bind_of_ok returned]
      exact later a between middle

/-- The rule of `try`. -/
theorem Triple.attempt {η : Type} (triple : Triple before program after) :
    Triple before program.attempt fun (result : Except η _) world =>
      ∃ caught, result = .ok caught ∧ after caught world :=
  fun world holds => ⟨_, rfl, triple world holds⟩

/-! ## When a program returns -/

/-- What holds when a program returns; what it raises is left open. -/
def Returns (before : ω → Prop) (program : Outside ω ε α) (after : α → ω → Prop) : Prop :=
  Triple before program fun result world => ∀ a, result = .ok a → after a world

variable {returned looser : α → ω → Prop}

theorem returns_pure {a : α} (holds : ∀ world, before world → returned a world) :
    Returns before (pure a : Outside ω ε α) returned := by
  rintro world initially _ ⟨⟩
  exact holds world initially

theorem returns_throw (error : ε) : Returns before (throw error : Outside ω ε α) returned := by
  rintro world _ _ ⟨⟩

theorem Returns.bind {next : α → Outside ω ε β} {last : β → ω → Prop}
    (first : Returns before program returned) (later : ∀ a, Returns (returned a) (next a) last) :
    Returns before (program >>= next) last := by
  have raises : ∀ (error : ε) (world : ω), (∀ a, .error error = Except.ok a → returned a world) →
      ∀ b, (.error error : Except ε β) = .ok b → last b world := by
    rintro error world _ _ ⟨⟩
  exact Triple.bind first (fun a world holds => later a world (holds a rfl)) raises

theorem Returns.mono (returns : Returns before program returned)
    (strengthens : ∀ world, stronger world → before world)
    (weakens : ∀ a world, returned a world → looser a world) :
    Returns stronger program looser :=
  fun world holds a same => weakens a _ (returns world (strengthens world holds) a same)

theorem Returns.of_eq {world after : ω} {a : α} (returns : Returns before program returned)
    (holds : before world) (runs : program.outcome world = (.ok a, after)) : returned a after := by
  have ended := returns world holds a
  rw [runs] at ended
  exact ended rfl

/-- A collaborator that writes nothing to the log. -/
def silent (program : Outside ω ε α) : Outside (ω × List κ) ε α :=
  record (fun _ => []) program

theorem outcome_silent (program : Outside ω ε α) (world : ω) (log : List κ) :
    outcome (silent program) (world, log) =
      ((program.outcome world).1, ((program.outcome world).2, log)) := by
  rw [silent, outcome_record, List.append_nil]

theorem returns_silent (program : Outside ω ε α) (log : List κ) :
    Returns (fun world => world.2 = log) (silent program) fun _ world => world.2 = log := by
  rintro ⟨world, _⟩ rfl _ _
  exact List.append_nil _

/-! ## What a program adds to the log -/

section Logs

variable {program : Outside (ω × List κ) ε α} {log : List κ}
  {facts weaker : Except ε α → List κ → Prop}

/-- Behind a log, a program adds entries that satisfy a condition with its outcome. -/
def Logs (log : List κ) (program : Outside (ω × List κ) ε α)
    (facts : Except ε α → List κ → Prop) : Prop :=
  Triple (fun world => world.2 = log) program
    fun result world => ∃ more, world.2 = log ++ more ∧ facts result more

theorem logs_pure {a : α} (holds : facts (.ok a) []) :
    Logs log (pure a : Outside (ω × List κ) ε α) facts :=
  fun _ same => ⟨[], by rw [List.append_nil]; exact same, holds⟩

theorem logs_throw {error : ε} (holds : facts (.error error) []) :
    Logs log (throw error : Outside (ω × List κ) ε α) facts :=
  fun _ same => ⟨[], by rw [List.append_nil]; exact same, holds⟩

theorem logs_lift {result : Except ε α} (holds : facts result []) :
    Logs log (lift result : Outside (ω × List κ) ε α) facts :=
  fun _ same => ⟨[], by rw [List.append_nil]; exact same, holds⟩

/-- What a collaborator answers is the last entry of the log. -/
theorem logs_record {note : Except ε α → List κ} {program : Outside ω ε α}
    (holds : ∀ result, facts result (note result)) : Logs log (record note program) facts := by
  rintro ⟨world, _⟩ rfl
  exact ⟨_, rfl, holds _⟩

theorem logs_silent {program : Outside ω ε α} (holds : ∀ result, facts result []) :
    Logs log (silent program) facts :=
  logs_record holds

theorem Logs.mono (logs : Logs log program facts)
    (weakens : ∀ result more, facts result more → weaker result more) :
    Logs log program weaker := by
  intro world same
  rcases logs world same with ⟨more, log_eq, holds⟩
  exact ⟨more, log_eq, weakens _ more holds⟩

/-- The rule of sequence. -/
theorem Logs.bind {next : α → Outside (ω × List κ) ε β} {last : Except ε β → List κ → Prop}
    (first : Logs log program facts)
    (later : ∀ a more, facts (.ok a) more →
      Logs (log ++ more) (next a) fun result others => last result (more ++ others))
    (raised : ∀ error more, facts (.error error) more → last (.error error) more) :
    Logs log (program >>= next) last := by
  refine Triple.bind first ?_ ?_
  · rintro a world ⟨more, log_eq, holds⟩
    rcases later a more holds world log_eq with ⟨others, rest_eq, ends⟩
    exact ⟨more ++ others, by rw [rest_eq, List.append_assoc], ends⟩
  · rintro error world ⟨more, log_eq, holds⟩
    exact ⟨more, log_eq, raised error more holds⟩

/-- The rule of `try`. -/
theorem Logs.attempt {η : Type} {caught : Except η (Except ε α) → List κ → Prop}
    (logs : Logs log program facts)
    (holds : ∀ result more, facts result more → caught (.ok result) more) :
    Logs log program.attempt caught := by
  intro world same
  rcases logs world same with ⟨more, log_eq, facts⟩
  exact ⟨more, log_eq, holds _ more facts⟩

end Logs

/-! ## Without the log -/

section Erases

variable {logged : Outside (ω × List κ) ε α} {plain : Outside ω ε α}

/-- Apart from the log, a program does what another does that keeps none. -/
def Erases (logged : Outside (ω × List κ) ε α) (plain : Outside ω ε α) : Prop :=
  ∀ world log, ((logged.outcome (world, log)).1, (logged.outcome (world, log)).2.1) =
    plain.outcome world

theorem Erases.attempt {η : Type} (erases : Erases logged plain) :
    Erases (logged.attempt : Outside _ η _) plain.attempt := by
  intro world log
  rw [outcome_attempt, outcome_attempt, ← erases world log]

theorem Erases.bind {next : α → Outside (ω × List κ) ε β} {plainNext : α → Outside ω ε β}
    (first : Erases logged plain) (later : ∀ a, Erases (next a) (plainNext a)) :
    Erases (logged >>= next) (plain >>= plainNext) := by
  intro world log
  have erased := first world log
  rcases returned : logged.outcome (world, log) with ⟨result, between, others⟩
  rw [returned] at erased
  cases result with
  | error error =>
      rw [outcome_bind_of_error returned, outcome_bind_of_error erased.symm]
  | ok a =>
      rw [outcome_bind_of_ok returned, outcome_bind_of_ok erased.symm]
      exact later a between others

end Erases

end Outside

end DotBackend.Data
