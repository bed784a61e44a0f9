import DotBackend.Data.Table
import DotBackend.Transition.Run
import Mathlib.Logic.Function.Basic

/-!
# Queues of rows

A table as a queue: a worker claims a row that is eligible and marks it as in progress,
works, and settles it. A settlement reads the row again and commits what it assigns to it
later; the columns that it does not assign keep what is stored by then. A worker may
crash at any time after its claim. A row in progress may be claimed again when its lock is
old enough and it has attempts left.
-/

namespace DotBackend.Transaction

open Data Transition

/-- What a settlement does with the row that it loaded. -/
inductive Settlement (Row : Type)
  | leave
  | raise
  | assign (row : Row)
  deriving DecidableEq

/-- The operations on the rows of a queue, and what they keep. -/
structure Queue (Row Outcome : Type) where
  key : Row → Nat
  /-- The row is in progress. -/
  working : Row → Bool
  lockedAt : Row → Option Int
  attempts : Row → Nat
  maxAttempts : Nat
  eligible : Int → Row → Bool
  claimed : Int → Row → Row
  settle : Outcome → Row → Settlement Row
  /-- The stored row after an assignment to a loaded one. -/
  merge : Row → Row → Row → Row
  claimed_key : ∀ now row, key (claimed now row) = key row
  claimed_working : ∀ now row, working (claimed now row) = true
  claimed_locked : ∀ now row, lockedAt (claimed now row) = some now
  claimed_attempts : ∀ now row, attempts (claimed now row) = attempts row + 1
  within_attempts : ∀ now row, eligible now row = true → attempts row < maxAttempts
  /-- A row in progress with a lock and with attempts left is eligible in the end. -/
  eligible_again : ∀ row locked, working row = true → lockedAt row = some locked →
    attempts row < maxAttempts → ∃ now, eligible now row = true
  /-- Every row in progress can be settled. -/
  can_settle : ∀ row, working row = true → ∃ outcome assigned,
    settle outcome row = .assign assigned
  leave_settled : ∀ outcome row, settle outcome row = .leave → working row = false
  assigned_settled : ∀ outcome row assigned, settle outcome row = .assign assigned →
    working assigned = false
  assigned_key : ∀ outcome row assigned, settle outcome row = .assign assigned →
    key assigned = key row
  merge_key : ∀ loaded assigned stored, key (merge loaded assigned stored) = key stored
  /-- The status is written when it was in progress. -/
  merge_working : ∀ loaded assigned stored, working assigned = false →
    working (merge loaded assigned stored) = true → working stored = true ∧ working loaded = false
  merge_attempts : ∀ outcome loaded assigned stored, settle outcome loaded = .assign assigned →
    attempts (merge loaded assigned stored) ≤ attempts stored
  /-- A lock that was not there is not released. -/
  merge_locked : ∀ outcome loaded assigned stored, settle outcome loaded = .assign assigned →
    lockedAt loaded = none → lockedAt (merge loaded assigned stored) = lockedAt stored

namespace Queue

variable {Row Outcome : Type}

/-- A session that works on the row of a key: `owes` until it has settled the row that it
claimed, with what it has loaded to settle it. -/
structure Worker (Row Outcome : Type) where
  key : Nat
  owes : Bool
  loaded : Option (Row × Outcome)

structure State (Row Outcome : Type) where
  rows : List Row
  workers : Nat → Option (Worker Row Outcome)

/-- A table that nobody works on. -/
def idle (rows : List Row) : State Row Outcome :=
  ⟨rows, fun _ => none⟩

inductive Event (Row Outcome : Type)
  | insert (row : Row)
  | remove (key : Nat)
  /-- One statement settles the rows that it selects. -/
  | sweep (selected : Row → Bool) (outcome : Outcome)
  | claim (worker key : Nat) (now : Int)
  /-- A session that has no claim turns to a row. -/
  | visit (worker key : Nat)
  | load (worker : Nat) (outcome : Outcome)
  | store (worker : Nat)
  | finish (worker : Nat)
  | crash (worker : Nat)

variable (queue : Queue Row Outcome)

def row? (rows : List Row) (key : Nat) : Option Row :=
  rows.find? fun row => queue.key row = key

/-- What a sweep makes of a row. -/
def swept (selected : Row → Bool) (outcome : Outcome) (row : Row) : Row :=
  if selected row then
    match queue.settle outcome row with
    | .assign assigned => assigned
    | .leave | .raise => row
  else row

/-- What a worker is after it loaded its row, and what the row is. -/
def loads (outcome : Outcome) (worker : Worker Row Outcome) : Option Row → Worker Row Outcome
  | none => { worker with owes := false }
  | some row =>
      match queue.settle outcome row with
      | .leave => { worker with owes := false }
      | .raise => worker
      | .assign _ => { worker with loaded := some (row, outcome) }

/-- The rows after a settlement is committed. -/
def stores (loaded : Row) (outcome : Outcome) (key : Nat) (rows : List Row) : List Row :=
  match queue.settle outcome loaded with
  | .assign assigned =>
      Table.update (fun row => queue.key row == key) (queue.merge loaded assigned) rows
  | .leave | .raise => rows

/-- The session turns to something else. -/
def State.turn (state : State Row Outcome) (worker : Nat) (next : Option (Worker Row Outcome)) :
    State Row Outcome :=
  { state with workers := Function.update state.workers worker next }

def step (state : State Row Outcome) : Event Row Outcome → Option (State Row Outcome)
  | .insert row =>
      if (state.rows.all fun other => queue.key other ≠ queue.key row) && !queue.working row then
        some { state with rows := state.rows ++ [row] }
      else none
  | .remove key =>
      some { state with rows := state.rows.filter fun row => queue.key row ≠ key }
  | .sweep selected outcome =>
      some { state with rows := state.rows.map (queue.swept selected outcome) }
  | .claim worker key now =>
      if (state.workers worker).isNone then
        ((queue.row? state.rows key).filter (queue.eligible now)).map fun _ =>
          { state.turn worker (some ⟨key, true, none⟩) with
            rows := Table.update (fun row => queue.key row == key) (queue.claimed now) state.rows }
      else none
  | .visit worker key =>
      if (state.workers worker).isNone then some (state.turn worker (some ⟨key, false, none⟩))
      else none
  | .load worker outcome =>
      (state.workers worker).bind fun current =>
        if current.loaded.isNone then
          some (state.turn worker
            (some (queue.loads outcome current (queue.row? state.rows current.key))))
        else none
  | .store worker =>
      (state.workers worker).bind fun current =>
        current.loaded.map fun (loaded, outcome) =>
          { state.turn worker (some ⟨current.key, false, none⟩) with
            rows := queue.stores loaded outcome current.key state.rows }
  | .finish worker =>
      (state.workers worker).bind fun current =>
        if current.owes || current.loaded.isSome then none else some (state.turn worker none)
  | .crash worker => some (state.turn worker none)

/-! ## Stranded rows -/

/-- The steps in which the workers settle what they have claimed. -/
def settles : State Row Outcome → Event Row Outcome → Prop
  | _, .load _ _ | _, .store _ => True
  | _, _ => False

/-- A row in progress that nobody can claim again, and that no settlement of a worker moves
on. -/
def Stranded (state : State Row Outcome) (row : Row) : Prop :=
  row ∈ state.rows ∧ queue.working row = true ∧ (∀ now, queue.eligible now row = false) ∧
    ∀ later, Run queue.step settles state later →
      ∃ other ∈ later.rows, queue.key other = queue.key row ∧ queue.working other = true

/-- No worker crashes on the last attempt of its row, and no settlement that found the row
settled, with a lock left on it, releases the lock of a newer claim. -/
def careful (state : State Row Outcome) : Event Row Outcome → Prop
  | .crash worker => ∀ current, state.workers worker = some current → current.owes = true →
      ∀ row ∈ state.rows, queue.key row = current.key → queue.working row = true →
        queue.attempts row < queue.maxAttempts
  | .store worker => ∀ current loaded outcome, state.workers worker = some current →
      current.loaded = some (loaded, outcome) → queue.working loaded = false →
        ∀ row ∈ state.rows, queue.key row = current.key → queue.working row = true →
          queue.lockedAt loaded = none
  | _ => True

/-- A worker that will settle a row: it has not loaded it since its claim, or it has found
it in progress. -/
def Attends (state : State Row Outcome) (worker : Nat) (row : Row) : Prop :=
  ∃ current, state.workers worker = some current ∧ current.key = queue.key row ∧
    current.owes = true ∧ ∀ loaded outcome, current.loaded = some (loaded, outcome) →
      queue.working loaded = true ∧ ∃ assigned, queue.settle outcome loaded = .assign assigned

/-- Every row in progress is locked, and has attempts left or a worker. -/
structure Attended (state : State Row Outcome) : Prop where
  unique : Table.UniqueOn (fun row => some (queue.key row)) state.rows
  locked : ∀ row ∈ state.rows, queue.working row = true → queue.lockedAt row ≠ none
  attended : ∀ row ∈ state.rows, queue.working row = true →
    queue.attempts row < queue.maxAttempts ∨ ∃ worker, queue.Attends state worker row

variable {queue} {state after : State Row Outcome}

/-! ## Steps -/

theorem Attends.of_turn {worker other : Nat} {next : Option (Worker Row Outcome)} {row : Row}
    (attends : queue.Attends state other row) (different : other ≠ worker) :
    queue.Attends (state.turn worker next) other row := by
  obtain ⟨current, works, facts⟩ := attends
  exact ⟨current, (Function.update_of_ne different _ _).trans works, facts⟩

/-- A session without work attends to nothing. -/
theorem Attends.ne_of_none {worker other : Nat} {row : Row}
    (attends : queue.Attends state other row) (free : state.workers worker = none) :
    other ≠ worker := by
  rintro rfl
  obtain ⟨current, works, _⟩ := attends
  rw [free] at works
  cases works

theorem swept_cases (selected : Row → Bool) (outcome : Outcome) (row : Row) :
    queue.key (queue.swept selected outcome row) = queue.key row ∧
      (queue.working (queue.swept selected outcome row) = false ∨
        queue.swept selected outcome row = row) := by
  unfold swept
  split
  · cases settled : queue.settle outcome row with
    | assign assigned =>
        exact ⟨queue.assigned_key _ _ _ settled, Or.inl (queue.assigned_settled _ _ _ settled)⟩
    | leave | raise => exact ⟨rfl, Or.inr rfl⟩
  · exact ⟨rfl, Or.inr rfl⟩

namespace Attended

theorem insert {row : Row} (attended : queue.Attended state)
    (isNew : ∀ other ∈ state.rows, queue.key other ≠ queue.key row)
    (notWorking : queue.working row = false) :
    queue.Attended { state with rows := state.rows ++ [row] } := by
  have isOld : ∀ other ∈ state.rows ++ [row], queue.working other = true → other ∈ state.rows := by
    intro other otherMem works
    rcases List.mem_append.mp otherMem with oldMem | newMem
    · exact oldMem
    · rw [List.mem_singleton.mp newMem, notWorking] at works
      cases works
  constructor
  · exact attended.unique.append isNew
  · exact fun other otherMem works => attended.locked other (isOld other otherMem works) works
  · exact fun other otherMem works => attended.attended other (isOld other otherMem works) works

theorem remove (attended : queue.Attended state) (key : Nat) :
    queue.Attended { state with rows := state.rows.filter fun row => queue.key row ≠ key } where
  unique := attended.unique.filter _
  locked := fun row rowMem => attended.locked row (List.mem_of_mem_filter rowMem)
  attended := fun row rowMem => attended.attended row (List.mem_of_mem_filter rowMem)

theorem sweep (attended : queue.Attended state) (selected : Row → Bool) (outcome : Outcome) :
    queue.Attended { state with rows := state.rows.map (queue.swept selected outcome) } := by
  have isOld : ∀ other ∈ state.rows.map (queue.swept selected outcome),
      queue.working other = true → other ∈ state.rows := by
    intro other otherMem works
    obtain ⟨row, rowMem, rfl⟩ := List.mem_map.mp otherMem
    rcases (swept_cases selected outcome row).2 with settled | same
    · rw [settled] at works
      cases works
    · rw [same]
      exact rowMem
  constructor
  · have sameKeys : queue.key ∘ queue.swept selected outcome = queue.key :=
      funext fun row => (swept_cases selected outcome row).1
    have unique := attended.unique
    rw [Table.UniqueOn, ← Function.comp_def some queue.key, List.filterMap_eq_map] at unique ⊢
    rw [List.map_map, sameKeys]
    exact unique
  · exact fun other otherMem works => attended.locked other (isOld other otherMem works) works
  · exact fun other otherMem works => attended.attended other (isOld other otherMem works) works

theorem claim {worker key : Nat} {now : Int} (attended : queue.Attended state)
    (free : state.workers worker = none) :
    queue.Attended { state.turn worker (some ⟨key, true, none⟩) with
      rows := Table.update (fun row => queue.key row == key) (queue.claimed now) state.rows } := by
  constructor
  · exact attended.unique.update _ fun row => queue.claimed_key now row
  · intro row rowMem isWorking
    rcases Table.mem_update_cases rowMem with ⟨old, _, _, rfl⟩ | ⟨oldMem, _⟩
    · rw [queue.claimed_locked]
      exact Option.some_ne_none now
    · exact attended.locked row oldMem isWorking
  · intro row rowMem isWorking
    rcases Table.mem_update_cases rowMem with ⟨old, _, isKey, rfl⟩ | ⟨oldMem, _⟩
    · apply Or.inr
      refine ⟨worker, ⟨key, true, none⟩, Function.update_self _ _ _, ?_, rfl, ?_⟩
      · rw [queue.claimed_key]
        exact (beq_iff_eq.mp isKey).symm
      · intro loaded outcome isLoaded
        cases isLoaded
    · rcases attended.attended row oldMem isWorking with left | ⟨other, attends⟩
      · exact Or.inl left
      · exact Or.inr ⟨other, attends.of_turn (attends.ne_of_none free)⟩

/-- The session that turns does not attend to a row that has no attempts left. -/
theorem turn {worker : Nat} {next : Option (Worker Row Outcome)} (attended : queue.Attended state)
    (keeps : ∀ row ∈ state.rows, queue.working row = true → queue.Attends state worker row →
      queue.attempts row < queue.maxAttempts ∨ queue.Attends (state.turn worker next) worker row) :
    queue.Attended (state.turn worker next) where
  unique := attended.unique
  locked := attended.locked
  attended := by
    intro row rowMem works
    rcases attended.attended row rowMem works with left | ⟨other, attends⟩
    · exact Or.inl left
    · by_cases same : other = worker
      · subst same
        exact (keeps row rowMem works attends).imp_right fun still => ⟨other, still⟩
      · exact Or.inr ⟨other, attends.of_turn same⟩

theorem load {worker : Nat} {outcome : Outcome} {current : Worker Row Outcome}
    (attended : queue.Attended state) (works : state.workers worker = some current)
    (notLoaded : current.loaded = none) :
    queue.Attended (state.turn worker
      (some (queue.loads outcome current (queue.row? state.rows current.key)))) := by
  apply attended.turn
  rintro row rowMem isWorking ⟨attending, attendingWorks, sameKey, owes, _⟩
  cases works.symm.trans attendingWorks
  have found : queue.row? state.rows current.key = some row := by
    rw [sameKey]
    exact attended.unique.find?_eq_some rowMem
  apply Or.inr
  rw [found]
  cases settled : queue.settle outcome row with
  | leave =>
      rw [queue.leave_settled outcome row settled] at isWorking
      cases isWorking
  | raise =>
      refine ⟨current, ?_, sameKey, owes, ?_⟩
      · simp only [State.turn, Function.update_self, loads, settled]
      · intro loaded other isLoaded
        rw [notLoaded] at isLoaded
        cases isLoaded
  | assign assigned =>
      refine ⟨{ current with loaded := some (row, outcome) }, ?_, sameKey, owes, ?_⟩
      · simp only [State.turn, Function.update_self, loads, settled]
      · intro loaded other isLoaded
        cases isLoaded
        exact ⟨isWorking, assigned, settled⟩

theorem store {worker : Nat} {outcome : Outcome} {current : Worker Row Outcome} {loaded : Row}
    (attended : queue.Attended state) (works : state.workers worker = some current)
    (isLoaded : current.loaded = some (loaded, outcome))
    (careful : queue.working loaded = false → ∀ row ∈ state.rows, queue.key row = current.key →
      queue.working row = true → queue.lockedAt loaded = none) :
    queue.Attended { state.turn worker (some ⟨current.key, false, none⟩) with
      rows := queue.stores loaded outcome current.key state.rows } := by
  have attending : ∀ {row}, queue.Attends state worker row → queue.key row = current.key ∧
      queue.working loaded = true ∧ ∃ assigned, queue.settle outcome loaded = .assign assigned := by
    rintro row ⟨attending, attendingWorks, sameKey, _, finds⟩
    cases works.symm.trans attendingWorks
    exact ⟨sameKey.symm, finds loaded outcome isLoaded⟩
  cases settled : queue.settle outcome loaded with
  | leave | raise =>
      have turned : queue.Attended (state.turn worker (some ⟨current.key, false, none⟩)) := by
        apply attended.turn
        intro row _ _ attends
        obtain ⟨_, _, assigned, isAssigned⟩ := attending attends
        cases settled.symm.trans isAssigned
      simp only [stores, settled]
      exact turned
  | assign assigned =>
      simp only [stores, settled]
      have notWorking := queue.assigned_settled _ _ _ settled
      constructor
      · exact attended.unique.update _ fun row => queue.merge_key loaded assigned row
      · intro row rowMem isWorking
        rcases Table.mem_update_cases rowMem with ⟨old, oldMem, isKey, rfl⟩ | ⟨oldMem, _⟩
        · obtain ⟨oldWorking, loadedSettled⟩ := queue.merge_working _ _ _ notWorking isWorking
          have unlocked := careful loadedSettled old oldMem (beq_iff_eq.mp isKey) oldWorking
          rw [queue.merge_locked _ _ _ _ settled unlocked]
          exact attended.locked old oldMem oldWorking
        · exact attended.locked row oldMem isWorking
      · intro row rowMem isWorking
        rcases Table.mem_update_cases rowMem with ⟨old, oldMem, _, rfl⟩ | ⟨oldMem, notKey⟩
        · obtain ⟨oldWorking, loadedSettled⟩ := queue.merge_working _ _ _ notWorking isWorking
          rcases attended.attended old oldMem oldWorking with left | ⟨other, attends⟩
          · exact Or.inl (lt_of_le_of_lt (queue.merge_attempts _ _ _ _ settled) left)
          · have different : other ≠ worker := by
              rintro rfl
              rw [(attending attends).2.1] at loadedSettled
              cases loadedSettled
            obtain ⟨attendant, attendantWorks, sameKey, facts⟩ := attends.of_turn different
            refine Or.inr ⟨other, attendant, attendantWorks, ?_, facts⟩
            rw [queue.merge_key]
            exact sameKey
        · rcases attended.attended row oldMem isWorking with left | ⟨other, attends⟩
          · exact Or.inl left
          · have different : other ≠ worker := by
              rintro rfl
              rw [(attending attends).1, beq_self_eq_true] at notKey
              cases notKey
            exact Or.inr ⟨other, attends.of_turn different⟩

end Attended

/-- A careful step leaves no row in progress without attempts and without a worker. -/
theorem Attended.step {event : Event Row Outcome} (attended : queue.Attended state)
    (careful : queue.careful state event) (stepped : queue.step state event = some after) :
    queue.Attended after := by
  cases event with
  | insert row =>
      simp only [Queue.step] at stepped
      split at stepped
      · rename_i permitted
        cases stepped
        simp only [Bool.and_eq_true, List.all_eq_true, decide_eq_true_eq,
          Bool.not_eq_true'] at permitted
        exact attended.insert permitted.1 permitted.2
      · cases stepped
  | remove key =>
      cases stepped
      exact attended.remove key
  | sweep selected outcome =>
      cases stepped
      exact attended.sweep selected outcome
  | claim worker key now =>
      simp only [Queue.step] at stepped
      split at stepped
      · rename_i free
        rw [Option.map_eq_some_iff] at stepped
        obtain ⟨_, _, rfl⟩ := stepped
        exact attended.claim (Option.isNone_iff_eq_none.mp free)
      · cases stepped
  | visit worker key =>
      simp only [Queue.step] at stepped
      split at stepped
      · rename_i free
        cases stepped
        apply attended.turn
        intro row _ _ attends
        exact absurd rfl (attends.ne_of_none (Option.isNone_iff_eq_none.mp free))
      · cases stepped
  | load worker outcome =>
      simp only [Queue.step, Option.bind_eq_some_iff] at stepped
      obtain ⟨current, works, stepped⟩ := stepped
      split at stepped
      · rename_i notLoaded
        cases stepped
        exact attended.load works (Option.isNone_iff_eq_none.mp notLoaded)
      · cases stepped
  | store worker =>
      simp only [Queue.step, Option.bind_eq_some_iff, Option.map_eq_some_iff] at stepped
      obtain ⟨current, works, ⟨loaded, outcome⟩, isLoaded, rfl⟩ := stepped
      exact attended.store works isLoaded (careful current loaded outcome works isLoaded)
  | finish worker =>
      simp only [Queue.step, Option.bind_eq_some_iff] at stepped
      obtain ⟨current, works, stepped⟩ := stepped
      split at stepped
      · cases stepped
      · rename_i done
        cases stepped
        apply attended.turn
        rintro row _ _ ⟨attending, attendingWorks, _, owes, _⟩
        cases works.symm.trans attendingWorks
        simp [owes] at done
  | crash worker =>
      cases stepped
      apply attended.turn
      rintro row rowMem isWorking ⟨current, works, sameKey, owes, _⟩
      exact Or.inl (careful current works owes row rowMem sameKey.symm isWorking)

/-! ## Settling -/

/-- The commit of a settlement that found its row in progress settles it. -/
theorem settles_of_store {worker : Nat} {current : Worker Row Outcome} {loaded assigned : Row}
    {outcome : Outcome} (works : state.workers worker = some current)
    (isLoaded : current.loaded = some (loaded, outcome)) (wasWorking : queue.working loaded = true)
    (settled : queue.settle outcome loaded = .assign assigned) :
    ∃ later, queue.step state (.store worker) = some later ∧
      ∀ row ∈ later.rows, queue.key row = current.key → queue.working row = false := by
  have stores : queue.step state (.store worker) = some
      { state.turn worker (some ⟨current.key, false, none⟩) with
        rows := queue.stores loaded outcome current.key state.rows } := by
    simp only [Queue.step, works, isLoaded, Option.bind_some, Option.map_some]
  refine ⟨_, stores, ?_⟩
  intro row rowMem sameKey
  simp only [Queue.stores, settled] at rowMem
  rcases Table.mem_update_cases rowMem with ⟨old, _, _, rfl⟩ | ⟨_, notKey⟩
  · have notWorking := queue.assigned_settled _ _ _ settled
    by_contra isWorking
    rw [(queue.merge_working _ _ _ notWorking (Bool.not_eq_false _ |>.mp isWorking)).2] at wasWorking
    cases wasWorking
  · rw [sameKey, beq_self_eq_true] at notKey
    cases notKey

/-- A worker that attends to a row can settle it. -/
theorem Attends.settles {worker : Nat} {row : Row} (attended : queue.Attended state)
    (rowMem : row ∈ state.rows) (isWorking : queue.working row = true)
    (attends : queue.Attends state worker row) :
    ∃ later, Run queue.step settles state later ∧
      ∀ other ∈ later.rows, queue.key other = queue.key row → queue.working other = false := by
  obtain ⟨current, works, sameKey, owes, finds⟩ := attends
  cases isLoaded : current.loaded with
  | some pair =>
      obtain ⟨loaded, outcome⟩ := pair
      obtain ⟨wasWorking, assigned, settled⟩ := finds loaded outcome isLoaded
      obtain ⟨later, stores, settles⟩ := settles_of_store works isLoaded wasWorking settled
      have stored : Run queue.step Queue.settles state later :=
        Run.tail Run.refl (show Queue.settles state (.store worker) from trivial) stores
      exact ⟨later, stored, sameKey ▸ settles⟩
  | none =>
      obtain ⟨outcome, assigned, settled⟩ := queue.can_settle row isWorking
      have found : queue.row? state.rows current.key = some row := by
        rw [sameKey]
        exact attended.unique.find?_eq_some rowMem
      have loads : queue.step state (.load worker outcome) = some (state.turn worker
          (some { current with loaded := some (row, outcome) })) := by
        simp only [Queue.step, works, Option.bind_some, isLoaded, Option.isNone_none, if_true,
          found, Queue.loads, settled]
      set middle := state.turn worker (some { current with loaded := some (row, outcome) })
      have middleWorks : middle.workers worker =
          some { current with loaded := some (row, outcome) } := Function.update_self _ _ _
      obtain ⟨later, stores, settles⟩ := settles_of_store middleWorks rfl isWorking settled
      have loaded : Run queue.step Queue.settles state middle :=
        Run.tail Run.refl (show Queue.settles state (.load worker outcome) from trivial) loads
      have stored : Run queue.step Queue.settles state later :=
        Run.tail loaded (show Queue.settles middle (.store worker) from trivial) stores
      exact ⟨later, stored, sameKey ▸ settles⟩

/-- Under a condition on the steps, nothing is stranded in any state that is reached from a
table without rows in progress. -/
def StrandsNothing (queue : Queue Row Outcome)
    (condition : State Row Outcome → Event Row Outcome → Prop) : Prop :=
  ∀ initial later, Table.UniqueOn (fun row => some (queue.key row)) initial.rows →
    (∀ row ∈ initial.rows, queue.working row = false) → Run queue.step condition initial later →
      ∀ row, ¬queue.Stranded later row

/-- Careful workers strand nothing. -/
theorem strandsNothing_careful (queue : Queue Row Outcome) : StrandsNothing queue queue.careful := by
  intro initial later unique nothing run row
  have initially : queue.Attended initial := by
    constructor
    · exact unique
    · intro row rowMem isWorking
      rw [nothing row rowMem] at isWorking
      cases isWorking
    · intro row rowMem isWorking
      rw [nothing row rowMem] at isWorking
      cases isWorking
  have attended : queue.Attended later :=
    run.invariant queue.Attended (fun _ _ _ before careful stepped => before.step careful stepped)
      initially
  rintro ⟨rowMem, isWorking, neverEligible, neverSettled⟩
  rcases attended.attended row rowMem isWorking with left | ⟨worker, attends⟩
  · obtain ⟨locked, isLocked⟩ := Option.ne_none_iff_exists'.mp
      (attended.locked row rowMem isWorking)
    obtain ⟨now, eligible⟩ := queue.eligible_again row locked isWorking isLocked left
    rw [neverEligible now] at eligible
    cases eligible
  · obtain ⟨next, run, settled⟩ := attends.settles attended rowMem isWorking
    obtain ⟨other, otherMem, sameKey, stillWorking⟩ := neverSettled next run
    rw [settled other otherMem sameKey] at stillWorking
    cases stillWorking

/-! ## Crashes on every attempt -/

/-- Where nobody works, a row in progress that nobody can claim again is stranded. -/
theorem stranded_of_idle {rows : List Row} {row : Row} (rowMem : row ∈ rows)
    (isWorking : queue.working row = true) (neverEligible : ∀ now, queue.eligible now row = false) :
    queue.Stranded (idle rows) row := by
  refine ⟨rowMem, isWorking, neverEligible, ?_⟩
  intro later run
  have same : later = idle rows := by
    induction run with
    | refl => rfl
    | @tail middle target event _ allowed stepped ih =>
        subst ih
        cases event with
        | load | store => cases stepped
        | _ => cases allowed
  rw [same]
  exact ⟨row, rowMem, rfl, isWorking⟩

/-- A worker claims a row and crashes. -/
theorem run_of_crash {row : Row} {now : Int} (eligible : queue.eligible now row = true) :
    Run queue.step (fun _ _ => True) (idle [row]) (idle [queue.claimed now row]) := by
  have found : queue.row? [row] (queue.key row) = some row := by
    simp [row?]
  have changed : Table.update (fun other => queue.key other == queue.key row) (queue.claimed now)
      [row] = [queue.claimed now row] := by
    simp [Table.update]
  have claims : queue.step (idle [row]) (.claim 0 (queue.key row) now) = some
      ⟨[queue.claimed now row], Function.update (fun _ => none) 0
        (some ⟨queue.key row, true, none⟩)⟩ := by
    simp only [Queue.step, idle, State.turn, found, changed, Option.isNone_none, if_true,
      Option.filter_some, eligible, Option.map_some]
  have crashes : queue.step ⟨[queue.claimed now row], Function.update (fun _ => none) 0
      (some ⟨queue.key row, true, none⟩)⟩ (.crash 0) = some (idle [queue.claimed now row]) := by
    simp only [Queue.step, State.turn, Function.update_idem, Function.update_eq_self, idle]
  have claimed : Run queue.step (fun _ _ => True) (idle [row]) _ := Run.tail Run.refl trivial claims
  exact Run.tail claimed trivial crashes

/-- A row whose workers all crash is stranded in the end. -/
theorem exists_stranded {row : Row} {now : Int} (eligible : queue.eligible now row = true) :
    ∃ later other, Run queue.step (fun _ _ => True) (idle [row]) later ∧
      queue.Stranded later other := by
  obtain ⟨left, left_eq⟩ : ∃ left, queue.maxAttempts = queue.attempts row + 1 + left :=
    Nat.exists_eq_add_of_le (queue.within_attempts now row eligible)
  induction left generalizing row now with
  | zero =>
      refine ⟨_, _, run_of_crash eligible, stranded_of_idle (List.mem_singleton.mpr rfl)
        (queue.claimed_working now row) ?_⟩
      intro later
      by_contra isEligible
      have within := queue.within_attempts later _ (Bool.not_eq_false _ |>.mp isEligible)
      rw [queue.claimed_attempts] at within
      omega
  | succ left ih =>
      have attempts := queue.claimed_attempts now row
      obtain ⟨later, eligibleAgain⟩ := queue.eligible_again (queue.claimed now row) now
        (queue.claimed_working now row) (queue.claimed_locked now row) (by omega)
      obtain ⟨last, other, run, stranded⟩ := ih eligibleAgain (by omega)
      exact ⟨last, other, (run_of_crash eligible).trans run, stranded⟩

theorem not_strandsNothing (row : Row) (now : Int) (notWorking : queue.working row = false)
    (eligible : queue.eligible now row = true) : ¬StrandsNothing queue fun _ _ => True := by
  intro strandsNothing
  obtain ⟨later, other, run, stranded⟩ := exists_stranded eligible
  apply strandsNothing (idle [row]) later _ _ run other stranded
  · exact List.nodup_singleton _
  · intro only onlyMem
    rw [List.mem_singleton.mp onlyMem]
    exact notWorking

end Queue

end DotBackend.Transaction
