import DotBackend.Apps.Schema

/-!
# The journal of a build

What the queue is for, without its table: a job is queued, claimed at most three times,
and settled by the worker of its last claim. A journal lists what happened to a job,
newest first; the phases that it can reach say the rest.
-/

namespace DotBackend.Apps

/-- What can happen to a job. -/
inductive Change
  | queued
  | claimed (worker : String) (attempt : Nat)
  | requeued (worker : String) (attempt : Nat)
  | succeeded (worker : String) (attempt : Nat)
  | failed (worker : String) (attempt : Nat)
  | terminalized
  | archived
  deriving DecidableEq

/-- The worker and the attempt of a settlement. -/
def Change.settledBy : Change → Option (String × Nat)
  | .requeued worker attempt | .succeeded worker attempt | .failed worker attempt =>
      some (worker, attempt)
  | _ => none

/-- The attempt of a claim. -/
def Change.claimAttempt : Change → Option Nat
  | .claimed _ attempt => some attempt
  | _ => none

/-- Where a job stands after so many claims. -/
inductive Phase
  | queued (attempts : Nat)
  | claimed (worker : String) (attempts : Nat)
  | succeeded (attempts : Nat)
  | failed (attempts : Nat)
  deriving DecidableEq

namespace Phase

def attempts : Phase → Nat
  | .queued attempts | .claimed _ attempts | .succeeded attempts | .failed attempts => attempts

def isFinal : Phase → Bool
  | .succeeded _ | .failed _ => true
  | _ => false

/-- A claim is the next attempt and one of the first three; a settlement is by the worker
of the last claim; only a job that was claimed three times is given up. -/
def next : Phase → Change → Option Phase
  | .queued attempts, .claimed worker attempt | .claimed _ attempts, .claimed worker attempt =>
      if attempt = attempts + 1 ∧ attempts < 3 then some (.claimed worker attempt) else none
  | .claimed worker attempts, .requeued settler attempt =>
      if settler = worker ∧ attempt = attempts ∧ attempts < 3 then some (.queued attempts) else none
  | .claimed worker attempts, .succeeded settler attempt =>
      if settler = worker ∧ attempt = attempts then some (.succeeded attempts) else none
  | .claimed worker attempts, .failed settler attempt =>
      if settler = worker ∧ attempt = attempts then some (.failed attempts) else none
  | .queued attempts, .terminalized | .claimed _ attempts, .terminalized =>
      if 3 ≤ attempts then some (.failed attempts) else none
  | .queued attempts, .archived | .claimed _ attempts, .archived => some (.failed attempts)
  | _, _ => none

theorem next_of_isFinal {phase : Phase} (isFinal : phase.isFinal = true) (change : Change) :
    phase.next change = none := by
  cases phase with
  | queued attempts | claimed worker attempts => cases isFinal
  | succeeded attempts | failed attempts => cases change <;> rfl

/-- A claim raises the attempts by one, to at most three; every other change keeps them. -/
theorem attempts_next {phase reached : Phase} {change : Change}
    (goes : phase.next change = some reached) :
    (∃ worker, change = .claimed worker (phase.attempts + 1) ∧
        reached = .claimed worker (phase.attempts + 1) ∧ phase.attempts < 3) ∨
      (change.claimAttempt = none ∧ reached.attempts = phase.attempts ∧
        ∀ worker attempt, reached ≠ .claimed worker attempt) := by
  cases phase <;> cases change <;> simp only [next, reduceCtorEq] at goes
  all_goals
    first
      | (split at goes
         · cases goes
           grind [Change.claimAttempt, attempts]
         · cases goes)
      | (cases goes
         grind [Change.claimAttempt, attempts])

/-- Only the worker of the claim settles it. -/
theorem claimed_of_settles {phase reached : Phase} {change : Change} {worker : String}
    {attempt : Nat} (goes : phase.next change = some reached)
    (settles : change.settledBy = some (worker, attempt)) : phase = .claimed worker attempt := by
  cases phase <;> cases change <;> simp only [next, reduceCtorEq] at goes
  all_goals
    first
      | (split at goes
         · cases settles
           grind
         · cases goes)
      | cases settles

end Phase

/-- The phase that a journal reaches. -/
def phaseOf : List Change → Option Phase
  | [] => none
  | [.queued] => some (.queued 0)
  | change :: earlier => (phaseOf earlier).bind fun phase => phase.next change

/-- The first change is the queuing, and every other one continues from a phase. -/
theorem phaseOf_cons {change : Change} {earlier : List Change} {phase : Phase}
    (reached : phaseOf (change :: earlier) = some phase) :
    (change = .queued ∧ earlier = [] ∧ phase = .queued 0) ∨
      ∃ previous, phaseOf earlier = some previous ∧ previous.next change = some phase := by
  rw [phaseOf.eq_def] at reached
  split at reached
  · cases reached
  · rename_i starts
    cases starts
    cases reached
    exact Or.inl ⟨rfl, rfl, rfl⟩
  · rename_i continues
    cases continues
    exact Or.inr (Option.bind_eq_some_iff.mp reached)

/-- A phase that a journal reached goes on. -/
theorem phaseOf_of_next {change : Change} {earlier : List Change} {previous phase : Phase}
    (reached : phaseOf earlier = some previous) (goes : previous.next change = some phase) :
    phaseOf (change :: earlier) = some phase := by
  cases earlier with
  | nil => cases reached
  | cons first rest =>
      rw [phaseOf.eq_def]
      simp only [reached, Option.bind_some, goes]

/-- A job in a worker's hands was claimed last. -/
theorem last_claim {history : List Change} {worker : String} {attempt : Nat}
    (reached : phaseOf history = some (.claimed worker attempt)) :
    ∃ earlier, history = .claimed worker attempt :: earlier := by
  cases history with
  | nil => cases reached
  | cons change earlier =>
      rcases phaseOf_cons reached with ⟨_, _, starts⟩ | ⟨previous, _, goes⟩
      · cases starts
      · rcases Phase.attempts_next goes with ⟨claimer, change_eq, phase_eq, _⟩ | ⟨_, _, notClaimed⟩
        · cases phase_eq
          exact ⟨earlier, by rw [change_eq]⟩
        · exact absurd rfl (notClaimed worker attempt)

/-- Nothing happens to a job that succeeded. -/
theorem succeeded_last {history : List Change} {phase : Phase} {worker : String} {attempt : Nat}
    (reached : phaseOf history = some phase) (succeeded : .succeeded worker attempt ∈ history) :
    (∃ earlier, history = .succeeded worker attempt :: earlier) ∧
      ∃ attempts, phase = .succeeded attempts := by
  induction history generalizing phase with
  | nil => cases succeeded
  | cons change earlier ih =>
      rcases phaseOf_cons reached with ⟨rfl, rfl, _⟩ | ⟨previous, before, goes⟩
      · simp at succeeded
      · rcases List.mem_cons.mp succeeded with rfl | happened
        · have settled := Phase.claimed_of_settles goes rfl
          rw [settled] at goes
          simp only [Phase.next, and_self, if_true, Option.some.injEq] at goes
          exact ⟨⟨earlier, rfl⟩, attempt, goes.symm⟩
        · rcases (ih before happened).2 with ⟨attempts, rfl⟩
          rw [Phase.next_of_isFinal rfl] at goes
          cases goes

/-- The claims of a job are its first, second and third attempt. -/
theorem claims_of_phaseOf {history : List Change} {phase : Phase}
    (reached : phaseOf history = some phase) :
    phase.attempts ≤ 3 ∧
      history.filterMap Change.claimAttempt = (List.range' 1 phase.attempts).reverse := by
  induction history generalizing phase with
  | nil => cases reached
  | cons change earlier ih =>
      rcases phaseOf_cons reached with ⟨rfl, rfl, rfl⟩ | ⟨previous, before, goes⟩
      · exact ⟨Nat.zero_le 3, rfl⟩
      · obtain ⟨atMost, claims⟩ := ih before
        rcases Phase.attempts_next goes with
          ⟨worker, rfl, rfl, fewer⟩ | ⟨noClaim, sameAttempts, _⟩
        · constructor
          · exact fewer
          · have isClaim : (Change.claimed worker (previous.attempts + 1)).claimAttempt =
                some (previous.attempts + 1) := rfl
            rw [List.filterMap_cons_some isClaim, claims]
            change _ = (List.range' 1 (previous.attempts + 1)).reverse
            rw [List.range'_concat, List.reverse_append]
            simp [Nat.add_comm]
        · rw [List.filterMap_cons_none noClaim, sameAttempts]
          exact ⟨atMost, claims⟩

end DotBackend.Apps
