import DotBackend.Data.Result
import DotBackend.Transaction.ReadCommitted

/-!
# Programs of transactions

A program is the code of a transaction as the database sees it: statements that read,
writes that a constraint may refuse, and savepoints around insertions whose refusal the
code handles. One program has two meanings. Run alone it is a function of the database;
run by a session among others it is a protocol whose statements read what is committed
when they are reached, over the writes of the session itself, and whose writes become
visible together at its commit.

The rule for sessions is about invariants of the database: a program that keeps an
invariant, whatever it reads of databases in which the invariant holds, keeps it among
any others that do so.
-/

namespace DotBackend.Transaction

open Data
open Transition

variable {σ ρ τ ε α β ι : Type}

/-- A write: the rows it locks, whether a constraint refuses it, and what it does. -/
structure Write (σ ρ : Type) where
  rows : List ρ
  refused : σ → Bool
  apply : σ → σ

namespace Write

/-- Make writes in order; one that a constraint refuses fails. -/
def replay : List (Write σ ρ) → σ → Option σ
  | [], database => some database
  | write :: later, database =>
      if write.refused database then none else replay later (write.apply database)

@[simp]
theorem replay_nil (database : σ) : replay ([] : List (Write σ ρ)) database = some database :=
  rfl

theorem replay_append (first later : List (Write σ ρ)) (database : σ) :
    replay (first ++ later) database = (replay first database).bind (replay later) := by
  induction first generalizing database with
  | nil => rfl
  | cons write first ih =>
      rw [List.cons_append, replay, replay]
      split
      · rfl
      · exact ih _

theorem replay_singleton (write : Write σ ρ) (database : σ) :
    replay [write] database =
      if write.refused database then none else some (write.apply database) :=
  rfl

/-- A write that is not refused leaves the invariant true. -/
def Preserves (Invariant : σ → Prop) (write : Write σ ρ) : Prop :=
  ∀ database, Invariant database → write.refused database = false →
    Invariant (write.apply database)

theorem preserve_append {Invariant : σ → Prop} {writes : List (Write σ ρ)} {write : Write σ ρ}
    (preserve : ∀ other ∈ writes, Preserves Invariant other) (last : Preserves Invariant write) :
    ∀ other ∈ writes ++ [write], Preserves Invariant other := by
  intro other otherMem
  rcases List.mem_append.mp otherMem with old | new
  · exact preserve other old
  · rw [List.mem_singleton.mp new]
    exact last

theorem replay_preserves {Invariant : σ → Prop} {writes : List (Write σ ρ)} {database view : σ}
    (preserve : ∀ write ∈ writes, Preserves Invariant write) (initially : Invariant database)
    (replayed : replay writes database = some view) : Invariant view := by
  induction writes generalizing database with
  | nil =>
      cases replayed
      exact initially
  | cons write later ih =>
      rw [replay] at replayed
      split at replayed
      · cases replayed
      · rename_i notRefused
        have afterWrite : Invariant (write.apply database) :=
          preserve write List.mem_cons_self database initially (Bool.not_eq_true _ |>.mp notRefused)
        exact ih
          (fun other otherMem => preserve other (List.mem_cons_of_mem write otherMem))
          afterWrite replayed

end Write

/-- The code of a transaction. -/
inductive Program (σ ρ τ ε α : Type)
  /-- Return, or raise. -/
  | done (result : Except ε α)
  /-- Run a statement that reads. -/
  | select (statement : τ) (next : σ → Program σ ρ τ ε α)
  /-- Write; a refusal fails the transaction. -/
  | write (write : Write σ ρ) (next : Program σ ρ τ ε α)
  /-- Write inside a savepoint, and see whether it was refused. -/
  | insert (write : Write σ ρ) (next : Bool → Program σ ρ τ ε α)

namespace Program

/-! ## Sequencing -/

/-- Go on after a return. -/
def andThen (rest : α → Program σ ρ τ ε β) : Program σ ρ τ ε α → Program σ ρ τ ε β
  | .done (.ok a) => rest a
  | .done (.error error) => .done (.error error)
  | .select statement next => .select statement fun view => (next view).andThen rest
  | .write change next => .write change (next.andThen rest)
  | .insert change next => .insert change fun inserted => (next inserted).andThen rest

instance : Monad (Program σ ρ τ ε) where
  pure a := .done (.ok a)
  bind program rest := program.andThen rest

/-- `raise`. -/
def raise (error : ε) : Program σ ρ τ ε α :=
  .done (.error error)

/-- What the code computes without the database. -/
def lift (result : Except ε α) : Program σ ρ τ ε α :=
  .done result

/-- Read by a statement. -/
def query (statement : τ) (read : σ → α) : Program σ ρ τ ε α :=
  .select statement fun view => .done (.ok (read view))

/-- Write without handling a refusal. -/
def execute (change : Write σ ρ) : Program σ ρ τ ε Unit :=
  .write change (.done (.ok ()))

/-- Write inside a savepoint: whether the constraints permitted it. -/
def savepoint (change : Write σ ρ) : Program σ ρ τ ε Bool :=
  .insert change fun inserted => .done (.ok inserted)

/-- `except error: raise other`. -/
def mapError (convert : ε → ε) : Program σ ρ τ ε α → Program σ ρ τ ε α
  | .done result => .done (result.mapError convert)
  | .select statement next => .select statement fun view => (next view).mapError convert
  | .write change next => .write change (next.mapError convert)
  | .insert change next => .insert change fun inserted => (next inserted).mapError convert

/-! ## A transaction on its own -/

/-- The result of a transaction that no other one interleaves with, and the database it
leaves. -/
def alone (refusal : ε) : Program σ ρ τ ε α → σ → Except ε (α × σ)
  | .done result, database => result.map fun a => (a, database)
  | .select _ next, database => (next database).alone refusal database
  | .write change next, database =>
      if change.refused database then .error refusal
      else next.alone refusal (change.apply database)
  | .insert change next, database =>
      if change.refused database then (next false).alone refusal database
      else (next true).alone refusal (change.apply database)

section Alone

variable {refusal : ε} {database : σ}

@[simp]
theorem alone_pure (a : α) :
    (pure a : Program σ ρ τ ε α).alone refusal database = .ok (a, database) :=
  rfl

@[simp]
theorem alone_raise (error : ε) :
    (raise error : Program σ ρ τ ε α).alone refusal database = .error error :=
  rfl

@[simp]
theorem alone_lift (result : Except ε α) :
    (lift result : Program σ ρ τ ε α).alone refusal database =
      result.map fun a => (a, database) :=
  rfl

@[simp]
theorem alone_query (statement : τ) (read : σ → α) :
    (query statement read : Program σ ρ τ ε α).alone refusal database =
      .ok (read database, database) :=
  rfl

@[simp]
theorem alone_execute (change : Write σ ρ) :
    (execute change : Program σ ρ τ ε Unit).alone refusal database =
      if change.refused database then .error refusal else .ok ((), change.apply database) :=
  rfl

@[simp]
theorem alone_savepoint (change : Write σ ρ) :
    (savepoint change : Program σ ρ τ ε Bool).alone refusal database =
      if change.refused database then .ok (false, database)
      else .ok (true, change.apply database) :=
  rfl

/-- One piece of code after another. -/
@[simp]
theorem alone_bind (program : Program σ ρ τ ε α) (rest : α → Program σ ρ τ ε β) :
    (program >>= rest).alone refusal database =
      program.alone refusal database >>= fun reached => (rest reached.1).alone refusal reached.2 := by
  change (program.andThen rest).alone refusal database = _
  induction program generalizing database with
  | done result =>
      cases result with
      | error error => rfl
      | ok a => rfl
  | select statement next ih =>
      exact ih database
  | write change next ih =>
      simp only [andThen, alone]
      split
      · rfl
      · exact ih
  | insert change next ih =>
      simp only [andThen, alone]
      split
      · exact ih false
      · exact ih true

@[simp]
theorem alone_mapError (program : Program σ ρ τ ε α) (convert : ε → ε) {result : α × σ} :
    (program.mapError convert).alone refusal database = .ok result ↔
      program.alone refusal database = .ok result := by
  induction program generalizing database with
  | done outcome =>
      cases outcome with
      | error error =>
          constructor
          · rintro ⟨⟩
          · rintro ⟨⟩
      | ok a => rfl
  | select statement next ih =>
      exact ih database
  | write change next ih =>
      simp only [mapError, alone]
      split
      · rfl
      · exact ih
  | insert change next ih =>
      simp only [mapError, alone]
      split
      · exact ih false
      · exact ih true

end Alone

/-! ## Reasoning about a transaction on its own -/

/-- When the transaction succeeds, its result and the database that it leaves are as
required. -/
def Ensures (refusal : ε) (program : Program σ ρ τ ε α) (database : σ) (post : α → σ → Prop) :
    Prop :=
  ∀ a final, program.alone refusal database = .ok (a, final) → post a final

section Ensures

variable {refusal : ε} {database : σ} {post : β → σ → Prop}

theorem ensures_pure {b : β} (holds : post b database) :
    (pure b : Program σ ρ τ ε β).Ensures refusal database post := by
  intro result final isOk
  cases isOk
  exact holds

theorem ensures_raise {error : ε} :
    (raise error : Program σ ρ τ ε β).Ensures refusal database post := by
  intro result final isOk
  cases isOk

/-- The rule of sequencing. -/
theorem Ensures.bind {program : Program σ ρ τ ε α} {rest : α → Program σ ρ τ ε β}
    {between : α → σ → Prop} (first : program.Ensures refusal database between)
    (later : ∀ a middle, between a middle → (rest a).Ensures refusal middle post) :
    (program >>= rest).Ensures refusal database post := by
  intro result final isOk
  rw [alone_bind, bind_eq_ok] at isOk
  obtain ⟨⟨a, middle⟩, firstOk, laterOk⟩ := isOk
  exact later a middle (first a middle firstOk) result final laterOk

theorem Ensures.lift {result : Except ε α} {rest : α → Program σ ρ τ ε β}
    (later : ∀ a, result = .ok a → (rest a).Ensures refusal database post) :
    (Program.lift result >>= rest).Ensures refusal database post := by
  cases result with
  | error error =>
      intro a final isOk
      cases isOk
  | ok a => exact later a rfl

theorem Ensures.query {statement : τ} {read : σ → α} {rest : α → Program σ ρ τ ε β}
    (later : (rest (read database)).Ensures refusal database post) :
    (Program.query statement read >>= rest).Ensures refusal database post :=
  later

theorem Ensures.execute {change : Write σ ρ} {rest : Unit → Program σ ρ τ ε β}
    (later : change.refused database = false →
      (rest ()).Ensures refusal (change.apply database) post) :
    (Program.execute change >>= rest).Ensures refusal database post := by
  intro result final isOk
  rw [alone_bind, alone_execute] at isOk
  split at isOk
  · cases isOk
  · rename_i notRefused
    exact later (Bool.not_eq_true _ |>.mp notRefused) result final isOk

theorem Ensures.savepoint {change : Write σ ρ} {rest : Bool → Program σ ρ τ ε β}
    (refused : change.refused database = true → (rest false).Ensures refusal database post)
    (inserted : change.refused database = false →
      (rest true).Ensures refusal (change.apply database) post) :
    (Program.savepoint change >>= rest).Ensures refusal database post := by
  intro result final isOk
  rw [alone_bind, alone_savepoint] at isOk
  split at isOk
  · rename_i isRefused
    exact refused isRefused result final isOk
  · rename_i notRefused
    exact inserted (Bool.not_eq_true _ |>.mp notRefused) result final isOk

theorem Ensures.mapError {program : Program σ ρ τ ε β} {convert : ε → ε}
    (ensures : program.Ensures refusal database post) :
    (program.mapError convert).Ensures refusal database post :=
  fun result final isOk => ensures result final ((alone_mapError program convert).mp isOk)

/-- The rule of consequence. -/
theorem Ensures.mono {program : Program σ ρ τ ε β} {weaker : β → σ → Prop}
    (ensures : program.Ensures refusal database post)
    (weakens : ∀ b final, post b final → weaker b final) :
    program.Ensures refusal database weaker :=
  fun result final isOk => weakens result final (ensures result final isOk)

end Ensures

/-! ## Transactions of sessions -/

/-- Where a session stands: what was asked of it, the writes that it has not committed and
the code that is left, or how it ended. -/
inductive Point (ι σ ρ τ ε α : Type)
  | waiting (call : ι)
  | working (call : ι) (pending : List (Write σ ρ)) (program : Program σ ρ τ ε α)
  | finished (call : ι) (result : Except ε α)

/-- The database request of a session with writes that are not committed. -/
def request (refusal : ε) (call : ι) (pending : List (Write σ ρ)) :
    Program σ ρ τ ε α → Request σ ρ (Point ι σ ρ τ ε α)
  | .done (.ok a) =>
      .commit (fun _ => pending.flatMap Write.rows)
        (fun database => (Write.replay pending database).isSome)
        (fun database => (Write.replay pending database).getD database)
        (fun _ => some (.finished call (.ok a))) (some (.finished call (.error refusal)))
  | .done (.error error) => .rollback (some (.finished call (.error error)))
  | .select _ next => .read fun database =>
      match Write.replay pending database with
      | none => .working call pending (raise refusal)
      | some view => .working call pending (next view)
  | .write change next => .read fun _ => .working call (pending ++ [change]) next
  | .insert change next => .lock (fun _ => change.rows) fun database =>
      match Write.replay pending database with
      | none => .working call pending (raise refusal)
      | some view =>
          if change.refused view then .working call pending (next false)
          else .working call (pending ++ [change]) (next true)

/-- Sessions that run the programs of calls. -/
def sessions (program : ι → Program σ ρ τ ε α) (refusal : ε) :
    Protocol σ ρ (Point ι σ ρ τ ε α) Unit where
  starts
    | .waiting _ => true
    | _ => false
  request point _ := match point with
    | .waiting call => .read fun _ => .working call [] (program call)
    | .working call pending rest => rest.request refusal call pending
    | .finished call result => .rollback (some (.finished call result))

/-- The step is no statement, or one whose reading meets a condition. -/
def Reads (allowed : ι → τ → σ → Prop) (system : System σ ρ (Point ι σ ρ τ ε α)) :
    Event (Point ι σ ρ τ ε α) Unit → Prop
  | .advance session _ => ∀ call pending statement next view,
      system.points session = some (.working call pending (.select statement next)) →
        Write.replay pending system.database = some view → allowed call statement view
  | _ => True

/-- A check of the statement that a step makes. -/
def readsChecked (allowed : ι → τ → σ → Bool) (system : System σ ρ (Point ι σ ρ τ ε α)) :
    Event (Point ι σ ρ τ ε α) Unit → Bool
  | .advance session _ => match system.points session with
      | some (.working call pending (.select statement _)) =>
          (Write.replay pending system.database).all (allowed call statement)
      | _ => true
  | _ => true

theorem reads_of_checked {allowed : ι → τ → σ → Bool} {system : System σ ρ (Point ι σ ρ τ ε α)}
    {event : Event (Point ι σ ρ τ ε α) Unit} (checked : readsChecked allowed system event = true) :
    Reads (fun call statement view => allowed call statement view = true) system event := by
  cases event with
  | start session point => exact True.intro
  | crash session => exact True.intro
  | advance session input =>
      intro call pending statement next view atPoint replayed
      simp only [readsChecked, atPoint, replayed, Option.all_some] at checked
      exact checked

/-- Whatever the code reads of databases in which the invariant holds, its writes keep the
invariant and what it returns is as required. Statements need only be considered where they
read what is allowed. -/
def Keeps (Invariant : σ → Prop) (allowed : τ → σ → Prop) (returns : α → Prop) :
    Program σ ρ τ ε α → Prop
  | .done (.ok a) => returns a
  | .done (.error _) => True
  | .select statement next => ∀ view, Invariant view → allowed statement view →
      (next view).Keeps Invariant allowed returns
  | .write change next => change.Preserves Invariant ∧ next.Keeps Invariant allowed returns
  | .insert change next => change.Preserves Invariant ∧
      ∀ inserted, (next inserted).Keeps Invariant allowed returns

section Keeps

variable {Invariant : σ → Prop} {allowed : τ → σ → Prop} {returns : β → Prop}

@[simp]
theorem keeps_raise {error : ε} :
    (raise error : Program σ ρ τ ε β).Keeps Invariant allowed returns :=
  True.intro

theorem keeps_lift {result : Except ε β} :
    (lift result : Program σ ρ τ ε β).Keeps Invariant allowed returns ↔
      ∀ b, result = .ok b → returns b := by
  cases result with
  | error error => simp [lift, Keeps]
  | ok b => simp [lift, Keeps]

/-- The rule of consequence. -/
theorem Keeps.mono {program : Program σ ρ τ ε β} {weaker : β → Prop}
    (keeps : program.Keeps Invariant allowed returns) (weakens : ∀ b, returns b → weaker b) :
    program.Keeps Invariant allowed weaker := by
  induction program with
  | done result =>
      cases result with
      | error error => exact True.intro
      | ok b => exact weakens b keeps
  | select statement next ih =>
      intro view holds isAllowed
      exact ih view (keeps view holds isAllowed)
  | write change next ih =>
      exact ⟨keeps.1, ih keeps.2⟩
  | insert change next ih =>
      exact ⟨keeps.1, fun inserted => ih inserted (keeps.2 inserted)⟩

/-- The rule of sequencing. -/
theorem Keeps.bind {program : Program σ ρ τ ε α} {rest : α → Program σ ρ τ ε β}
    {between : α → Prop} (first : program.Keeps Invariant allowed between)
    (later : ∀ a, between a → (rest a).Keeps Invariant allowed returns) :
    (program >>= rest).Keeps Invariant allowed returns := by
  change (program.andThen rest).Keeps Invariant allowed returns
  induction program with
  | done result =>
      cases result with
      | error error => exact True.intro
      | ok a => exact later a first
  | select statement next ih =>
      intro view holds isAllowed
      exact ih view (first view holds isAllowed)
  | write change next ih =>
      exact ⟨first.1, ih first.2⟩
  | insert change next ih =>
      exact ⟨first.1, fun inserted => ih inserted (first.2 inserted)⟩

/-- A statement and what follows it. -/
theorem Keeps.query {statement : τ} {read : σ → α} {rest : α → Program σ ρ τ ε β}
    (later : ∀ view, Invariant view → allowed statement view →
      (rest (read view)).Keeps Invariant allowed returns) :
    (Program.query statement read >>= rest).Keeps Invariant allowed returns :=
  later

theorem Keeps.mapError {program : Program σ ρ τ ε β} {convert : ε → ε}
    (keeps : program.Keeps Invariant allowed returns) :
    (program.mapError convert).Keeps Invariant allowed returns := by
  induction program with
  | done result =>
      cases result with
      | error error => exact True.intro
      | ok b => exact keeps
  | select statement next ih =>
      intro view holds isAllowed
      exact ih view (keeps view holds isAllowed)
  | write change next ih =>
      exact ⟨keeps.1, ih keeps.2⟩
  | insert change next ih =>
      exact ⟨keeps.1, fun inserted => ih inserted (keeps.2 inserted)⟩

end Keeps

/-! ## The rule for sessions -/

/-- Where a session may stand when its program keeps the invariant. -/
def Point.Good (Invariant : σ → Prop) (allowed : ι → τ → σ → Prop) (returns : ι → α → Prop) :
    Point ι σ ρ τ ε α → Prop
  | .waiting _ => True
  | .working call pending rest => (∀ change ∈ pending, change.Preserves Invariant) ∧
      rest.Keeps Invariant (allowed call) (returns call)
  | .finished call result => ∀ a, result = .ok a → returns call a

section Sessions

variable {program : ι → Program σ ρ τ ε α} {refusal : ε} {Invariant : σ → Prop}
  {allowed : ι → τ → σ → Prop} {returns : ι → α → Prop}

/-- The session moves to a good point, and what it commits keeps the invariant. -/
theorem good_of_leads {call : ι} {pending : List (Write σ ρ)} {rest : Program σ ρ τ ε α}
    {database after : σ} {target : Option (Point ι σ ρ τ ε α)}
    (holds : Invariant database) (good : (Point.working call pending rest).Good Invariant allowed
      returns)
    (reads : ∀ statement next view, rest = .select statement next →
      Write.replay pending database = some view → allowed call statement view)
    (leads : (rest.request refusal call pending).Leads database after target) :
    Invariant after ∧ ∀ point, target = some point → point.Good Invariant allowed returns := by
  obtain ⟨preserve, keeps⟩ := good
  cases rest with
  | done result =>
      cases result with
      | error error =>
          cases leads
          refine ⟨holds, ?_⟩
          intro point atPoint
          cases atPoint
          intro a isOk
          cases isOk
      | ok a =>
          cases leads with
          | commit permitted =>
              obtain ⟨view, replayed⟩ := Option.isSome_iff_exists.mp permitted
              simp only [replayed, Option.getD_some]
              refine ⟨Write.replay_preserves preserve holds replayed, ?_⟩
              intro point atPoint
              cases atPoint
              intro other isOk
              cases isOk
              exact keeps
          | refused notPermitted =>
              refine ⟨holds, ?_⟩
              intro point atPoint
              cases atPoint
              intro other isOk
              cases isOk
  | select statement next =>
      cases leads
      refine ⟨holds, ?_⟩
      intro point atPoint
      cases replayed : Write.replay pending database with
      | none =>
          simp only [replayed] at atPoint
          cases atPoint
          exact ⟨preserve, keeps_raise⟩
      | some view =>
          simp only [replayed] at atPoint
          cases atPoint
          exact ⟨preserve, keeps view (Write.replay_preserves preserve holds replayed)
            (reads statement next view rfl replayed)⟩
  | write change next =>
      cases leads
      refine ⟨holds, ?_⟩
      intro point atPoint
      cases atPoint
      exact ⟨Write.preserve_append preserve keeps.1, keeps.2⟩
  | insert change next =>
      cases leads
      refine ⟨holds, ?_⟩
      intro point atPoint
      cases replayed : Write.replay pending database with
      | none =>
          simp only [replayed] at atPoint
          cases atPoint
          exact ⟨preserve, keeps_raise⟩
      | some view =>
          simp only [replayed] at atPoint
          by_cases refused : change.refused view = true
          · simp only [refused, if_true] at atPoint
            cases atPoint
            exact ⟨preserve, keeps.2 false⟩
          · simp only [refused] at atPoint
            cases atPoint
            exact ⟨Write.preserve_append preserve keeps.1, keeps.2 true⟩

/-- The invariant holds of the database, and every session is at a good point. -/
structure Sound (Invariant : σ → Prop) (allowed : ι → τ → σ → Prop) (returns : ι → α → Prop)
    (system : System σ ρ (Point ι σ ρ τ ε α)) : Prop where
  holds : Invariant system.database
  good : ∀ session point, system.points session = some point →
    point.Good Invariant allowed returns

theorem sound_idle {database : σ} (initially : Invariant database) :
    Sound Invariant allowed returns
      (System.idle database : System σ ρ (Point ι σ ρ τ ε α)) := by
  refine ⟨initially, ?_⟩
  intro session point atPoint
  cases atPoint

variable [DecidableEq ρ]

theorem Sound.step {system after : System σ ρ (Point ι σ ρ τ ε α)}
    {event : Event (Point ι σ ρ τ ε α) Unit} (sound : Sound Invariant allowed returns system)
    (keeps : ∀ call, (program call).Keeps Invariant (allowed call) (returns call))
    (reads : Reads allowed system event)
    (stepped : system.step (sessions program refusal) event = some after) :
    Sound Invariant allowed returns after := by
  have others : ∀ other, other ≠ event.session → after.points other = system.points other :=
    fun other notOwn => System.step_points stepped notOwn
  have moves := System.step_moves stepped
  have own : Invariant after.database ∧ ∀ point, after.points event.session = some point →
      point.Good Invariant allowed returns := by
    revert moves
    generalize after.database = database
    generalize after.points event.session = target
    intro moves
    cases moves with
    | start isIdle starts =>
        rename_i session point
        refine ⟨sound.holds, ?_⟩
        intro reached atPoint
        cases atPoint
        cases point with
        | waiting call => exact True.intro
        | working call pending rest => cases starts
        | finished call result => cases starts
    | crash =>
        refine ⟨sound.holds, ?_⟩
        intro reached atPoint
        cases atPoint
    | advance atPoint leads =>
        rename_i session input point
        have before := sound.good session point atPoint
        cases point with
        | waiting call =>
            cases leads
            refine ⟨sound.holds, ?_⟩
            intro reached isReached
            cases isReached
            refine ⟨?_, keeps call⟩
            intro change changeMem
            exact absurd changeMem List.not_mem_nil
        | working call pending rest =>
            apply good_of_leads sound.holds before _ leads
            intro statement next view isSelect replayed
            subst isSelect
            exact reads call pending statement next view atPoint replayed
        | finished call result =>
            cases leads
            refine ⟨sound.holds, ?_⟩
            intro reached isReached
            cases isReached
            exact before
  refine ⟨own.1, ?_⟩
  intro session point atPoint
  by_cases isOwn : session = event.session
  · subst isOwn
    exact own.2 point atPoint
  · rw [others session isOwn] at atPoint
    exact sound.good session point atPoint

/-- Programs that keep an invariant keep it in every run of any sessions, and what they
return is as required. -/
theorem Sound.run {source target : System σ ρ (Point ι σ ρ τ ε α)}
    (sound : Sound Invariant allowed returns source)
    (keeps : ∀ call, (program call).Keeps Invariant (allowed call) (returns call))
    (run : Run (System.step (sessions program refusal)) (Reads allowed) source target) :
    Sound Invariant allowed returns target :=
  run.invariant (Sound Invariant allowed returns)
    (fun _ _ _ before reads stepped => before.step keeps reads stepped) sound

end Sessions

/-! ## The two meanings agree -/

section Agreement

variable [DecidableEq ρ] {program : ι → Program σ ρ τ ε α} {refusal : ε}

/-- A session that alone holds locks can take any. -/
private theorem free_of_own {system : System σ ρ (Point ι σ ρ τ ε α)} {session : Nat}
    (own : ∀ lock ∈ system.locks, lock.1 = session) (rows : List ρ) :
    rows.all (system.free session) = true := by
  apply List.all_eq_true.mpr
  intro row _
  apply System.free_iff.mpr
  intro other held
  exact own _ held

/-- A run that begins with a step of the session. -/
private theorem run_of_served {system middle after : System σ ρ (Point ι σ ρ τ ε α)}
    {session : Nat} {point : Point ι σ ρ τ ε α} (atPoint : system.points session = some point)
    (served : system.serve session ((sessions program refusal).request point ()) = some middle)
    (later : Run (System.step (sessions program refusal)) (fun _ _ => True) middle after) :
    Run (System.step (sessions program refusal)) (fun _ _ => True) system after := by
  have stepped : system.step (sessions program refusal) (.advance session ()) = some middle := by
    rw [System.step, atPoint]
    exact served
  exact (Run.tail Run.refl True.intro stepped).trans later

/-- A session among idle ones goes on as its code does alone. -/
theorem run_of_alone {system : System σ ρ (Point ι σ ρ τ ε α)} {session : Nat} {call : ι}
    {pending : List (Write σ ρ)} {rest : Program σ ρ τ ε α} {view final : σ} {a : α}
    (atPoint : system.points session = some (.working call pending rest))
    (replayed : Write.replay pending system.database = some view)
    (own : ∀ lock ∈ system.locks, lock.1 = session)
    (result : rest.alone refusal view = .ok (a, final)) :
    ∃ after, Run (System.step (sessions program refusal)) (fun _ _ => True) system after ∧
      after.database = final ∧ after.points session = some (.finished call (.ok a)) := by
  induction rest generalizing system pending view with
  | done outcome =>
      cases outcome with
      | error error => cases result
      | ok value =>
          cases result
          let after : System σ ρ (Point ι σ ρ τ ε α) :=
            { (system.release session).moveTo session (some (.finished call (.ok a))) with
              database := final }
          have served : system.serve session ((sessions program refusal).request
              (.working call pending (.done (.ok a))) ()) = some after := by
            simp only [sessions, request, System.serve, free_of_own own, replayed, if_true,
              Option.isSome_some, Option.getD_some]
            rfl
          refine ⟨after, run_of_served atPoint served Run.refl, rfl, ?_⟩
          exact Function.update_self _ _ _
  | select statement next ih =>
      have served : system.serve session ((sessions program refusal).request
          (.working call pending (.select statement next)) ()) =
            some (system.moveTo session (some (.working call pending (next view)))) := by
        simp only [sessions, request, System.serve, replayed]
      have atNext : (system.moveTo session (some (.working call pending (next view)))).points
          session = some (.working call pending (next view)) := Function.update_self _ _ _
      obtain ⟨after, later, reached⟩ := ih view atNext replayed own result
      exact ⟨after, run_of_served atPoint served later, reached⟩
  | write change next ih =>
      rw [alone] at result
      split at result
      · cases result
      · rename_i notRefused
        have replayedToo : Write.replay (pending ++ [change]) system.database =
            some (change.apply view) := by
          rw [Write.replay_append, replayed, Option.bind_some, Write.replay_singleton,
            if_neg notRefused]
        have atNext : (system.moveTo session (some (.working call (pending ++ [change]) next))).points
            session = some (.working call (pending ++ [change]) next) := Function.update_self _ _ _
        obtain ⟨after, later, reached⟩ := ih atNext replayedToo own result
        exact ⟨after, run_of_served atPoint rfl later, reached⟩
  | insert change next ih =>
      have ownAfter : ∀ lock ∈ (system.acquire session change.rows).locks, lock.1 = session := by
        intro lock lockMem
        rcases List.mem_append.mp lockMem with new | old
        · obtain ⟨row, _, rfl⟩ := List.mem_map.mp new
          rfl
        · exact own lock old
      rw [alone] at result
      by_cases refused : change.refused view = true
      · rw [if_pos refused] at result
        have served : system.serve session ((sessions program refusal).request
            (.working call pending (.insert change next)) ()) =
              some ((system.acquire session change.rows).moveTo session
                (some (.working call pending (next false)))) := by
          simp only [sessions, request, System.serve, free_of_own own, replayed, refused, if_true]
        have atNext : ((system.acquire session change.rows).moveTo session
            (some (.working call pending (next false)))).points session =
              some (.working call pending (next false)) := Function.update_self _ _ _
        obtain ⟨after, later, reached⟩ := ih false atNext replayed ownAfter result
        exact ⟨after, run_of_served atPoint served later, reached⟩
      · rw [if_neg refused] at result
        have replayedToo : Write.replay (pending ++ [change]) system.database =
            some (change.apply view) := by
          rw [Write.replay_append, replayed, Option.bind_some, Write.replay_singleton,
            if_neg refused]
        have served : system.serve session ((sessions program refusal).request
            (.working call pending (.insert change next)) ()) =
              some ((system.acquire session change.rows).moveTo session
                (some (.working call (pending ++ [change]) (next true)))) := by
          simp only [sessions, request, System.serve, free_of_own own, replayed, refused, if_true]
          rfl
        have atNext : ((system.acquire session change.rows).moveTo session
            (some (.working call (pending ++ [change]) (next true)))).points session =
              some (.working call (pending ++ [change]) (next true)) := Function.update_self _ _ _
        obtain ⟨after, later, reached⟩ :=
          ih true atNext replayedToo ownAfter result
        exact ⟨after, run_of_served atPoint served later, reached⟩

/-- What a transaction does alone, a session does in a database without others. -/
theorem run_idle_of_alone {call : ι} {database final : σ} {a : α}
    (result : (program call).alone refusal database = .ok (a, final)) :
    ∃ after, Run (System.step (sessions program refusal)) (fun _ _ => True)
        (System.idle database) after ∧
      after.database = final ∧ after.points 0 = some (.finished call (.ok a)) := by
  let waiting : System σ ρ (Point ι σ ρ τ ε α) :=
    (System.release (System.idle database) 0).moveTo 0 (some (.waiting call))
  let working : System σ ρ (Point ι σ ρ τ ε α) :=
    waiting.moveTo 0 (some (.working call [] (program call)))
  have stepped : (System.idle database).step (sessions program refusal)
      (.start 0 (.waiting call)) = some waiting := rfl
  have started : Run (System.step (sessions program refusal)) (fun _ _ => True)
      (System.idle database) waiting := Run.tail Run.refl True.intro stepped
  have atWaiting : waiting.points 0 = some (.waiting call) := rfl
  have atWorking : working.points 0 = some (.working call [] (program call)) := rfl
  have noLocks : ∀ lock ∈ working.locks, lock.1 = 0 := fun lock lockMem => nomatch lockMem
  obtain ⟨after, later, reached⟩ := run_of_alone atWorking rfl noLocks result
  exact ⟨after, started.trans (run_of_served atWaiting rfl later), reached⟩

end Agreement

end Program

end DotBackend.Transaction
