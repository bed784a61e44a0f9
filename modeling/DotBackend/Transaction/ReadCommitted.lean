import DotBackend.Transition.Run
import Mathlib.Logic.Function.Basic

/-!
# Transactions under READ COMMITTED

Sessions run transactions against one database. A session stands at a program point; at
each point it makes one request: it reads the committed state, takes row locks that it
keeps to the end of its transaction, commits, or rolls back. A commit writes the
committed state in one step, provided that no other session has locked a row that it
writes and that the constraints of the database permit it. Any session may crash, which
loses its locks and what it has not committed.

The rule of this module is the interference rule of Owicki and Gries: assertions at the
points of the sessions that every commit of another session leaves true.
-/

namespace DotBackend.Transaction

open Transition

variable {σ ρ π ε : Type}

/-- What a session asks of the database at one point. `next` is where it goes on; `none`
ends it. -/
inductive Request (σ ρ π : Type)
  /-- Read the committed state. -/
  | read (next : σ → π)
  /-- Lock rows, waiting until no other session holds one, and read. -/
  | lock (rows : σ → List ρ) (next : σ → π)
  /-- Lock the first candidate that no other session holds, and read. -/
  | skipLocked (candidates : σ → List ρ) (next : Option ρ → σ → π)
  /-- Write rows, waiting for their locks, and commit; a constraint may refuse it. -/
  | commit (rows : σ → List ρ) (permitted : σ → Bool) (write : σ → σ) (next : σ → Option π)
      (refused : Option π)
  /-- Give the transaction up. -/
  | rollback (next : Option π)

/-- The programs of the sessions: where one may start, and what it requests at a point,
given what it reads from outside the database there. -/
structure Protocol (σ ρ π ε : Type) where
  starts : π → Bool
  request : π → ε → Request σ ρ π

/-- The committed state, the point of every session, and the locks. -/
structure System (σ ρ π : Type) where
  database : σ
  points : Nat → Option π
  locks : List (Nat × ρ)

inductive Event (π ε : Type)
  | start (session : Nat) (point : π)
  | advance (session : Nat) (input : ε)
  | crash (session : Nat)

/-- The session that takes the step. -/
def Event.session : Event π ε → Nat
  | .start session _ | .advance session _ | .crash session => session

namespace System

/-- A database without sessions. -/
def idle (database : σ) : System σ ρ π :=
  ⟨database, fun _ => none, []⟩

/-- The session has locked the row. -/
def Holds (system : System σ ρ π) (session : Nat) (row : ρ) : Prop :=
  (session, row) ∈ system.locks

/-- No other session has locked the row. -/
def free [DecidableEq ρ] (system : System σ ρ π) (session : Nat) (row : ρ) : Bool :=
  system.locks.all fun lock => lock.2 ≠ row || lock.1 = session

/-- Move a session, or end it. -/
def moveTo (system : System σ ρ π) (session : Nat) (point : Option π) : System σ ρ π :=
  { system with points := Function.update system.points session point }

/-- The locks that a session takes. -/
def acquire (system : System σ ρ π) (session : Nat) (rows : List ρ) : System σ ρ π :=
  { system with locks := rows.map (fun row => (session, row)) ++ system.locks }

/-- The end of a transaction. -/
def release (system : System σ ρ π) (session : Nat) : System σ ρ π :=
  { system with locks := system.locks.filter fun lock => lock.1 ≠ session }

/-- One request of a session. -/
def serve [DecidableEq ρ] (system : System σ ρ π) (session : Nat) :
    Request σ ρ π → Option (System σ ρ π)
  | .read next => some (system.moveTo session (some (next system.database)))
  | .lock rows next =>
      if (rows system.database).all (system.free session) then
        some ((system.acquire session (rows system.database)).moveTo session
          (some (next system.database)))
      else none
  | .skipLocked candidates next =>
      let chosen := (candidates system.database).find? (system.free session)
      some ((system.acquire session chosen.toList).moveTo session
        (some (next chosen system.database)))
  | .commit rows permitted write next refused =>
      if (rows system.database).all (system.free session) then
        if permitted system.database then
          some { (system.release session).moveTo session (next (write system.database)) with
            database := write system.database }
        else some ((system.release session).moveTo session refused)
      else none
  | .rollback next => some ((system.release session).moveTo session next)

/-- One step of the system. -/
def step [DecidableEq ρ] (protocol : Protocol σ ρ π ε) (system : System σ ρ π) :
    Event π ε → Option (System σ ρ π)
  | .start session point =>
      if (system.points session).isNone && protocol.starts point then
        some ((system.release session).moveTo session (some point))
      else none
  | .advance session input =>
      (system.points session).bind fun point =>
        system.serve session (protocol.request point input)
  | .crash session => some ((system.release session).moveTo session none)

theorem free_iff [DecidableEq ρ] {system : System σ ρ π} {session : Nat} {row : ρ} :
    system.free session row = true ↔ ∀ other, system.Holds other row → other = session := by
  simp only [free, List.all_eq_true, Bool.or_eq_true, decide_eq_true_eq, Holds]
  constructor
  · intro noOther other held
    rcases noOther (other, row) held with different | same
    · exact absurd rfl different
    · exact same
  · rintro noOther ⟨other, held⟩ lockMem
    by_cases same : held = row
    · subst same
      exact Or.inr (noOther other lockMem)
    · exact Or.inl same

@[simp]
theorem holds_moveTo {system : System σ ρ π} {session other : Nat} {point : Option π} {row : ρ} :
    (system.moveTo session point).Holds other row ↔ system.Holds other row :=
  Iff.rfl

@[simp]
theorem holds_acquire {system : System σ ρ π} {session other : Nat} {rows : List ρ} {row : ρ} :
    (system.acquire session rows).Holds other row ↔
      (other = session ∧ row ∈ rows) ∨ system.Holds other row := by
  simp only [acquire, Holds, List.mem_append, List.mem_map, Prod.mk.injEq]
  constructor
  · rintro (⟨taken, takenMem, rfl, rfl⟩ | held)
    · exact Or.inl ⟨rfl, takenMem⟩
    · exact Or.inr held
  · rintro (⟨rfl, rowMem⟩ | held)
    · exact Or.inl ⟨row, rowMem, rfl, rfl⟩
    · exact Or.inr held

@[simp]
theorem holds_release {system : System σ ρ π} {session other : Nat} {row : ρ} :
    (system.release session).Holds other row ↔ system.Holds other row ∧ other ≠ session := by
  simp [release, Holds]

@[simp]
theorem points_moveTo {system : System σ ρ π} {session : Nat} {point : Option π} :
    (system.moveTo session point).points = Function.update system.points session point :=
  rfl

@[simp]
theorem points_release {system : System σ ρ π} {session : Nat} :
    (system.release session).points = system.points :=
  rfl

@[simp]
theorem points_acquire {system : System σ ρ π} {session : Nat} {rows : List ρ} :
    (system.acquire session rows).points = system.points :=
  rfl

end System

/-- A session at a commit point whose commit is possible: the rows it writes are locked
by no other session, and the constraints permit it. -/
structure Commits [DecidableEq ρ] (protocol : Protocol σ ρ π ε) (system : System σ ρ π)
    (session : Nat) (point : π) (input : ε) (rows : σ → List ρ) (permitted : σ → Bool)
    (write : σ → σ) (next : σ → Option π) (refused : Option π) : Prop where
  at_point : system.points session = some point
  requested : protocol.request point input = .commit rows permitted write next refused
  rows_free : ∀ row ∈ rows system.database, system.free session row = true
  permitted : permitted system.database = true

/-- What serving a request can do: the committed state before and after it, and where the
session goes on. -/
inductive Request.Leads : Request σ ρ π → σ → σ → Option π → Prop
  | read {next : σ → π} {database : σ} : Leads (.read next) database database
      (some (next database))
  | lock {rows : σ → List ρ} {next : σ → π} {database : σ} :
      Leads (.lock rows next) database database (some (next database))
  | skipLocked {candidates : σ → List ρ} {next : Option ρ → σ → π} {chosen : Option ρ}
      {database : σ} :
      Leads (.skipLocked candidates next) database database (some (next chosen database))
  | commit {rows : σ → List ρ} {permitted : σ → Bool} {write : σ → σ} {next : σ → Option π}
      {refused : Option π} {database : σ} : permitted database = true →
      Leads (.commit rows permitted write next refused) database (write database)
        (next (write database))
  | refused {rows : σ → List ρ} {permitted : σ → Bool} {write : σ → σ} {next : σ → Option π}
      {refused : Option π} {database : σ} : permitted database = false →
      Leads (.commit rows permitted write next refused) database database refused
  | rollback {next : Option π} {database : σ} : Leads (.rollback next) database database next

/-- What a step does to the committed state and to the session that takes it. -/
inductive Moves (protocol : Protocol σ ρ π ε) (system : System σ ρ π) :
    Event π ε → σ → Option π → Prop
  | start {session : Nat} {point : π} : system.points session = none →
      protocol.starts point = true →
      Moves protocol system (.start session point) system.database (some point)
  | advance {session : Nat} {input : ε} {point : π} {database : σ} {target : Option π} :
      system.points session = some point →
      (protocol.request point input).Leads system.database database target →
      Moves protocol system (.advance session input) database target
  | crash {session : Nat} : Moves protocol system (.crash session) system.database none

namespace System

variable [DecidableEq ρ] {protocol : Protocol σ ρ π ε} {system after : System σ ρ π}

theorem serve_leads {session : Nat} {requested : Request σ ρ π}
    (served : system.serve session requested = some after) :
    requested.Leads system.database after.database (after.points session) := by
  cases requested with
  | read next | skipLocked candidates next | rollback next =>
      cases served
      simp only [moveTo, Function.update_self]
      constructor
  | lock rows next =>
      rw [serve] at served
      split at served
      · cases served
        simp only [moveTo, Function.update_self]
        constructor
      · cases served
  | commit rows permitted write next refused =>
      rw [serve] at served
      split at served
      · split at served
        · rename_i isPermitted
          cases served
          simp only [moveTo, Function.update_self]
          exact Request.Leads.commit isPermitted
        · rename_i notPermitted
          cases served
          simp only [moveTo, Function.update_self]
          exact Request.Leads.refused (Bool.not_eq_true _ |>.mp notPermitted)
      · cases served

/-- Every step starts, advances or ends the session that takes it. -/
theorem step_moves {event : Event π ε} (stepped : system.step protocol event = some after) :
    Moves protocol system event after.database (after.points event.session) := by
  cases event with
  | start session point =>
      rw [step] at stepped
      split at stepped
      · rename_i mayStart
        cases stepped
        simp only [Event.session, moveTo, Function.update_self]
        obtain ⟨isIdle, starts⟩ := Bool.and_eq_true_iff.mp mayStart
        exact Moves.start (Option.isNone_iff_eq_none.mp isIdle) starts
      · cases stepped
  | advance session input =>
      rw [step, Option.bind_eq_some_iff] at stepped
      obtain ⟨point, atPoint, served⟩ := stepped
      exact Moves.advance atPoint (serve_leads served)
  | crash session =>
      cases stepped
      simp only [Event.session, moveTo, Function.update_self]
      exact Moves.crash

/-- Only a commit changes the committed state. -/
theorem step_database {event : Event π ε} (stepped : system.step protocol event = some after) :
    after.database = system.database ∨
      ∃ session point input rows permitted write next refused,
        event = .advance session input ∧
          Commits protocol system session point input rows permitted write next refused ∧
            after = { (system.release session).moveTo session (next (write system.database)) with
              database := write system.database } := by
  cases event with
  | start session point =>
      simp only [step] at stepped
      split at stepped
      · cases stepped
        exact Or.inl rfl
      · cases stepped
  | crash session =>
      cases stepped
      exact Or.inl rfl
  | advance session input =>
      simp only [step, Option.bind_eq_some_iff] at stepped
      obtain ⟨point, atPoint, served⟩ := stepped
      cases requested : protocol.request point input with
      | read next | skipLocked candidates next | rollback next =>
          rw [requested] at served
          cases served
          exact Or.inl rfl
      | lock rows next =>
          simp only [requested, serve] at served
          split at served
          · cases served
            exact Or.inl rfl
          · cases served
      | commit rows permitted write next refused =>
          simp only [requested, serve] at served
          split at served
          · rename_i rowsFree
            split at served
            · rename_i isPermitted
              cases served
              refine Or.inr ⟨session, point, input, rows, permitted, write, next, refused, rfl,
                ⟨atPoint, requested, ?_, isPermitted⟩, rfl⟩
              exact fun row rowMem => List.all_eq_true.mp rowsFree row rowMem
            · cases served
              exact Or.inl rfl
          · cases served

/-- A step moves one session. -/
theorem step_points {event : Event π ε} (stepped : system.step protocol event = some after)
    {other : Nat} (notOwn : other ≠ event.session) :
    after.points other = system.points other := by
  cases event with
  | start session point =>
      simp only [step] at stepped
      split at stepped
      · cases stepped
        exact Function.update_of_ne notOwn _ _
      · cases stepped
  | crash session =>
      cases stepped
      exact Function.update_of_ne notOwn _ _
  | advance session input =>
      simp only [step, Option.bind_eq_some_iff] at stepped
      obtain ⟨point, _, served⟩ := stepped
      cases requested : protocol.request point input with
      | read next | skipLocked candidates next | rollback next =>
          rw [requested] at served
          cases served
          exact Function.update_of_ne notOwn _ _
      | lock rows next =>
          simp only [requested, serve] at served
          split at served
          · cases served
            exact Function.update_of_ne notOwn _ _
          · cases served
      | commit rows permitted write next refused =>
          simp only [requested, serve] at served
          split at served
          · split at served
            · cases served
              exact Function.update_of_ne notOwn _ _
            · cases served
              exact Function.update_of_ne notOwn _ _
          · cases served

/-- A session without a step in a list of events stays where it is. -/
theorem execute_points {check : System σ ρ π → Event π ε → Bool} {events : List (Event π ε)}
    (executed : execute (step protocol) check system events = some after) {other : Nat}
    (noStep : ∀ event ∈ events, other ≠ event.session) :
    after.points other = system.points other := by
  induction events generalizing system with
  | nil =>
      cases executed
      rfl
  | cons event events ih =>
      rw [execute] at executed
      split at executed
      · rw [Option.bind_eq_some_iff] at executed
        obtain ⟨middle, stepped, later⟩ := executed
        have rest := ih later fun event eventMem =>
          noStep event (List.mem_cons_of_mem _ eventMem)
        exact rest.trans (step_points stepped (noStep event List.mem_cons_self))
      · cases executed

end System

/-! ## The interference rule -/

/-- Rows that a session holds. -/
abbrev Held (ρ : Type) := ρ → Prop

/-- An assertion about the committed state, and an assertion at every point about the
committed state and the rows held there; steps of a session establish the assertions at
its own points, and its commits keep those at the points of other sessions. Only steps
under the condition need to. -/
structure Outline [DecidableEq ρ] (protocol : Protocol σ ρ π ε)
    (condition : System σ ρ π → Event π ε → Prop) where
  Global : σ → Prop
  Local : σ → π → Held ρ → Prop
  start : ∀ {database point}, protocol.starts point = true → Global database →
    Local database point fun _ => False
  read : ∀ {database point input next} {held : Held ρ},
    protocol.request point input = .read next → Global database →
      Local database point held → Local database (next database) held
  lock : ∀ {database point input rows next} {held : Held ρ},
    protocol.request point input = .lock rows next → Global database →
      Local database point held →
        Local database (next database) fun row => row ∈ rows database ∨ held row
  skipLocked : ∀ {database point input candidates next} {held : Held ρ} {chosen : Option ρ},
    protocol.request point input = .skipLocked candidates next → Global database →
      Local database point held → (∀ row, chosen = some row → row ∈ candidates database) →
        Local database (next chosen database) fun row => chosen = some row ∨ held row
  rollback : ∀ {database point input next target} {held : Held ρ},
    protocol.request point input = .rollback next → next = some target → Global database →
      Local database point held → Local database target fun _ => False
  refused : ∀ {database point input rows permitted write next refused target} {held : Held ρ},
    protocol.request point input = .commit rows permitted write next refused →
      refused = some target → Global database → Local database point held →
        Local database target fun _ => False
  commit : ∀ {system session point input rows permitted write next refused},
    Commits protocol system session point input rows permitted write next refused →
      condition system (.advance session input) → Global system.database →
        Local system.database point (system.Holds session) →
          Global (write system.database) ∧
            ∀ target, next (write system.database) = some target →
              Local (write system.database) target fun _ => False
  interference : ∀ {system session point input rows permitted write next refused},
    Commits protocol system session point input rows permitted write next refused →
      condition system (.advance session input) → Global system.database →
        Local system.database point (system.Holds session) →
          ∀ {other} {held : Held ρ}, Local system.database other held →
            (∀ row, held row → row ∉ rows system.database ∧ ¬ system.Holds session row) →
              Local (write system.database) other held

namespace Outline

variable [DecidableEq ρ] {protocol : Protocol σ ρ π ε}
  {condition : System σ ρ π → Event π ε → Prop}

/-- What the outline says of a system: no row is locked twice, the global assertion
holds, and so does the assertion at the point of every session. -/
structure Sound (outline : Outline protocol condition) (system : System σ ρ π) : Prop where
  exclusive : ∀ {first second row}, system.Holds first row → system.Holds second row →
    first = second
  global : outline.Global system.database
  local_ : ∀ {session point}, system.points session = some point →
    outline.Local system.database point (system.Holds session)

variable {outline : Outline protocol condition} {system after : System σ ρ π}

/-- A step that moves one session and changes only its locks. -/
private theorem Sound.of_moved (sound : outline.Sound system) (session : Nat)
    {target : Option π} (database_eq : after.database = system.database)
    (points_eq : after.points = Function.update system.points session target)
    (others : ∀ {other row}, other ≠ session → (after.Holds other row ↔ system.Holds other row))
    (disjoint : ∀ {other row}, after.Holds session row → system.Holds other row → other = session)
    (own : ∀ point, target = some point →
      outline.Local system.database point (after.Holds session)) :
    outline.Sound after where
  exclusive := by
    intro first second row firstHolds secondHolds
    by_cases firstOwn : first = session
    · subst firstOwn
      by_cases secondOwn : second = first
      · exact secondOwn.symm
      · exact (disjoint firstHolds ((others secondOwn).mp secondHolds)).symm
    · by_cases secondOwn : second = session
      · subst secondOwn
        exact disjoint secondHolds ((others firstOwn).mp firstHolds)
      · exact sound.exclusive ((others firstOwn).mp firstHolds) ((others secondOwn).mp secondHolds)
  global := by
    rw [database_eq]
    exact sound.global
  local_ := by
    intro other point atPoint
    rw [points_eq] at atPoint
    rw [database_eq]
    by_cases isOwn : other = session
    · subst isOwn
      rw [Function.update_self] at atPoint
      exact own point atPoint
    · rw [Function.update_of_ne isOwn] at atPoint
      have sameLocks : after.Holds other = system.Holds other :=
        funext fun row => propext (others isOwn)
      rw [sameLocks]
      exact sound.local_ atPoint

/-- A session that ends its transaction without a commit. -/
private theorem Sound.of_released (sound : outline.Sound system) {session : Nat}
    {target : Option π}
    (own : ∀ point, target = some point → outline.Local system.database point fun _ => False) :
    outline.Sound ((system.release session).moveTo session target) := by
  have noLocks : ((system.release session).moveTo session target).Holds session =
      fun _ => False := by
    funext row
    simp
  apply sound.of_moved session
  · rfl
  · rfl
  · intro other row different
    simp [different]
  · intro other row held
    rw [noLocks] at held
    exact held.elim
  · intro point atPoint
    rw [noLocks]
    exact own point atPoint

/-- A session that takes free rows and goes on. -/
private theorem Sound.of_acquired (sound : outline.Sound system) {session : Nat}
    {rows : List ρ} {target : π} (rowsFree : ∀ row ∈ rows, system.free session row = true)
    (own : outline.Local system.database target
      fun row => row ∈ rows ∨ system.Holds session row) :
    outline.Sound ((system.acquire session rows).moveTo session (some target)) := by
  have locks : ((system.acquire session rows).moveTo session (some target)).Holds session =
      fun row => row ∈ rows ∨ system.Holds session row := by
    funext row
    simp
  apply sound.of_moved session
  · rfl
  · rfl
  · intro other row different
    simp [different]
  · intro other row held otherHolds
    rw [locks] at held
    rcases held with taken | held
    · exact System.free_iff.mp (rowsFree row taken) other otherHolds
    · exact sound.exclusive otherHolds held
  · intro point atPoint
    cases atPoint
    rw [locks]
    exact own

/-- A commit keeps the outline sound. -/
private theorem Sound.of_commit (sound : outline.Sound system) {session : Nat} {point : π}
    {input : ε} {rows : σ → List ρ} {permitted : σ → Bool} {write : σ → σ}
    {next : σ → Option π} {refused : Option π}
    (commits : Commits protocol system session point input rows permitted write next refused)
    (allowed : condition system (.advance session input)) :
    outline.Sound { (system.release session).moveTo session (next (write system.database)) with
      database := write system.database } := by
  have before := sound.local_ commits.at_point
  obtain ⟨globalAfter, ownAfter⟩ := outline.commit commits allowed sound.global before
  refine ⟨?_, globalAfter, ?_⟩
  · intro first second row firstHolds secondHolds
    exact sound.exclusive (System.holds_release.mp firstHolds).1
      (System.holds_release.mp secondHolds).1
  · intro other target atTarget
    change Function.update system.points session (next (write system.database)) other =
      some target at atTarget
    change outline.Local (write system.database) target ((system.release session).Holds other)
    by_cases isOwn : other = session
    · subst isOwn
      rw [Function.update_self] at atTarget
      have noLocks : (system.release other).Holds other = fun _ => False := by
        funext row
        simp
      rw [noLocks]
      exact ownAfter target atTarget
    · rw [Function.update_of_ne isOwn] at atTarget
      have sameLocks : (system.release session).Holds other = system.Holds other := by
        funext row
        simp [isOwn]
      rw [sameLocks]
      apply outline.interference commits allowed sound.global before (sound.local_ atTarget)
      intro row held
      constructor
      · intro rowMem
        exact isOwn (System.free_iff.mp (commits.rows_free row rowMem) other held)
      · intro ownHolds
        exact isOwn (sound.exclusive held ownHolds)

/-- A step under the condition keeps the outline sound. -/
theorem Sound.step {event : Event π ε} (sound : outline.Sound system)
    (allowed : condition system event) (stepped : system.step protocol event = some after) :
    outline.Sound after := by
  cases event with
  | start session point =>
      simp only [System.step] at stepped
      split at stepped
      · rename_i mayStart
        cases stepped
        apply sound.of_released
        intro target atTarget
        cases atTarget
        exact outline.start (Bool.and_eq_true_iff.mp mayStart).2 sound.global
      · cases stepped
  | crash session =>
      cases stepped
      apply sound.of_released
      intro target atTarget
      cases atTarget
  | advance session input =>
      simp only [System.step, Option.bind_eq_some_iff] at stepped
      obtain ⟨point, atPoint, served⟩ := stepped
      have before := sound.local_ atPoint
      cases requested : protocol.request point input with
      | read next =>
          rw [requested] at served
          cases served
          apply sound.of_moved session
          · rfl
          · rfl
          · intro other row _
            rfl
          · intro other row held otherHolds
            exact sound.exclusive otherHolds held
          · intro target atTarget
            cases atTarget
            exact outline.read requested sound.global before
      | lock rows next =>
          simp only [requested, System.serve] at served
          split at served
          · rename_i rowsFree
            cases served
            apply sound.of_acquired
            · exact fun row rowMem => List.all_eq_true.mp rowsFree row rowMem
            · exact outline.lock requested sound.global before
          · cases served
      | skipLocked candidates next =>
          simp only [requested, System.serve, Option.some.injEq] at served
          subst served
          apply sound.of_acquired
          · intro row rowMem
            exact List.find?_some (Option.mem_toList.mp rowMem)
          · have chosenLocks : (fun row => row ∈ ((candidates system.database).find?
                (system.free session)).toList ∨ system.Holds session row) =
                fun row => (candidates system.database).find? (system.free session) = some row ∨
                  system.Holds session row := by
              funext row
              rw [Option.mem_toList]
            rw [chosenLocks]
            apply outline.skipLocked requested sound.global before
            intro row chosen
            exact List.mem_of_find?_eq_some chosen
      | rollback next =>
          rw [requested] at served
          cases served
          apply sound.of_released
          intro target atTarget
          exact outline.rollback requested atTarget sound.global before
      | commit rows permitted write next refused =>
          simp only [requested, System.serve] at served
          split at served
          · rename_i rowsFree
            split at served
            · rename_i isPermitted
              cases served
              have commits : Commits protocol system session point input rows permitted write
                  next refused :=
                ⟨atPoint, requested, fun row rowMem => List.all_eq_true.mp rowsFree row rowMem,
                  isPermitted⟩
              exact sound.of_commit commits allowed
            · cases served
              apply sound.of_released
              intro target atTarget
              exact outline.refused requested atTarget sound.global before
          · cases served

/-- An idle database in which the global assertion holds is sound. -/
theorem sound_idle {database : σ} (initially : outline.Global database) :
    outline.Sound (System.idle database) := by
  refine ⟨?_, initially, ?_⟩
  · intro first second row firstHolds
    exact absurd firstHolds List.not_mem_nil
  · intro session point atPoint
    cases atPoint

/-- The interference rule: in a run whose steps all satisfy the condition, every state
is sound. -/
theorem Sound.run {source target : System σ ρ π} (sound : outline.Sound source)
    (run : Run (System.step protocol) condition source target) : outline.Sound target :=
  run.invariant outline.Sound (fun _ _ _ before allowed stepped => before.step allowed stepped)
    sound

end Outline

end DotBackend.Transaction
