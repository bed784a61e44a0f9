import DotBackend.Schedules.Protocol

/-!
# Cancelled account deletions

A worker that has claimed a task does not ask again whether the task is cancelled, and a
cancellation reaches only the newest deletion. When a cancellation commits while no
worker has a deletion of the user in hand and no other one is live, none runs until
another is scheduled.
-/

namespace DotBackend.Schedules

open Data Transition Transaction

/-- The task is an account deletion of the user. -/
def ScheduledTask.deletes (user : Uuid) (task : ScheduledTask) : Bool :=
  task.userId = user && task.actionType = accountDeletionAction

/-- A session that will not work on a deletion of the user once the deletion of a key is
cancelled: it has none in hand, and the row that it is about to read again is that
deletion, or cancelled already. -/
def Point.spares (user cancelledId : Uuid) (db : ScheduleDb) : Point → Bool
  | .writeClaim task _ | .dispatch task _ | .deleteAccount task _ | .writeComplete task _ _
  | .writeRetry task _ _ _ => !task.deletes user
  | .completeTask id _ | .retryTask id _ _ =>
      id = cancelledId ||
        (db.task? id).all fun row => !row.deletes user || row.status = .cancelled
  | _ => true

/-- A step that schedules no deletion of the user. -/
def schedulesNone (user : Uuid) (system : System ScheduleDb Uuid Point) :
    Event Point Input → Bool
  | .advance session input =>
      match system.points session with
      | some (.insertTask task) => !input.commits || !task.deletes user
      | _ => true
  | _ => true

variable {zones : String → Option Zone} {db : ScheduleDb} {user : Uuid}

/-! ## Any run -/

/-- The row of a task that was read keeps its owner and its action. -/
def Recognized (db : ScheduleDb) (task : ScheduledTask) : Prop :=
  task.id < db.nextId ∧ ∀ row ∈ db.tasks, row.id = task.id →
    row.userId = task.userId ∧ row.actionType = task.actionType

/-- What a session knows of the task it has in hand, in any run. -/
def InHand (db : ScheduleDb) : Point → Prop
  | .writeClaim task _ | .dispatch task _ | .writeComplete task _ _ | .writeRetry task _ _ _ =>
      Recognized db task
  | .deleteAccount task _ => Recognized db task ∧ task.actionType = accountDeletionAction
  | .flushCancel loaded _ _ | .commitCancel loaded _ _ => loaded.status.isFinal = false
  | _ => True

/-- A stored row, as it was read. -/
theorem ScheduleDb.Keyed.recognized (keyed : db.Keyed) {task : ScheduledTask}
    (taskMem : task ∈ db.tasks) : Recognized db task := by
  constructor
  · exact keyed.known task taskMem
  · intro row rowMem sameId
    rw [keyed.eq_of_mem rowMem taskMem sameId]
    exact ⟨rfl, rfl⟩

/-- A row of a known key comes from a row of the same owner and action. -/
theorem Writing.origin {point : Point} {input : Input} {rows : ScheduleDb → List Uuid}
    {permitted : ScheduleDb → Bool} {write : ScheduleDb → ScheduleDb}
    {next : ScheduleDb → Option Point} (writing : Writing zones point input rows permitted write next)
    {row : ScheduledTask} (rowMem : row ∈ (write db).tasks) (known : row.id < db.nextId) :
    ∃ old ∈ db.tasks, old.id = row.id ∧ old.userId = row.userId ∧
      old.actionType = row.actionType := by
  cases writing with
  | insertTask _ =>
      rcases List.mem_append.mp rowMem with oldMem | newMem
      · exact ⟨row, oldMem, rfl, rfl, rfl⟩
      · rw [List.mem_singleton.mp newMem] at known
        exact absurd known (Nat.lt_irrefl db.nextId)
  | dispatch _ => exact ⟨row, rowMem, rfl, rfl, rfl⟩
  | deleteAccount => exact ⟨row, List.mem_of_mem_filter rowMem, rfl, rfl, rfl⟩
  | writeClaim | writeComplete _ | writeRetry | commitCancel _ =>
      rcases ScheduleDb.mem_updateTask rowMem with ⟨oldMem, _⟩ | ⟨old, oldMem, _, rfl⟩
      · exact ⟨row, oldMem, rfl, rfl, rfl⟩
      · exact ⟨old, oldMem, rfl, rfl, rfl⟩

/-- The supply of keys never shrinks. -/
theorem Writing.supply {point : Point} {input : Input} {rows : ScheduleDb → List Uuid}
    {permitted : ScheduleDb → Bool} {write : ScheduleDb → ScheduleDb}
    {next : ScheduleDb → Option Point} (writing : Writing zones point input rows permitted write next)
    (db : ScheduleDb) : db.nextId ≤ (write db).nextId := by
  cases writing with
  | insertTask _ => exact Nat.le_succ db.nextId
  | _ => exact le_refl db.nextId

theorem Writing.recognized {point : Point} {input : Input} {rows : ScheduleDb → List Uuid}
    {permitted : ScheduleDb → Bool} {write : ScheduleDb → ScheduleDb}
    {next : ScheduleDb → Option Point} (writing : Writing zones point input rows permitted write next)
    {task : ScheduledTask} (recognized : Recognized db task) : Recognized (write db) task := by
  obtain ⟨known, owners⟩ := recognized
  refine ⟨lt_of_lt_of_le known (writing.supply db), ?_⟩
  intro row rowMem sameId
  obtain ⟨old, oldMem, oldId, sameOwner, sameAction⟩ := writing.origin rowMem (sameId ▸ known)
  rw [← sameOwner, ← sameAction]
  exact owners old oldMem (oldId.trans sameId)

theorem Arriving.inHand {point target : Point} (arriving : Arriving db point target)
    (keyed : db.Keyed) : InHand db target := by
  cases arriving with
  | writeComplete found _ | writeRetry found _ =>
      exact keyed.recognized (ScheduleDb.of_task? found).1
  | flushCancel notFinal => exact notFinal
  | finished | insertTask | createTask => exact True.intro

theorem Claiming.inHand {chosen : Option Uuid} {target : Point}
    (claiming : Claiming db chosen target) (keyed : db.Keyed) : InHand db target := by
  cases claiming with
  | finished => exact True.intro
  | writeClaim found => exact keyed.recognized (ScheduleDb.of_task? found).1

theorem Returning.inHand {point target : Point} (returning : Returning point target)
    (inHand : InHand db point) : InHand db target := by
  cases returning with
  | deleteAccount isDeletion => exact ⟨inHand, isDeletion⟩
  | retryDispatch | retryDeletion | retryComplete => exact True.intro

/-- The proof outline of any run. -/
def handOutline (zones : String → Option Zone) :
    Outline (protocol zones) fun _ _ => True where
  Global := ScheduleDb.Keyed
  Local db point _ := InHand db point
  start := by
    intro database point mayStart _
    cases point <;> first | exact True.intro | cases mayStart
  read := by
    intro database point input next held requested keyed _
    cases requests_of_eq requested with
    | read arrives => exact (arrives database).inHand keyed
  lock := by
    intro database point input rows next held requested _ inHand
    cases requests_of_eq requested with
    | flush atPoint =>
        subst atPoint
        dsimp only
        split
        · exact inHand
        · exact True.intro
  skipLocked := by
    intro database point input candidates next held chosen requested keyed _ _
    cases requests_of_eq requested with
    | claim claims => exact (claims chosen database).inHand keyed
  rollback := by
    intro database point input next target held requested target_eq _ inHand
    cases requests_of_eq requested with
    | rollback returns => exact (returns target target_eq).inHand inHand
  refused := by
    intro database point input rows permitted write next refused target held requested
      target_eq _ inHand
    cases requests_of_eq requested with
    | commit _ returns => exact (returns target target_eq).inHand inHand
  commit := by
    intro system session point input rows permitted write next refused commits _ keyed inHand
    cases requests_of_eq commits.requested with
    | commit writing _ =>
        have recognized : ∀ {task : ScheduledTask}, Recognized system.database task →
            Recognized (write system.database) task := writing.recognized
        refine ⟨writing.keyed keyed, ?_⟩
        rintro target target_eq
        cases writing with
        | writeClaim =>
            cases target_eq
            exact recognized inHand
        | dispatch _ | deleteAccount =>
            cases target_eq
            exact True.intro
        | _ => cases target_eq
  interference := by
    intro system session point input rows permitted write next refused commits _ _ _ other held
      otherInHand _
    cases requests_of_eq commits.requested with
    | commit writing _ =>
        cases other with
        | writeClaim task now | dispatch task claim | writeComplete task claim now
        | writeRetry task claim error now => exact writing.recognized otherInHand
        | deleteAccount task claim => exact ⟨writing.recognized otherInHand.1, otherInHand.2⟩
        | flushCancel loaded now deletion | commitCancel loaded now deletion => exact otherInHand
        | _ => exact True.intro

/-! ## After the cancellation -/

/-- No row of the key is a deletion of the user. -/
def NoDeletionAt (user : Uuid) (db : ScheduleDb) (id : Uuid) : Prop :=
  ∀ row ∈ db.tasks, row.id = id → row.deletes user = false

/-- A session that does not work on a deletion of the user. -/
def Sparing (user : Uuid) (db : ScheduleDb) : Point → Prop
  | .writeClaim task _ | .dispatch task _ =>
      task.deletes user = false ∧ NoDeletionAt user db task.id
  | .deleteAccount task _ => task.userId ≠ user ∧ NoDeletionAt user db task.id
  | .writeComplete loaded _ _ | .writeRetry loaded _ _ _ => NoDeletionAt user db loaded.id
  | .completeTask id _ | .retryTask id _ _ =>
      ∀ row ∈ db.tasks, row.id = id → row.deletes user = true → row.status = .cancelled
  | _ => True

/-- No deletion of the user is live, and so many were executed. -/
structure Spared (user : Uuid) (purges : Nat) (db : ScheduleDb) : Prop where
  keyed : db.Keyed
  dormant : ∀ row ∈ db.tasks, row.deletes user = true → row.status.isLive = false
  unpurged : db.purges.count user = purges

/-- Every deletion of the user was one before, in the same status, or is cancelled. -/
def Calms (user : Uuid) (before after : ScheduleDb) : Prop :=
  ∀ row ∈ after.tasks, row.deletes user = true → ∃ old ∈ before.tasks, old.id = row.id ∧
    old.deletes user = true ∧ (row.status = old.status ∨ row.status = .cancelled)

section After

variable {purges : Nat} {before after : ScheduleDb}

theorem Calms.noDeletionAt {id : Uuid} (calms : Calms user before after)
    (none : NoDeletionAt user before id) : NoDeletionAt user after id := by
  intro row rowMem sameId
  by_contra deletes
  rw [Bool.not_eq_false] at deletes
  obtain ⟨old, oldMem, oldId, oldDeletes, _⟩ := calms row rowMem deletes
  rw [none old oldMem (oldId.trans sameId)] at oldDeletes
  cases oldDeletes

theorem Calms.sparing {point : Point} (calms : Calms user before after)
    (sparing : Sparing user before point) : Sparing user after point := by
  cases point with
  | writeClaim task now | dispatch task claim | deleteAccount task claim =>
      exact ⟨sparing.1, calms.noDeletionAt sparing.2⟩
  | writeComplete loaded claim now | writeRetry loaded claim error now =>
      exact calms.noDeletionAt sparing
  | completeTask id claim | retryTask id claim error =>
      intro row rowMem sameId deletes
      obtain ⟨old, oldMem, oldId, oldDeletes, same | isCancelled⟩ := calms row rowMem deletes
      · rw [same]
        exact sparing old oldMem (oldId.trans sameId) oldDeletes
      · exact isCancelled
  | _ => exact True.intro

theorem Calms.dormant (calms : Calms user before after)
    (dormant : ∀ row ∈ before.tasks, row.deletes user = true → row.status.isLive = false) :
    ∀ row ∈ after.tasks, row.deletes user = true → row.status.isLive = false := by
  intro row rowMem deletes
  obtain ⟨old, oldMem, _, oldDeletes, same | isCancelled⟩ := calms row rowMem deletes
  · rw [same]
    exact dormant old oldMem oldDeletes
  · rw [isCancelled]
    rfl

/-- An update that cancels, or leaves the status alone. -/
theorem calms_of_cancel {id : Uuid} {change : ScheduledTask → ScheduledTask}
    (sameTask : ∀ task, (change task).id = task.id ∧
      (change task).deletes user = task.deletes user)
    (cancels : ∀ task, (change task).status = task.status ∨ (change task).status = .cancelled) :
    Calms user before (before.updateTask id change) := by
  intro row rowMem deletes
  rcases ScheduleDb.mem_updateTask rowMem with ⟨oldMem, _⟩ | ⟨old, oldMem, _, rfl⟩
  · exact ⟨row, oldMem, rfl, deletes, Or.inl rfl⟩
  · obtain ⟨sameId, sameDeletes⟩ := sameTask old
    exact ⟨old, oldMem, sameId.symm, sameDeletes ▸ deletes, cancels old⟩

/-- An update of a row that is no deletion of the user. -/
theorem calms_of_other {id : Uuid} {change : ScheduledTask → ScheduledTask}
    (sameTask : ∀ task, (change task).deletes user = task.deletes user)
    (none : NoDeletionAt user before id) : Calms user before (before.updateTask id change) := by
  intro row rowMem deletes
  rcases ScheduleDb.mem_updateTask rowMem with ⟨oldMem, _⟩ | ⟨old, oldMem, sameId, rfl⟩
  · exact ⟨row, oldMem, rfl, deletes, Or.inl rfl⟩
  · rw [sameTask, none old oldMem sameId] at deletes
    cases deletes

theorem calms_of_subset (removed : ∀ row ∈ after.tasks, row ∈ before.tasks) :
    Calms user before after :=
  fun row rowMem deletes => ⟨row, removed row rowMem, rfl, deletes, Or.inl rfl⟩

/-- A commit of a session that spares the user and schedules no deletion. -/
theorem Writing.calms {system : System ScheduleDb Uuid Point} {session : Nat} {point : Point}
    {input : Input} {rows : ScheduleDb → List Uuid} {permitted : ScheduleDb → Bool}
    {write : ScheduleDb → ScheduleDb} {next : ScheduleDb → Option Point}
    (writing : Writing zones point input rows permitted write next)
    (atPoint : system.points session = some point)
    (allowed : schedulesNone user system (.advance session input) = true)
    (sparing : Sparing user system.database point) :
    Calms user system.database (write system.database) ∧
      (write system.database).purges.count user = system.database.purges.count user := by
  cases writing with
  | insertTask commits =>
      simp only [schedulesNone, atPoint, commits, Bool.not_true, Bool.false_or] at allowed
      constructor
      · intro row rowMem deletes
        rcases List.mem_append.mp rowMem with oldMem | newMem
        · exact ⟨row, oldMem, rfl, deletes, Or.inl rfl⟩
        · rw [List.mem_singleton.mp newMem] at deletes
          rw [Bool.not_eq_true'] at allowed
          exact absurd (allowed.symm.trans deletes) Bool.false_ne_true
      · rfl
  | writeClaim => exact ⟨calms_of_other (fun _ => rfl) sparing.2, rfl⟩
  | dispatch _ => exact ⟨calms_of_subset fun _ rowMem => rowMem, rfl⟩
  | deleteAccount =>
      constructor
      · exact calms_of_subset fun _ => List.mem_of_mem_filter
      · exact List.count_cons_of_ne sparing.1
  | writeComplete _ => exact ⟨calms_of_other (fun _ => rfl) sparing, rfl⟩
  | writeRetry => exact ⟨calms_of_other (fun _ => rfl) sparing, rfl⟩
  | commitCancel _ =>
      constructor
      · apply calms_of_cancel
        · exact fun _ => ⟨rfl, rfl⟩
        · exact fun task => mergeColumn_stored_or_assigned _ _ task.status
      · rfl

theorem Arriving.sparing {point target : Point} (arriving : Arriving db point target)
    (keyed : db.Keyed) (sparing : Sparing user db point) : Sparing user db target := by
  cases arriving with
  | writeComplete found notCancelled | writeRetry found notCancelled =>
      obtain ⟨taskMem, sameId⟩ := ScheduleDb.of_task? found
      intro row rowMem same
      rw [keyed.eq_of_mem rowMem taskMem same]
      by_contra deletes
      exact notCancelled (sparing _ taskMem sameId (Bool.not_eq_false _ |>.mp deletes))
  | finished | insertTask | createTask | flushCancel _ => exact True.intro

theorem Claiming.sparing {maxAttempts : Nat} {taskId chosen : Option Uuid} {now : Instant}
    {target : Point} (claiming : Claiming db chosen target) (spared : Spared user purges db)
    (isCandidate : ∀ row, chosen = some row → row ∈ claimCandidates maxAttempts taskId now db) :
    Sparing user db target := by
  cases claiming with
  | finished => exact True.intro
  | @writeClaim id task _ found =>
      obtain ⟨taskMem, _, eligible⟩ := spared.keyed.of_claimCandidate (isCandidate id rfl) found
      have notDeletion : task.deletes user = false := by
        by_contra deletes
        have dormant := spared.dormant task taskMem (Bool.not_eq_false _ |>.mp deletes)
        rw [ScheduledTask.isLive_of_eligible eligible] at dormant
        cases dormant
      refine ⟨notDeletion, ?_⟩
      intro row rowMem sameId
      rwa [spared.keyed.eq_of_mem rowMem taskMem sameId]

theorem Returning.sparing {point target : Point} (returning : Returning point target)
    (sparing : Sparing user db point) : Sparing user db target := by
  cases returning with
  | deleteAccount isDeletion =>
      refine ⟨?_, sparing.2⟩
      rintro rfl
      have isDeletes := sparing.1
      simp [ScheduledTask.deletes, isDeletion] at isDeletes
  | retryDispatch | retryDeletion =>
      intro row rowMem sameId deletes
      rw [sparing.2 row rowMem sameId] at deletes
      cases deletes
  | retryComplete =>
      intro row rowMem sameId deletes
      rw [sparing row rowMem sameId] at deletes
      cases deletes

/-- A commit goes on without a deletion of the user in hand. -/
theorem Writing.sparing {point target : Point} {input : Input} {rows : ScheduleDb → List Uuid}
    {permitted : ScheduleDb → Bool} {write : ScheduleDb → ScheduleDb}
    {next : ScheduleDb → Option Point}
    (writing : Writing zones point input rows permitted write next)
    (calms : Calms user before (write before)) (sparing : Sparing user before point)
    (goesOn : next (write before) = some target) : Sparing user (write before) target := by
  have settles : ∀ {id : Uuid}, NoDeletionAt user before id →
      ∀ row ∈ (write before).tasks, row.id = id → row.deletes user = true →
        row.status = .cancelled := by
    intro id none row rowMem sameId deletes
    rw [calms.noDeletionAt none row rowMem sameId] at deletes
    cases deletes
  cases writing with
  | writeClaim =>
      cases goesOn
      exact ⟨sparing.1, calms.noDeletionAt sparing.2⟩
  | dispatch _ | deleteAccount =>
      cases goesOn
      exact settles sparing.2
  | _ => cases goesOn

end After

/-- The proof outline after the cancellation. -/
def sparedOutline (zones : String → Option Zone) (user : Uuid) (purges : Nat) :
    Outline (protocol zones) fun system event => schedulesNone user system event = true where
  Global := Spared user purges
  Local db point _ := Sparing user db point
  start := by
    intro database point mayStart _
    cases point <;> first | exact True.intro | cases mayStart
  read := by
    intro database point input next held requested spared sparing
    cases requests_of_eq requested with
    | read arrives => exact (arrives database).sparing spared.keyed sparing
  lock := by
    intro database point input rows next held requested _ _
    cases requests_of_eq requested with
    | flush _ =>
        dsimp only
        split <;> exact True.intro
  skipLocked := by
    intro database point input candidates next held chosen requested spared _ isCandidate
    cases requests_of_eq requested with
    | claim claims => exact (claims chosen database).sparing spared isCandidate
  rollback := by
    intro database point input next target held requested target_eq _ sparing
    cases requests_of_eq requested with
    | rollback returns => exact (returns target target_eq).sparing sparing
  refused := by
    intro database point input rows permitted write next refused target held requested
      target_eq _ sparing
    cases requests_of_eq requested with
    | commit _ returns => exact (returns target target_eq).sparing sparing
  commit := by
    intro system session point input rows permitted write next refused commits allowed spared
      sparing
    cases requests_of_eq commits.requested with
    | commit writing _ =>
        obtain ⟨calms, unpurged⟩ := writing.calms commits.at_point allowed sparing
        constructor
        · exact ⟨writing.keyed spared.keyed, calms.dormant spared.dormant,
            unpurged.trans spared.unpurged⟩
        · exact fun target goesOn => writing.sparing calms sparing goesOn
  interference := by
    intro system session point input rows permitted write next refused commits allowed spared
      sparing other held otherSparing _
    cases requests_of_eq commits.requested with
    | commit writing _ =>
        exact (writing.calms commits.at_point allowed sparing).1.sparing otherSparing

/-! ## The cancellation -/

theorem Recognized.noDeletionAt {task : ScheduledTask} (recognized : Recognized db task)
    (notDeletion : task.deletes user = false) : NoDeletionAt user db task.id := by
  intro row rowMem sameId
  obtain ⟨sameOwner, sameAction⟩ := recognized.2 row rowMem sameId
  rw [ScheduledTask.deletes, sameOwner, sameAction]
  exact notDeletion

/-- The row of the cancellation is cancelled when it commits. -/
theorem status_merge_cancelled {loaded : ScheduledTask} {now : Instant}
    (notFinal : loaded.status.isFinal = false) (stored : ScheduledTask) :
    (loaded.merge (loaded.cancelled now) stored).status = .cancelled := by
  apply mergeColumn_assigned
  intro same
  rw [← same] at notFinal
  cases notFinal

/-- A session that spares the user works on no deletion of the user after the commit of
the cancellation. -/
theorem sparing_writeCancel {loaded : ScheduledTask} {now : Instant} {deletion : Bool}
    {point : Point} (keyed : db.Keyed) (notFinal : loaded.status.isFinal = false)
    (recognizes : ∀ {task : ScheduledTask}, Recognized db task →
      Recognized (writeCancel loaded now deletion db) task)
    (inHand : InHand db point) (spares : point.spares user loaded.id db = true) :
    Sparing user (writeCancel loaded now deletion db) point := by
  cases point with
  | writeClaim task _ | dispatch task _ =>
      have notDeletion : task.deletes user = false := Bool.not_eq_true' _ |>.mp spares
      exact ⟨notDeletion, (recognizes inHand).noDeletionAt notDeletion⟩
  | deleteAccount task _ =>
      have notDeletion : task.deletes user = false := Bool.not_eq_true' _ |>.mp spares
      refine ⟨?_, (recognizes inHand.1).noDeletionAt notDeletion⟩
      rintro rfl
      simp [ScheduledTask.deletes, inHand.2] at notDeletion
  | writeComplete task _ _ | writeRetry task _ _ _ =>
      exact (recognizes inHand).noDeletionAt (Bool.not_eq_true' _ |>.mp spares)
  | completeTask id _ | retryTask id _ _ =>
      intro row rowMem sameId deletes
      rcases ScheduleDb.mem_updateTask rowMem with ⟨oldMem, otherId⟩ | ⟨old, _, _, rfl⟩
      · have differs : id ≠ loaded.id := sameId ▸ otherId
        have found : db.task? id = some row := sameId ▸ keyed.task?_eq oldMem
        simpa [Point.spares, differs, found, deletes] using spares
      · exact status_merge_cancelled notFinal old
  | _ => exact True.intro

/-- A cancellation that commits while no session has a deletion of the user in hand and
no other deletion is live: no run that schedules no other one executes a deletion. -/
theorem cancelled_deletion_never_runs {system cancelled later : System ScheduleDb Uuid Point}
    {session : Nat} {loaded : ScheduledTask} {now : Instant} {input : Input}
    (before : Run (System.step (protocol zones)) (fun _ _ => True)
      (System.idle ScheduleDb.empty) system)
    (cancels : system.points session = some (.commitCancel loaded now true))
    (commits : input.commits = true)
    (committed : system.step (protocol zones) (.advance session input) = some cancelled)
    (only : ∀ row ∈ system.database.tasks, row.deletes loaded.userId = true →
      row.status.isLive = true → row.id = loaded.id)
    (spare : ∀ other point, system.points other = some point →
      point.spares loaded.userId loaded.id system.database = true)
    (after : Run (System.step (protocol zones))
      (fun state event => schedulesNone loaded.userId state event = true) cancelled later) :
    later.database.purges.count loaded.userId =
      cancelled.database.purges.count loaded.userId := by
  have sound : (handOutline zones).Sound system := by
    apply Outline.Sound.run _ before
    exact Outline.sound_idle ⟨List.nodup_nil, by simp [ScheduleDb.empty]⟩
  have notFinal : loaded.status.isFinal = false := sound.local_ cancels
  have keyed : system.database.Keyed := sound.global
  have writing : Writing zones (.commitCancel loaded now true) input (fun _ => [loaded.id])
      (fun _ => true) (writeCancel loaded now true) (fun _ => none) :=
    Writing.commitCancel commits
  have soundAfter : (handOutline zones).Sound cancelled := sound.step True.intro committed
  have cancelled_eq : cancelled = { (system.release session).moveTo session none with
      database := writeCancel loaded now true system.database } := by
    simp only [System.step, cancels, Option.bind_some, protocol, request, commits, if_true,
      System.serve] at committed
    split at committed
    · cases committed
      rfl
    · cases committed
  subst cancelled_eq
  have dormant : ∀ row ∈ (writeCancel loaded now true system.database).tasks,
      row.deletes loaded.userId = true → row.status.isLive = false := by
    intro row rowMem deletes
    rcases ScheduleDb.mem_updateTask rowMem with ⟨oldMem, otherId⟩ | ⟨old, _, _, rfl⟩
    · by_contra isLive
      exact otherId (only row oldMem deletes (Bool.not_eq_false _ |>.mp isLive))
    · rw [status_merge_cancelled notFinal old]
      rfl
  have initially : (sparedOutline zones loaded.userId
      ((writeCancel loaded now true system.database).purges.count loaded.userId)).Sound
        { (system.release session).moveTo session none with
          database := writeCancel loaded now true system.database } := by
    refine ⟨soundAfter.exclusive, ⟨soundAfter.global, dormant, rfl⟩, ?_⟩
    intro other point atPoint
    change Function.update system.points session none other = some point at atPoint
    by_cases isOwn : other = session
    · rw [isOwn, Function.update_self] at atPoint
      cases atPoint
    · rw [Function.update_of_ne isOwn] at atPoint
      exact sparing_writeCancel keyed notFinal writing.recognized (sound.local_ atPoint)
        (spare other point atPoint)
  exact (initially.run after).global.unpurged

/-! ## A cancellation that comes between -/

/-- One session schedules the deletion of the account 7. -/
def scheduleAccount : List (Event Point Input) :=
  [.start 0 (.scheduleDeletion 7), tick 0 0, tick 0 0, tick 0 0]

/-- The deletion that is scheduled. -/
def accountRow : ScheduledTask := (deletionTask 7 0 0).row 0

/-- The cancellation reads the task, a worker claims it, and the cancellation commits. -/
def cancelledTooLate : List (Event Point Input) :=
  scheduleAccount ++ [.start 1 (.cancelDeletion 7), tick 1 (60 * second)] ++
    claimAt 2 (60 * second) ++ [tick 1 (61 * second), tick 1 (61 * second)]

/-- The worker goes on and purges the account. -/
theorem cancelled_deletion_runs :
    ∃ cancelled later : System ScheduleDb Uuid Point,
      Run (System.step (protocol utcOnly)) (fun _ _ => True) (System.idle ScheduleDb.empty)
        cancelled ∧
      Run (System.step (protocol utcOnly))
        (fun state event => schedulesNone 7 state event = true) cancelled later ∧
      cancelled.database.cancelledDeletions = [7] ∧ cancelled.database.purges = [] ∧
      (cancelled.database.tasks.map fun task => task.status) = [.cancelled] ∧
      later.database.purges = [7] := by
  have runs : (execute (System.step (protocol utcOnly)) (fun _ _ => true)
      (System.idle ScheduleDb.empty) cancelledTooLate).any (fun cancelled =>
        cancelled.database.cancelledDeletions = [7] && cancelled.database.purges = [] &&
        ((cancelled.database.tasks.map fun task => task.status) = [.cancelled]) &&
        (execute (System.step (protocol utcOnly)) (schedulesNone 7) cancelled
          [tick 2 (62 * second), tick 2 (62 * second)]).any (fun later =>
            later.database.purges = [7])) = true := by
    decide
  simp only [Option.any_eq_true, Bool.and_eq_true, decide_eq_true_eq] at runs
  obtain ⟨cancelled, toCancelled, ⟨⟨returned, unpurged⟩, statuses⟩, later, toLater, purged⟩ := runs
  exact ⟨cancelled, later, (run_of_execute toCancelled).mono fun _ _ _ => True.intro,
    run_of_execute toLater, returned, unpurged, statuses, purged⟩

/-- A cancellation ten seconds after the request, and a worker that looks for work after
the minute is over. -/
theorem cancelled_deletion_waits :
    ∃ cancelled later : System ScheduleDb Uuid Point,
      cancelled.database.cancelledDeletions = [7] ∧
      later.database.purges.count 7 = cancelled.database.purges.count 7 := by
  have runs : (execute (System.step (protocol utcOnly)) (fun _ _ => true)
      (System.idle ScheduleDb.empty) (scheduleAccount ++
        [.start 1 (.cancelDeletion 7), tick 1 (10 * second), tick 1 (10 * second)])).any
      (fun system =>
        system.points 0 = none &&
        system.points 1 = some (.commitCancel accountRow (10 * second) true) &&
        system.database.tasks = [accountRow] &&
        (system.step (protocol utcOnly) (tick 1 (10 * second))).any (fun cancelled =>
          cancelled.database.cancelledDeletions = [7] &&
          (execute (System.step (protocol utcOnly)) (schedulesNone 7) cancelled
            (claimAt 2 (70 * second))).isSome)) = true := by
    decide
  simp only [Option.any_eq_true, Bool.and_eq_true, decide_eq_true_eq,
    Option.isSome_iff_exists] at runs
  obtain ⟨system, toSystem, ⟨⟨scheduled, cancels⟩, tasks_eq⟩, cancelled, committed, returned,
    later, toLater⟩ := runs
  refine ⟨cancelled, later, returned, ?_⟩
  apply cancelled_deletion_never_runs ((run_of_execute toSystem).mono fun _ _ _ => True.intro)
    cancels rfl committed _ _ (run_of_execute toLater)
  · intro row rowMem _ _
    rw [tasks_eq, List.mem_singleton] at rowMem
    rw [rowMem]
  · intro other point atPoint
    by_cases isFirst : other = 0
    · rw [isFirst, scheduled] at atPoint
      cases atPoint
    · by_cases isSecond : other = 1
      · rw [isSecond, cancels] at atPoint
        cases atPoint
        rfl
      · have unmoved : system.points other = none := by
          apply System.execute_points toSystem
          rintro event eventMem rfl
          simp only [scheduleAccount, tick, List.mem_append, List.mem_cons, List.not_mem_nil,
            or_false] at eventMem
          rcases eventMem with (rfl | rfl | rfl | rfl) | rfl | rfl | rfl <;> contradiction
        rw [unmoved] at atPoint
        cases atPoint

end DotBackend.Schedules
