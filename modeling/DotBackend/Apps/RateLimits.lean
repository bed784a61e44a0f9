import DotBackend.Apps.Quotas
import DotBackend.Data.SlidingWindow

/-!
# Quotas over runs

A mutation of records or a reminder leaves an event with the time of its write. The limiter
counts the events of the last minute before the write, under the lock of the app, so that no
minute ever has more mutations than the limits: it counts the events of rollbacks too, which
are not limited themselves. With the quotas of records, these hold in every state of a run.
-/

namespace DotBackend.Apps

open Data DotBackend.Schedules Transition

variable {platform : Platform} {unicode : Unicode} {db after : AppsDb} {appId : Uuid}
  {now : Instant} {actor : AppActor} {event : GeneratedAppEvent}

/-! ## Mutations of a minute -/

/-- The event of a mutation of records, or of a reminder. -/
def GeneratedAppEvent.isMutation (event : GeneratedAppEvent) : Bool :=
  ["app.data.created", "app.data.updated", "app.data.deleted",
    "app.reminder.created"].contains event.eventType

/-- The event was made by the actor: by the user, or by the session of an unknown user. -/
def GeneratedAppEvent.madeBy (actor : AppActor) (event : GeneratedAppEvent) : Bool :=
  event.actorUserId = actor.userId &&
    (actor.userId.isSome || (event.actorSessionId = actor.sessionId : Bool))

/-- A mutation of the app. -/
def mutationOf (appId : Uuid) (event : GeneratedAppEvent) : Bool :=
  event.isMutation && event.appId = appId

/-- A mutation of the app by an actor. -/
def mutationBy (appId : Uuid) (actor : AppActor) (event : GeneratedAppEvent) : Bool :=
  mutationOf appId event && event.madeBy actor

/-- A log of events where no minute has too many mutations. -/
structure RatesWithin (events : List GeneratedAppEvent) : Prop where
  actor : ∀ appId actor,
    WindowsWithin (·.createdAt) (mutationBy appId actor) (60 * second) 120 events
  all : ∀ appId, WindowsWithin (·.createdAt) (mutationOf appId) (60 * second) 600 events

/-- What the limiter counted. -/
theorem enforceMutationRateLimit_eq_ok
    (allowed : enforceMutationRateLimit db appId actor now = .ok ()) :
    (db.events.filter fun event => (event.appId = appId &&
        match actor.userId with
        | some userId => event.actorUserId = some userId
        | none => event.actorSessionId = actor.sessionId : Bool) &&
      (now - 60 * second ≤ event.createdAt : Bool)).length < 120 ∧
    (db.events.filter fun event => (event.appId = appId : Bool) &&
      (now - 60 * second ≤ event.createdAt : Bool)).length < 600 := by
  simp only [enforceMutationRateLimit, bind_eq_ok, require_eq_ok, decide_eq_true_eq] at allowed
  obtain ⟨_, _, _, _, _, few, all⟩ := allowed
  rw [List.filter_filter] at few
  refine ⟨?_, all⟩
  convert few using 4
  rename_i event
  cases actor.userId with
  | none => simp [Bool.and_left_comm, Bool.and_assoc]
  | some userId => simp [Bool.and_comm, Bool.and_left_comm, Bool.and_assoc]

/-- The event of a limited mutation. -/
structure EventBy (appId : Uuid) (actor : AppActor) (now : Instant) (event : GeneratedAppEvent) :
    Prop where
  ofApp : event.appId = appId
  user : event.actorUserId = actor.userId
  session : event.actorSessionId = actor.sessionId
  time : event.createdAt = now

namespace RatesWithin

/-- An event that is not limited. -/
theorem append_other {events : List GeneratedAppEvent} (within : RatesWithin events)
    (other : event.isMutation = false) : RatesWithin (events ++ [event]) where
  actor appId actor := by
    apply (within.actor appId actor).append_other
    rw [mutationBy, mutationOf, other]
    rfl
  all appId := by
    apply (within.all appId).append_other
    rw [mutationOf, other]
    rfl

/-- An event that the limiter allowed, at a time before its own. -/
theorem allow {readAt : Instant} (within : RatesWithin db.events)
    (allowed : enforceMutationRateLimit db appId actor readAt = .ok ())
    (eventBy : EventBy appId actor now event) (notOlder : readAt ≤ now) :
    RatesWithin (db.events ++ [event]) := by
  obtain ⟨few, all⟩ := enforceMutationRateLimit_eq_ok allowed
  constructor
  · intro otherId other
    by_cases isOwn : mutationBy otherId other event = true
    · -- The actor of the window is the one that the limiter counted.
      simp only [mutationBy, mutationOf, GeneratedAppEvent.madeBy, Bool.and_eq_true,
        decide_eq_true_eq, Bool.or_eq_true, eventBy.ofApp, eventBy.user, eventBy.session] at isOwn
      obtain ⟨⟨_, rfl⟩, sameUser, sameSession⟩ := isOwn
      apply (within.actor appId other).allow _ few
      · rw [eventBy.time]
        exact notOlder
      · intro earlier isEarlier
        simp only [mutationBy, mutationOf, GeneratedAppEvent.madeBy, Bool.and_eq_true,
          decide_eq_true_eq, Bool.or_eq_true] at isEarlier
        obtain ⟨⟨_, ofApp⟩, earlierUser, earlierSession⟩ := isEarlier
        rw [← sameUser] at sameSession earlierSession earlierUser
        cases user : actor.userId with
        | some userId => simp [ofApp, earlierUser, user]
        | none =>
            rw [user] at sameSession earlierSession
            have ofSession : actor.sessionId = other.sessionId := by simpa using sameSession
            have earlierOf : earlier.actorSessionId = other.sessionId := by
              simpa using earlierSession
            simp [ofApp, ofSession, earlierOf]
    · exact (within.actor otherId other).append_other (Bool.not_eq_true _ ▸ isOwn)
  · intro otherId
    by_cases isOwn : mutationOf otherId event = true
    · simp only [mutationOf, Bool.and_eq_true, decide_eq_true_eq, eventBy.ofApp] at isOwn
      obtain ⟨_, rfl⟩ := isOwn
      apply (within.all appId).allow _ all
      · rw [eventBy.time]
        exact notOlder
      · intro earlier isEarlier
        exact (Bool.and_eq_true_iff.mp isEarlier).2
    · exact (within.all otherId).append_other (Bool.not_eq_true _ ▸ isOwn)

/-- The windows do not look at the records of the events. -/
theorem of_appends {added : List GeneratedAppEvent} (appends : Appends db after added)
    (within : RatesWithin (db.events ++ added))
    (plain : added.map GeneratedAppEvent.detached = added) : RatesWithin after.events := by
  have same : after.events.map GeneratedAppEvent.detached =
      (db.events ++ added).map GeneratedAppEvent.detached := by
    rw [appends, List.map_append, plain]
  have times : ∀ a b : GeneratedAppEvent, a.detached = b.detached → a.createdAt = b.createdAt := by
    intro a b same
    have stamps := congrArg GeneratedAppEvent.createdAt same
    exact stamps
  constructor
  · intro appId actor
    apply WindowsWithin.of_map times _ (within.actor appId actor) same
    intro a b same
    have kinds := congrArg (mutationBy appId actor) same
    exact kinds
  · intro appId
    apply WindowsWithin.of_map times _ (within.all appId) same
    intro a b same
    have kinds := congrArg (mutationOf appId) same
    exact kinds

end RatesWithin

/-! ## Calls that take time -/

/-- The times of a mutation: of its checks, of what it reads under the lock of the app, and
of its writes. -/
structure Clock where
  checkedAt : Instant
  readAt : Instant
  writtenAt : Instant
  checked_le : checkedAt ≤ readAt
  read_le : readAt ≤ writtenAt

/-- A mutation that no event answers. -/
def performTimed (platform : Platform) (db : AppsDb) (appId : Uuid) (clock : Clock)
    (request : MutationRequest) (checked : Checked) :
    Except CodeAppError (MutationResponse × AppsDb) := do
  let content ← request.read platform db appId clock.readAt checked
  request.measure db appId content
  request.write platform appId clock.writtenAt checked db content

/-- A mutation of an app, by a clock. -/
def mutateTimed (platform : Platform) (db : AppsDb) (appId : Uuid) (key : String) (clock : Clock)
    (request : MutationRequest) : Except CodeAppError (MutationResponse × AppsDb) :=
  onceOnly db appId (request.check platform db appId key clock.checkedAt)
    (fun event hash => request.answer platform appId event hash)
    (performTimed platform db appId clock request)

/-- The clock of a call that takes no time. -/
def Clock.at (now : Instant) : Clock :=
  ⟨now, now, now, le_refl now, le_refl now⟩

/-- A call by its clock. -/
def timedStep (platform : Platform) (db : AppsDb) (event : AppCall × Clock) : Option AppsDb :=
  match event.1 with
  | .mutate appId key request =>
      ((mutateTimed platform db appId key event.2 request).map Prod.snd).toOption
  | call => callStep platform db (call, event.2.writtenAt)

/-- The other parts of the service stay apart. -/
def timedApart (db : AppsDb) (event : AppCall × Clock) : Prop :=
  apart db (event.1, event.2.writtenAt)

/-! ## The invariant -/

section Limited

variable {checked : Checked} {clean : Fields}

theorem limited_readCreate {name : String} {data : Json}
    (reads : readCreate unicode db appId name data now checked = .ok clean) :
    enforceMutationRateLimit db appId checked.actor now = .ok () := by
  simp only [readCreate, bind_eq_ok] at reads
  obtain ⟨_, allowed, _⟩ := reads
  exact allowed

theorem limited_readUpdate {recordId : Uuid} {data : Json}
    (reads : readUpdate unicode db appId recordId data now checked = .ok clean) :
    enforceMutationRateLimit db appId checked.actor now = .ok () := by
  simp only [readUpdate, bind_eq_ok] at reads
  obtain ⟨_, allowed, _⟩ := reads
  exact allowed

theorem limited_readDelete {recordId : Uuid} {state : GeneratedAppDataRecord}
    (reads : readDelete db appId recordId now checked = .ok state) :
    enforceMutationRateLimit db appId checked.actor now = .ok () := by
  unfold readDelete at reads
  split at reads
  · cases reads
  · simp only [bind_eq_ok] at reads
    obtain ⟨_, allowed, _⟩ := reads
    exact allowed

theorem limited_readReminder {title goal timezone recurrence : String} {runAt : IsoDatetime}
    {reminder : CleanReminder}
    (reads : readReminder db appId title goal runAt timezone recurrence now checked =
      .ok reminder) : enforceMutationRateLimit db appId checked.actor now = .ok () := by
  simp only [readReminder, bind_eq_ok] at reads
  obtain ⟨_, allowed, _⟩ := reads
  exact allowed

end Limited

/-- The event of a mutation that is performed was allowed by the limiter, or is of a rollback. -/
theorem limited_write {request : MutationRequest} {checked : Checked}
    {response : MutationResponse} {content : request.Content} {readAt : Instant}
    (reads : request.read platform db appId readAt checked = .ok content)
    (writes : request.write platform appId now checked db content = .ok (response, after)) :
    ∃ event, Appends db after [event] ∧ event.detached = event ∧
      (event.isMutation = false ∨
        (enforceMutationRateLimit db appId checked.actor readAt = .ok () ∧
          EventBy appId checked.actor now event)) := by
  cases request with
  | createRecord actor name data =>
      cases writes
      exact ⟨_, appends_addEvent _, rfl, Or.inr ⟨limited_readCreate reads, rfl, rfl, rfl, rfl⟩⟩
  | updateRecord actor recordId expectedVersion data =>
      obtain ⟨_, _, _, _, rfl⟩ := writeUpdate_eq_ok writes
      exact ⟨_, appends_addEvent _, rfl, Or.inr ⟨limited_readUpdate reads, rfl, rfl, rfl, rfl⟩⟩
  | deleteRecord actor recordId expectedVersion =>
      obtain ⟨_, _, _, _, rfl⟩ := writeDelete_eq_ok writes
      have detaches : Appends db (removeRecord appId recordId expectedVersion db) [] := by
        rw [Appends, List.append_nil]
        apply Table.map_update_of_keeps GeneratedAppEvent.detached
        intro event
        rfl
      exact ⟨_, detaches.trans (appends_addEvent _), rfl,
        Or.inr ⟨limited_readDelete reads, rfl, rfl, rfl, rfl⟩⟩
  | createReminder actor title goal runAt timezone recurrence handle =>
      obtain ⟨created, task, only, _, rfl⟩ := writeReminder_eq_ok writes
      exact ⟨_, (Appends.of_eq only.events).trans (appends_addEvent _), rfl,
        Or.inr ⟨limited_readReminder reads, rfl, rfl, rfl, rfl⟩⟩
  | rollBack userId expectedActiveRevisionId =>
      obtain ⟨promoted, _, _, _, promotes, _, _, _, _, rfl⟩ := writeRollback_eq_ok writes
      exact ⟨_, (Appends.of_eq (promotes_promoteRevision promotes).events).trans
        (appends_addEvent _), rfl, Or.inl rfl⟩

/-- All apps are within their quotas. -/
structure QuotasHold (db : AppsDb) : Prop where
  keyed : db.RecordsKeyed
  records : RecordsWithin db
  rates : RatesWithin db.events

namespace QuotasHold

theorem performTimed {clock : Clock} {request : MutationRequest} {checked : Checked}
    {response : MutationResponse} (hold : QuotasHold db)
    (performed : performTimed platform db appId clock request checked = .ok (response, after)) :
    QuotasHold after := by
  simp only [Apps.performTimed, bind_eq_ok] at performed
  obtain ⟨content, reads, _, measured, writes⟩ := performed
  obtain ⟨event, appends, plain, other | ⟨allowed, eventBy⟩⟩ := limited_write reads writes
  · constructor
    · exact keyed_write hold.keyed (readFrom_of_read reads) writes
    · exact hold.records.write hold.keyed measured writes
    · exact (hold.rates.append_other other).of_appends appends (by simp [plain])
  · constructor
    · exact keyed_write hold.keyed (readFrom_of_read reads) writes
    · exact hold.records.write hold.keyed measured writes
    · exact (hold.rates.allow allowed eventBy clock.read_le).of_appends appends (by simp [plain])

theorem rollback {userId expectedActiveRevisionId : Uuid} {keyed : Option Checked}
    {revisions : GeneratedAppRevision × GeneratedAppRevision} {response : MutationResponse}
    (hold : QuotasHold db) (reads : readRollback db appId expectedActiveRevisionId = .ok revisions)
    (writes : writeRollback unicode appId userId revisions now keyed db = .ok (response, after)) :
    QuotasHold after := by
  have within := hold.records.rollback writes
  obtain ⟨deployment, deployed, _⟩ := readRollback_eq_ok reads
  have isDeployed : (db.deployment? appId).isSome = true := by
    rw [deployed]
    rfl
  obtain ⟨records, supply, _⟩ := records_rollback isDeployed writes
  obtain ⟨promoted, _, _, _, promotes, _, _, _, _, rfl⟩ := writeRollback_eq_ok writes
  constructor
  · exact hold.keyed.of_eq records supply
  · exact within
  · have events := (promotes_promoteRevision promotes).events
    change RatesWithin (promoted.events ++ _)
    rw [events]
    exact hold.rates.append_other rfl

theorem completeBuild {result : BuildResult} {token : String} (hold : QuotasHold db)
    (completed : completeBuild unicode db result token now = .ok after) : QuotasHold after := by
  constructor
  · have conform := completed
    simp only [Apps.completeBuild, bind_eq_ok] at completed
    obtain ⟨job, _, _, _, finished⟩ := completed
    obtain ⟨app, revision, promoted, issued, _, made, _, promotes, issues, rfl⟩ :=
      finishBuild_eq_ok finished
    have settled := sameDeployments_settle
      ⟨app.userId, app.conversationId, .appBuildCompleted job.id, app.id⟩ _ issues
    obtain ⟨_, _, promotion⟩ := promoteRevision_eq_ok promotes
    have inserted : (insertRevision revision db).RecordsKeyed :=
      hold.keyed.of_eq rfl (Nat.le_succ _)
    exact (promotion.keyed inserted).of_eq settled.records settled.supply
  · exact hold.records.completeBuild completed
  · rw [events_completeBuild completed]
    exact hold.rates

/-- A call at one instant. -/
theorem call {event : AppCall × Instant} (hold : QuotasHold db) (allowed : apart db event)
    (stepped : callStep platform db event = some after) : QuotasHold after := by
  cases callOutcome allowed stepped with
  | answered same => exact same ▸ hold
  | @performed appId request checked response key _ _ performed =>
      have timed : Apps.performTimed platform db appId (Clock.at event.2) request checked =
        .ok (response, after) := performed
      exact hold.performTimed timed
  | rolledBack reads writes => exact hold.rollback reads writes
  | completed completed => exact hold.completeBuild completed
  | apart apart =>
      constructor
      · exact hold.keyed.of_eq apart.records apart.supply
      · exact hold.records.of_eq apart.records
      · rw [apart.events]
        exact hold.rates

/-- Every call keeps the quotas. -/
theorem step {event : AppCall × Clock} (hold : QuotasHold db) (allowed : timedApart db event)
    (stepped : timedStep platform db event = some after) : QuotasHold after := by
  obtain ⟨call, clock⟩ := event
  cases call with
  | mutate appId key request =>
      cases mutated : mutateTimed platform db appId key clock request with
      | error error => simp [timedStep, mutated, Except.map, Except.toOption] at stepped
      | ok result =>
          simp only [timedStep, mutated, Except.map, Except.toOption, Option.some.injEq] at stepped
          subst stepped
          simp only [mutateTimed, onceOnly, bind_eq_ok] at mutated
          obtain ⟨checked, _, mutated⟩ := mutated
          split at mutated
          · simp only [bind_eq_ok, pure_eq_ok] at mutated
            obtain ⟨_, _, rfl⟩ := mutated
            exact hold
          · exact hold.performTimed mutated
  | rollBack | queueOwned | claim | complete | fail | outside => exact hold.call allowed stepped

end QuotasHold

/-- The quotas of an app: on the number and the size of its records, and on the mutations of
a minute, by an actor and in all. -/
structure WithinQuotas (db : AppsDb) (appId : Uuid) : Prop where
  records : (db.recordsOf appId).length ≤ 10000
  bytes : db.usedBytes appId ≤ 10000000
  actor : ∀ actor start,
    windowCount (·.createdAt) (mutationBy appId actor) (60 * second) start db.events ≤ 120
  all : ∀ start, windowCount (·.createdAt) (mutationOf appId) (60 * second) start db.events ≤ 600

/-- In every state that calls reach from tables without records and events, every app is within
its quotas. -/
theorem within_quotas {initial later : AppsDb} (noRecords : initial.records = [])
    (noEvents : initial.events = []) (run : Run (timedStep platform) timedApart initial later) :
    ∀ appId, WithinQuotas later appId := by
  have none : ∀ appId, initial.recordsOf appId = [] := by
    intro appId
    rw [AppsDb.recordsOf, noRecords, List.filter_nil]
  have initially : QuotasHold initial := by
    constructor
    · constructor
      · rw [noRecords]
        exact List.nodup_nil
      · rw [noRecords]
        exact fun record recordMem => absurd recordMem List.not_mem_nil
    · constructor
      · intro appId
        rw [none]
        exact Nat.zero_le _
      · intro appId
        rw [AppsDb.usedBytes, none]
        exact Nat.zero_le _
    · rw [noEvents]
      exact ⟨fun _ _ => windowsWithin_nil, fun _ => windowsWithin_nil⟩
  have hold : QuotasHold later :=
    run.invariant QuotasHold (fun _ _ _ before allowed stepped => before.step allowed stepped)
      initially
  intro appId
  constructor
  · exact hold.records.count appId
  · exact hold.records.bytes appId
  · exact hold.rates.actor appId
  · exact hold.rates.all appId

/-- The clock of a mutation that waits for the lock of its app. -/
def waitingClock : Clock :=
  ⟨0, second, 2 * second, by decide, by decide⟩

/-- An app is built, a record is added and changed. -/
theorem habit_within_quotas :
    ∃ later : AppsDb, later.events.map (·.createdAt) = [2 * second, 2 * second] ∧
      ∀ appId, WithinQuotas later appId := by
  have runs : (execute (timedStep Platform.ascii) (fun _ event => event.1.isOwn) habitApp
      (habitCalls.map fun call => (call.1, waitingClock))).any (fun later =>
        later.events.map (·.createdAt) = [2 * second, 2 * second]) = true := by
    decide +kernel
  simp only [Option.any_eq_true, decide_eq_true_eq] at runs
  obtain ⟨later, toLater, times⟩ := runs
  refine ⟨later, times, ?_⟩
  apply within_quotas rfl rfl ((run_of_execute toLater).mono _)
  intro before event isOwn
  exact apart_of_isOwn before _ isOwn

end DotBackend.Apps
