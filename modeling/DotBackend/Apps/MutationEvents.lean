import DotBackend.Apps.DeploymentHistory
import DotBackend.Data.UuidText

/-!
# The events of mutations

A mutation that is performed appends one event, from which it can be answered again: what
the event stores is read back as the response. Events are never removed; the deletion of a
record only detaches the events that refer to it.
-/

namespace DotBackend.Apps

open Data DotBackend.Schedules Transition

variable {platform : Platform} {unicode : Unicode} {db after : AppsDb} {appId : Uuid}
  {now : Instant} {checked : Checked} {request : MutationRequest} {response : MutationResponse}

/-! ## Events that stay -/

/-- An event without its reference to a record. -/
def GeneratedAppEvent.detached (event : GeneratedAppEvent) : GeneratedAppEvent :=
  { event with recordId := none }

/-- Events were appended, and others detached at most. -/
def Appends (before after : AppsDb) (added : List GeneratedAppEvent) : Prop :=
  after.events.map GeneratedAppEvent.detached =
    before.events.map GeneratedAppEvent.detached ++ added

theorem Appends.of_eq (events : after.events = db.events) : Appends db after [] := by
  rw [Appends, events, List.append_nil]

theorem Appends.trans {later : AppsDb} {first second : List GeneratedAppEvent}
    (before : Appends db after first) (next : Appends after later second) :
    Appends db later (first ++ second) := by
  rw [Appends, next, before, List.append_assoc]

theorem appends_addEvent (event : GeneratedAppEvent) :
    Appends db (addEvent event db) [event.detached] := by
  simp only [Appends, addEvent, List.map_append, List.map_cons, List.map_nil]

/-- The key of an event does not depend on its record. -/
theorem map_detached_eventByKey (key : String) :
    (eventByKey db appId key).map GeneratedAppEvent.detached =
      (db.events.map GeneratedAppEvent.detached).find? fun event =>
        event.appId = appId ∧ event.idempotencyKey = key := by
  rw [List.find?_map]
  rfl

/-- An event that a key finds is found by it from then on. -/
theorem Appends.eventByKey {added : List GeneratedAppEvent} {key : String}
    {event : GeneratedAppEvent} (appends : Appends db after added)
    (found : Apps.eventByKey db appId key = some event) :
    ∃ later, Apps.eventByKey after appId key = some later ∧ later.detached = event.detached := by
  have looked : (Apps.eventByKey after appId key).map GeneratedAppEvent.detached = _ :=
    map_detached_eventByKey key
  rw [appends, List.find?_append, ← map_detached_eventByKey, found, Option.map_some,
    Option.some_or, Option.map_eq_some_iff] at looked
  exact looked

/-- The event that a mutation appends is the one that its key finds. -/
theorem Appends.eventByKey_new {event : GeneratedAppEvent} (appends : Appends db after [event])
    (absent : Apps.eventByKey db event.appId event.idempotencyKey = none) :
    ∃ later, Apps.eventByKey after event.appId event.idempotencyKey = some later ∧
      later.detached = event := by
  have looked : (Apps.eventByKey after event.appId event.idempotencyKey).map
      GeneratedAppEvent.detached = _ := map_detached_eventByKey event.idempotencyKey
  rw [appends, List.find?_append, ← map_detached_eventByKey, absent, Option.map_none,
    Option.none_or, List.find?_singleton, if_pos (by simp), Option.map_eq_some_iff] at looked
  exact looked

/-! ## Reading a response back -/

/-- The identifiers of a response are of 128 bits. -/
def MutationResponse.Fits : MutationResponse → Prop
  | .record stored => stored.id < 2 ^ 128
  | .deleted => True
  | .reminder task => task.id < 2 ^ 128
  | .rolledBack rollback => rollback.appId < 2 ^ 128 ∧ rollback.activeRevisionId < 2 ^ 128

theorem storedInstant_instantJson (instant : Instant) (response : Fields) (name : String)
    (found : Json.lookup response name = some (instantJson platform instant)) :
    storedInstant platform.toInterpreter response name = some instant := by
  simp only [storedInstant, storedText, found, instantJson, Option.bind_some, String.toList_ofList,
    platform.fromisoformat_isoformat, Option.map_some, Option.getD_some, Int.sub_zero]

theorem storedUuid_uuidJson {id : Uuid} (fits : id < 2 ^ 128) (response : Fields) (name : String)
    (found : Json.lookup response name = some (uuidJson id)) :
    storedUuid unicode response name = some id := by
  simp only [storedUuid, storedText, found, uuidJson, Option.bind_some, String.toList_ofList,
    parseUuid_uuidText fits]

theorem recordOfResponse_recordResponse {record : GeneratedAppDataRecord}
    (fits : record.id < 2 ^ 128) :
    recordOfResponse platform.toInterpreter (recordResponse platform record) =
      some record.stored := by
  rw [recordOfResponse, storedUuid_uuidJson fits _ "record_id" rfl,
    storedInstant_instantJson record.createdAt _ "created_at" rfl,
    storedInstant_instantJson record.updatedAt _ "updated_at" rfl]
  rfl

theorem taskOfResponse_taskResponse {task : AppReminder} (fits : task.id < 2 ^ 128) :
    taskOfResponse platform.toInterpreter (taskResponse platform task) = some task.stored := by
  have provider : storedOption (taskResponse platform task) "delivery_provider" =
      some task.deliveryProvider := by
    cases named : task.deliveryProvider with
    | none =>
        simp only [storedOption, taskResponse, named]
        rfl
    | some name =>
        simp only [storedOption, taskResponse, named]
        rfl
  rw [taskOfResponse, storedUuid_uuidJson fits _ "schedule_id" rfl,
    storedInstant_instantJson task.scheduledFor _ "scheduled_for" rfl, provider]
  rfl

theorem rollbackOfResponse_response {rollback : StoredRollback}
    (appFits : rollback.appId < 2 ^ 128) (revisionFits : rollback.activeRevisionId < 2 ^ 128) :
    rollbackOfResponse unicode rollback.appId rollback.response = some rollback := by
  rw [rollbackOfResponse, storedUuid_uuidJson appFits _ "app_id" rfl,
    storedUuid_uuidJson revisionFits _ "active_revision_id" rfl]
  change (do
    guard (rollback.appId = rollback.appId)
    some rollback : Option StoredRollback) = some rollback
  rw [guard, if_pos rfl]
  rfl

/-! ## What a mutation writes -/

/-- What the event of a mutation stores as its response. -/
inductive Recorded (platform : Platform) (appId : Uuid) :
    MutationRequest → MutationResponse → Fields → Prop
  | created {actor : AppActor} {name : String} {data : Json} {record : GeneratedAppDataRecord} :
      Recorded platform appId (.createRecord actor name data) (.record record.stored)
        (recordResponse platform record)
  | updated {actor : AppActor} {recordId : Uuid} {expectedVersion : Int} {data : Json}
      {record : GeneratedAppDataRecord} :
      Recorded platform appId (.updateRecord actor recordId expectedVersion data)
        (.record record.stored) (recordResponse platform record)
  | deleted {actor : AppActor} {recordId : Uuid} {expectedVersion : Int} {fields : Fields} :
      Recorded platform appId (.deleteRecord actor recordId expectedVersion) .deleted fields
  | reminded {actor : AppActor} {title goal : String} {runAt : IsoDatetime}
      {timezone recurrence handle : String} {task : AppReminder} :
      Recorded platform appId (.createReminder actor title goal runAt timezone recurrence handle)
        (.reminder task.stored) (taskResponse platform task)
  | rolledBack {userId expectedActiveRevisionId : Uuid} {rollback : StoredRollback} :
      rollback.appId = appId →
      Recorded platform appId (.rollBack userId expectedActiveRevisionId) (.rolledBack rollback)
        rollback.response

/-- The event of a mutation that was performed. -/
structure EventOf (platform : Platform) (appId : Uuid) (request : MutationRequest)
    (checked : Checked) (response : MutationResponse) (event : GeneratedAppEvent) : Prop where
  ofApp : event.appId = appId
  key : event.idempotencyKey = checked.key
  operation : event.operation = some request.operation
  hash : event.requestHash = some checked.hash
  response : Recorded platform appId request response event.response

theorem replayResponse_eq_ok {event : GeneratedAppEvent} {operation hash : String}
    (sameOperation : event.operation = some operation) (sameHash : event.requestHash = some hash) :
    replayResponse event operation hash = .ok event.response := by
  rw [replayResponse, if_neg]
  rintro (other | other)
  · exact other sameOperation
  · exact other sameHash

/-- The event of a mutation answers the same request with the same response. -/
theorem EventOf.answer {event : GeneratedAppEvent} {repeated : MutationRequest}
    (eventOf : EventOf platform appId request checked response event) (fits : response.Fits)
    (sameOperation : repeated.operation = request.operation) :
    repeated.answer platform appId event checked.hash = .ok response := by
  have replays := replayResponse_eq_ok eventOf.operation eventOf.hash
  have recorded := eventOf.response
  generalize event.response = fields at recorded replays
  cases recorded with
  | created =>
      cases repeated with
      | createRecord actor name data =>
          rw [MutationRequest.operation] at replays
          rw [MutationRequest.answer, storedRecordFromEvent, replays]
          simp only [bind, Except.bind, recordOfResponse_recordResponse fits]
          rfl
      | _ => simp [MutationRequest.operation] at sameOperation
  | updated =>
      cases repeated with
      | updateRecord actor recordId expectedVersion data =>
          rw [MutationRequest.operation] at replays
          rw [MutationRequest.answer, storedRecordFromEvent, replays]
          simp only [bind, Except.bind, recordOfResponse_recordResponse fits]
          rfl
      | _ => simp [MutationRequest.operation] at sameOperation
  | deleted =>
      cases repeated with
      | deleteRecord actor recordId expectedVersion =>
          rw [MutationRequest.operation] at replays
          rw [MutationRequest.answer, replays]
          rfl
      | _ => simp [MutationRequest.operation] at sameOperation
  | reminded =>
      cases repeated with
      | createReminder actor title goal runAt timezone recurrence handle =>
          rw [MutationRequest.operation] at replays
          rw [MutationRequest.answer, storedTaskFromEvent, replays]
          simp only [bind, Except.bind, taskOfResponse_taskResponse fits]
          rfl
      | _ => simp [MutationRequest.operation] at sameOperation
  | rolledBack ofApp =>
      cases repeated with
      | rollBack userId expectedActiveRevisionId =>
          rw [MutationRequest.operation] at replays
          rw [MutationRequest.answer, storedRollbackFromEvent, replays, ← ofApp]
          simp only [bind, Except.bind, rollbackOfResponse_response fits.1 fits.2]
          rfl
      | _ => simp [MutationRequest.operation] at sameOperation

/-- The writes of a mutation append its event. -/
theorem appends_write {content : request.Content}
    (writes : request.write platform appId now checked db content = .ok (response, after)) :
    ∃ event, Appends db after [event] ∧ EventOf platform appId request checked response event := by
  cases request with
  | createRecord actor name data =>
      cases writes
      refine ⟨_, appends_addEvent _, rfl, rfl, rfl, rfl, Recorded.created⟩
  | updateRecord actor recordId expectedVersion data =>
      obtain ⟨current, _, _, rfl, rfl⟩ := writeUpdate_eq_ok writes
      exact ⟨_, appends_addEvent _, rfl, rfl, rfl, rfl, Recorded.updated⟩
  | deleteRecord actor recordId expectedVersion =>
      obtain ⟨current, _, _, rfl, rfl⟩ := writeDelete_eq_ok writes
      have detaches : Appends db (removeRecord appId recordId expectedVersion db) [] := by
        rw [Appends, List.append_nil]
        apply Table.map_update_of_keeps GeneratedAppEvent.detached
        intro event
        rfl
      exact ⟨_, detaches.trans (appends_addEvent _), rfl, rfl, rfl, rfl, Recorded.deleted⟩
  | createReminder actor title goal runAt timezone recurrence handle =>
      obtain ⟨created, task, only, rfl, rfl⟩ := writeReminder_eq_ok writes
      exact ⟨_, (Appends.of_eq only.events).trans (appends_addEvent _), rfl, rfl, rfl, rfl,
        Recorded.reminded⟩
  | rollBack userId expectedActiveRevisionId =>
      obtain ⟨promoted, app, deployment, _, promotes, foundApp, _, rfl, _, rfl⟩ :=
        writeRollback_eq_ok writes
      have ofApp : app.id = appId := by simpa using List.find?_some foundApp
      exact ⟨_, (Appends.of_eq (promotes_promoteRevision promotes).events).trans (appends_addEvent _),
        ofApp, rfl, rfl, rfl, Recorded.rolledBack ofApp⟩

/-! ## Runs -/

theorem events_completeBuild {result : BuildResult} {token : String}
    (completed : completeBuild unicode db result token now = .ok after) :
    after.events = db.events := by
  simp only [completeBuild, bind_eq_ok] at completed
  obtain ⟨job, _, _, _, finished⟩ := completed
  obtain ⟨app, revision, promoted, issued, _, _, _, promotes, issues, rfl⟩ :=
    finishBuild_eq_ok finished
  have settled := sameDeployments_settle
    ⟨app.userId, app.conversationId, .appBuildCompleted job.id, app.id⟩ _ issues
  exact settled.events.trans (promotes_promoteRevision promotes).events

/-- No call removes an event. -/
theorem appends_step {event : AppCall × Instant} (allowed : apart db event)
    (stepped : callStep platform db event = some after) : ∃ added, Appends db after added := by
  cases callOutcome allowed stepped with
  | answered same => exact ⟨[], Appends.of_eq (by rw [same])⟩
  | performed _ _ performed =>
      simp only [perform, bind_eq_ok] at performed
      obtain ⟨content, _, _, _, writes⟩ := performed
      obtain ⟨added, appends, _⟩ := appends_write writes
      exact ⟨[added], appends⟩
  | rolledBack _ writes =>
      obtain ⟨promoted, _, _, _, promotes, _, _, _, _, rfl⟩ := writeRollback_eq_ok writes
      exact ⟨_, (Appends.of_eq (promotes_promoteRevision promotes).events).trans
        (appends_addEvent _)⟩
  | completed completed => exact ⟨[], Appends.of_eq (events_completeBuild completed)⟩
  | apart apart => exact ⟨[], Appends.of_eq apart.events⟩

theorem appends_run {later : AppsDb} (run : Run (callStep platform) apart db later) :
    ∃ added, Appends db later added := by
  induction run with
  | refl => exact ⟨[], Appends.of_eq rfl⟩
  | tail _ allowed stepped ih =>
      obtain ⟨before, appended⟩ := ih
      obtain ⟨added, appends⟩ := appends_step allowed stepped
      exact ⟨before ++ added, appended.trans appends⟩

end DotBackend.Apps
