import DotBackend.Apps.Builds

/-!
# Mutations of apps

What apps and their owners may change once: records, reminders, and the deployed
revision. A mutation checks its actor and its request, looks its idempotency key up among
the events of the app, and answers from the event it finds; else it is performed, and
leaves an event. It holds the lock on the row of the app throughout.
-/

namespace DotBackend.Apps

open Data Channel Schedules

/-! ## Responses -/

structure StoredDataRecord where
  id : Uuid
  entity : String
  data : Fields
  version : Int
  createdAt : Instant
  updatedAt : Instant
  deriving DecidableEq

structure StoredScheduledTask where
  id : Uuid
  title : String
  goal : Option Json
  scheduledFor : Instant
  timezone : String
  recurrence : String
  deliveryProvider : Option String
  deriving DecidableEq

structure StoredRollback where
  appId : Uuid
  publicId : String
  title : String
  activeRevisionId : Uuid
  activeRevisionNumber : Int
  deploymentVersion : Int
  rollbackIsReversible : Bool
  deriving DecidableEq

/-- What a mutation returns: of a row that it made or changed, the fields that a stored
response has too. -/
inductive MutationResponse
  | record (record : StoredDataRecord)
  | deleted
  | reminder (task : StoredScheduledTask)
  | rolledBack (rollback : StoredRollback)
  deriving DecidableEq

/-- What a mutation has established when it looks its key up. -/
structure Checked where
  actor : AppActor
  key : String
  hash : String
  deriving DecidableEq

/-! ## Reading a response -/

/-- `_event_by_key` for a key that is clean. -/
def eventByKey (db : AppsDb) (appId : Uuid) (key : String) : Option GeneratedAppEvent :=
  db.events.find? fun event => event.appId = appId ∧ event.idempotencyKey = key

/-- `_replay_response`. -/
def replayResponse (event : GeneratedAppEvent) (operation hash : String) :
    Except CodeAppError Fields :=
  if event.operation ≠ some operation ∨ event.requestHash ≠ some hash then
    .error (.conflict "This idempotency key was already used for a different app mutation")
  else .ok event.response

/-- `str(response[name])`, for the texts that responses hold. -/
def storedText (response : Fields) (name : String) : Option String :=
  match Json.lookup response name with
  | some (.str value) => some value
  | _ => none

def storedInt (response : Fields) (name : String) : Option Int :=
  match Json.lookup response name with
  | some (.int value) => some value
  | _ => none

/-- `UUID(str(response[name]))`. -/
def storedUuid (unicode : Unicode) (response : Fields) (name : String) : Option Uuid :=
  (storedText response name).bind fun value => parseUuid unicode value.toList

/-- `datetime.fromisoformat(str(response[name]))`. -/
def storedInstant (interpreter : Interpreter) (response : Fields) (name : String) :
    Option Instant :=
  (storedText response name).bind fun value =>
    (interpreter.fromisoformat value.toList).map fun read => read.wall - read.offset.getD 0

/-- The record of a response, `none` for `KeyError`, `TypeError` and `ValueError`. -/
def recordOfResponse (interpreter : Interpreter) (response : Fields) : Option StoredDataRecord := do
  let id ← storedUuid interpreter.toUnicode response "record_id"
  let entity ← storedText response "entity"
  let data ← match Json.lookup response "data" with
    | some (.obj data) => some data
    | _ => none
  let version ← storedInt response "version"
  let createdAt ← storedInstant interpreter response "created_at"
  let updatedAt ← storedInstant interpreter response "updated_at"
  pure ⟨id, entity, data, version, createdAt, updatedAt⟩

/-- `_stored_record_from_event`. -/
def storedRecordFromEvent (interpreter : Interpreter) (event : GeneratedAppEvent)
    (operation hash : String) : Except CodeAppError MutationResponse := do
  let response ← replayResponse event operation hash
  match recordOfResponse interpreter response with
  | some record => pure (.record record)
  | none => .error (.conflict "Stored idempotency response is unavailable")

/-- `str(value) if value is not None else None`. -/
def storedOption (response : Fields) (name : String) : Option (Option String) :=
  match Json.lookup response name with
  | none | some .null => some none
  | some (.str value) => some (some value)
  | _ => none

def taskOfResponse (interpreter : Interpreter) (response : Fields) :
    Option StoredScheduledTask := do
  let id ← storedUuid interpreter.toUnicode response "schedule_id"
  let title ← storedText response "title"
  let scheduledFor ← storedInstant interpreter response "scheduled_for"
  let timezone ← storedText response "timezone"
  let recurrence ← storedText response "recurrence"
  let deliveryProvider ← storedOption response "delivery_provider"
  pure ⟨id, title, Json.lookup response "goal", scheduledFor, timezone, recurrence,
    deliveryProvider⟩

/-- `_stored_task_from_event`. -/
def storedTaskFromEvent (interpreter : Interpreter) (event : GeneratedAppEvent) (hash : String) :
    Except CodeAppError MutationResponse := do
  let response ← replayResponse event "dot.reminder.create" hash
  match taskOfResponse interpreter response with
  | some task => pure (.reminder task)
  | none => .error (.conflict "Stored idempotency response is unavailable")

def rollbackOfResponse (unicode : Unicode) (appId : Uuid) (response : Fields) :
    Option StoredRollback := do
  let storedAppId ← storedUuid unicode response "app_id"
  guard (storedAppId = appId)
  let publicId ← storedText response "public_id"
  let title ← storedText response "title"
  let activeRevisionId ← storedUuid unicode response "active_revision_id"
  let activeRevisionNumber ← storedInt response "active_revision_number"
  let deploymentVersion ← storedInt response "deployment_version"
  let reversible ← Json.lookup response "rollback_is_reversible"
  pure ⟨appId, publicId, title, activeRevisionId, activeRevisionNumber, deploymentVersion,
    reversible.truthy⟩

/-- `_stored_rollback_from_event`. -/
def storedRollbackFromEvent (unicode : Unicode) (event : GeneratedAppEvent) (appId : Uuid)
    (hash : String) : Except CodeAppError MutationResponse := do
  let response ← replayResponse event "deployment.rollback" hash
  match rollbackOfResponse unicode appId response with
  | some rollback => pure (.rolledBack rollback)
  | none => .error (.conflict "Stored rollback response is unavailable")

/-! ## The common course -/

/-- A mutation: an event with its key answers it, and nothing is changed; else it is
performed. The look-up that the source repeats after the rate limit is under the same lock
and finds no event either. -/
def onceOnly (db : AppsDb) (appId : Uuid) (checked : Except CodeAppError Checked)
    (answer : GeneratedAppEvent → String → Except CodeAppError MutationResponse)
    (perform : Checked → Except CodeAppError (MutationResponse × AppsDb)) :
    Except CodeAppError (MutationResponse × AppsDb) := do
  let request ← checked
  match eventByKey db appId request.key with
  | some event => do
      let response ← answer event request.hash
      pure (response, db)
  | none => perform request

/-- `_text(idempotency_key, "idempotency_key", 160)`. -/
def idempotencyKeyText (key : String) : Except CodeAppError String :=
  text (.str key) "idempotency_key" 160

/-- `_enforce_mutation_rate_limit`. -/
def enforceMutationRateLimit (db : AppsDb) (appId : Uuid) (actor : AppActor) (now : Instant) :
    Except CodeAppError Unit := do
  require (actor.userId.isSome || actor.sessionId.isSome)
    (.authorization "App actor identity is missing")
  discard (lockedActiveApp db appId)
  let recent := db.events.filter fun event =>
    event.appId = appId && (now - 60 * second ≤ event.createdAt : Bool)
  let own := recent.filter fun event =>
    match actor.userId with
    | some userId => event.actorUserId = some userId
    | none => event.actorSessionId = actor.sessionId
  require (own.length < 120)
    (.rateLimit "This app is doing too much at once. Try again shortly.")
  require (recent.length < 600)
    (.rateLimit "This app is doing too much at once. Try again shortly.")

/-- `_active_manifest`. -/
def activeManifest (db : AppsDb) (appId : Uuid) : Except CodeAppError Json := do
  discard (codeApp db appId)
  match db.deployment? appId with
  | none => .error (.conflict "App is not deployed yet")
  | some deployment =>
      match db.revision? deployment.activeRevisionId with
      | none => .error (.conflict "Active app revision is missing")
      | some revision => pure revision.manifest

/-- `session.add(event)`. -/
def addEvent (event : GeneratedAppEvent) (db : AppsDb) : AppsDb :=
  { db with events := db.events ++ [event] }

/-! ## Records -/

/-- `str(UUID)` as a JSON value. -/
def uuidJson (id : Uuid) : Json :=
  .str (String.ofList (uuidText id))

/-- `value.isoformat()` as a JSON value. -/
def instantJson (platform : Platform) (instant : Instant) : Json :=
  .str (String.ofList (platform.isoformat instant))

/-- The response of `_add_data_event`. -/
def recordResponse (platform : Platform) (record : GeneratedAppDataRecord) : Fields :=
  [("record_id", uuidJson record.id), ("entity", .str record.entity), ("data", .obj record.data),
    ("version", .int record.version), ("created_at", instantJson platform record.createdAt),
    ("updated_at", instantJson platform record.updatedAt)]

/-- `_add_data_event`. -/
def addDataEvent (platform : Platform) (appId : Uuid) (record : GeneratedAppDataRecord)
    (checked : Checked) (eventType operation : String) (now : Instant) (db : AppsDb) : AppsDb :=
  addEvent {
    appId := appId
    recordId := some record.id
    entity := some record.entity
    eventType := eventType
    actorUserId := checked.actor.userId
    actorSessionId := checked.actor.sessionId
    idempotencyKey := checked.key
    operation := some operation
    requestHash := some checked.hash
    response := recordResponse platform record
    payload := [("record_id", uuidJson record.id), ("version", .int record.version),
      ("data", .obj record.data)]
    createdAt := now } db

/-- The fields of a row that a stored record has. -/
def GeneratedAppDataRecord.stored (record : GeneratedAppDataRecord) : StoredDataRecord where
  id := record.id
  entity := record.entity
  data := record.data
  version := record.version
  createdAt := record.createdAt
  updatedAt := record.updatedAt

/-- The record of the app with the identifier. -/
def AppsDb.record? (db : AppsDb) (appId recordId : Uuid) : Option GeneratedAppDataRecord :=
  db.records.find? fun record => record.id = recordId ∧ record.appId = appId

/-- `isinstance(data, dict)`. -/
def requireObject (data : Json) : Except CodeAppError Unit :=
  match data with
  | .obj _ => .ok ()
  | _ => .error (.validation "Record data must be an object")

/-! ### Creating -/

/-- `create_data_record` up to its key. -/
def checkCreate (db : AppsDb) (appId : Uuid) (actor : AppActor) (name : String) (data : Json)
    (key : String) (now : Instant) : Except CodeAppError Checked := do
  let actor ← reauthorizeActor db appId actor now
  requireWrite actor
  let cleanEntity ← entity (some (.str name))
  requireObject data
  let cleanKey ← idempotencyKeyText key
  let hash ← idempotencyRequestHash "records.create"
    [("entity", .str cleanEntity), ("data", data)]
  pure ⟨actor, cleanKey, hash⟩

/-- The data that `create_data_record` is to store. -/
def readCreate (unicode : Unicode) (db : AppsDb) (appId : Uuid) (name : String) (data : Json)
    (now : Instant) (checked : Checked) : Except CodeAppError Fields := do
  enforceMutationRateLimit db appId checked.actor now
  let manifest ← activeManifest db appId
  validateEntityData unicode manifest name (jsonObject (some data))

/-- The limits of `create_data_record`. -/
def measureCreate (db : AppsDb) (appId : Uuid) (cleanData : Fields) : Except CodeAppError Unit := do
  require ((db.records.filter fun record => record.appId = appId).length < 10000)
    (.validation "This app has reached its record limit")
  enforceAppStorageLimit db appId (jsonBytes (.obj cleanData))

/-- The writes of `create_data_record`. -/
def writeCreate (platform : Platform) (appId : Uuid) (name : String) (cleanData : Fields)
    (now : Instant) (checked : Checked) (db : AppsDb) : MutationResponse × AppsDb :=
  let record := newRecord db appId name cleanData checked.actor.userId now
  (.record record.stored, addDataEvent platform appId record checked "app.data.created"
    "records.create" now (insertRecord record db))

/-- `create_data_record`. -/
def createDataRecord (platform : Platform) (db : AppsDb) (appId : Uuid) (actor : AppActor)
    (name : String) (data : Json) (key : String) (now : Instant) :
    Except CodeAppError (MutationResponse × AppsDb) :=
  onceOnly db appId (checkCreate db appId actor name data key now)
    (fun event hash => storedRecordFromEvent platform.toInterpreter event "records.create" hash)
    fun checked => do
      let cleanData ← readCreate platform.toUnicode db appId name data now checked
      measureCreate db appId cleanData
      pure (writeCreate platform appId name cleanData now checked db)

/-! ### Updating -/

/-- `merged[key] = value`, or `merged.pop(key, None)` for a `null`. -/
def mergeMember (merged : Fields) (member : String × Json) : Fields :=
  if member.2 = .null then merged.filter fun other => other.1 ≠ member.1
  else if merged.any fun other => other.1 = member.1 then
    merged.map fun other => if other.1 = member.1 then member else other
  else merged ++ [member]

/-- The loop of `update_data_record`. -/
def mergeData (current data : Fields) : Fields :=
  data.foldl mergeMember current

/-- The assignments of `update_data_record`. -/
def GeneratedAppDataRecord.revised (data : Fields) (userId : Option Uuid) (now : Instant)
    (record : GeneratedAppDataRecord) : GeneratedAppDataRecord :=
  { record with
    data := data, dataBytes := jsonBytes (.obj data), version := record.version + 1
    updatedByUserId := userId, updatedAt := now }

/-- `update_data_record` up to its key. -/
def checkUpdate (db : AppsDb) (appId recordId : Uuid) (actor : AppActor) (expectedVersion : Int)
    (data : Json) (key : String) (now : Instant) : Except CodeAppError Checked := do
  let actor ← reauthorizeActor db appId actor now
  requireWrite actor
  requireObject data
  let cleanKey ← idempotencyKeyText key
  let hash ← idempotencyRequestHash "records.update"
    [("record_id", uuidJson recordId), ("expected_version", .int expectedVersion), ("data", data)]
  pure ⟨actor, cleanKey, hash⟩

/-- The data that `update_data_record` is to store, merged with what it reads. -/
def readUpdate (unicode : Unicode) (db : AppsDb) (appId recordId : Uuid) (data : Json)
    (now : Instant) (checked : Checked) : Except CodeAppError Fields := do
  enforceMutationRateLimit db appId checked.actor now
  let manifest ← activeManifest db appId
  match db.record? appId recordId with
  | none => .error (.notFound "App record was not found")
  | some current =>
      validateEntityData unicode manifest current.entity
        (mergeData current.data (jsonObject (some data)))

/-- The size that `update_data_record` adds, to the size that it reads. -/
def measureUpdate (db : AppsDb) (appId recordId : Uuid) (cleanData : Fields) :
    Except CodeAppError Unit :=
  match db.record? appId recordId with
  | none => .error (.notFound "App record was not found")
  | some current =>
      enforceAppStorageLimit db appId (jsonBytes (.obj cleanData) - current.dataBytes)

/-- `UPDATE` of a record, if it has the expected version. -/
def reviseRecord (appId recordId : Uuid) (expectedVersion : Int) (data : Fields)
    (userId : Option Uuid) (now : Instant) (db : AppsDb) : AppsDb where
  __ := db
  records := Table.update
    (fun row => row.id == recordId && row.appId == appId && row.version == expectedVersion)
    (GeneratedAppDataRecord.revised data userId now) db.records

/-- The compare-and-swap of `update_data_record`. -/
def writeUpdate (platform : Platform) (appId recordId : Uuid) (expectedVersion : Int)
    (cleanData : Fields) (now : Instant) (checked : Checked) (db : AppsDb) :
    Except CodeAppError (MutationResponse × AppsDb) :=
  match (db.record? appId recordId).filter fun row => row.version = expectedVersion with
  | none => .error (.conflict "Record was changed by someone else")
  | some current =>
      let record := current.revised cleanData checked.actor.userId now
      .ok (.record record.stored, addDataEvent platform appId record checked "app.data.updated"
        "records.update" now
        (reviseRecord appId recordId expectedVersion cleanData checked.actor.userId now db))

/-- `update_data_record`. -/
def updateDataRecord (platform : Platform) (db : AppsDb) (appId recordId : Uuid) (actor : AppActor)
    (expectedVersion : Int) (data : Json) (key : String) (now : Instant) :
    Except CodeAppError (MutationResponse × AppsDb) :=
  onceOnly db appId (checkUpdate db appId recordId actor expectedVersion data key now)
    (fun event hash => storedRecordFromEvent platform.toInterpreter event "records.update" hash)
    fun checked => do
      let cleanData ← readUpdate platform.toUnicode db appId recordId data now checked
      measureUpdate db appId recordId cleanData
      writeUpdate platform appId recordId expectedVersion cleanData now checked db

/-! ### Deleting -/

/-- `delete_data_record` up to its key. -/
def checkDelete (db : AppsDb) (appId recordId : Uuid) (actor : AppActor) (expectedVersion : Int)
    (key : String) (now : Instant) : Except CodeAppError Checked := do
  let actor ← reauthorizeActor db appId actor now
  requireWrite actor
  let cleanKey ← idempotencyKeyText key
  let hash ← idempotencyRequestHash "records.delete"
    [("record_id", uuidJson recordId), ("expected_version", .int expectedVersion)]
  pure ⟨actor, cleanKey, hash⟩

/-- The state of the record that `delete_data_record` reads. -/
def readDelete (db : AppsDb) (appId recordId : Uuid) (now : Instant) (checked : Checked) :
    Except CodeAppError GeneratedAppDataRecord :=
  match db.record? appId recordId with
  | none => .error (.notFound "App record was not found")
  | some state => do
      enforceMutationRateLimit db appId checked.actor now
      pure state

/-- `DELETE` of a record, which sets the references of events to it to null. -/
def removeRecord (appId recordId : Uuid) (expectedVersion : Int) (db : AppsDb) : AppsDb where
  __ := db
  records := db.records.filter fun row =>
    !(row.id = recordId && row.appId = appId && row.version = expectedVersion)
  events := Table.update (fun event => event.recordId == some recordId)
    (fun event => { event with recordId := none }) db.events

/-- The event of `delete_data_record`. -/
def deletedEvent (appId : Uuid) (state : GeneratedAppDataRecord) (now : Instant)
    (checked : Checked) : GeneratedAppEvent where
  appId := appId
  recordId := none
  entity := some state.entity
  eventType := "app.data.deleted"
  actorUserId := checked.actor.userId
  actorSessionId := checked.actor.sessionId
  idempotencyKey := checked.key
  operation := some "records.delete"
  requestHash := some checked.hash
  response := [("deleted", .bool true), ("record_id", uuidJson state.id)]
  payload := [("tombstone", .bool true), ("record_id", uuidJson state.id),
    ("entity", .str state.entity), ("version", .int state.version), ("data", .obj state.data)]
  createdAt := now

/-- The compare-and-swap of `delete_data_record`. -/
def writeDelete (appId recordId : Uuid) (expectedVersion : Int) (state : GeneratedAppDataRecord)
    (now : Instant) (checked : Checked) (db : AppsDb) :
    Except CodeAppError (MutationResponse × AppsDb) :=
  match (db.record? appId recordId).filter fun row => row.version = expectedVersion with
  | none => .error (.conflict "Record was changed by someone else")
  | some _ =>
      .ok (.deleted, addEvent (deletedEvent appId state now checked)
        (removeRecord appId recordId expectedVersion db))

/-- `delete_data_record`. -/
def deleteDataRecord (db : AppsDb) (appId recordId : Uuid) (actor : AppActor)
    (expectedVersion : Int) (key : String) (now : Instant) :
    Except CodeAppError (MutationResponse × AppsDb) :=
  onceOnly db appId (checkDelete db appId recordId actor expectedVersion key now)
    (fun event hash => do
      discard (replayResponse event "records.delete" hash)
      pure .deleted)
    fun checked => do
      let state ← readDelete db appId recordId now checked
      writeDelete appId recordId expectedVersion state now checked db

/-! ## Reminders -/

/-- A reminder whose texts were cleaned, at an instant. -/
structure CleanReminder where
  title : String
  goal : String
  runAt : Instant
  timezone : String
  recurrence : ScheduledTaskRecurrence
  deriving DecidableEq

/-- `[A-Za-z0-9_+-]+(?:/[A-Za-z0-9_+-]+)*`: names between slashes, of which `named` tells
whether the one being read has begun. -/
def isZoneName (named : Bool) : List Char → Bool
  | [] => named
  | c :: rest =>
      if c = '/' then named && isZoneName false rest
      else (c.isAlphanum || c = '_' || c = '+' || c = '-') && isZoneName true rest

/-- The values of `ScheduledTaskRecurrence`. -/
def recurrenceText : ScheduledTaskRecurrence → String
  | .once => "once"
  | .daily => "daily"
  | .weekly => "weekly"

def parseRecurrence (recurrence : String) : Except CodeAppError ScheduledTaskRecurrence :=
  if recurrence = "once" then .ok .once
  else if recurrence = "daily" then .ok .daily
  else if recurrence = "weekly" then .ok .weekly
  else .error (.validation "recurrence must be once, daily, or weekly")

/-- `_aware_utc`. -/
def awareUtc (value : IsoDatetime) : Except CodeAppError Instant :=
  match value.offset with
  | some offset => .ok (value.wall - offset)
  | none => .error (.validation "run_at must include a timezone offset")

/-- The checks of `create_app_reminder` on the request alone. -/
def cleanReminder (title goal : String) (runAt : IsoDatetime) (timezone recurrence : String) :
    Except CodeAppError CleanReminder := do
  let cleanTitle ← text (.str title) "title" 160
  let cleanGoal ← text (.str goal) "goal" 500
  let cleanTimezone ← text (.str timezone) "timezone" 64
  require (isZoneName false cleanTimezone.toList)
    (.validation "timezone must be an IANA timezone")
  let cleanRecurrence ← parseRecurrence recurrence
  let normalizedRunAt ← awareUtc runAt
  pure ⟨cleanTitle, cleanGoal, normalizedRunAt, cleanTimezone, cleanRecurrence⟩

/-- `_MAX_REMINDER_HORIZON`. -/
def maxReminderHorizon : Int := 5 * 366 * day

/-- `create_app_reminder` up to its key. -/
def checkReminder (platform : Platform) (db : AppsDb) (appId : Uuid) (actor : AppActor)
    (title goal : String) (runAt : IsoDatetime) (timezone recurrence : String) (key : String)
    (now : Instant) : Except CodeAppError Checked := do
  let actor ← reauthorizeActor db appId actor now
  require (actor.identityVerified && actor.userId.isSome &&
      (actor.role = .owner || actor.role = .editor))
    (.authorization "Only an authenticated app owner or editor can create reminders")
  discard (codeApp db appId)
  let reminder ← cleanReminder title goal runAt timezone recurrence
  require (reminder.runAt ≤ now + maxReminderHorizon)
    (.validation "Reminder time is too far in the future")
  let cleanKey ← idempotencyKeyText key
  let hash ← idempotencyRequestHash "dot.reminder.create"
    [("title", .str reminder.title), ("goal", .str reminder.goal),
      ("run_at", instantJson platform reminder.runAt), ("timezone", .str reminder.timezone),
      ("recurrence", .str recurrence)]
  pure ⟨actor, cleanKey, hash⟩

/-- The grant that `create_app_reminder` reads in the active manifest. -/
def readReminder (db : AppsDb) (appId : Uuid) (title goal : String) (runAt : IsoDatetime)
    (timezone recurrence : String) (now : Instant) (checked : Checked) :
    Except CodeAppError CleanReminder := do
  enforceMutationRateLimit db appId checked.actor now
  let manifest ← activeManifest db appId
  let capabilities ← parseGeneratedAppCapabilities manifest
  require (dotReminderCreateCapability ∈ capabilities)
    (.authorization "This app was not granted reminder access")
  cleanReminder title goal runAt timezone recurrence

/-- `resolve_direct_conversation`, with the primary handle of the user. -/
def resolveDirectConversation (db : AppsDb) (userId : Uuid) (handle : String) (now : Instant) :
    Except CodeAppError (Conversation × AppsDb) :=
  match db.conversations.find? fun row => row.userId = userId ∧ row.kind = .direct with
  | some conversation => .ok (conversation, db)
  | none =>
      if userId ∈ db.users then
        let conversation : Conversation :=
          ⟨db.nextId, userId, .direct, none, .auto, none, true⟩
        let member : ConversationMember :=
          ⟨db.nextId + 1, db.nextId, some userId, handle, none, none, none, .owner, .active, now, none,
            now⟩
        .ok (conversation, { db with
          conversations := db.conversations ++ [conversation]
          members := db.members ++ [member]
          nextId := db.nextId + 2 })
      else .error (.internal "Direct conversation user no longer exists")

/-- `preferred_delivery_provider`. -/
def preferredDeliveryProvider (db : AppsDb) (conversationId : Uuid) : Option String :=
  match db.conversation? conversationId with
  | some conversation =>
      if conversation.kind = .direct && db.channels.any fun channel =>
        channel.conversationId = conversationId && channel.provider = "linq" && channel.isActive
      then some "linq" else none
  | none => none

/-- `create_scheduled_task` for a reminder of an app. -/
def createScheduledTask (platform : Platform) (db : AppsDb) (userId conversationId : Uuid)
    (idempotencyKey : String) (reminder : CleanReminder) (deliveryProvider : Option String)
    (now : Instant) : Except CodeAppError (AppReminder × AppsDb) :=
  match db.reminders.find? fun task => task.idempotencyKey = idempotencyKey with
  | some existing => .ok (existing, db)
  | none => do
      require (now - 5 * second < reminder.runAt)
        (.validation "scheduled time must be in the future")
      require (platform.knowsZone reminder.timezone)
        (.validation ("unknown timezone: " ++ reminder.timezone))
      let title := Text.strip reminder.title.toList
      require (!title.isEmpty) (.validation "schedule title is required")
      let task : AppReminder := {
        id := db.nextId
        userId := userId
        conversationId := conversationId
        idempotencyKey := idempotencyKey
        title := String.ofList (title.take 160)
        goal := reminder.goal
        scheduledFor := reminder.runAt
        timezone := reminder.timezone
        recurrence := reminder.recurrence
        deliveryProvider := deliveryProvider }
      pure (task, { db with reminders := db.reminders ++ [task], nextId := db.nextId + 1 })

/-- The response of `create_app_reminder`. -/
def taskResponse (platform : Platform) (task : AppReminder) : Fields :=
  [("schedule_id", uuidJson task.id), ("title", .str task.title), ("goal", .str task.goal),
    ("scheduled_for", instantJson platform task.scheduledFor), ("timezone", .str task.timezone),
    ("recurrence", .str (recurrenceText task.recurrence)),
    ("delivery_provider", optionJson task.deliveryProvider)]

/-- The fields of a row that a stored task has. -/
def AppReminder.stored (task : AppReminder) : StoredScheduledTask where
  id := task.id
  title := task.title
  goal := some (.str task.goal)
  scheduledFor := task.scheduledFor
  timezone := task.timezone
  recurrence := recurrenceText task.recurrence
  deliveryProvider := task.deliveryProvider

/-- The event of `create_app_reminder`. -/
def reminderEvent (platform : Platform) (appId : Uuid) (task : AppReminder) (now : Instant)
    (checked : Checked) : GeneratedAppEvent where
  appId := appId
  recordId := none
  entity := none
  eventType := "app.reminder.created"
  actorUserId := checked.actor.userId
  actorSessionId := checked.actor.sessionId
  idempotencyKey := checked.key
  operation := some "dot.reminder.create"
  requestHash := some checked.hash
  response := taskResponse platform task
  payload := [("schedule_id", uuidJson task.id), ("title", .str task.title),
    ("scheduled_for", instantJson platform task.scheduledFor), ("timezone", .str task.timezone),
    ("recurrence", .str (recurrenceText task.recurrence))]
  createdAt := now

/-- The writes of `create_app_reminder`. -/
def writeReminder (platform : Platform) (appId : Uuid) (reminder : CleanReminder)
    (handle : String) (now : Instant) (checked : Checked) (db : AppsDb) :
    Except CodeAppError (MutationResponse × AppsDb) :=
  match checked.actor.userId with
  | none => .error (.authorization
      "Only an authenticated app owner or editor can create reminders")
  | some userId => do
      let (direct, resolved) ← resolveDirectConversation db userId handle now
      let (task, created) ← createScheduledTask platform resolved userId direct.id
        ("generated_app.reminder:" ++ String.ofList (uuidText appId) ++ ":" ++ checked.key)
        reminder (preferredDeliveryProvider resolved direct.id) now
      pure (.reminder task.stored, addEvent (reminderEvent platform appId task now checked) created)

/-- `create_app_reminder`. -/
def createAppReminder (platform : Platform) (db : AppsDb) (appId : Uuid) (actor : AppActor)
    (title goal : String) (runAt : IsoDatetime) (timezone recurrence handle : String) (key : String)
    (now : Instant) : Except CodeAppError (MutationResponse × AppsDb) :=
  onceOnly db appId
    (checkReminder platform db appId actor title goal runAt timezone recurrence key now)
    (fun event hash => storedTaskFromEvent platform.toInterpreter event hash)
    fun checked => do
      let reminder ← readReminder db appId title goal runAt timezone recurrence now checked
      writeReminder platform appId reminder handle now checked db

/-! ## Rollbacks -/

/-- The authority of `rollback_owned_code_app`. -/
def authorizeRollback (db : AppsDb) (appId userId : Uuid) : Except CodeAppError AppActor := do
  let app ← lockedCodeApp db appId
  let actor ← authorizeUserForLockedApp db app userId
  require (actor.role = .owner && app.userId = userId)
    (.authorization "Only the app owner can roll back this app")
  pure actor

/-- The hash of `rollback_owned_code_app`. -/
def rollbackHash (expectedActiveRevisionId : Uuid) : Except CodeAppError String :=
  idempotencyRequestHash "deployment.rollback"
    [("expected_active_revision_id", uuidJson expectedActiveRevisionId)]

/-- `rollback_owned_code_app` up to its key, when it has one. -/
def checkRollback (db : AppsDb) (appId userId expectedActiveRevisionId : Uuid) (key : String) :
    Except CodeAppError Checked := do
  let actor ← authorizeRollback db appId userId
  let cleanKey ← idempotencyKeyText key
  let hash ← rollbackHash expectedActiveRevisionId
  pure ⟨actor, cleanKey, hash⟩

/-- The revisions that `rollback_owned_code_app` swaps: the deployed and the previous one. -/
def readRollback (db : AppsDb) (appId expectedActiveRevisionId : Uuid) :
    Except CodeAppError (GeneratedAppRevision × GeneratedAppRevision) :=
  match (db.deployment? appId).bind fun deployment =>
    deployment.previousRevisionId.map fun previous => (deployment, previous) with
  | none => .error (.conflict "This app does not have a previous deployed version")
  | some (deployment, previous) => do
      require (deployment.activeRevisionId = expectedActiveRevisionId) (.conflict
        "The deployed app changed since it was inspected; inspect it again before rollback")
      require (db.jobs.all fun job => job.appId ≠ appId || !job.isLive) (.conflict
        "This app has a revision in progress; wait for it to finish before rolling back")
      match db.revision? deployment.activeRevisionId, db.revision? previous with
      | some replaced, some target => do
          require (target.appId = appId && target.status = .ready)
            (.conflict "The previous deployed version is not available")
          pure (replaced, target)
      | _, _ => .error (.conflict "The previous deployed version is not available")

/-- The response of `rollback_owned_code_app`. The app has the title of its active
revision. -/
def rollbackResponse (app : GeneratedApp) (target : GeneratedAppRevision)
    (deployment : GeneratedAppDeployment) : StoredRollback where
  appId := app.id
  publicId := app.publicId
  title := app.title
  activeRevisionId := target.id
  activeRevisionNumber := target.revisionNumber
  deploymentVersion := deployment.deploymentVersion
  rollbackIsReversible := deployment.previousRevisionId.isSome

def StoredRollback.response (rollback : StoredRollback) : Fields :=
  [("app_id", uuidJson rollback.appId), ("public_id", .str rollback.publicId),
    ("title", .str rollback.title), ("active_revision_id", uuidJson rollback.activeRevisionId),
    ("active_revision_number", .int rollback.activeRevisionNumber),
    ("deployment_version", .int rollback.deploymentVersion),
    ("rollback_is_reversible", .bool rollback.rollbackIsReversible)]

/-- The event of `rollback_owned_code_app`; only a rollback with a key stores a response. -/
def rollbackEvent (userId : Uuid) (rollback : StoredRollback)
    (replaced target : GeneratedAppRevision) (now : Instant) (keyed : Option Checked) :
    GeneratedAppEvent where
  appId := rollback.appId
  recordId := none
  entity := none
  eventType := "app.deployment.rolled_back"
  actorUserId := some userId
  actorSessionId := none
  idempotencyKey := (keyed.map (·.key)).getD
    ("app-rollback:" ++ toString rollback.deploymentVersion)
  operation := keyed.map fun _ => "deployment.rollback"
  requestHash := keyed.map (·.hash)
  response := (keyed.map fun _ => rollback.response).getD []
  payload := [("from_revision_id", uuidJson replaced.id),
    ("from_revision_number", .int replaced.revisionNumber),
    ("to_revision_id", uuidJson target.id), ("to_revision_number", .int target.revisionNumber),
    ("deployment_version", .int rollback.deploymentVersion)]
  createdAt := now

/-- The check of `rollback_owned_code_app` on the records, the swap, and the event, which
the unique index may refuse. -/
def writeRollback (unicode : Unicode) (appId userId : Uuid)
    (revisions : GeneratedAppRevision × GeneratedAppRevision) (now : Instant)
    (keyed : Option Checked) (db : AppsDb) : Except CodeAppError (MutationResponse × AppsDb) := do
  let (replaced, target) := revisions
  validateExistingRecordsForManifest unicode db appId target.manifest
  let promoted ← promoteRevision unicode db appId target.id none now
  match promoted.app? appId, promoted.deployment? appId with
  | some app, some deployment => do
      let rollback := rollbackResponse app target deployment
      let event := rollbackEvent userId rollback replaced target now keyed
      require (eventByKey db appId event.idempotencyKey).isNone
        (.internal "uq_app_events_app_idempotency")
      pure (.rolledBack rollback, addEvent event promoted)
  | _, _ => .error (.notFound "Code app was not found")

/-- `rollback_owned_code_app`. -/
def rollbackOwnedCodeApp (unicode : Unicode) (db : AppsDb)
    (appId userId expectedActiveRevisionId : Uuid) (key : Option String) (now : Instant) :
    Except CodeAppError (MutationResponse × AppsDb) :=
  match key with
  | some key =>
      onceOnly db appId (checkRollback db appId userId expectedActiveRevisionId key)
        (fun event hash => storedRollbackFromEvent unicode event appId hash)
        fun checked => do
          let revisions ← readRollback db appId expectedActiveRevisionId
          writeRollback unicode appId userId revisions now (some checked) db
  | none => do
      discard (authorizeRollback db appId userId)
      discard (rollbackHash expectedActiveRevisionId)
      let revisions ← readRollback db appId expectedActiveRevisionId
      writeRollback unicode appId userId revisions now none db

/-! ## What the stages establish -/

section Stages

variable {platform : Platform} {unicode : Unicode} {db after : AppsDb} {appId recordId : Uuid}
  {now : Instant} {checked : Checked} {response : MutationResponse} {data : Json}

/-- The manifest of the active revision of an app. -/
def AppsDb.activeManifest? (db : AppsDb) (appId : Uuid) : Option Json :=
  (db.deployment? appId).bind fun deployment =>
    (db.revision? deployment.activeRevisionId).map (·.manifest)

theorem activeManifest_eq_ok {manifest : Json} (read : activeManifest db appId = .ok manifest) :
    db.activeManifest? appId = some manifest := by
  simp only [activeManifest, bind_eq_ok] at read
  obtain ⟨_, _, read⟩ := read
  split at read
  · cases read
  · rename_i deployment deployed
    split at read
    · cases read
    · rename_i revision found
      cases read
      simp only [AppsDb.activeManifest?, deployed, Option.bind_some, found, Option.map_some]

theorem readCreate_eq_ok {name : String} {clean : Fields}
    (reads : readCreate unicode db appId name data now checked = .ok clean) :
    ∃ manifest, db.activeManifest? appId = some manifest ∧
      validateEntityData unicode manifest name clean = .ok clean := by
  simp only [readCreate, bind_eq_ok] at reads
  obtain ⟨_, _, manifest, active, accepted⟩ := reads
  refine ⟨manifest, activeManifest_eq_ok active, ?_⟩
  rwa [← validateEntityData_eq accepted] at accepted

/-- The data that an update is to store are the current ones with the patch. -/
theorem readUpdate_eq_ok {clean : Fields}
    (reads : readUpdate unicode db appId recordId data now checked = .ok clean) :
    ∃ manifest current, db.activeManifest? appId = some manifest ∧
      db.record? appId recordId = some current ∧
      clean = mergeData current.data (jsonObject (some data)) ∧
      validateEntityData unicode manifest current.entity clean = .ok clean := by
  simp only [readUpdate, bind_eq_ok] at reads
  obtain ⟨_, _, manifest, active, reads⟩ := reads
  split at reads
  · cases reads
  · rename_i current found
    have merged := validateEntityData_eq reads
    rw [← merged] at reads
    exact ⟨manifest, current, activeManifest_eq_ok active, found, merged, reads⟩

theorem record?_eq_some {record : GeneratedAppDataRecord}
    (found : db.record? appId recordId = some record) :
    record ∈ db.records ∧ record.id = recordId ∧ record.appId = appId := by
  have isRecord := List.find?_some found
  exact ⟨List.mem_of_find?_eq_some found, of_decide_eq_true isRecord⟩

theorem writeUpdate_eq_ok {expectedVersion : Int} {clean : Fields}
    (writes : writeUpdate platform appId recordId expectedVersion clean now checked db =
      .ok (response, after)) :
    ∃ current, db.record? appId recordId = some current ∧ current.version = expectedVersion ∧
      response = .record (current.revised clean checked.actor.userId now).stored ∧
      after = addDataEvent platform appId (current.revised clean checked.actor.userId now) checked
        "app.data.updated" "records.update" now
        (reviseRecord appId recordId expectedVersion clean checked.actor.userId now db) := by
  unfold writeUpdate at writes
  split at writes
  · cases writes
  · rename_i current found
    cases writes
    rw [Option.filter_eq_some_iff] at found
    exact ⟨current, found.1, of_decide_eq_true found.2, rfl, rfl⟩

theorem writeDelete_eq_ok {expectedVersion : Int} {state : GeneratedAppDataRecord}
    (writes : writeDelete appId recordId expectedVersion state now checked db =
      .ok (response, after)) :
    ∃ current, db.record? appId recordId = some current ∧ current.version = expectedVersion ∧
      response = .deleted ∧ after = addEvent (deletedEvent appId state now checked)
        (removeRecord appId recordId expectedVersion db) := by
  unfold writeDelete at writes
  split at writes
  · cases writes
  · rename_i current found
    cases writes
    rw [Option.filter_eq_some_iff] at found
    exact ⟨current, found.1, of_decide_eq_true found.2, rfl, rfl⟩

/-- The reads of a rollback are stored revisions. -/
theorem readRollback_eq_ok {expectedActiveRevisionId : Uuid}
    {revisions : GeneratedAppRevision × GeneratedAppRevision}
    (reads : readRollback db appId expectedActiveRevisionId = .ok revisions) :
    ∃ deployment, db.deployment? appId = some deployment ∧
      deployment.activeRevisionId = expectedActiveRevisionId ∧
      deployment.previousRevisionId = some revisions.2.id ∧
      db.revision? deployment.activeRevisionId = some revisions.1 ∧
      db.revision? revisions.2.id = some revisions.2 ∧ revisions.2.appId = appId ∧
      revisions.2.status = .ready := by
  unfold readRollback at reads
  split at reads
  · cases reads
  · rename_i deployment previous found
    simp only [Option.bind_eq_some_iff, Option.map_eq_some_iff, Prod.mk.injEq] at found
    obtain ⟨row, deployed, previousId, previous_eq, rfl, rfl⟩ := found
    simp only [bind_eq_ok, require_eq_ok, decide_eq_true_eq] at reads
    obtain ⟨_, isActive, _, _, reads⟩ := reads
    split at reads
    · rename_i replaced target foundReplaced foundTarget
      simp only [bind_eq_ok, require_eq_ok, pure_eq_ok, Bool.and_eq_true,
        decide_eq_true_eq] at reads
      obtain ⟨_, ⟨ofApp, isReady⟩, rfl⟩ := reads
      have targetId : target.id = previousId := by simpa using List.find?_some foundTarget
      rw [← targetId] at foundTarget previous_eq
      exact ⟨row, deployed, isActive, previous_eq, foundReplaced, foundTarget, ofApp, isReady⟩
    · cases reads

/-- The writes of a rollback: the promotion of its target, and an event. -/
theorem writeRollback_eq_ok {userId : Uuid}
    {revisions : GeneratedAppRevision × GeneratedAppRevision} {keyed : Option Checked}
    (writes : writeRollback unicode appId userId revisions now keyed db = .ok (response, after)) :
    ∃ promoted app deployment,
      validateExistingRecordsForManifest unicode db appId revisions.2.manifest = .ok () ∧
      promoteRevision unicode db appId revisions.2.id none now = .ok promoted ∧
      promoted.app? appId = some app ∧ promoted.deployment? appId = some deployment ∧
      response = .rolledBack (rollbackResponse app revisions.2 deployment) ∧
      (eventByKey db appId (rollbackEvent userId (rollbackResponse app revisions.2 deployment)
        revisions.1 revisions.2 now keyed).idempotencyKey).isNone = true ∧
      after = addEvent (rollbackEvent userId (rollbackResponse app revisions.2 deployment)
        revisions.1 revisions.2 now keyed) promoted := by
  obtain ⟨replaced, target⟩ := revisions
  simp only [writeRollback, bind_eq_ok] at writes
  obtain ⟨_, valid, promoted, promotes, writes⟩ := writes
  split at writes
  · rename_i app deployment foundApp deployed
    simp only [bind_eq_ok, pure_eq_ok, require_eq_ok] at writes
    obtain ⟨_, absent, same⟩ := writes
    cases same
    exact ⟨promoted, app, deployment, valid, promotes, foundApp, deployed, rfl, absent, rfl⟩
  · cases writes

/-- Only conversations, their members, reminders and the supply of identifiers changed. -/
structure Schedules (before after : AppsDb) : Prop where
  apps : after.apps = before.apps
  revisions : after.revisions = before.revisions
  deployments : after.deployments = before.deployments
  records : after.records = before.records
  events : after.events = before.events
  supply : before.nextId ≤ after.nextId

theorem resolveDirectConversation_eq_ok {userId : Uuid} {handle : String}
    {conversation : Conversation}
    (resolved : resolveDirectConversation db userId handle now = .ok (conversation, after)) :
    Schedules db after := by
  unfold resolveDirectConversation at resolved
  split at resolved
  · cases resolved
    exact ⟨rfl, rfl, rfl, rfl, rfl, le_refl _⟩
  · split at resolved
    · cases resolved
      exact ⟨rfl, rfl, rfl, rfl, rfl, Nat.le_add_right _ _⟩
    · cases resolved

theorem createScheduledTask_eq_ok {userId conversationId : Uuid} {key : String}
    {reminder : CleanReminder} {provider : Option String} {task : AppReminder}
    (created : createScheduledTask platform db userId conversationId key reminder provider now =
      .ok (task, after)) : Schedules db after := by
  unfold createScheduledTask at created
  split at created
  · cases created
    exact ⟨rfl, rfl, rfl, rfl, rfl, le_refl _⟩
  · simp only [bind_eq_ok, pure_eq_ok] at created
    obtain ⟨_, _, _, _, _, _, same⟩ := created
    cases same
    exact ⟨rfl, rfl, rfl, rfl, rfl, Nat.le_succ _⟩

/-- The writes of a reminder: a task, and an event. -/
theorem writeReminder_eq_ok {reminder : CleanReminder} {handle : String}
    (writes : writeReminder platform appId reminder handle now checked db = .ok (response, after)) :
    ∃ created task, Schedules db created ∧ response = .reminder task.stored ∧
      after = addEvent (reminderEvent platform appId task now checked) created := by
  unfold writeReminder at writes
  split at writes
  · cases writes
  · simp only [bind_eq_ok, pure_eq_ok] at writes
    obtain ⟨⟨direct, resolved⟩, resolves, ⟨task, created⟩, creates, same⟩ := writes
    cases same
    have first := resolveDirectConversation_eq_ok resolves
    have second := createScheduledTask_eq_ok creates
    refine ⟨created, task, ?_, rfl, rfl⟩
    exact ⟨second.apps.trans first.apps, second.revisions.trans first.revisions,
      second.deployments.trans first.deployments, second.records.trans first.records,
      second.events.trans first.events, le_trans first.supply second.supply⟩

end Stages

end DotBackend.Apps
