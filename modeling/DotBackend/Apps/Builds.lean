import DotBackend.Apps.Authority
import DotBackend.Apps.Validation

/-!
# Builds and deployments

What the transactions on builds make of the tables: queuing, claiming, completing and
failing a build, promoting and rolling back a revision, archiving. A job that is claimed
for the last time and abandoned is failed by the next worker that looks for work.
-/

namespace DotBackend.Apps

open Data Channel

variable {app : GeneratedApp} {job : GeneratedAppBuildJob}

/-! ## Records against a manifest -/

/-- `_validate_existing_records_for_manifest`. -/
def validateExistingRecordsForManifest (unicode : Unicode) (db : AppsDb) (appId : Uuid)
    (manifest : Json) : Except CodeAppError Unit :=
  forEach (fun record =>
    match validateEntityData unicode manifest record.entity record.data with
    | .ok _ => .ok ()
    | .error _ => .error
        (.validation "The revised data schema is incompatible with existing app records"))
    (db.records.filter fun record => record.appId = appId)

/-- `_enforce_app_storage_limit`. -/
def enforceAppStorageLimit (db : AppsDb) (appId : Uuid) (addedBytes : Nat) :
    Except CodeAppError Unit :=
  let usedBytes := ((db.records.filter fun record => record.appId = appId).map (·.dataBytes)).sum
  require (addedBytes = 0 || usedBytes + addedBytes ≤ 10000000)
    (.validation "This app has reached its storage limit")

/-- `GeneratedAppDataRecord(...)`. -/
def newRecord (db : AppsDb) (appId : Uuid) (name : String) (data : Fields) (userId : Option Uuid)
    (now : Instant) : GeneratedAppDataRecord where
  id := db.nextId
  appId := appId
  entity := name
  data := data
  dataBytes := jsonBytes (.obj data)
  version := 1
  createdByUserId := userId
  updatedByUserId := userId
  createdAt := now
  updatedAt := now

def insertRecord (record : GeneratedAppDataRecord) (db : AppsDb) : AppsDb :=
  { db with records := db.records ++ [record], nextId := db.nextId + 1 }

/-! ## Seeding -/

/-- The inner loop of `_seed_code_app_records`. -/
def seedRecords (unicode : Unicode) (appId userId : Uuid) (manifest : Json) (name : String)
    (now : Instant) : AppsDb → List Json → Except CodeAppError AppsDb
  | db, [] => .ok db
  | db, .obj raw :: rest => do
      let clean ← validateEntityData unicode manifest name raw
      enforceAppStorageLimit db appId (jsonBytes (.obj clean))
      seedRecords unicode appId userId manifest name now
        (insertRecord (newRecord db appId name clean (some userId) now) db) rest
  | db, _ :: rest => seedRecords unicode appId userId manifest name now db rest

/-- The seeds of an entity, under its name or its plural. -/
def seedCandidates (seedData : Fields) (name : String) : Option Json :=
  match Json.lookup seedData name with
  | none | some .null => Json.lookup seedData (name ++ "s")
  | some candidates => some candidates

/-- The body of the outer loop of `_seed_code_app_records`. -/
def seedEntity (unicode : Unicode) (appId userId : Uuid) (manifest : Json) (seedData : Fields)
    (now : Instant) (db : AppsDb) (name : String) : Except CodeAppError AppsDb :=
  match seedCandidates seedData name with
  | some (.arr candidates) =>
      seedRecords unicode appId userId manifest name now db (candidates.take 200)
  | _ => .ok db

/-- The outer loop of `_seed_code_app_records`. -/
def seedEntities (unicode : Unicode) (appId userId : Uuid) (manifest : Json) (seedData : Fields)
    (now : Instant) : AppsDb → List Json → Except CodeAppError AppsDb
  | db, [] => .ok db
  | db, definition :: rest => do
      let name ← entity (definition.get? "name")
      let seeded ← seedEntity unicode appId userId manifest seedData now db name
      seedEntities unicode appId userId manifest seedData now seeded rest

/-- `_seed_code_app_records`. -/
def seedCodeAppRecords (unicode : Unicode) (db : AppsDb) (appId userId : Uuid) (manifest : Json)
    (seedData : Fields) (now : Instant) : Except CodeAppError AppsDb := do
  validateManifest manifest
  match manifestEntities manifest with
  | .arr entities => seedEntities unicode appId userId manifest seedData now db entities
  | _ => pure db

/-! ## Promotion -/

/-- A stage of the compiled app's tests passed. -/
def stagePassed (results : Json) (stage : String) : Bool :=
  (results.get? stage).any fun result => result.get? "status" = some (.str "passed")

/-- `_validate_promotable_compiled_artifact`. -/
def validatePromotableCompiledArtifact (artifact : Json) (sdkVersion : String) :
    Except CodeAppError Unit := do
  match artifact with
  | .obj _ => pure ()
  | _ => .error (.validation "A compiled build artifact is required")
  match artifact.get? "browser_bundle" with
  | some (.obj bundle) =>
      match Json.lookup bundle "javascript", Json.lookup bundle "css", Json.lookup bundle "sha256",
        Json.lookup bundle "static_html" with
      | some (.str javascript), some (.str css), some (.str digest), some (.str staticHtml) => do
          require (Json.lookup bundle "format" = some (.str "iife") &&
              Text.strip javascript.toList ≠ [] && isDigest digest &&
              Text.strip staticHtml.toList ≠ [])
            (.validation "The compiled browser bundle is invalid")
          require (digest = sha256 (javascript.toList ++ Char.ofNat 0 :: css.toList))
            (.validation "The compiled browser bundle digest is invalid")
          require (Json.lookup bundle "sdk_version" = some (.str sdkVersion) &&
              artifact.get? "sdk_version" = some (.str sdkVersion))
            (.validation "The compiled browser bundle SDK version is invalid")
          let results := (artifact.get? "test_results").getD .null
          require (stagePassed results "policy" && stagePassed results "typescript_compile" &&
              stagePassed results "browser_smoke")
            (.validation "The compiled app did not pass every promotion gate")
          let browser := ((results.get? "browser_smoke").bind fun smoke =>
            smoke.get? "real_browser").bind fun browser => browser.get? "ready"
          require (browser = some (.bool true))
            (.validation "The compiled app did not pass real-browser acceptance")
      | _, _, _, _ => .error (.validation "The compiled browser bundle is invalid")
  | _ => .error (.validation "A compiled browser bundle is required")

/-- The assignments of `promote_revision` to a deployment. -/
def GeneratedAppDeployment.swappedTo (revisionId : Uuid) (row : GeneratedAppDeployment) :
    GeneratedAppDeployment :=
  { row with
    previousRevisionId := some row.activeRevisionId, activeRevisionId := revisionId
    deploymentVersion := row.deploymentVersion + 1 }

/-- The pointer swap of `promote_revision`. `expected` is the revision that has to be
active, when there is such a condition. -/
def swapDeployment (db : AppsDb) (appId revisionId : Uuid) (expected : Option (Option Uuid)) :
    Except CodeAppError AppsDb :=
  let current := (db.deployment? appId).map (·.activeRevisionId)
  if expected.any fun expected => current ≠ expected then
    .error (.staleBuild
      "The app changed after this build started; the stale build was not deployed")
  else
    match db.deployment? appId with
    | none =>
        .ok { db with deployments := db.deployments ++ [⟨appId, revisionId, none, 1⟩] }
    | some deployment =>
        if deployment.activeRevisionId = revisionId then .ok db
        else
          .ok (db.updateDeployment appId (GeneratedAppDeployment.swappedTo revisionId))

/-- The seeds of a revision: they are applied on the first deployment of an app without
records, and never again. -/
def consumeSeeds (unicode : Unicode) (db : AppsDb) (app : GeneratedApp)
    (revision : GeneratedAppRevision) (isFirstDeployment : Bool) (now : Instant) :
    Except CodeAppError AppsDb :=
  if revision.seedAppliedAt.isSome then .ok db
  else if isFirstDeployment && !(db.records.any fun record => record.appId = app.id) then do
    let seeded ← seedCodeAppRecords unicode db app.id app.userId revision.manifest
      revision.seedData now
    pure (seeded.updateRevision revision.id fun row => { row with seedAppliedAt := some now })
  else .ok (db.updateRevision revision.id fun row => { row with seedAppliedAt := some now })

/-- The columns of an app that describe its active revision. -/
def describeApp (db : AppsDb) (appId : Uuid) (revision : GeneratedAppRevision) : AppsDb :=
  db.updateApp appId fun row => {
    row with
    currentVersion := revision.revisionNumber
    title := revision.title
    description := revision.description }

/-- `promote_revision`. -/
def promoteRevision (unicode : Unicode) (db : AppsDb) (appId revisionId : Uuid)
    (expected : Option (Option Uuid)) (now : Instant) : Except CodeAppError AppsDb :=
  match db.revision? revisionId with
  | none => .error (.notFound "Revision was not found")
  | some revision => do
      require (revision.appId = appId) (.notFound "Revision was not found")
      validatePromotableCompiledArtifact revision.artifact revision.sdkVersion
      match db.app? appId with
      | none => .error (.notFound "Code app was not found")
      | some app => do
          require (app.runtimeKind = .code) (.notFound "Code app was not found")
          let swapped ← swapDeployment db appId revisionId expected
          consumeSeeds unicode (describeApp swapped appId revision) app revision
            (db.deployment? appId).isNone now

/-! ## The queue -/

/-- What the caller of `queue_code_app_revision` asks for. -/
structure QueueRequest where
  userId : Uuid
  appId : Uuid
  request : Fields
  deliveryProvider : Option String
  appUrl : Option String
  idempotencyKey : Option String
  idempotencyRequestHash : Option String
  deriving DecidableEq

/-- `_text` of a key that may be missing. -/
def cleanKey : Option String → Except CodeAppError (Option String)
  | none => .ok none
  | some key => do
      let clean ← text (.str key) "idempotency_key" 160
      pure (some clean)

/-- A text or `null`. -/
def optionJson : Option String → Json
  | none => .null
  | some value => .str value

/-- The checks of `queue_code_app_revision` on the request alone: its key and its hash. -/
def cleanQueueRequest (queue : QueueRequest) : Except CodeAppError (Option String × String) := do
  require (!queue.request.isEmpty) (.validation "Build request must be a non-empty object")
  requireJsonSize (.obj queue.request) "Build request" 1000000
  let key ← cleanKey queue.idempotencyKey
  let given ← validatedRequestHash queue.idempotencyRequestHash
  let hash ← match given with
    | some hash => .ok hash
    | none => idempotencyRequestHash "app.revise" [
        ("user_id", .str (String.ofList (uuidText queue.userId))),
        ("app_id", .str (String.ofList (uuidText queue.appId))),
        ("request", .obj queue.request),
        ("delivery_provider", optionJson queue.deliveryProvider),
        ("app_url", optionJson queue.appUrl)]
  pure (key, hash)

/-- `_ensure_no_live_build`. -/
def ensureNoLiveBuild (db : AppsDb) (appId : Uuid) : Except CodeAppError Unit :=
  require (db.jobs.all fun job => job.appId ≠ appId || !job.isLive)
    (.conflict "This app already has a revision in progress; wait for it to finish")

/-- `_enforce_user_app_build_quota` for an app that exists. -/
def enforceUserAppBuildQuota (db : AppsDb) (userId : Uuid) : Except CodeAppError Unit := do
  require (userId ∈ db.users) (.notFound "User was not found")
  let liveBuilds := db.jobs.filter fun job =>
    job.isLive && (db.app? job.appId).any fun app => app.userId = userId
  require (liveBuilds.length < 3) (.rateLimit
    "You already have several custom apps building. Wait for one to finish and try again.")

/-- `queue_code_app_revision` under the lock of the app: the job that was queued before
with the same key, if there is one. -/
def startQueue (db : AppsDb) (queue : QueueRequest) :
    Except CodeAppError (Option GeneratedAppBuildJob) := do
  let (key, hash) ← cleanQueueRequest queue
  let app ← lockedCodeApp db queue.appId
  let actor ← authorizeUserForLockedApp db app queue.userId
  require (actor.role = .owner || actor.role = .editor)
    (.authorization "Only an owner or editor can change this app")
  match key.bind fun key => db.jobs.find? fun job => job.idempotencyKey = some key with
  | some replay => do
      require (replay.requestHash = some hash)
        (.conflict "This idempotency key was already used for a different app build")
      pure (some replay)
  | none => do
      ensureNoLiveBuild db queue.appId
      pure none

/-- `queue_code_app_revision` under the lock of the user: the job to insert. -/
def newJob (db : AppsDb) (queue : QueueRequest) (now : Instant) :
    Except CodeAppError GeneratedAppBuildJob := do
  let (key, hash) ← cleanQueueRequest queue
  enforceUserAppBuildQuota db queue.userId
  pure {
    id := db.nextId
    appId := queue.appId
    baseRevisionId := (db.deployment? queue.appId).map (·.activeRevisionId)
    resultRevisionId := none
    status := .queued
    request := queue.request
    idempotencyKey := key
    requestHash := key.map fun _ => hash
    attempts := 0
    claimedBy := none
    leaseExpiresAt := none
    startedAt := none
    completedAt := none
    createdAt := now }

/-- The insertion of a job; its identifier is drawn by the insertion. -/
def insertJob (job : GeneratedAppBuildJob) (db : AppsDb) : AppsDb :=
  { db with jobs := db.jobs ++ [{ job with id := db.nextId }], nextId := db.nextId + 1 }

/-- The unique indexes of the table of jobs. -/
def jobsPermit (job : GeneratedAppBuildJob) (db : AppsDb) : Bool :=
  (db.jobs.all fun row => row.appId ≠ job.appId || !row.isLive) &&
    job.idempotencyKey.all fun key => db.jobs.all fun row => row.idempotencyKey ≠ some key

/-! ## Claiming -/

/-- The most claims of a job. -/
def maxBuildAttempts : Nat := 3

/-- The condition of `claim_next_build`. -/
def GeneratedAppBuildJob.eligible (now : Instant) (job : GeneratedAppBuildJob) : Bool :=
  job.status = .queued || job.status = .claimed && job.leaseExpiresAt.any fun lease => lease < now

/-- The assignments of a claim. -/
def GeneratedAppBuildJob.claimedFor (workerId : String) (leaseSeconds : Int) (now : Instant)
    (job : GeneratedAppBuildJob) : GeneratedAppBuildJob :=
  { job with
    status := .claimed, claimedBy := some workerId, attempts := job.attempts + 1
    startedAt := some (job.startedAt.getD now)
    leaseExpiresAt := some (now + max 15 (min leaseSeconds 900) * Schedules.second) }

/-- The assignments of a failure. -/
def GeneratedAppBuildJob.abandoned (now : Instant) (job : GeneratedAppBuildJob) :
    GeneratedAppBuildJob :=
  { job with
    status := .failed, claimedBy := none, leaseExpiresAt := none, completedAt := some now }

/-- `enqueue_user_event`: an event with the same key is kept. -/
def enqueueUserEvent (event : UserEvent) (db : AppsDb) : AppsDb :=
  if (db.userEvents.any fun row => row.idempotencyKey = event.idempotencyKey) then db
  else { db with userEvents := db.userEvents ++ [event] }

@[simp]
theorem enqueueUserEvent_jobs (event : UserEvent) (db : AppsDb) :
    (enqueueUserEvent event db).jobs = db.jobs := by
  unfold enqueueUserEvent
  split <;> rfl

@[simp]
theorem enqueueUserEvent_nextId (event : UserEvent) (db : AppsDb) :
    (enqueueUserEvent event db).nextId = db.nextId := by
  unfold enqueueUserEvent
  split <;> rfl

/-- `_terminalize_exhausted_build_claim`. -/
def terminalizeExhaustedBuildClaim (job : GeneratedAppBuildJob) (now : Instant) (db : AppsDb) :
    AppsDb :=
  let failed := db.updateJob job.id (GeneratedAppBuildJob.abandoned now)
  match db.app? job.appId with
  | none => failed
  | some app =>
      enqueueUserEvent ⟨app.userId, app.conversationId, .appBuildFailed job.id, app.id⟩ failed

/-! ## Settling -/

/-- `_claimed_job`. -/
def claimedJob (db : AppsDb) (jobId : Uuid) (workerId : String) (expectedAttempt : Int) :
    Except CodeAppError GeneratedAppBuildJob :=
  if expectedAttempt < 1 then .error (.conflict "Build claim attempt is invalid")
  else
    match db.jobs.find? fun job => job.id = jobId ∧ job.status = .claimed ∧
        job.claimedBy = some workerId ∧ (job.attempts : Int) = expectedAttempt with
    | some job => .ok job
    | none => .error (.conflict "Build claim is stale or belongs to another worker")

/-- The arguments of `complete_build`; `Json.null` stands for `None`. -/
structure BuildResult where
  jobId : Uuid
  workerId : String
  expectedAttempt : Int
  manifest : Json
  sourceFiles : Fields
  artifactUrl : String
  artifactSha256 : String
  sdkVersion : String
  dependencyLock : Json
  testResults : Json
  artifact : Json
  handoffBaseUrl : Option String
  deriving DecidableEq

/-- `value or {}`. -/
def orEmpty (value : Json) : Json :=
  if value.truthy then value else .obj []

/-- The checks of `complete_build` on what the worker sends. -/
def checkBuildResult (result : BuildResult) : Except CodeAppError Unit := do
  validateManifest result.manifest
  requireJsonSize (orEmpty result.artifact) "Build artifact" 4000000
  requireJsonSize (orEmpty result.dependencyLock) "Dependency lock" 64000
  requireJsonSize (orEmpty result.testResults) "Test results" 128000
  require (!result.sourceFiles.isEmpty)
    (.validation "A revision requires generated source files")
  require (isDigest result.artifactSha256)
    (.validation "artifact_sha256 must be a lowercase SHA-256 digest")
  validatePromotableCompiledArtifact result.artifact result.sdkVersion

/-- `a or b` on values that may be missing. -/
def orElseJson (first : Option Json) (second : Json) : Json :=
  match first with
  | some value => if value.truthy then value else second
  | none => second

/-- The revision that `complete_build` makes of a job and its result. -/
def newRevision (db : AppsDb) (app : GeneratedApp) (job : GeneratedAppBuildJob)
    (result : BuildResult) : Except CodeAppError GeneratedAppRevision := do
  let numbers := (db.revisions.filter fun revision => revision.appId = job.appId).map
    (·.revisionNumber)
  let blueprint := jsonObject (Json.lookup job.request "blueprint")
  let metadata := jsonObject (Json.lookup job.request "app_metadata")
  let title ← text (orElseJson (Json.lookup metadata "title")
    (orElseJson (Json.lookup blueprint "title") (.str app.title))) "title" 120
  let description ← optionalText (match Json.lookup metadata "description" with
    | none | some .null => (Json.lookup blueprint "description").getD (.str app.description)
    | some description => description) 500
  let seedData := jsonObject (Json.lookup blueprint "seed_data")
  requireJsonSize (.obj seedData) "Seed data" 128000
  discard (text (.str result.artifactUrl) "artifact_url" 4000)
  let sdkVersion ← text (.str result.sdkVersion) "sdk_version" 64
  pure {
    id := db.nextId
    appId := job.appId
    revisionNumber := numbers.foldl max 0 + 1
    title := title
    description := description
    status := .ready
    manifest := result.manifest
    seedData := seedData
    seedAppliedAt := none
    sourceFiles := result.sourceFiles
    artifact := orEmpty result.artifact
    sdkVersion := sdkVersion }

def insertRevision (revision : GeneratedAppRevision) (db : AppsDb) : AppsDb :=
  { db with revisions := db.revisions ++ [revision], nextId := db.nextId + 1 }

/-- The ticket that `complete_build` issues: a member's for a group or a shared app, else
the owner's. -/
def issueHandoffTicket (db : AppsDb) (app : GeneratedApp) (raw : String) (now : Instant) :
    Except CodeAppError AppsDb :=
  match (db.conversation? app.conversationId).filter fun row => row.kind = .group with
  | some conversation =>
      issueTrustedGroupHandoffTicket db app conversation maxAccessTicketTtlSeconds raw now
  | none =>
      if app.accessMode = .collaborativeLink then
        issueAccessTicket db app.id app.userId none .member maxAccessTicketTtlSeconds raw now
      else
        issueAccessTicket db app.id app.userId (some app.userId) .owner maxAccessTicketTtlSeconds
          raw now

/-- The handoff of `complete_build`. -/
def issueHandoff (db : AppsDb) (app : GeneratedApp) (handoffBaseUrl : Option String) (raw : String)
    (now : Instant) : Except CodeAppError AppsDb :=
  match handoffBaseUrl with
  | none => .ok db
  | some baseUrl => do
      let issued ← issueHandoffTicket db app raw now
      discard (text (.str baseUrl) "handoff_base_url" 4000)
      pure issued

/-- The assignments of `complete_build` to the job. -/
def GeneratedAppBuildJob.succeededWith (revisionId : Uuid) (now : Instant)
    (job : GeneratedAppBuildJob) : GeneratedAppBuildJob :=
  { job with
    status := .succeeded, resultRevisionId := some revisionId, completedAt := some now
    leaseExpiresAt := none }

/-- `complete_build` under the locks of the job and of the app. -/
def finishBuild (unicode : Unicode) (db : AppsDb) (job : GeneratedAppBuildJob)
    (result : BuildResult) (raw : String) (now : Instant) : Except CodeAppError AppsDb := do
  let app ← lockedCodeApp db job.appId
  let revision ← newRevision db app job result
  let stored := insertRevision revision db
  validateExistingRecordsForManifest unicode stored job.appId result.manifest
  let promoted ← promoteRevision unicode stored job.appId revision.id (some job.baseRevisionId) now
  let settled := promoted.updateJob job.id (GeneratedAppBuildJob.succeededWith revision.id now)
  let issued ← issueHandoff settled app result.handoffBaseUrl raw now
  pure (enqueueUserEvent ⟨app.userId, app.conversationId, .appBuildCompleted job.id, app.id⟩ issued)

/-- `complete_build`. -/
def completeBuild (unicode : Unicode) (db : AppsDb) (result : BuildResult) (raw : String)
    (now : Instant) : Except CodeAppError AppsDb := do
  let job ← claimedJob db result.jobId result.workerId result.expectedAttempt
  checkBuildResult result
  finishBuild unicode db job result raw now

/-- The arguments of `fail_build`. -/
structure BuildFailure where
  jobId : Uuid
  workerId : String
  expectedAttempt : Int
  error : String
  retryable : Bool
  deriving DecidableEq

/-- What `_safe_failure` says about another attempt. -/
def parsedRetryable (platform : Platform) (error : String) : Option Bool :=
  match (platform.loads error.toList).bind fun parsed => parsed.get? "retryable" with
  | some (.bool retryable) => some retryable
  | _ => none

/-- The assignments of `fail_build` to a job that is queued again. -/
def GeneratedAppBuildJob.requeued (job : GeneratedAppBuildJob) : GeneratedAppBuildJob :=
  { job with status := .queued, claimedBy := none, completedAt := none, leaseExpiresAt := none }

/-- The assignments of `fail_build` to a job that failed for good. -/
def GeneratedAppBuildJob.failedAt (now : Instant) (job : GeneratedAppBuildJob) :
    GeneratedAppBuildJob :=
  { job with status := .failed, completedAt := some now, leaseExpiresAt := none }

/-- A failed build is queued again. -/
def retries (platform : Platform) (failure : BuildFailure) (job : GeneratedAppBuildJob) : Bool :=
  (parsedRetryable platform failure.error).getD failure.retryable &&
    (job.attempts < maxBuildAttempts : Bool)

/-- `fail_build` under the lock of the job. -/
def settleFailure (platform : Platform) (db : AppsDb) (job : GeneratedAppBuildJob)
    (failure : BuildFailure) (now : Instant) : Except CodeAppError AppsDb := do
  discard (text (.str failure.error) "error" 4000)
  match db.app? job.appId with
  | none => .error (.notFound "App was not found")
  | some app =>
      if retries platform failure job then
        pure (db.updateJob job.id GeneratedAppBuildJob.requeued)
      else
        pure (enqueueUserEvent ⟨app.userId, app.conversationId, .appBuildFailed job.id, app.id⟩
          (db.updateJob job.id (GeneratedAppBuildJob.failedAt now)))

/-- `fail_build`. -/
def failBuild (platform : Platform) (db : AppsDb) (failure : BuildFailure) (now : Instant) :
    Except CodeAppError AppsDb := do
  let job ← claimedJob db failure.jobId failure.workerId failure.expectedAttempt
  settleFailure platform db job failure now

/-! ## Archiving -/

/-- The check of `archive_generated_app`. -/
def mayArchive (db : AppsDb) (userId appId : Uuid) : Bool :=
  match authorizeUser db appId userId, db.app? appId with
  | .ok actor, some app => actor.role = .owner && app.userId = userId && app.status = .active
  | _, _ => false

/-- The writes of `archive_generated_app`. -/
def archiveGeneratedApp (appId : Uuid) (now : Instant) (db : AppsDb) : AppsDb :=
  { db.updateApp appId fun row => { row with status := .archived } with
    sessions := Table.update (fun row => row.appId == appId && row.revokedAt.isNone)
      (fun row => { row with revokedAt := some now }) db.sessions
    tickets := Table.update (fun row => row.appId == appId && now < row.expiresAt)
      (fun row => { row with expiresAt := now }) db.tickets
    jobs := Table.update (fun row => row.appId == appId && row.isLive)
      (GeneratedAppBuildJob.abandoned now) db.jobs }

/-! ## What a promotion leaves alone -/

/-- The columns of an app that decide who may use it. -/
def GeneratedApp.access (app : GeneratedApp) :
    Uuid × Uuid × Uuid × GeneratedAppAccessMode × GeneratedAppStatus × GeneratedAppRuntimeKind :=
  (app.id, app.userId, app.conversationId, app.accessMode, app.status, app.runtimeKind)

/-- The app that is found under an identifier may be used as before. -/
theorem access_of_app? {db after : AppsDb}
    (access : after.apps.map GeneratedApp.access = db.apps.map GeneratedApp.access) (id : Uuid) :
    (after.app? id).map GeneratedApp.access = (db.app? id).map GeneratedApp.access := by
  have byId : ∀ tables : AppsDb, (tables.app? id).map GeneratedApp.access =
      (tables.apps.map GeneratedApp.access).find? fun row => row.1 = id := by
    intro tables
    rw [List.find?_map]
    rfl
  rw [byId, byId, access]

/-- Only revisions, deployments, records and the descriptions of apps changed. -/
structure Promotes (before after : AppsDb) : Prop where
  users : after.users = before.users
  conversations : after.conversations = before.conversations
  members : after.members = before.members
  memberships : after.memberships = before.memberships
  tickets : after.tickets = before.tickets
  sessions : after.sessions = before.sessions
  jobs : after.jobs = before.jobs
  events : after.events = before.events
  userEvents : after.userEvents = before.userEvents
  reminders : after.reminders = before.reminders
  supply : before.nextId ≤ after.nextId
  access : after.apps.map GeneratedApp.access = before.apps.map GeneratedApp.access

namespace Promotes

variable {before middle after : AppsDb}

theorem refl (db : AppsDb) : Promotes db db :=
  ⟨rfl, rfl, rfl, rfl, rfl, rfl, rfl, rfl, rfl, rfl, le_refl _, rfl⟩

theorem trans (first : Promotes before middle) (second : Promotes middle after) :
    Promotes before after where
  users := second.users.trans first.users
  conversations := second.conversations.trans first.conversations
  members := second.members.trans first.members
  memberships := second.memberships.trans first.memberships
  tickets := second.tickets.trans first.tickets
  sessions := second.sessions.trans first.sessions
  jobs := second.jobs.trans first.jobs
  events := second.events.trans first.events
  userEvents := second.userEvents.trans first.userEvents
  reminders := second.reminders.trans first.reminders
  supply := le_trans first.supply second.supply
  access := second.access.trans first.access

end Promotes

section Promotion

variable {unicode : Unicode} {appId userId : Uuid} {manifest : Json} {now : Instant}
  {db after : AppsDb}

theorem promotes_insertRecord (record : GeneratedAppDataRecord) :
    Promotes db (insertRecord record db) :=
  ⟨rfl, rfl, rfl, rfl, rfl, rfl, rfl, rfl, rfl, rfl, Nat.le_succ _, rfl⟩

theorem promotes_insertRevision (revision : GeneratedAppRevision) :
    Promotes db (insertRevision revision db) :=
  ⟨rfl, rfl, rfl, rfl, rfl, rfl, rfl, rfl, rfl, rfl, Nat.le_succ _, rfl⟩

theorem promotes_updateRevision (id : Uuid)
    (change : GeneratedAppRevision → GeneratedAppRevision) :
    Promotes db (db.updateRevision id change) :=
  ⟨rfl, rfl, rfl, rfl, rfl, rfl, rfl, rfl, rfl, rfl, le_refl _, rfl⟩

theorem promotes_updateApp (id : Uuid) {change : GeneratedApp → GeneratedApp}
    (sameAccess : ∀ app, (change app).access = app.access) : Promotes db (db.updateApp id change) :=
  ⟨rfl, rfl, rfl, rfl, rfl, rfl, rfl, rfl, rfl, rfl, le_refl _,
    Table.map_update_of_keeps GeneratedApp.access sameAccess db.apps⟩

theorem promotes_describeApp (revision : GeneratedAppRevision) :
    Promotes db (describeApp db appId revision) :=
  promotes_updateApp appId fun _ => rfl

theorem promotes_seedRecords {name : String} {candidates : List Json}
    (seeded : seedRecords unicode appId userId manifest name now db candidates = .ok after) :
    Promotes db after := by
  induction candidates generalizing db with
  | nil =>
      cases seeded
      exact Promotes.refl _
  | cons candidate rest ih =>
      cases candidate with
      | obj raw =>
          simp only [seedRecords, bind_eq_ok] at seeded
          obtain ⟨clean, _, _, _, later⟩ := seeded
          exact (promotes_insertRecord _).trans (ih later)
      | null | bool | int | float | str | arr => exact ih seeded

theorem promotes_seedEntities {seedData : Fields} {entities : List Json}
    (seeded : seedEntities unicode appId userId manifest seedData now db entities = .ok after) :
    Promotes db after := by
  induction entities generalizing db with
  | nil =>
      cases seeded
      exact Promotes.refl _
  | cons definition rest ih =>
      simp only [seedEntities, bind_eq_ok] at seeded
      obtain ⟨name, _, middle, first, later⟩ := seeded
      have firstPromotes : Promotes db middle := by
        unfold seedEntity at first
        split at first
        · exact promotes_seedRecords first
        · cases first
          exact Promotes.refl _
      exact firstPromotes.trans (ih later)

theorem promotes_seedCodeAppRecords {seedData : Fields}
    (seeded : seedCodeAppRecords unicode db appId userId manifest seedData now = .ok after) :
    Promotes db after := by
  simp only [seedCodeAppRecords, bind_eq_ok] at seeded
  obtain ⟨_, _, seeded⟩ := seeded
  split at seeded
  · exact promotes_seedEntities seeded
  · cases seeded
    exact Promotes.refl _

theorem promotes_consumeSeeds {revision : GeneratedAppRevision}
    {isFirstDeployment : Bool}
    (consumed : consumeSeeds unicode db app revision isFirstDeployment now = .ok after) :
    Promotes db after := by
  unfold consumeSeeds at consumed
  split at consumed
  · cases consumed
    exact Promotes.refl _
  · split at consumed
    · simp only [bind_eq_ok, pure_eq_ok] at consumed
      obtain ⟨seeded, seeds, rfl⟩ := consumed
      exact (promotes_seedCodeAppRecords seeds).trans (promotes_updateRevision _ _)
    · cases consumed
      exact promotes_updateRevision _ _

theorem promotes_swapDeployment {revisionId : Uuid} {expected : Option (Option Uuid)}
    (swapped : swapDeployment db appId revisionId expected = .ok after) : Promotes db after := by
  unfold swapDeployment at swapped
  simp only at swapped
  split at swapped
  · cases swapped
  · split at swapped
    · cases swapped
      exact ⟨rfl, rfl, rfl, rfl, rfl, rfl, rfl, rfl, rfl, rfl, le_refl _, rfl⟩
    · split at swapped
      · cases swapped
        exact Promotes.refl db
      · cases swapped
        exact ⟨rfl, rfl, rfl, rfl, rfl, rfl, rfl, rfl, rfl, rfl, le_refl _, rfl⟩

theorem promotes_promoteRevision {revisionId : Uuid} {expected : Option (Option Uuid)}
    (promoted : promoteRevision unicode db appId revisionId expected now = .ok after) :
    Promotes db after := by
  unfold promoteRevision at promoted
  split at promoted
  · cases promoted
  · simp only [bind_eq_ok] at promoted
    obtain ⟨_, _, _, _, promoted⟩ := promoted
    split at promoted
    · cases promoted
    · simp only [bind_eq_ok] at promoted
      obtain ⟨_, _, swapped, swaps, consumes⟩ := promoted
      have swapsPromote := promotes_swapDeployment swaps
      exact (swapsPromote.trans (promotes_describeApp _)).trans (promotes_consumeSeeds consumes)

end Promotion

/-! ## What a settlement changes -/

section Settlement

variable {unicode : Unicode} {platform : Platform} {db after : AppsDb} {raw : String}
  {now : Instant}

/-- The handoff adds at most one ticket: a member's without a principal, or the owner's
that the user of an app outside of unclaimed groups may issue. -/
theorem issueHandoff_eq {baseUrl : Option String}
    (issued : issueHandoff db app baseUrl raw now = .ok after) :
    after = db ∨ ∃ issuer principal role, after =
      persistAccessTicket db app.id issuer principal role maxAccessTicketTtlSeconds raw now := by
  unfold issueHandoff at issued
  split at issued
  · cases issued
    exact Or.inl rfl
  · apply Or.inr
    simp only [bind_eq_ok, pure_eq_ok] at issued
    obtain ⟨handed, issued, _, _, rfl⟩ := issued
    unfold issueHandoffTicket issueTrustedGroupHandoffTicket at issued
    split at issued
    · split at issued
      · cases issued
      · cases issued
        exact ⟨_, _, _, rfl⟩
    · unfold issueAccessTicket at issued
      split at issued
      · simp only [bind_eq_ok, pure_eq_ok] at issued
        obtain ⟨_, _, _, _, _, _, rfl⟩ := issued
        exact ⟨_, _, _, rfl⟩
      · simp only [bind_eq_ok, pure_eq_ok] at issued
        obtain ⟨_, _, _, _, _, _, rfl⟩ := issued
        exact ⟨_, _, _, rfl⟩

/-- The steps of a completion that succeeds. -/
theorem finishBuild_eq_ok {result : BuildResult}
    (finished : finishBuild unicode db job result raw now = .ok after) :
    ∃ app revision promoted issued, lockedCodeApp db job.appId = .ok app ∧
      newRevision db app job result = .ok revision ∧
      validateExistingRecordsForManifest unicode (insertRevision revision db) job.appId
        result.manifest = .ok () ∧
      promoteRevision unicode (insertRevision revision db) job.appId revision.id
        (some job.baseRevisionId) now = .ok promoted ∧
      issueHandoff (promoted.updateJob job.id
        (GeneratedAppBuildJob.succeededWith revision.id now)) app result.handoffBaseUrl raw now =
        .ok issued ∧
      after = enqueueUserEvent
        ⟨app.userId, app.conversationId, .appBuildCompleted job.id, app.id⟩ issued := by
  simp only [finishBuild, bind_eq_ok, pure_eq_ok] at finished
  obtain ⟨app, locked, revision, made, _, valid, promoted, promotes, issued, issues, rfl⟩ :=
    finished
  exact ⟨app, revision, promoted, issued, locked, made, valid, promotes, issues, rfl⟩

/-- The revision of a completion is a new one, with the manifest of its result. -/
theorem newRevision_eq_ok {result : BuildResult}
    {revision : GeneratedAppRevision} (made : newRevision db app job result = .ok revision) :
    revision.id = db.nextId ∧ revision.appId = job.appId ∧ revision.status = .ready ∧
      revision.manifest = result.manifest ∧ revision.revisionNumber =
        ((db.revisions.filter fun row => row.appId = job.appId).map
          (·.revisionNumber)).foldl max 0 + 1 := by
  simp only [newRevision, bind_eq_ok, pure_eq_ok] at made
  obtain ⟨_, _, _, _, _, _, _, _, _, _, rfl⟩ := made
  exact ⟨rfl, rfl, rfl, rfl, rfl⟩

/-- The handoff touches tickets only. -/
theorem issueHandoff_frame {baseUrl : Option String}
    (issued : issueHandoff db app baseUrl raw now = .ok after) :
    ∃ tickets, after = { db with tickets := tickets } := by
  rcases issueHandoff_eq issued with rfl | ⟨_, _, _, rfl⟩
  · exact ⟨after.tickets, rfl⟩
  · exact ⟨_, rfl⟩

/-- A failure either queues the job again, or fails it and tells so. -/
theorem settleFailure_eq_ok {failure : BuildFailure}
    (settled : settleFailure platform db job failure now = .ok after) :
    (retries platform failure job = true ∧
        after = db.updateJob job.id GeneratedAppBuildJob.requeued) ∨
      (retries platform failure job = false ∧ ∃ app, db.app? job.appId = some app ∧
        after = enqueueUserEvent ⟨app.userId, app.conversationId, .appBuildFailed job.id, app.id⟩
          (db.updateJob job.id (GeneratedAppBuildJob.failedAt now))) := by
  simp only [settleFailure, bind_eq_ok] at settled
  obtain ⟨_, _, settled⟩ := settled
  split at settled
  · cases settled
  · rename_i app found
    split at settled
    · rename_i again
      cases settled
      exact Or.inl ⟨again, rfl⟩
    · rename_i never
      cases settled
      exact Or.inr ⟨Bool.not_eq_true _ |>.mp never, app, found, rfl⟩

/-- The job that a settlement finds is in the hands of the worker, at that attempt. -/
theorem claimedJob_eq_ok {jobId : Uuid} {workerId : String} {expectedAttempt : Int}
    (claimed : claimedJob db jobId workerId expectedAttempt = .ok job) :
    job ∈ db.jobs ∧ job.id = jobId ∧ job.status = .claimed ∧ job.claimedBy = some workerId ∧
      (job.attempts : Int) = expectedAttempt := by
  unfold claimedJob at claimed
  split at claimed
  · cases claimed
  · split at claimed
    · rename_i found
      cases claimed
      have isClaim := List.find?_some found
      exact ⟨List.mem_of_find?_eq_some found, of_decide_eq_true isClaim⟩
    · cases claimed

end Settlement

end DotBackend.Apps
