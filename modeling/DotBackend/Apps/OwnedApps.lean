import DotBackend.Apps.Builds

/-!
# Revising an owned app

An owner asks for a revision: the blueprint of the next build is put together from the
request, the app, its active revision, and the blueprint that the active revision was
built from.
-/

namespace DotBackend.Apps

open Data Channel

/-! ## Queuing a build -/

/-- `_validate_build_replay`. -/
def validateBuildReplay (job : GeneratedAppBuildJob) (hash : String) :
    Except CodeAppError Unit :=
  require (job.requestHash = some hash)
    (.conflict "This idempotency key was already used for a different app build")

/-- `_build_by_idempotency_key`. -/
def buildByIdempotencyKey (db : AppsDb) (key : String) : Option GeneratedAppBuildJob :=
  db.jobs.find? fun job => job.idempotencyKey = some key

/-- The answer of `queue_code_app_revision` when a unique index refuses its job. -/
def refusedJob (db : AppsDb) (queue : QueueRequest) : Except CodeAppError GeneratedAppBuildJob := do
  let (key, hash) ← cleanQueueRequest queue
  match key.bind (buildByIdempotencyKey db) with
  | some replay => do
      validateBuildReplay replay hash
      pure replay
  | none => .error (.conflict
      "This app already has a revision in progress; wait for it to finish")

/-- `queue_code_app_revision`. -/
def queueCodeAppRevision (db : AppsDb) (queue : QueueRequest) (now : Instant) :
    Except CodeAppError (GeneratedAppBuildJob × AppsDb) := do
  let started ← startQueue db queue
  match started with
  | some replay => pure (replay, db)
  | none => do
      let job ← newJob db queue now
      if jobsPermit job db then pure ({ job with id := db.nextId }, insertJob job db)
      else do
        let replay ← refusedJob db queue
        pure (replay, db)

/-! ## The blueprint of a revision -/

structure OwnedCodeApp where
  app : GeneratedApp
  revision : Option GeneratedAppRevision
  deployment : Option GeneratedAppDeployment
  actor : AppActor
  deriving DecidableEq

/-- `get_owned_code_app`. -/
def getOwnedCodeApp (db : AppsDb) (appId userId : Uuid) : Except CodeAppError OwnedCodeApp := do
  let app ← lockedCodeApp db appId
  let actor ← authorizeUserForLockedApp db app userId
  require (actor.role = .owner)
    (.authorization "Only the app owner can manage it through private chat")
  let deployment := db.deployment? app.id
  pure ⟨app, deployment.bind fun deployment => db.revision? deployment.activeRevisionId,
    deployment, actor⟩

/-- `_active_blueprint`. -/
def activeBlueprint (db : AppsDb) (appId revisionId : Uuid) : Fields :=
  let built := db.jobs.filter fun job => job.appId = appId && job.resultRevisionId = some revisionId
  match (Table.orderBy (fun a b => b.createdAt ≤ a.createdAt) built).head? with
  | none => []
  | some job => jsonObject (some ((Json.lookup job.request "blueprint").getD (.obj job.request)))

/-- `_revision_context`: the sources, then the seeds are left out when it is too large. -/
def revisionContext (revision : GeneratedAppRevision) : Except CodeAppError Fields :=
  let context (seedData sourceFiles : Json) : Fields :=
    [("revision_id", .str (String.ofList (uuidText revision.id))),
      ("revision_number", .int revision.revisionNumber), ("manifest", revision.manifest),
      ("seed_data", seedData), ("source_files", sourceFiles)]
  let paths := (revision.sourceFiles.map Prod.fst).insertionSort fun a b => a ≤ b
  let omittedFiles : Json := .obj [("omitted", .bool true),
    ("paths", .arr ((paths.take 64).map .str))]
  let full := context (.obj revision.seedData) (.obj revision.sourceFiles)
  let withoutFiles := context (.obj revision.seedData) omittedFiles
  let bare := context (.obj [("omitted", .bool true)]) omittedFiles
  if jsonBytes (.obj full) ≤ 768000 then .ok full
  else if jsonBytes (.obj withoutFiles) ≤ 768000 then .ok withoutFiles
  else do
    requireJsonSize (.obj bare) "Base revision context" 768000
    pure bare

/-- What the caller of `queue_owned_code_app_revision` asks for; `none` stands for
`None`. -/
structure OwnedRevisionRequest where
  userId : Uuid
  appId : Uuid
  revisionRequest : String
  title : Option String
  description : Option String
  visualDirection : Option String
  manifest : Option Json
  seedData : Option Fields
  deliveryProvider : Option String
  appUrl : Option String
  idempotencyKey : Option String
  idempotencyRequestHash : Option String
  deriving DecidableEq

/-- `previous_blueprint.get(name)`. -/
def member (fields : Fields) (name : String) : Json :=
  (Json.lookup fields name).getD .null

/-- A given text is cleaned, and a missing one has a default. -/
def givenText (value : Option String) (field : String) (maxLength : Nat) (default : String) :
    Except CodeAppError String :=
  match value with
  | some value => text (.str value) field maxLength
  | none => .ok default

/-- The blueprint that `queue_owned_code_app_revision` queues, and the title and the
description that it intends. -/
structure IntendedRevision where
  title : String
  description : String
  blueprint : Fields
  deriving DecidableEq

/-- The body of `queue_owned_code_app_revision` between its replay and its queuing. -/
def intendedRevision (unicode : Unicode) (db : AppsDb) (owned : OwnedCodeApp)
    (revision : GeneratedAppRevision) (request : OwnedRevisionRequest) :
    Except CodeAppError IntendedRevision := do
  let change ← text (.str request.revisionRequest) "revision_request" 4000
  let previous := activeBlueprint db request.appId revision.id
  let title ← givenText request.title "title" 120 owned.app.title
  let description ← match request.description with
    | some description => optionalText (.str description) 500
    | none => .ok owned.app.description
  let manifest := request.manifest.getD revision.manifest
  validateManifest manifest
  if request.manifest.isSome then
    validateExistingRecordsForManifest unicode db request.appId manifest
  let seedData := request.seedData.getD (jsonObject (Json.lookup previous "seed_data"))
  requireJsonSize (.obj seedData) "Seed data" 128000
  let fallback := if description.isEmpty then title else description
  let direction ← givenText request.visualDirection "visual_direction" 1000
    (fallbackText (member previous "visual_direction") "purpose-native and mobile-first" 1000)
  let context ← revisionContext revision
  pure {
    title := title
    description := description
    blueprint := [("title", .str title), ("description", .str description),
      ("purpose", .str (fallbackText (member previous "purpose") fallback 500)),
      ("layout", .str (fallbackText (member previous "layout") "workspace" 48)),
      ("accent", .str (fallbackText (member previous "accent") "coral" 16)),
      ("product_brief", .str (fallbackText (member previous "product_brief") fallback 4000)),
      ("visual_direction", .str direction), ("manifest", manifest), ("seed_data", .obj seedData),
      ("revision_request", .str change), ("base_revision", .obj context)] }

/-- The request that `queue_owned_code_app_revision` passes on. -/
def queueRequestOf (request : OwnedRevisionRequest) (intended : IntendedRevision)
    (key hash : Option String) : QueueRequest where
  userId := request.userId
  appId := request.appId
  request := [("blueprint", .obj intended.blueprint),
    ("app_metadata", .obj [("title", .str intended.title),
      ("description", .str intended.description)])]
  deliveryProvider := request.deliveryProvider
  appUrl := request.appUrl
  idempotencyKey := key
  idempotencyRequestHash := hash

/-- `queue_owned_code_app_revision` for a request without a stored replay. -/
def queueIntendedRevision (unicode : Unicode) (db : AppsDb) (owned : OwnedCodeApp)
    (request : OwnedRevisionRequest) (key hash : Option String) (now : Instant) :
    Except CodeAppError (GeneratedAppBuildJob × AppsDb) :=
  match owned.revision with
  | none => .error (.conflict "App must finish its first build before it can be revised")
  | some revision => do
      let intended ← intendedRevision unicode db owned revision request
      queueCodeAppRevision db (queueRequestOf request intended key hash) now

/-- `queue_owned_code_app_revision`. -/
def queueOwnedCodeAppRevision (unicode : Unicode) (db : AppsDb) (request : OwnedRevisionRequest)
    (now : Instant) : Except CodeAppError (GeneratedAppBuildJob × AppsDb) := do
  let key ← cleanKey request.idempotencyKey
  let hash ← validatedRequestHash request.idempotencyRequestHash
  let owned ← getOwnedCodeApp db request.appId request.userId
  match key, hash with
  | some clean, some given =>
      match buildByIdempotencyKey db clean with
      | some replay => do
          validateBuildReplay replay given
          pure (replay, db)
      | none => queueIntendedRevision unicode db owned request key hash now
  | _, _ => queueIntendedRevision unicode db owned request key hash now

/-! ## Claiming -/

/-- The loop of `claim_next_build` over the jobs that are eligible, in order. -/
def claimBuilds (workerId : String) (leaseSeconds : Int) (now : Instant) :
    List GeneratedAppBuildJob → AppsDb → AppsDb
  | [], db => db
  | job :: rest, db =>
      if maxBuildAttempts ≤ job.attempts then
        claimBuilds workerId leaseSeconds now rest (terminalizeExhaustedBuildClaim job now db)
      else db.updateJob job.id (GeneratedAppBuildJob.claimedFor workerId leaseSeconds now)

/-- `claim_next_build` of a single worker. -/
def claimNextBuild (db : AppsDb) (workerId : String) (leaseSeconds : Int) (now : Instant) :
    Except CodeAppError AppsDb := do
  let clean ← text (.str workerId) "worker_id" 120
  pure (claimBuilds clean leaseSeconds now (Table.orderBy (fun a b => a.createdAt ≤ b.createdAt)
    (db.jobs.filter (GeneratedAppBuildJob.eligible now))) db)

/-! ## What queuing leaves alone -/

/-- Only jobs, the outbox and the supply of identifiers may change. -/
structure QueueOnly (before after : AppsDb) : Prop where
  apps : after.apps = before.apps
  revisions : after.revisions = before.revisions
  deployments : after.deployments = before.deployments
  records : after.records = before.records
  events : after.events = before.events
  supply : before.nextId ≤ after.nextId

namespace QueueOnly

variable {before middle after : AppsDb}

theorem refl (db : AppsDb) : QueueOnly db db :=
  ⟨rfl, rfl, rfl, rfl, rfl, le_refl _⟩

theorem trans (first : QueueOnly before middle) (second : QueueOnly middle after) :
    QueueOnly before after where
  apps := second.apps.trans first.apps
  revisions := second.revisions.trans first.revisions
  deployments := second.deployments.trans first.deployments
  records := second.records.trans first.records
  events := second.events.trans first.events
  supply := le_trans first.supply second.supply

end QueueOnly

section QueueOnly

variable {unicode : Unicode} {db after : AppsDb} {job : GeneratedAppBuildJob} {now : Instant}

theorem queueOnly_updateJob (id : Uuid) (change : GeneratedAppBuildJob → GeneratedAppBuildJob) :
    QueueOnly db (db.updateJob id change) :=
  ⟨rfl, rfl, rfl, rfl, rfl, le_refl _⟩

theorem queueOnly_enqueueUserEvent (event : UserEvent) :
    QueueOnly db (enqueueUserEvent event db) := by
  unfold enqueueUserEvent
  split
  · exact QueueOnly.refl db
  · exact ⟨rfl, rfl, rfl, rfl, rfl, le_refl _⟩

theorem queueOnly_terminalize :
    QueueOnly db (terminalizeExhaustedBuildClaim job now db) := by
  unfold terminalizeExhaustedBuildClaim
  dsimp only
  split
  · exact queueOnly_updateJob _ _
  · exact (queueOnly_updateJob _ _).trans (queueOnly_enqueueUserEvent _)

theorem queueOnly_claimBuilds {workerId : String} {leaseSeconds : Int}
    (jobs : List GeneratedAppBuildJob) :
    QueueOnly db (claimBuilds workerId leaseSeconds now jobs db) := by
  induction jobs generalizing db with
  | nil => exact QueueOnly.refl db
  | cons job rest ih =>
      unfold claimBuilds
      split
      · exact queueOnly_terminalize.trans ih
      · exact queueOnly_updateJob _ _

theorem queueOnly_queueCodeAppRevision {queue : QueueRequest}
    (queued : queueCodeAppRevision db queue now = .ok (job, after)) : QueueOnly db after := by
  simp only [queueCodeAppRevision, bind_eq_ok] at queued
  obtain ⟨started, _, queued⟩ := queued
  cases started with
  | some replay =>
      cases queued
      exact QueueOnly.refl db
  | none =>
      simp only [bind_eq_ok] at queued
      obtain ⟨made, _, queued⟩ := queued
      split at queued
      · cases queued
        exact ⟨rfl, rfl, rfl, rfl, rfl, Nat.le_succ _⟩
      · simp only [bind_eq_ok, pure_eq_ok] at queued
        obtain ⟨replay, _, same⟩ := queued
        cases same
        exact QueueOnly.refl db

theorem queueOnly_queueOwnedCodeAppRevision {request : OwnedRevisionRequest}
    (queued : queueOwnedCodeAppRevision unicode db request now = .ok (job, after)) :
    QueueOnly db after := by
  have intends : ∀ {owned key hash},
      queueIntendedRevision unicode db owned request key hash now = .ok (job, after) →
        QueueOnly db after := by
    intro owned key hash intended
    unfold queueIntendedRevision at intended
    split at intended
    · cases intended
    · simp only [bind_eq_ok] at intended
      obtain ⟨_, _, passedOn⟩ := intended
      exact queueOnly_queueCodeAppRevision passedOn
  simp only [queueOwnedCodeAppRevision, bind_eq_ok] at queued
  obtain ⟨key, _, hash, _, owned, _, queued⟩ := queued
  split at queued
  · split at queued
    · simp only [bind_eq_ok, pure_eq_ok] at queued
      obtain ⟨_, _, same⟩ := queued
      cases same
      exact QueueOnly.refl db
    · exact intends queued
  · exact intends queued

theorem queueOnly_failBuild {platform : Platform} {failure : BuildFailure}
    (failed : failBuild platform db failure now = .ok after) : QueueOnly db after := by
  simp only [failBuild, bind_eq_ok] at failed
  obtain ⟨job, _, settled⟩ := failed
  rcases settleFailure_eq_ok settled with ⟨_, rfl⟩ | ⟨_, app, _, rfl⟩
  · exact queueOnly_updateJob _ _
  · exact (queueOnly_updateJob _ _).trans (queueOnly_enqueueUserEvent _)

end QueueOnly

end DotBackend.Apps
