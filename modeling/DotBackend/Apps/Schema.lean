import DotBackend.Channel.Schema
import DotBackend.Data.Result
import DotBackend.Schedules.Task

/-!
# The tables of generated apps

The rows of apps, their revisions, builds, data and access, and the conversations that
own them. Columns that no modelled function reads are left out.
-/

namespace DotBackend.Apps

open Data Channel

/-- The exceptions of the service; `internal` is one that is not its own. -/
inductive CodeAppError
  | notFound (message : String)
  | authorization (message : String)
  | conflict (message : String)
  | staleBuild (message : String)
  | validation (message : String)
  | rateLimit (message : String)
  | internal (message : String)
  deriving DecidableEq

inductive GeneratedAppStatus
  | active | archived
  deriving DecidableEq

inductive GeneratedAppRuntimeKind
  | legacy | code
  deriving DecidableEq

inductive GeneratedAppAccessMode
  | privateLink | collaborativeLink
  deriving DecidableEq

inductive GeneratedAppRole
  | owner | editor | member | viewer
  deriving DecidableEq

inductive GeneratedAppBuildStatus
  | queued | claimed | succeeded | failed
  deriving DecidableEq

inductive GeneratedAppRevisionStatus
  | ready | rejected
  deriving DecidableEq

/-- The members of a JSON object. -/
abbrev Fields := List (String × Json)

structure GeneratedApp where
  id : Uuid
  userId : Uuid
  conversationId : Uuid
  publicId : String
  title : String
  description : String
  accessMode : GeneratedAppAccessMode
  status : GeneratedAppStatus
  runtimeKind : GeneratedAppRuntimeKind
  currentVersion : Nat
  deriving DecidableEq

structure GeneratedAppRevision where
  id : Uuid
  appId : Uuid
  revisionNumber : Nat
  title : String
  description : String
  status : GeneratedAppRevisionStatus
  manifest : Json
  seedData : Fields
  seedAppliedAt : Option Instant
  sourceFiles : Fields
  artifact : Json
  sdkVersion : String
  deriving DecidableEq

structure GeneratedAppDeployment where
  appId : Uuid
  activeRevisionId : Uuid
  previousRevisionId : Option Uuid
  deploymentVersion : Nat
  deriving DecidableEq

structure GeneratedAppBuildJob where
  id : Uuid
  appId : Uuid
  baseRevisionId : Option Uuid
  resultRevisionId : Option Uuid
  status : GeneratedAppBuildStatus
  request : Fields
  idempotencyKey : Option String
  requestHash : Option String
  attempts : Nat
  claimedBy : Option String
  leaseExpiresAt : Option Instant
  startedAt : Option Instant
  completedAt : Option Instant
  createdAt : Instant
  deriving DecidableEq

/-- A job that has not ended. -/
def GeneratedAppBuildJob.isLive (job : GeneratedAppBuildJob) : Bool :=
  job.status = .queued || job.status = .claimed

structure GeneratedAppMembership where
  appId : Uuid
  userId : Uuid
  role : GeneratedAppRole
  deriving DecidableEq

structure GeneratedAppDataRecord where
  id : Uuid
  appId : Uuid
  entity : String
  data : Fields
  dataBytes : Nat
  version : Int
  createdByUserId : Option Uuid
  updatedByUserId : Option Uuid
  createdAt : Instant
  updatedAt : Instant
  deriving DecidableEq

/-- An event of an app; `response` is what a repeated request is answered with. -/
structure GeneratedAppEvent where
  appId : Uuid
  recordId : Option Uuid
  entity : Option String
  eventType : String
  actorUserId : Option Uuid
  actorSessionId : Option Uuid
  idempotencyKey : String
  operation : Option String
  requestHash : Option String
  response : Fields
  payload : Fields
  createdAt : Instant
  deriving DecidableEq

structure GeneratedAppAccessTicket where
  appId : Uuid
  issuedByUserId : Uuid
  principalUserId : Option Uuid
  role : GeneratedAppRole
  tokenHash : String
  expiresAt : Instant
  redemptionCount : Nat
  deriving DecidableEq

structure GeneratedAppSession where
  id : Uuid
  appId : Uuid
  userId : Option Uuid
  role : GeneratedAppRole
  tokenHash : String
  expiresAt : Instant
  revokedAt : Option Instant
  deriving DecidableEq

/-- The idempotency key of an event that tells a user how a build ended; it is the word
and the identifier of the job. -/
inductive OutcomeKey
  | appBuildCompleted (jobId : Uuid)
  | appBuildFailed (jobId : Uuid)
  deriving DecidableEq

/-- An event of the outbox about a build. -/
structure UserEvent where
  userId : Uuid
  conversationId : Uuid
  idempotencyKey : OutcomeKey
  appId : Uuid
  deriving DecidableEq

/-- A task that an app scheduled. -/
structure AppReminder where
  id : Uuid
  userId : Uuid
  conversationId : Uuid
  idempotencyKey : String
  title : String
  goal : String
  scheduledFor : Instant
  timezone : String
  recurrence : Schedules.ScheduledTaskRecurrence
  deliveryProvider : Option String
  deriving DecidableEq

structure AppsDb where
  users : List Uuid
  conversations : List Conversation
  members : List ConversationMember
  channels : List ConversationChannel
  invites : List ConversationInvite
  apps : List GeneratedApp
  memberships : List GeneratedAppMembership
  tickets : List GeneratedAppAccessTicket
  sessions : List GeneratedAppSession
  revisions : List GeneratedAppRevision
  deployments : List GeneratedAppDeployment
  jobs : List GeneratedAppBuildJob
  records : List GeneratedAppDataRecord
  events : List GeneratedAppEvent
  userEvents : List UserEvent
  reminders : List AppReminder
  nextId : Uuid
  deriving DecidableEq

namespace AppsDb

def empty : AppsDb where
  users := []
  conversations := []
  members := []
  channels := []
  invites := []
  apps := []
  memberships := []
  tickets := []
  sessions := []
  revisions := []
  deployments := []
  jobs := []
  records := []
  events := []
  userEvents := []
  reminders := []
  nextId := 0

/-! ## Looking up by primary key -/

def app? (db : AppsDb) (id : Uuid) : Option GeneratedApp :=
  db.apps.find? fun app => app.id = id

def conversation? (db : AppsDb) (id : Uuid) : Option Conversation :=
  db.conversations.find? fun conversation => conversation.id = id

def revision? (db : AppsDb) (id : Uuid) : Option GeneratedAppRevision :=
  db.revisions.find? fun revision => revision.id = id

def deployment? (db : AppsDb) (appId : Uuid) : Option GeneratedAppDeployment :=
  db.deployments.find? fun deployment => deployment.appId = appId

def job? (db : AppsDb) (id : Uuid) : Option GeneratedAppBuildJob :=
  db.jobs.find? fun job => job.id = id

/-! ## Updating by primary key -/

def updateApp (db : AppsDb) (id : Uuid) (change : GeneratedApp → GeneratedApp) : AppsDb :=
  { db with apps := Table.update (fun app => app.id == id) change db.apps }

def updateJob (db : AppsDb) (id : Uuid) (change : GeneratedAppBuildJob → GeneratedAppBuildJob) :
    AppsDb :=
  { db with jobs := Table.update (fun job => job.id == id) change db.jobs }

def updateDeployment (db : AppsDb) (appId : Uuid)
    (change : GeneratedAppDeployment → GeneratedAppDeployment) : AppsDb where
  __ := db
  deployments := Table.update (fun deployment => deployment.appId == appId) change db.deployments

def updateRevision (db : AppsDb) (id : Uuid)
    (change : GeneratedAppRevision → GeneratedAppRevision) : AppsDb :=
  { db with revisions := Table.update (fun revision => revision.id == id) change db.revisions }

/-! ## Looking up after an update -/

theorem app?_updateApp (db : AppsDb) (id other : Uuid) {change : GeneratedApp → GeneratedApp}
    (keeps : ∀ app, (change app).id = app.id) :
    (db.updateApp id change).app? other =
      if other = id then (db.app? other).map change else db.app? other :=
  Table.find?_update_key GeneratedApp.id change keeps id other db.apps

theorem deployment?_updateDeployment (db : AppsDb) (appId other : Uuid)
    {change : GeneratedAppDeployment → GeneratedAppDeployment}
    (keeps : ∀ deployment, (change deployment).appId = deployment.appId) :
    (db.updateDeployment appId change).deployment? other =
      if other = appId then (db.deployment? other).map change else db.deployment? other :=
  Table.find?_update_key GeneratedAppDeployment.appId change keeps appId other db.deployments

end AppsDb

end DotBackend.Apps
