import DotBackend.Apps.OwnedApps

/-!
# Creating an app

The first build of an app is queued with the app itself, the membership of its owner and a
ticket for whoever asked. The conversation is locked, so that a group keeps its owner until
the app belongs to them.
-/

namespace DotBackend.Apps

open Data Channel

/-- What the caller of `create_code_app_build` asks for. -/
structure CreationRequest where
  userId : Uuid
  conversationId : Uuid
  requesterUserId : Option Uuid
  title : Json
  description : Json
  request : Fields
  accessMode : Json
  deliveryProvider : Option String
  appUrl : Option String
  idempotencyKey : Option String
  appBaseUrl : Option String
  idempotencyRequestHash : Option String
  deriving DecidableEq

/-- `_generated_app_access_mode`. -/
def generatedAppAccessMode (value : Json) : Except CodeAppError GeneratedAppAccessMode :=
  if value = .str "private_link" then .ok .privateLink
  else if value = .str "collaborative_link" then .ok .collaborativeLink
  else .error (.validation "Unsupported generated-app access mode")

/-- The values of `GeneratedAppAccessMode`. -/
def accessModeText : GeneratedAppAccessMode → String
  | .privateLink => "private_link"
  | .collaborativeLink => "collaborative_link"

/-- The members of a group that `_locked_owned_conversation` locks. -/
def creationMembers (db : AppsDb) (conversationId userId requesterUserId : Uuid) :
    List ConversationMember :=
  db.members.filter fun member => member.conversationId = conversationId &&
    (member.userId = some userId || member.userId = some requesterUserId) &&
    member.status = .active

/-- `_locked_owned_conversation`. -/
def lockedOwnedConversation (db : AppsDb) (conversationId userId requesterUserId : Uuid) :
    Except CodeAppError Conversation :=
  match (db.conversation? conversationId).filter fun row => row.userId = userId with
  | none => .error (.validation "Conversation does not belong to this user")
  | some conversation =>
      if conversation.kind ≠ .group then do
        require (requesterUserId = userId)
          (.authorization "Conversation does not belong to this user")
        pure conversation
      else do
        require (conversation.groupOwnerSource ≠ some .unclaimed)
          (.authorization "This group does not currently have an app owner")
        let members := creationMembers db conversation.id userId requesterUserId
        require (members.any fun member => member.userId = some userId && member.role = .owner)
          (.authorization "Only the active group owner can create an app")
        require (members.any fun member => member.userId = some requesterUserId)
          (.authorization "The requester is not an active group member")
        pure conversation

/-- `_enforce_user_app_build_quota` for a new app. -/
def enforceUserAppQuota (db : AppsDb) (userId : Uuid) : Except CodeAppError Unit := do
  require (userId ∈ db.users) (.notFound "User was not found")
  let activeApps := db.apps.filter fun app =>
    app.userId = userId && app.status = .active && app.runtimeKind = .code
  require (activeApps.length < 20) (.validation
    "You have reached the active custom-app limit. Archive one before creating another.")
  enforceUserAppBuildQuota db userId

/-- The hash that `create_code_app_build` computes for a request without one. -/
def creationHash (creation : CreationRequest) (accessMode : GeneratedAppAccessMode) :
    Except CodeAppError String :=
  idempotencyRequestHash "app.create" [
    ("user_id", .str (String.ofList (uuidText creation.userId))),
    ("conversation_id", .str (String.ofList (uuidText creation.conversationId))),
    ("requester_user_id",
      .str (String.ofList (uuidText (creation.requesterUserId.getD creation.userId)))),
    ("title", creation.title), ("description", creation.description),
    ("request", .obj creation.request), ("access_mode", .str (accessModeText accessMode)),
    ("delivery_provider", optionJson creation.deliveryProvider),
    ("app_url", optionJson creation.appUrl),
    ("app_base_url", optionJson creation.appBaseUrl)]

/-- The hash of a creation: a given one, or the computed one. -/
def creationRequestHash (creation : CreationRequest) (accessMode : GeneratedAppAccessMode) :
    Except CodeAppError String := do
  let given ← validatedRequestHash creation.idempotencyRequestHash
  match given with
  | some hash => pure hash
  | none => creationHash creation accessMode

/-- `_replay_created_build`. -/
def replayCreatedBuild (db : AppsDb) (job : GeneratedAppBuildJob) (hash : String) :
    Except CodeAppError (GeneratedApp × GeneratedAppBuildJob) := do
  validateBuildReplay job hash
  match db.app? job.appId with
  | some app => pure (app, job)
  | none => .error (.conflict "Stored app-build response is unavailable")

/-- The app of a creation. -/
def newApp (db : AppsDb) (creation : CreationRequest) (title description publicId : String)
    (accessMode : GeneratedAppAccessMode) : GeneratedApp where
  id := db.nextId
  userId := creation.userId
  conversationId := creation.conversationId
  publicId := publicId
  title := title
  description := description
  accessMode := accessMode
  status := .active
  runtimeKind := .code
  currentVersion := 0

/-- The job of a creation. -/
def firstJob (db : AppsDb) (creation : CreationRequest) (key : Option String) (hash : String)
    (now : Instant) : GeneratedAppBuildJob where
  id := db.nextId + 1
  appId := db.nextId
  baseRevisionId := none
  resultRevisionId := none
  status := .queued
  request := creation.request
  idempotencyKey := key
  requestHash := key.map fun _ => hash
  attempts := 0
  claimedBy := none
  leaseExpiresAt := none
  startedAt := none
  completedAt := none
  createdAt := now

/-- The rows that `create_code_app_build` adds before its ticket. -/
def insertApp (app : GeneratedApp) (job : GeneratedAppBuildJob) (db : AppsDb) : AppsDb :=
  { db with
    apps := db.apps ++ [app], memberships := db.memberships ++ [⟨app.id, app.userId, .owner⟩]
    jobs := db.jobs ++ [job], nextId := db.nextId + 2 }

/-- The ticket that `create_code_app_build` issues. -/
def issueCreationTicket (db : AppsDb) (app : GeneratedApp) (raw : String) (now : Instant) :
    Except CodeAppError AppsDb :=
  if app.accessMode = .collaborativeLink then
    issueAccessTicket db app.id app.userId none .member maxAccessTicketTtlSeconds raw now
  else
    issueAccessTicket db app.id app.userId (some app.userId) .owner maxAccessTicketTtlSeconds raw now

/-- `create_code_app_build` for a request without a stored replay; a public identifier that
is taken is refused by its unique index. -/
def insertCreation (db : AppsDb) (creation : CreationRequest)
    (accessMode : GeneratedAppAccessMode) (key : Option String) (hash publicId raw : String)
    (now : Instant) : Except CodeAppError (GeneratedApp × GeneratedAppBuildJob × AppsDb) := do
  let title ← text creation.title "title" 120
  let description ← optionalText creation.description 500
  require (!creation.request.isEmpty) (.validation "Build request must be a non-empty object")
  requireJsonSize (.obj creation.request) "Build request" 1000000
  enforceUserAppQuota db creation.userId
  let app := newApp db creation title description publicId accessMode
  let job := firstJob db creation key hash now
  let issued ← issueCreationTicket (insertApp app job db) app raw now
  require (db.apps.all fun row => row.publicId ≠ publicId) (.internal "generated_apps_public_id")
  pure (app, job, issued)

/-- `create_code_app_build`, with the public identifier and the ticket that it draws. -/
def createCodeAppBuild (db : AppsDb) (creation : CreationRequest) (publicId raw : String)
    (now : Instant) : Except CodeAppError (GeneratedApp × GeneratedAppBuildJob × AppsDb) := do
  let requested ← generatedAppAccessMode creation.accessMode
  let key ← cleanKey creation.idempotencyKey
  let conversation ← lockedOwnedConversation db creation.conversationId creation.userId
    (creation.requesterUserId.getD creation.userId)
  let accessMode := if conversation.kind = .group then .collaborativeLink else requested
  let hash ← creationRequestHash creation accessMode
  match key.bind (buildByIdempotencyKey db) with
  | some replay => do
      let (app, job) ← replayCreatedBuild db replay hash
      pure (app, job, db)
  | none => insertCreation db creation accessMode key hash publicId raw now

/-! ## What a creation adds -/

section Creation

variable {db after : AppsDb} {creation : CreationRequest} {publicId raw : String} {now : Instant}
  {app : GeneratedApp} {job : GeneratedAppBuildJob}

/-- A ticket and nothing else. -/
theorem issueAccessTicket_frame {appId issuer : Uuid} {principal : Option Uuid}
    {role : GeneratedAppRole} {ttlSeconds : Int}
    (issued : issueAccessTicket db appId issuer principal role ttlSeconds raw now = .ok after) :
    ∃ tickets, after = { db with tickets := tickets } := by
  simp only [issueAccessTicket, bind_eq_ok, pure_eq_ok] at issued
  rcases issued with ⟨_, _, _, _, _, _, rfl⟩
  exact ⟨_, rfl⟩

theorem issueCreationTicket_frame (issued : issueCreationTicket db app raw now = .ok after) :
    ∃ tickets, after = { db with tickets := tickets } := by
  unfold issueCreationTicket at issued
  split at issued
  · exact issueAccessTicket_frame issued
  · exact issueAccessTicket_frame issued

/-- A creation answers from the job with its key, or adds an app and its first job. -/
theorem createCodeAppBuild_eq_ok
    (created : createCodeAppBuild db creation publicId raw now = .ok (app, job, after)) :
    (after = db ∧ job ∈ db.jobs) ∨
      ∃ accessMode key hash title description tickets,
        text creation.title "title" 120 = .ok title ∧
          optionalText creation.description 500 = .ok description ∧
            jsonBytes (.obj creation.request) ≤ 1000000 ∧
              app = newApp db creation title description publicId accessMode ∧
                job = firstJob db creation key hash now ∧
                  after = { insertApp app job db with tickets := tickets } := by
  simp only [createCodeAppBuild, bind_eq_ok] at created
  rcases created with ⟨requested, _, key, _, conversation, _, hash, _, created⟩
  split at created
  · rename_i replay found
    simp only [replayCreatedBuild, bind_eq_ok, pure_eq_ok] at created
    rcases created with ⟨⟨stored, replayed⟩, ⟨_, _, answered⟩, same⟩
    cases same
    apply Or.inl
    split at answered
    · cases answered
      rcases Option.bind_eq_some_iff.mp found with ⟨clean, _, byKey⟩
      exact ⟨rfl, List.mem_of_find?_eq_some byKey⟩
    · cases answered
  · simp only [insertCreation, requireJsonSize, bind_eq_ok, pure_eq_ok, require_eq_ok,
      decide_eq_true_eq] at created
    rcases created with ⟨title, titled, description, described, _, _, _, fits, _, _, issued, issues,
      _, _, same⟩
    cases same
    apply Or.inr
    rcases issueCreationTicket_frame issues with ⟨tickets, after_eq⟩
    exact ⟨_, key, hash, title, description, tickets, titled, described, fits, rfl, rfl, after_eq⟩

end Creation

end DotBackend.Apps
