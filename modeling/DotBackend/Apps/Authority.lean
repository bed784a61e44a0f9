import DotBackend.Apps.Schema
import DotBackend.Data.Sha256

/-!
# Authority over apps

Who may use an app: its user, its members, and the bearers of sessions that were
redeemed from access tickets. Every check is made under the lock on the row of the app.
-/

namespace DotBackend.Apps

open Data Channel

variable {db : AppsDb} {appId : Uuid} {app : GeneratedApp}

structure AppActor where
  role : GeneratedAppRole
  userId : Option Uuid
  sessionId : Option Uuid
  identityVerified : Bool
  deriving DecidableEq

/-! ## Rows under lock -/

/-- `_locked_active_app`. -/
def lockedActiveApp (db : AppsDb) (appId : Uuid) : Except CodeAppError GeneratedApp :=
  match db.app? appId with
  | some app => if app.status = .active then .ok app else .error (.notFound "App was not found")
  | none => .error (.notFound "App was not found")

/-- `_locked_code_app`. -/
def lockedCodeApp (db : AppsDb) (appId : Uuid) : Except CodeAppError GeneratedApp := do
  let app ← lockedActiveApp db appId
  require (app.runtimeKind = .code) (.notFound "Code app was not found")
  pure app

theorem lockedCodeApp_eq_ok (locked : lockedCodeApp db appId = .ok app) :
    db.app? appId = some app := by
  simp only [lockedCodeApp, bind_eq_ok, pure_eq_ok] at locked
  rcases locked with ⟨row, active, _, _, rfl⟩
  unfold lockedActiveApp at active
  split at active
  · rename_i found
    split at active
    · cases active
      exact found
    · cases active
  · cases active

theorem lockedCodeApp_active (locked : lockedCodeApp db appId = .ok app) :
    app.status = .active := by
  simp only [lockedCodeApp, bind_eq_ok, pure_eq_ok] at locked
  rcases locked with ⟨row, active, _, _, rfl⟩
  unfold lockedActiveApp at active
  split at active
  · split at active
    · rename_i isActive
      cases active
      exact isActive
    · cases active
  · cases active

theorem lockedCodeApp_isCode (locked : lockedCodeApp db appId = .ok app) :
    app.runtimeKind = .code := by
  simp only [lockedCodeApp, bind_eq_ok, pure_eq_ok, require_eq_ok, decide_eq_true_eq] at locked
  rcases locked with ⟨row, _, _, isCode, rfl⟩
  exact isCode

/-- `_code_app`. -/
def codeApp (db : AppsDb) (appId : Uuid) : Except CodeAppError GeneratedApp :=
  match db.app? appId with
  | some app =>
      if app.status = .active ∧ app.runtimeKind = .code then .ok app
      else .error (.notFound "Code app was not found")
  | none => .error (.notFound "Code app was not found")

/-! ## Users -/

/-- The app belongs to a group that has no owner. -/
def unclaimedGroup (db : AppsDb) (app : GeneratedApp) : Bool :=
  (db.conversation? app.conversationId).any fun conversation =>
    conversation.kind = .group && conversation.groupOwnerSource = some .unclaimed

/-- `_authorize_user_for_locked_app`. -/
def authorizeUserForLockedApp (db : AppsDb) (app : GeneratedApp) (userId : Uuid) :
    Except CodeAppError AppActor :=
  let unclaimed := unclaimedGroup db app
  if app.userId = userId ∧ unclaimed = false then .ok ⟨.owner, some userId, none, true⟩
  else
    match db.memberships.find? fun row => row.appId = app.id ∧ row.userId = userId with
    | none => .error (.authorization "You do not have access to this app")
    | some membership =>
        if unclaimed ∧ membership.role = .owner then
          .error (.authorization "You do not have access to this app")
        else .ok ⟨membership.role, some userId, none, true⟩

/-- `authorize_user`. -/
def authorizeUser (db : AppsDb) (appId userId : Uuid) : Except CodeAppError AppActor := do
  let app ← lockedActiveApp db appId
  authorizeUserForLockedApp db app userId

/-! ## Sessions -/

/-- `_session_actor`. -/
def sessionActor (row : GeneratedAppSession) (app : GeneratedApp) : Except CodeAppError AppActor :=
  if row.appId = app.id then .ok ⟨row.role, row.userId, some row.id, false⟩
  else .error (.authorization "App session is invalid or expired")

/-- A session that is not revoked and not expired. -/
def GeneratedAppSession.isValid (now : Instant) (row : GeneratedAppSession) : Bool :=
  row.revokedAt.isNone && (now < row.expiresAt : Bool)

/-- `_reauthorize_actor`. -/
def reauthorizeActor (db : AppsDb) (appId : Uuid) (actor : AppActor) (now : Instant) :
    Except CodeAppError AppActor := do
  let app ← lockedCodeApp db appId
  match actor.sessionId with
  | some sessionId =>
      match db.sessions.find? fun row =>
        row.id = sessionId ∧ row.appId = app.id ∧ row.isValid now = true with
      | none => .error (.authorization "App session is invalid or expired")
      | some row => sessionActor row app
  | none =>
      match actor.userId with
      | none => .error (.authorization "App actor identity is missing")
      | some userId => authorizeUserForLockedApp db app userId

/-- `_require_write`. -/
def requireWrite (actor : AppActor) : Except CodeAppError Unit :=
  require (actor.role = .owner || actor.role = .editor || actor.role = .member)
    (.authorization "This app session is read-only")

/-! ## Tickets -/

/-- The longest life of a ticket. -/
def maxAccessTicketTtlSeconds : Int := 7 * 86400

/-- `_persist_access_ticket`, with the token that it draws. -/
def persistAccessTicket (db : AppsDb) (appId issuerUserId : Uuid) (principalUserId : Option Uuid)
    (role : GeneratedAppRole) (ttlSeconds : Int) (raw : String) (now : Instant) : AppsDb :=
  let ticket : GeneratedAppAccessTicket := {
    appId := appId
    issuedByUserId := issuerUserId
    principalUserId := principalUserId
    role := role
    tokenHash := sha256 raw.toList
    expiresAt := now + max 60 (min ttlSeconds maxAccessTicketTtlSeconds) * Schedules.second
    redemptionCount := 0 }
  { db with tickets := db.tickets ++ [ticket] }

/-- `issue_access_ticket`. -/
def issueAccessTicket (db : AppsDb) (appId issuerUserId : Uuid) (principalUserId : Option Uuid)
    (role : GeneratedAppRole) (ttlSeconds : Int) (raw : String) (now : Instant) :
    Except CodeAppError AppsDb := do
  let app ← lockedActiveApp db appId
  let issuer ← authorizeUserForLockedApp db app issuerUserId
  require (issuer.role = .owner) (.authorization "Only the owner can issue app access")
  pure (persistAccessTicket db appId issuerUserId principalUserId role ttlSeconds raw now)

/-- `_issue_trusted_group_handoff_ticket`. -/
def issueTrustedGroupHandoffTicket (db : AppsDb) (app : GeneratedApp)
    (conversation : Conversation) (ttlSeconds : Int) (raw : String) (now : Instant) :
    Except CodeAppError AppsDb :=
  if conversation.id ≠ app.conversationId ∨ conversation.kind ≠ .group ∨
      app.accessMode ≠ .collaborativeLink then
    .error (.authorization "Trusted group handoff requires a collaborative group app")
  else .ok (persistAccessTicket db app.id conversation.userId none .member ttlSeconds raw now)

/-- `redeem_access_ticket`, with the session token that it draws. -/
def redeemAccessTicket (db : AppsDb) (publicId token : String) (ttlSeconds : Int) (raw : String)
    (now : Instant) : Except CodeAppError (GeneratedAppSession × AppsDb) :=
  match db.apps.find? fun app => app.publicId = publicId with
  | none => .error (.notFound "App was not found")
  | some app => do
      require (app.status = .active) (.notFound "App was not found")
      match db.tickets.find? fun ticket => ticket.appId = app.id ∧
          ticket.tokenHash = sha256 token.toList ∧ now < ticket.expiresAt with
      | none => .error (.authorization "Access ticket is invalid or expired")
      | some ticket => do
          let limit := if app.accessMode = .collaborativeLink then 64 else 12
          require (ticket.redemptionCount < limit)
            (.authorization "Access ticket has reached its redemption limit")
          let session : GeneratedAppSession := {
            id := db.nextId
            appId := app.id
            userId := ticket.principalUserId
            role := ticket.role
            tokenHash := sha256 raw.toList
            expiresAt := now + max 300 (min ttlSeconds (30 * 86400)) * Schedules.second
            revokedAt := none }
          pure (session, {
            db with
            nextId := db.nextId + 1
            sessions := db.sessions ++ [session]
            tickets := Table.update (fun row => row.tokenHash == ticket.tokenHash)
              (fun row => { row with redemptionCount := row.redemptionCount + 1 }) db.tickets })

end DotBackend.Apps
