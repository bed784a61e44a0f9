import DotBackend.Data.Number
import DotBackend.Data.Table
import DotBackend.Transaction.ReadCommitted

/-!
# Links, states and sessions that are used once

Connect links, states of an OAuth authorisation and sessions of Plaid Link are found by the hash
of a secret and marked when they are consumed. One flow locks the row that it checks; the others
check what they have loaded and write it later. The history column records every consumption that
was committed; the service does not read it.
-/

namespace DotBackend.Integrations

open Data Transition Transaction

/-! ## Rows -/

structure IntegrationConnectLink where
  id : Uuid
  userId : Uuid
  integrationKey : String
  tokenHash : String
  expiresAt : Instant
  consumedAt : Option Instant
  deriving DecidableEq

structure IntegrationOAuthState where
  id : Uuid
  userId : Uuid
  integrationKey : String
  provider : String
  tokenHash : String
  initiatedChannel : String
  expiresAt : Instant
  consumedAt : Option Instant
  deriving DecidableEq

structure FinancialLinkSession where
  id : Uuid
  userId : Uuid
  connectionId : Option Uuid
  provider : String
  exchangeTokenHash : String
  initiatedChannel : String
  expiresAt : Instant
  consumedAt : Option Instant
  deriving DecidableEq

/-- A bank connection, with the token that its ciphertext stands for. -/
structure BankConnection where
  id : Uuid
  userId : Uuid
  provider : String
  providerConnectionId : String
  institutionId : Option String
  institutionName : List Char
  accessToken : String
  deriving DecidableEq

/-- A sync of a connection that a link session has scheduled. -/
structure SyncTask where
  userId : Uuid
  connectionId : Uuid
  linkSessionId : Uuid
  deliveryProvider : Option String
  deriving DecidableEq

/-- The rows that hold a secret; transactions lock them. -/
inductive SecretKey
  | connectLink (id : Uuid)
  | oauthState (id : Uuid)
  | linkSession (id : Uuid)
  deriving DecidableEq

def SecretKey.id : SecretKey → Uuid
  | .connectLink id | .oauthState id | .linkSession id => id

structure SecretsDb where
  links : List IntegrationConnectLink
  states : List IntegrationOAuthState
  linkSessions : List FinancialLinkSession
  connections : List BankConnection
  syncTasks : List SyncTask
  nextId : Uuid
  /-- The consumptions that were committed. -/
  consumptions : List SecretKey
  deriving DecidableEq

/-- The providers of the integrations that are available. -/
def availableProvider (integrationKey : String) : Option String :=
  if integrationKey = "google_calendar" ∨ integrationKey = "gmail" then some "google"
  else if integrationKey = "plaid" then some "plaid"
  else none

namespace SecretsDb

def link? (db : SecretsDb) (tokenHash : String) : Option IntegrationConnectLink :=
  db.links.find? (·.tokenHash = tokenHash)

def state? (db : SecretsDb) (tokenHash : String) : Option IntegrationOAuthState :=
  db.states.find? (·.tokenHash = tokenHash)

def linkSession? (db : SecretsDb) (tokenHash : String) : Option FinancialLinkSession :=
  db.linkSessions.find? (·.exchangeTokenHash = tokenHash)

/-- Mark a row as consumed. -/
def consume (key : SecretKey) (now : Instant) (db : SecretsDb) : SecretsDb :=
  let marked : SecretsDb := match key with
    | .connectLink id =>
        { db with
          links := Table.update (·.id == id) (fun row => { row with consumedAt := some now })
            db.links }
    | .oauthState id =>
        { db with
          states := Table.update (·.id == id) (fun row => { row with consumedAt := some now })
            db.states }
    | .linkSession id =>
        { db with
          linkSessions := Table.update (·.id == id)
            (fun row => { row with consumedAt := some now }) db.linkSessions }
  { marked with consumptions := key :: db.consumptions }

/-- A stored row that is not consumed. -/
def isUnconsumed (db : SecretsDb) : SecretKey → Bool
  | .connectLink id => db.links.any fun row => row.id = id && row.consumedAt.isNone
  | .oauthState id => db.states.any fun row => row.id = id && row.consumedAt.isNone
  | .linkSession id => db.linkSessions.any fun row => row.id = id && row.consumedAt.isNone

end SecretsDb

/-! ## The transactions -/

/-- What a session reads from outside the database: the clock, the hash and the expiry of a
secret that it issues, and the provider's answer to a request for a link token or for the
exchange of a public token, which is an access token and an item. -/
structure SecretInput where
  now : Instant
  issuedHash : String
  issuedExpiry : Instant
  linkToken : Bool
  exchanged : Option (String × String)

/-- What completing Plaid Link has loaded: the session, the time, and what the provider
calls the connection. -/
structure LinkCompletion where
  linkSession : FinancialLinkSession
  now : Instant
  connection : Option BankConnection
  itemId : String
  accessToken : String
  institutionId : Option String
  institutionName : List Char
  deriving DecidableEq

inductive SecretPoint
  /-- `consume_connect_link`, and the authorisation that follows. -/
  | openLink (tokenHash : String)
  | consumeLink (link : IntegrationConnectLink) (now : Instant)
  | authorize (userId : Uuid) (integrationKey : String)
  /-- `consume_plaid_connect_link`. -/
  | lockLink (tokenHash : String)
  | createLinkToken (link : IntegrationConnectLink) (now : Instant)
  /-- `complete_google_oauth`, up to the commit that consumes the state. -/
  | readState (tokenHash : String)
  | consumeState (state : IntegrationOAuthState) (now : Instant)
  /-- `complete_plaid_link`. -/
  | readSession (tokenHash : String) (institutionId : Option String) (institutionName : List Char)
  | readExisting (linkSession : FinancialLinkSession) (now : Instant) (connectionId : Uuid)
      (institutionId : Option String) (institutionName : List Char)
  | exchange (linkSession : FinancialLinkSession) (now : Instant)
      (institutionId : Option String) (institutionName : List Char)
  | readTask (completion : LinkCompletion)
  | complete (completion : LinkCompletion) (isScheduled : Bool)
  | finished
  deriving DecidableEq

/-- `consumed_at is not None or expires_at <= now` is false. -/
def isValidAt (expiresAt : Instant) (consumedAt : Option Instant) (now : Instant) : Bool :=
  consumedAt.isNone && decide (now < expiresAt)

/-- The state that `create_oauth_authorization` stores. -/
def insertState (userId : Uuid) (integrationKey provider : String) (input : SecretInput)
    (db : SecretsDb) : SecretsDb :=
  { db with
    states := db.states ++ [⟨db.nextId, userId, integrationKey, provider, input.issuedHash,
      "messaging_link", input.issuedExpiry, none⟩]
    nextId := db.nextId + 1 }

/-- The session that `create_plaid_link_token` stores. -/
def insertLinkSession (userId : Uuid) (input : SecretInput) (db : SecretsDb) : SecretsDb :=
  { db with
    linkSessions := db.linkSessions ++ [⟨db.nextId, userId, none, "plaid", input.issuedHash,
      "messaging_link", input.issuedExpiry, none⟩]
    nextId := db.nextId + 1 }

namespace LinkCompletion

/-- `(institution_name or fallback)[:255]`. -/
def nameOr (completion : LinkCompletion) (fallback : List Char) : List Char :=
  if completion.institutionName.isEmpty then fallback.take 255
  else completion.institutionName.take 255

def insertConnection (completion : LinkCompletion) (db : SecretsDb) : SecretsDb :=
  { db with
    connections := db.connections ++ [⟨db.nextId, completion.linkSession.userId, "plaid",
      completion.itemId, completion.institutionId,
      completion.nameOr "Connected institution".toList, completion.accessToken⟩]
    nextId := db.nextId + 1 }

def updateConnection (completion : LinkCompletion) (connection : BankConnection)
    (db : SecretsDb) : SecretsDb :=
  { db with
    connections := Table.update (·.id == connection.id) (fun row =>
      { row with
        institutionId := (completion.institutionId.filter (· ≠ "")).or connection.institutionId
        institutionName := completion.nameOr connection.institutionName
        accessToken := completion.accessToken }) db.connections }

def insertTask (completion : LinkCompletion) (connectionId : Uuid) (db : SecretsDb) : SecretsDb :=
  { db with
    syncTasks := db.syncTasks ++ [⟨completion.linkSession.userId, connectionId,
      completion.linkSession.id,
      if completion.linkSession.initiatedChannel = "messaging_link" then some "linq" else none⟩] }

/-- The task of the connection and the session is stored. -/
def hasTask (completion : LinkCompletion) (db : SecretsDb) : Bool :=
  completion.connection.any fun connection =>
    db.syncTasks.any fun task =>
      task.connectionId = connection.id && task.linkSessionId = completion.linkSession.id

/-- The writes of `complete_plaid_link`. -/
def write (completion : LinkCompletion) (isScheduled : Bool) (db : SecretsDb) : SecretsDb :=
  let connected := match completion.connection with
    | some connection => completion.updateConnection connection db
    | none => completion.insertConnection db
  let consumed := connected.consume (.linkSession completion.linkSession.id) completion.now
  if isScheduled then consumed
  else completion.insertTask ((completion.connection.map (·.id)).getD db.nextId) consumed

/-- The unique keys of connections and of scheduled tasks. -/
def permitted (completion : LinkCompletion) (isScheduled : Bool) (db : SecretsDb) : Bool :=
  (completion.connection.isSome || !db.connections.any fun connection =>
    connection.provider = "plaid" && connection.providerConnectionId = completion.itemId) &&
      (isScheduled || !completion.hasTask db)

end LinkCompletion

def secretRequest : SecretPoint → SecretInput → Request SecretsDb SecretKey SecretPoint
  | .openLink tokenHash, input =>
      .read fun db =>
        ((db.link? tokenHash).filter fun link =>
          isValidAt link.expiresAt link.consumedAt input.now).elim .finished
            fun link => .consumeLink link input.now
  | .consumeLink link now, _ =>
      .commit (fun _ => [.connectLink link.id]) (fun _ => true)
        (fun db => db.consume (.connectLink link.id) now)
        (fun _ => some (.authorize link.userId link.integrationKey)) none
  | .authorize userId integrationKey, input =>
      if availableProvider integrationKey = some "google" then
        .commit (fun _ => []) (fun db => !db.states.any (·.tokenHash = input.issuedHash))
          (insertState userId integrationKey "google" input) (fun _ => none) none
      else .rollback none
  | .lockLink tokenHash, input =>
      .lock (fun db => (db.link? tokenHash).toList.map fun link => .connectLink link.id) fun db =>
        ((db.link? tokenHash).filter fun link =>
          isValidAt link.expiresAt link.consumedAt input.now &&
            availableProvider link.integrationKey = some "plaid").elim .finished
              fun link => .createLinkToken link input.now
  | .createLinkToken link now, input =>
      if input.linkToken then
        .commit (fun _ => [.connectLink link.id])
          (fun db => !db.linkSessions.any (·.exchangeTokenHash = input.issuedHash))
          (fun db => (insertLinkSession link.userId input db).consume (.connectLink link.id) now)
          (fun _ => none) none
      else .rollback none
  | .readState tokenHash, input =>
      .read fun db =>
        ((db.state? tokenHash).filter fun state =>
          isValidAt state.expiresAt state.consumedAt input.now &&
            (availableProvider state.integrationKey = some "google" &&
              state.provider = "google")).elim .finished
                fun state => .consumeState state input.now
  | .consumeState state now, _ =>
      .commit (fun _ => [.oauthState state.id]) (fun _ => true)
        (fun db => db.consume (.oauthState state.id) now) (fun _ => none) none
  | .readSession tokenHash institutionId institutionName, input =>
      .read fun db =>
        ((db.linkSession? tokenHash).filter fun linkSession =>
          linkSession.provider = "plaid" &&
            isValidAt linkSession.expiresAt linkSession.consumedAt input.now).elim .finished
              fun linkSession =>
                match linkSession.connectionId with
                | some connectionId =>
                    .readExisting linkSession input.now connectionId institutionId institutionName
                | none => .exchange linkSession input.now institutionId institutionName
  | .readExisting linkSession now connectionId institutionId institutionName, _ =>
      .read fun db =>
        (db.connections.find? fun connection =>
          connection.id = connectionId && (connection.userId = linkSession.userId &&
            connection.provider = "plaid")).elim .finished fun connection =>
              .readTask ⟨linkSession, now, some connection, connection.providerConnectionId,
                connection.accessToken, institutionId, institutionName⟩
  | .exchange linkSession now institutionId institutionName, input =>
      match input.exchanged with
      | none => .rollback none
      | some (accessToken, itemId) =>
          .read fun db =>
            let connection := db.connections.find? fun connection =>
              connection.provider = "plaid" && connection.providerConnectionId = itemId
            if connection.all fun connection => connection.userId = linkSession.userId then
              .readTask ⟨linkSession, now, connection, itemId, accessToken, institutionId,
                institutionName⟩
            else .finished
  | .readTask completion, input =>
      .read fun db =>
        if completion.hasTask db then .complete completion true
        else if input.now < completion.now + 5 * 1000000 then .complete completion false
        else .finished
  | .complete completion isScheduled, _ =>
      .commit (fun _ => [.linkSession completion.linkSession.id])
        (completion.permitted isScheduled) (completion.write isScheduled) (fun _ => none) none
  | .finished, _ => .rollback none

def SecretPoint.isEntry : SecretPoint → Bool
  | .openLink _ | .lockLink _ | .readState _ | .readSession _ _ _ => true
  | _ => false

def secretProtocol : Protocol SecretsDb SecretKey SecretPoint SecretInput where
  starts := SecretPoint.isEntry
  request := secretRequest

/-! ## The property and the condition -/

/-- The row that a transaction consumes at a point without having locked it. -/
def SecretPoint.consumesLoaded : SecretPoint → Option SecretKey
  | .consumeLink link _ => some (.connectLink link.id)
  | .consumeState state _ => some (.oauthState state.id)
  | .complete completion _ => some (.linkSession completion.linkSession.id)
  | _ => none

/-- A transaction that consumes a row it has not locked finds the stored row unconsumed. -/
def consumesUnconsumed (system : System SecretsDb SecretKey SecretPoint) :
    Event SecretPoint SecretInput → Bool
  | .advance session _ =>
      ((system.points session).bind SecretPoint.consumesLoaded).all system.database.isUnconsumed
  | _ => true

/-- Every row was consumed at most once, and not while it is not marked. -/
structure UsedOnce (db : SecretsDb) : Prop where
  atMostOnce : ∀ key, db.consumptions.count key ≤ 1
  unmarked : ∀ key, db.isUnconsumed key = true → key ∉ db.consumptions ∧ key.id < db.nextId
  supply : ∀ key ∈ db.consumptions, key.id < db.nextId

/-- The locked link is not consumed. -/
def SecretStage (db : SecretsDb) (held : Held SecretKey) : SecretPoint → Prop
  | .createLinkToken link _ =>
      held (.connectLink link.id) ∧ db.isUnconsumed (.connectLink link.id) = true
  | _ => True

/-! ## Marking and inserting rows -/

/-- Marking the rows of an identifier. -/
theorem any_update_marked {α : Type} (id : α → Uuid) (consumedAt : α → Option Instant)
    (mark : α → α) (keeps : ∀ row, id (mark row) = id row)
    (marks : ∀ row, (consumedAt (mark row)).isNone = false) (marked wanted : Uuid)
    (rows : List α) :
    ((Table.update (fun row => id row == marked) mark rows).any fun row =>
        id row = wanted && (consumedAt row).isNone) =
      ((rows.any fun row => id row = wanted && (consumedAt row).isNone) &&
        decide (wanted ≠ marked)) := by
  induction rows with
  | nil => rfl
  | cons row rest ih =>
      rw [Table.update] at ih
      rw [Table.update, List.map_cons, List.any_cons, List.any_cons, ih,
        Bool.and_or_distrib_right]
      congr 1
      by_cases isMarked : id row = marked
      · by_cases isWanted : id row = wanted
        · simp [isMarked, marks, ← isWanted]
        · have differs : marked ≠ wanted := fun same => isWanted (isMarked.trans same)
          simp [isMarked, keeps, differs]
      · by_cases isWanted : id row = wanted
        · have differs : wanted ≠ marked := fun same => isMarked (isWanted.trans same)
          simp [isWanted, differs]
        · simp [isMarked, isWanted]

theorem isUnconsumed_consume (key other : SecretKey) (now : Instant) (db : SecretsDb) :
    (db.consume key now).isUnconsumed other = (db.isUnconsumed other && decide (other ≠ key)) := by
  cases key with
  | connectLink id =>
      cases other with
      | connectLink wanted =>
          have marked := any_update_marked IntegrationConnectLink.id
            IntegrationConnectLink.consumedAt (fun row => { row with consumedAt := some now })
            (fun _ => rfl) (fun _ => rfl) id wanted db.links
          simpa [SecretsDb.consume, SecretsDb.isUnconsumed] using marked
      | oauthState wanted => simp [SecretsDb.consume, SecretsDb.isUnconsumed]
      | linkSession wanted => simp [SecretsDb.consume, SecretsDb.isUnconsumed]
  | oauthState id =>
      cases other with
      | connectLink wanted => simp [SecretsDb.consume, SecretsDb.isUnconsumed]
      | oauthState wanted =>
          have marked := any_update_marked IntegrationOAuthState.id
            IntegrationOAuthState.consumedAt (fun row => { row with consumedAt := some now })
            (fun _ => rfl) (fun _ => rfl) id wanted db.states
          simpa [SecretsDb.consume, SecretsDb.isUnconsumed] using marked
      | linkSession wanted => simp [SecretsDb.consume, SecretsDb.isUnconsumed]
  | linkSession id =>
      cases other with
      | connectLink wanted => simp [SecretsDb.consume, SecretsDb.isUnconsumed]
      | oauthState wanted => simp [SecretsDb.consume, SecretsDb.isUnconsumed]
      | linkSession wanted =>
          have marked := any_update_marked FinancialLinkSession.id
            FinancialLinkSession.consumedAt (fun row => { row with consumedAt := some now })
            (fun _ => rfl) (fun _ => rfl) id wanted db.linkSessions
          simpa [SecretsDb.consume, SecretsDb.isUnconsumed] using marked

theorem consumptions_consume (key : SecretKey) (now : Instant) (db : SecretsDb) :
    (db.consume key now).consumptions = key :: db.consumptions := by
  cases key <;> rfl

theorem nextId_consume (key : SecretKey) (now : Instant) (db : SecretsDb) :
    (db.consume key now).nextId = db.nextId := by
  cases key <;> rfl

/-- Consuming a row that is not consumed. -/
theorem UsedOnce.consume {db : SecretsDb} {key : SecretKey} (sound : UsedOnce db)
    (unconsumed : db.isUnconsumed key = true) (now : Instant) : UsedOnce (db.consume key now) := by
  rcases sound.unmarked key unconsumed with ⟨isFresh, inSupply⟩
  constructor
  · intro counted
    rw [consumptions_consume]
    by_cases isKey : counted = key
    · rw [isKey, List.count_cons_self, List.count_eq_zero.mpr isFresh]
    · rw [List.count_cons_of_ne (Ne.symm isKey)]
      exact sound.atMostOnce counted
  · intro other otherUnconsumed
    rw [isUnconsumed_consume, Bool.and_eq_true, decide_eq_true_eq] at otherUnconsumed
    rcases sound.unmarked other otherUnconsumed.1 with ⟨notConsumed, otherInSupply⟩
    rw [consumptions_consume, nextId_consume, List.mem_cons, not_or]
    exact ⟨⟨otherUnconsumed.2, notConsumed⟩, otherInSupply⟩
  · intro consumed consumedMem
    rw [nextId_consume]
    rw [consumptions_consume] at consumedMem
    rcases List.mem_cons.mp consumedMem with isKey | earlier
    · rw [isKey]
      exact inSupply
    · exact sound.supply consumed earlier

/-- What inserting rows does: nothing is consumed, and what is not consumed was so before, or is
new. -/
structure Issues (before after : SecretsDb) : Prop where
  consumptions : after.consumptions = before.consumptions
  supply : before.nextId ≤ after.nextId
  kept : ∀ key, before.isUnconsumed key = true → after.isUnconsumed key = true
  unconsumed : ∀ key, after.isUnconsumed key = true → before.isUnconsumed key = true ∨
    before.nextId ≤ key.id ∧ key.id < after.nextId

theorem Issues.usedOnce {before after : SecretsDb} (issues : Issues before after)
    (sound : UsedOnce before) : UsedOnce after := by
  constructor
  · rw [issues.consumptions]
    exact sound.atMostOnce
  · intro key unconsumed
    rw [issues.consumptions]
    rcases issues.unconsumed key unconsumed with already | ⟨isNew, inSupply⟩
    · rcases sound.unmarked key already with ⟨notConsumed, wasInSupply⟩
      exact ⟨notConsumed, Nat.lt_of_lt_of_le wasInSupply issues.supply⟩
    · refine ⟨?_, inSupply⟩
      intro consumed
      exact Nat.not_lt.mpr isNew (sound.supply key consumed)
  · intro key consumed
    rw [issues.consumptions] at consumed
    exact Nat.lt_of_lt_of_le (sound.supply key consumed) issues.supply

/-- A new row whose identifier comes next. -/
theorem issues_added {before after : SecretsDb} {added : SecretKey}
    (consumptions : after.consumptions = before.consumptions)
    (supply : after.nextId = before.nextId + 1) (isNext : added.id = before.nextId)
    (unconsumed : ∀ key,
      after.isUnconsumed key = (before.isUnconsumed key || decide (added = key))) :
    Issues before after := by
  constructor
  · exact consumptions
  · rw [supply]
    exact Nat.le_succ _
  · intro key already
    rw [unconsumed, already, Bool.true_or]
  · intro key isUnconsumed
    rw [unconsumed, Bool.or_eq_true, decide_eq_true_eq] at isUnconsumed
    rcases isUnconsumed with already | rfl
    · exact Or.inl already
    · right
      rw [supply, isNext]
      exact ⟨Nat.le_refl _, Nat.lt_succ_self _⟩

theorem issues_insertState (userId : Uuid) (integrationKey provider : String)
    (input : SecretInput) (db : SecretsDb) :
    Issues db (insertState userId integrationKey provider input db) := by
  refine @issues_added _ _ (.oauthState db.nextId) rfl rfl rfl fun key => ?_
  cases key <;> simp [SecretsDb.isUnconsumed, insertState]

theorem issues_insertLinkSession (userId : Uuid) (input : SecretInput) (db : SecretsDb) :
    Issues db (insertLinkSession userId input db) := by
  refine @issues_added _ _ (.linkSession db.nextId) rfl rfl rfl fun key => ?_
  cases key <;> simp [SecretsDb.isUnconsumed, insertLinkSession]

/-- Connections and tasks hold no secret. -/
theorem Issues.of_same {before after : SecretsDb} (links : after.links = before.links)
    (states : after.states = before.states) (linkSessions : after.linkSessions = before.linkSessions)
    (consumptions : after.consumptions = before.consumptions)
    (supply : before.nextId ≤ after.nextId) : Issues before after := by
  have same : ∀ key, after.isUnconsumed key = before.isUnconsumed key := by
    intro key
    cases key with
    | connectLink id => rw [SecretsDb.isUnconsumed, SecretsDb.isUnconsumed, links]
    | oauthState id => rw [SecretsDb.isUnconsumed, SecretsDb.isUnconsumed, states]
    | linkSession id => rw [SecretsDb.isUnconsumed, SecretsDb.isUnconsumed, linkSessions]
  refine ⟨consumptions, supply, ?_, ?_⟩
  · intro key unconsumed
    rw [same]
    exact unconsumed
  · intro key unconsumed
    left
    rw [← same]
    exact unconsumed

theorem issues_connect (completion : LinkCompletion) (db : SecretsDb) :
    Issues db (match completion.connection with
      | some connection => completion.updateConnection connection db
      | none => completion.insertConnection db) := by
  cases completion.connection with
  | none => exact Issues.of_same rfl rfl rfl rfl (Nat.le_succ db.nextId)
  | some connection => exact Issues.of_same rfl rfl rfl rfl (Nat.le_refl db.nextId)

/-! ## Runs -/

/-- The commits of the protocol, with the row that each of them consumes. -/
inductive SecretWriting : SecretPoint → (SecretsDb → List SecretKey) → (SecretsDb → SecretsDb) →
    (SecretsDb → Option SecretPoint) → Prop
  | consumeLink {link : IntegrationConnectLink} {now : Instant} :
      SecretWriting (.consumeLink link now) (fun _ => [.connectLink link.id])
        (fun db => db.consume (.connectLink link.id) now)
        (fun _ => some (.authorize link.userId link.integrationKey))
  | authorize {userId : Uuid} {integrationKey : String} {input : SecretInput} :
      SecretWriting (.authorize userId integrationKey) (fun _ => [])
        (insertState userId integrationKey "google" input) (fun _ => none)
  | createLinkToken {link : IntegrationConnectLink} {now : Instant} {input : SecretInput} :
      SecretWriting (.createLinkToken link now) (fun _ => [.connectLink link.id])
        (fun db => (insertLinkSession link.userId input db).consume (.connectLink link.id) now)
        (fun _ => none)
  | consumeState {state : IntegrationOAuthState} {now : Instant} :
      SecretWriting (.consumeState state now) (fun _ => [.oauthState state.id])
        (fun db => db.consume (.oauthState state.id) now) (fun _ => none)
  | complete {completion : LinkCompletion} {isScheduled : Bool} :
      SecretWriting (.complete completion isScheduled)
        (fun _ => [.linkSession completion.linkSession.id]) (completion.write isScheduled)
        (fun _ => none)

/-- A commit under the condition consumes a row that is not consumed, or issues rows, and keeps
every row unconsumed that it does not lock. -/
theorem SecretWriting.keeps {system : System SecretsDb SecretKey SecretPoint} {session : Nat}
    {point : SecretPoint} {input : SecretInput} {rows : SecretsDb → List SecretKey}
    {write : SecretsDb → SecretsDb} {next : SecretsDb → Option SecretPoint} {held : Held SecretKey}
    (writing : SecretWriting point rows write next) (atPoint : system.points session = some point)
    (allowed : consumesUnconsumed system (.advance session input) = true)
    (sound : UsedOnce system.database) (stage : SecretStage system.database held point) :
    UsedOnce (write system.database) ∧
      ∀ key ∉ rows system.database, system.database.isUnconsumed key = true →
        (write system.database).isUnconsumed key = true := by
  have loaded : ∀ key, point.consumesLoaded = some key →
      system.database.isUnconsumed key = true := by
    intro key consumes
    rw [consumesUnconsumed, atPoint, Option.bind_some, consumes] at allowed
    exact allowed
  have others : ∀ (before : SecretsDb) (key : SecretKey) (now : Instant),
      ∀ other ∉ [key], before.isUnconsumed other = true →
        (before.consume key now).isUnconsumed other = true := by
    intro before key now other notKey unconsumed
    rw [isUnconsumed_consume, unconsumed, Bool.true_and, decide_eq_true_eq]
    exact fun isKey => notKey (List.mem_singleton.mpr isKey)
  cases writing with
  | @consumeLink link now => exact ⟨sound.consume (loaded _ rfl) now, others _ _ now⟩
  | @consumeState state now => exact ⟨sound.consume (loaded _ rfl) now, others _ _ now⟩
  | @authorize userId integrationKey input =>
      have issues := issues_insertState userId integrationKey "google" input system.database
      exact ⟨issues.usedOnce sound, fun key _ => issues.kept key⟩
  | @createLinkToken link now input =>
      have issues := issues_insertLinkSession link.userId input system.database
      refine ⟨(issues.usedOnce sound).consume (issues.kept _ stage.2) now, ?_⟩
      intro key notLink unconsumed
      exact others _ _ now key notLink (issues.kept key unconsumed)
  | @complete completion isScheduled =>
      have issues := issues_connect completion system.database
      unfold LinkCompletion.write
      simp only
      generalize (match completion.connection with
        | some connection => completion.updateConnection connection system.database
        | none => completion.insertConnection system.database) = connected at issues
      have consumed := (issues.usedOnce sound).consume (issues.kept _ (loaded _ rfl)) completion.now
      have kept : ∀ key ∉ [SecretKey.linkSession completion.linkSession.id],
          system.database.isUnconsumed key = true →
            (connected.consume (.linkSession completion.linkSession.id)
              completion.now).isUnconsumed key = true :=
        fun key notSession unconsumed =>
          others connected _ completion.now key notSession (issues.kept key unconsumed)
      cases isScheduled with
      | true => exact ⟨consumed, kept⟩
      | false =>
          have inserts : ∀ (db : SecretsDb) (connectionId : Uuid),
              Issues db (completion.insertTask connectionId db) :=
            fun db connectionId => Issues.of_same rfl rfl rfl rfl (Nat.le_refl db.nextId)
          refine ⟨(inserts _ _).usedOnce consumed, ?_⟩
          intro key notSession unconsumed
          exact (inserts _ _).kept key (kept key notSession unconsumed)

/-- What a request of the protocol is. -/
inductive SecretRequests (point : SecretPoint) : Request SecretsDb SecretKey SecretPoint → Prop
  | read {next : SecretsDb → SecretPoint} :
      (∀ (db : SecretsDb) (held : Held SecretKey), SecretStage db held (next db)) → SecretRequests point (.read next)
  | lock {rows : SecretsDb → List SecretKey} {next : SecretsDb → SecretPoint} :
      (∀ (db : SecretsDb) (held : Held SecretKey),
        SecretStage db (fun row => row ∈ rows db ∨ held row) (next db)) →
      SecretRequests point (.lock rows next)
  | commit {rows : SecretsDb → List SecretKey} {permitted : SecretsDb → Bool}
      {write : SecretsDb → SecretsDb} {next : SecretsDb → Option SecretPoint} :
      SecretWriting point rows write next →
      SecretRequests point (.commit rows permitted write next none)
  | finished : SecretRequests point (.rollback none)

theorem secretRequests (point : SecretPoint) (input : SecretInput) :
    SecretRequests point (secretRequest point input) := by
  cases point with
  | openLink tokenHash =>
      apply SecretRequests.read
      intro db held
      cases (db.link? tokenHash).filter _ <;> exact True.intro
  | consumeLink link now => exact SecretRequests.commit SecretWriting.consumeLink
  | authorize userId integrationKey =>
      rw [secretRequest]
      split
      · exact SecretRequests.commit SecretWriting.authorize
      · exact SecretRequests.finished
  | lockLink tokenHash =>
      apply SecretRequests.lock
      intro db held
      cases found : (db.link? tokenHash).filter (fun link =>
          isValidAt link.expiresAt link.consumedAt input.now &&
            availableProvider link.integrationKey = some "plaid") with
      | none => exact True.intro
      | some link =>
          rw [Option.filter_eq_some_iff] at found
          rcases found with ⟨isLink, valid⟩
          simp only [isValidAt, Bool.and_eq_true] at valid
          constructor
          · left
            rw [isLink]
            exact List.mem_singleton_self _
          · apply List.any_eq_true.mpr
            refine ⟨link, List.mem_of_find?_eq_some isLink, ?_⟩
            rw [valid.1.1, Bool.and_true]
            exact decide_eq_true rfl
  | createLinkToken link now =>
      rw [secretRequest]
      split
      · exact SecretRequests.commit SecretWriting.createLinkToken
      · exact SecretRequests.finished
  | readState tokenHash =>
      apply SecretRequests.read
      intro db held
      cases (db.state? tokenHash).filter _ <;> exact True.intro
  | consumeState state now => exact SecretRequests.commit SecretWriting.consumeState
  | readSession tokenHash institutionId institutionName =>
      apply SecretRequests.read
      intro db held
      cases (db.linkSession? tokenHash).filter _ with
      | none => exact True.intro
      | some linkSession =>
          rw [Option.elim_some]
          split <;> exact True.intro
  | readExisting linkSession now connectionId institutionId institutionName =>
      apply SecretRequests.read
      intro db held
      cases db.connections.find? _ <;> exact True.intro
  | exchange linkSession now institutionId institutionName =>
      rw [secretRequest]
      split
      · exact SecretRequests.finished
      · apply SecretRequests.read
        intro db held
        simp only
        split <;> exact True.intro
  | readTask completion =>
      apply SecretRequests.read
      intro db held
      split
      · exact True.intro
      · split <;> exact True.intro
  | complete completion isScheduled => exact SecretRequests.commit SecretWriting.complete
  | finished => exact SecretRequests.finished

theorem secretRequests_of_eq {point : SecretPoint} {input : SecretInput}
    {request : Request SecretsDb SecretKey SecretPoint}
    (requested : secretProtocol.request point input = request) : SecretRequests point request := by
  rw [← requested]
  exact secretRequests point input

/-- The proof outline. -/
def secretOutline :
    Outline secretProtocol fun system event => consumesUnconsumed system event = true where
  Global := UsedOnce
  Local db point held := SecretStage db held point
  start := by
    intro database point mayStart _
    cases point <;> first | exact True.intro | cases mayStart
  read := by
    intro database point input next held requested _ _
    cases secretRequests_of_eq requested with
    | read arrives => exact arrives database held
  lock := by
    intro database point input rows next held requested _ _
    cases secretRequests_of_eq requested with
    | lock arrives => exact arrives database held
  skipLocked := by
    intro database point input candidates next held chosen requested
    cases secretRequests_of_eq requested
  rollback := by
    intro database point input next target held requested target_eq _ _
    cases secretRequests_of_eq requested with
    | finished => cases target_eq
  refused := by
    intro database point input rows permitted write next refused target held requested
      target_eq _ _
    cases secretRequests_of_eq requested with
    | commit _ => cases target_eq
  commit := by
    intro system session point input rows permitted write next refused commits allowed sound stage
    cases secretRequests_of_eq commits.requested with
    | commit writing =>
        refine ⟨(writing.keeps commits.at_point allowed sound stage).1, ?_⟩
        intro target target_eq
        cases writing with
        | consumeLink =>
            cases target_eq
            exact True.intro
        | authorize | createLinkToken | consumeState | complete => cases target_eq
  interference := by
    intro system session point input rows permitted write next refused commits allowed sound stage
      other held otherStage apart
    cases secretRequests_of_eq commits.requested with
    | commit writing =>
        have kept := (writing.keeps commits.at_point allowed sound stage).2
        cases other with
        | createLinkToken link now =>
            exact ⟨otherStage.1, kept _ (apart _ otherStage.1).1 otherStage.2⟩
        | openLink | consumeLink | authorize | lockLink | readState | consumeState | readSession
        | readExisting | exchange | readTask | complete | finished => exact True.intro

/-- In a run in which every transaction that consumes a row without having locked it finds the
row unconsumed, every link, state and session is consumed at most once. -/
theorem unconsumed_secrets_used_once {db : SecretsDb}
    {system : System SecretsDb SecretKey SecretPoint} (fresh : db.consumptions = [])
    (supply : ∀ key, db.isUnconsumed key = true → key.id < db.nextId)
    (run : Run (System.step secretProtocol)
      (fun system event => consumesUnconsumed system event = true) (System.idle db) system)
    (key : SecretKey) : system.database.consumptions.count key ≤ 1 := by
  have initial : UsedOnce db := by
    constructor
    · intro counted
      rw [fresh]
      exact Nat.zero_le 1
    · intro other unconsumed
      rw [fresh]
      exact ⟨List.not_mem_nil, supply other unconsumed⟩
    · rw [fresh]
      intro other otherMem
      cases otherMem
  have idle : secretOutline.Sound (System.idle db) := Outline.sound_idle initial
  have global : UsedOnce system.database := (idle.run run).global
  exact global.atMostOnce key

/-! ## The same secret presented twice -/

/-- A connect link, a state and a link session. -/
def issuedSecrets : SecretsDb where
  links := [⟨1, 7, "gmail", "link", 100, none⟩]
  states := [⟨2, 7, "gmail", "google", "state", "web", 100, none⟩]
  linkSessions := [⟨3, 7, none, "plaid", "session", "web", 100, none⟩]
  connections := []
  syncTasks := []
  nextId := 4
  consumptions := []

/-- A session goes on; the provider answers an exchange with an item. -/
def secretTick (session : Nat) (itemId : String) : Event SecretPoint SecretInput :=
  .advance session ⟨0, itemId, 100, true, some ("access", itemId)⟩

/-- A session presents a secret, up to the commit that consumes it. -/
def presentUpToCommit (session : Nat) (itemId : String) (entry : SecretPoint) (reads : Nat) :
    List (Event SecretPoint SecretInput) :=
  .start session entry :: List.replicate reads (secretTick session itemId)

/-- Two sessions present one secret, and both of them check it before either writes. -/
def presentedTwice (entry : SecretPoint) (reads : Nat) : List (Event SecretPoint SecretInput) :=
  presentUpToCommit 1 "first item" entry reads ++ presentUpToCommit 2 "second item" entry reads ++
    [secretTick 1 "first item", secretTick 2 "second item"]

/-- Some run from the issued secrets consumes the secret twice. -/
def ConsumedTwice (key : SecretKey) : Prop :=
  ∃ system : System SecretsDb SecretKey SecretPoint,
    Run (System.step secretProtocol) (fun _ _ => True) (System.idle issuedSecrets) system ∧
      system.database.consumptions.count key = 2

theorem consumedTwice_of_presented (entry : SecretPoint) (reads : Nat) {key : SecretKey}
    (runs : (execute (System.step secretProtocol) (fun _ _ => true) (System.idle issuedSecrets)
      (presentedTwice entry reads)).any (fun system =>
        system.database.consumptions.count key = 2) = true) : ConsumedTwice key := by
  rw [Option.any_eq_true] at runs
  rcases runs with ⟨system, executed, twice⟩
  exact ⟨system, (run_of_execute executed).mono fun _ _ _ => True.intro, of_decide_eq_true twice⟩

/-- A connect link, a state and a link session are each consumed by two transactions; the link
session by two that connect two banks. -/
theorem simultaneous_uses_both_succeed : ConsumedTwice (.connectLink 1) ∧
    ConsumedTwice (.oauthState 2) ∧ ConsumedTwice (.linkSession 3) := by
  refine ⟨?_, ?_, ?_⟩
  · exact consumedTwice_of_presented (.openLink "link") 1 (by decide)
  · exact consumedTwice_of_presented (.readState "state") 1 (by decide)
  · exact consumedTwice_of_presented (.readSession "session" none []) 3 (by decide)

/-- A session that checks after the other has committed is refused. -/
theorem successive_uses_refused :
    ∃ system : System SecretsDb SecretKey SecretPoint,
      system.points 2 = some .finished ∧ .connectLink 1 ∈ system.database.consumptions ∧
        system.database.consumptions.count (.connectLink 1) ≤ 1 := by
  have runs : (execute (System.step secretProtocol) consumesUnconsumed (System.idle issuedSecrets)
      (presentUpToCommit 1 "first item" (.openLink "link") 2 ++
        presentUpToCommit 2 "second item" (.openLink "link") 1)).any (fun system =>
          (system.points 2 = some .finished) &&
            decide (.connectLink 1 ∈ system.database.consumptions)) = true := by
    decide
  simp only [Option.any_eq_true, Bool.and_eq_true, decide_eq_true_eq] at runs
  rcases runs with ⟨system, executed, refused, consumed⟩
  have supply : ∀ key, issuedSecrets.isUnconsumed key = true → key.id < issuedSecrets.nextId := by
    intro key unconsumed
    cases key <;>
      simp only [SecretsDb.isUnconsumed, issuedSecrets, List.any_cons, List.any_nil, Bool.or_false,
        Bool.and_eq_true, decide_eq_true_eq] at unconsumed <;>
      · rw [SecretKey.id, ← unconsumed.1]
        decide
  exact ⟨system, refused, consumed,
    unconsumed_secrets_used_once rfl supply (run_of_execute executed) (.connectLink 1)⟩

end DotBackend.Integrations
