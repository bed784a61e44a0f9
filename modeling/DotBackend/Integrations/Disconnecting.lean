import DotBackend.Data.Number
import DotBackend.Data.Table
import DotBackend.Transaction.ReadCommitted

/-!
# Disconnecting Google capabilities

A Google account has a grant for each capability that is connected. Disconnecting one
stops its subscription, deletes its grant, counts the grants that are left, and revokes the
token and deletes the account when there is none. The history column records for which
accounts a token was revoked; the service does not read it.
-/

namespace DotBackend.Integrations

open Data Transition Transaction

/-! ## Rows -/

inductive IntegrationStatus
  | active | needsReauthorization | revoked
  deriving DecidableEq

inductive IntegrationSubscriptionStatus
  | active | pendingConfiguration | expired | stopped | failed
  deriving DecidableEq

/-- An account, with the credentials that its ciphertext stands for. -/
structure IntegrationAccount where
  id : Uuid
  userId : Uuid
  provider : String
  accessToken : String
  refreshToken : String
  tokenExpiresAt : Option Instant
  deriving DecidableEq

structure IntegrationGrant where
  id : Uuid
  accountId : Uuid
  integrationKey : String
  status : IntegrationStatus
  deriving DecidableEq

structure IntegrationSubscription where
  id : Uuid
  accountId : Uuid
  integrationKey : String
  status : IntegrationSubscriptionStatus
  deriving DecidableEq

structure IntegrationDb where
  accounts : List IntegrationAccount
  grants : List IntegrationGrant
  subscriptions : List IntegrationSubscription
  /-- The accounts whose token was revoked. -/
  revocations : List Uuid
  deriving DecidableEq

/-- The rows that transactions lock. -/
inductive IntegrationRow
  | account (id : Uuid)
  | grant (id : Uuid)
  | subscription (id : Uuid)
  deriving DecidableEq

/-- The integrations of the catalogue that are available and of Google. -/
def isGoogleIntegration (integrationKey : String) : Bool :=
  integrationKey = "google_calendar" || integrationKey = "gmail"

/-- The grant is of the account, and not revoked. -/
def IntegrationGrant.isActiveFor (accountId : Uuid) (grant : IntegrationGrant) : Bool :=
  grant.accountId = accountId && grant.status ≠ .revoked

/-- The subscription has to be stopped at the provider. -/
def IntegrationSubscription.isRunning (subscription : IntegrationSubscription) : Bool :=
  subscription.status ≠ .stopped && subscription.status ≠ .expired

namespace IntegrationDb

def account? (db : IntegrationDb) (userId accountId : Uuid) : Option IntegrationAccount :=
  db.accounts.find? fun account =>
    account.id = accountId ∧ account.userId = userId ∧ account.provider = "google"

def grant? (db : IntegrationDb) (accountId : Uuid) (integrationKey : String) :
    Option IntegrationGrant :=
  db.grants.find? fun grant =>
    grant.isActiveFor accountId && grant.integrationKey = integrationKey

def subscription? (db : IntegrationDb) (accountId : Uuid) (integrationKey : String) :
    Option IntegrationSubscription :=
  db.subscriptions.find? fun subscription =>
    subscription.accountId = accountId ∧ subscription.integrationKey = integrationKey

/-- `active_grant_count` after the deletion of a grant. -/
def activeGrantCount (db : IntegrationDb) (accountId deleted : Uuid) : Nat :=
  db.grants.countP fun grant => grant.isActiveFor accountId && grant.id ≠ deleted

end IntegrationDb

/-! ## The transactions -/

/-- What a session reads from outside the database: the clock, and the access token that
the provider refreshes, with the instant at which it expires. -/
structure IntegrationInput where
  now : Instant
  accessToken : String
  expiresAt : Instant

/-- What a transaction has read. -/
structure Disconnection where
  account : IntegrationAccount
  grant : IntegrationGrant
  subscription : Option IntegrationSubscription
  deriving DecidableEq

inductive DisconnectPoint
  | readAccount (userId accountId : Uuid) (integrationKey : String)
  | readGrant (account : IntegrationAccount) (integrationKey : String)
  | readSubscription (account : IntegrationAccount) (grant : IntegrationGrant)
  | stopWatch (disconnection : Disconnection)
  | flush (disconnection : Disconnection)
  | count (disconnection : Disconnection)
  /-- The deletions are flushed, and the token was revoked if no grant was counted. -/
  | commit (disconnection : Disconnection) (revokes : Bool)
  | finished
  deriving DecidableEq

/-- `get_valid_google_access_token` refreshes a token that expires within a minute. -/
def IntegrationAccount.needsRefresh (account : IntegrationAccount) (now : Instant) : Bool :=
  account.tokenExpiresAt.all fun expiresAt => expiresAt ≤ now + 60 * 1000000

def IntegrationAccount.refreshed (input : IntegrationInput) (account : IntegrationAccount) :
    IntegrationAccount :=
  { account with accessToken := input.accessToken, tokenExpiresAt := some input.expiresAt }

def refreshAccount (accountId : Uuid) (input : IntegrationInput) (db : IntegrationDb) :
    IntegrationDb :=
  { db with
    accounts := Table.update (fun account => account.id == accountId)
      (IntegrationAccount.refreshed input) db.accounts }

/-- The grant and the subscription are deleted. -/
def deleteGrant (disconnection : Disconnection) (db : IntegrationDb) : IntegrationDb :=
  { db with
    grants := db.grants.filter fun grant => grant.id ≠ disconnection.grant.id
    subscriptions := db.subscriptions.filter fun subscription =>
      some subscription.id ≠ disconnection.subscription.map (·.id) }

/-- The account is deleted, with everything that belongs to it, and its token revoked. -/
def deleteAccount (disconnection : Disconnection) (db : IntegrationDb) : IntegrationDb :=
  let rest := deleteGrant disconnection db
  { accounts := rest.accounts.filter fun account => account.id ≠ disconnection.account.id
    grants := rest.grants.filter fun grant => grant.accountId ≠ disconnection.account.id
    subscriptions := rest.subscriptions.filter fun subscription =>
      subscription.accountId ≠ disconnection.account.id
    revocations := disconnection.account.id :: rest.revocations }

/-- The rows that the flush deletes. -/
def Disconnection.rows (disconnection : Disconnection) : List IntegrationRow :=
  .grant disconnection.grant.id ::
    (disconnection.subscription.map fun subscription => .subscription subscription.id).toList

/-- The rows that the deletion of the account takes with it. -/
def Disconnection.accountRows (disconnection : Disconnection) (db : IntegrationDb) :
    List IntegrationRow :=
  .account disconnection.account.id ::
    (db.grants.filter fun grant => grant.accountId = disconnection.account.id).map (.grant ·.id) ++
    (db.subscriptions.filter fun subscription =>
      subscription.accountId = disconnection.account.id).map (.subscription ·.id)

/-- `disconnect_google_integration`, and the commit of its caller. -/
def disconnectRequest : DisconnectPoint → IntegrationInput →
    Request IntegrationDb IntegrationRow DisconnectPoint
  | .readAccount userId accountId integrationKey, _ =>
      .read fun db =>
        if isGoogleIntegration integrationKey then
          (db.account? userId accountId).elim .finished fun account =>
            .readGrant account integrationKey
        else .finished
  | .readGrant account integrationKey, _ =>
      .read fun db =>
        (db.grant? account.id integrationKey).elim .finished fun grant =>
          .readSubscription account grant
  | .readSubscription account grant, _ =>
      .read fun db =>
        .stopWatch ⟨account, grant, db.subscription? account.id grant.integrationKey⟩
  | .stopWatch disconnection, input =>
      if disconnection.subscription.any IntegrationSubscription.isRunning &&
          disconnection.account.needsRefresh input.now then
        .commit (fun _ => [.account disconnection.account.id])
          (fun db => db.accounts.any fun account => account.id = disconnection.account.id)
          (refreshAccount disconnection.account.id input)
          (fun _ => some (.flush
            { disconnection with account := disconnection.account.refreshed input }))
          none
      else .read fun _ => .flush disconnection
  | .flush disconnection, _ => .lock (fun _ => disconnection.rows) fun _ => .count disconnection
  | .count disconnection, _ =>
      .read fun db =>
        .commit disconnection
          (db.activeGrantCount disconnection.account.id disconnection.grant.id = 0)
  | .commit disconnection false, _ =>
      .commit (fun _ => disconnection.rows) (fun _ => true) (deleteGrant disconnection)
        (fun _ => none) none
  | .commit disconnection true, _ =>
      .commit (fun db => disconnection.rows ++ disconnection.accountRows db) (fun _ => true)
        (deleteAccount disconnection) (fun _ => none) none
  | .finished, _ => .rollback none

def DisconnectPoint.isEntry : DisconnectPoint → Bool
  | .readAccount _ _ _ => true
  | _ => false

def disconnectProtocol :
    Protocol IntegrationDb IntegrationRow DisconnectPoint IntegrationInput where
  starts := DisconnectPoint.isEntry
  request := disconnectRequest

/-! ## The property and the condition -/

/-- The account is stored. -/
def Connected (db : IntegrationDb) (accountId : Uuid) : Prop :=
  ∃ account ∈ db.accounts, account.id = accountId

/-- A grant of the account is stored that is not revoked. -/
def Granted (db : IntegrationDb) (accountId : Uuid) : Prop :=
  ∃ grant ∈ db.grants, grant.isActiveFor accountId = true

/-- The account is stored as long as a grant of it is; its token was revoked once when it no
longer is, and not before. -/
structure Settled (accountId : Uuid) (db : IntegrationDb) : Prop where
  connected_iff : Connected db accountId ↔ Granted db accountId
  unrevoked : Connected db accountId → db.revocations.count accountId = 0
  revoked : ¬ Connected db accountId → db.revocations.count accountId = 1

/-- A transaction deletes a grant that nobody else has deleted, and when it leaves the account
stored, another grant of the account is still stored that is not revoked. -/
def countedOnStored (system : System IntegrationDb IntegrationRow DisconnectPoint) :
    Event DisconnectPoint IntegrationInput → Bool
  | .advance session _ =>
      match system.points session with
      | some (.commit disconnection revokes) =>
          (system.database.grants.any fun grant => grant.id = disconnection.grant.id) &&
            (revokes || system.database.activeGrantCount disconnection.account.id
              disconnection.grant.id ≠ 0)
      | _ => true
  | _ => true

/-! ## Grants while a transaction runs -/

/-- What a transaction knows of its grant: it is the only row of its key, of the account, and
not revoked. -/
structure Reads (db : IntegrationDb) (account : IntegrationAccount) (grant : IntegrationGrant) :
    Prop where
  only : ∀ row ∈ db.grants, row.id = grant.id → row = grant
  isActive : grant.isActiveFor account.id = true

/-- No other grant of the account is left that is not revoked. -/
def LastGrant (db : IntegrationDb) (disconnection : Disconnection) : Prop :=
  ∀ row ∈ db.grants, row.isActiveFor disconnection.account.id = true →
    row.id = disconnection.grant.id

/-- What a session relies on at a point. -/
def DisconnectStage (db : IntegrationDb) : DisconnectPoint → Prop
  | .readSubscription account grant => Reads db account grant
  | .stopWatch disconnection | .flush disconnection | .count disconnection
  | .commit disconnection false => Reads db disconnection.account disconnection.grant
  | .commit disconnection true =>
      Reads db disconnection.account disconnection.grant ∧ LastGrant db disconnection
  | _ => True

section

variable {db before after : IntegrationDb} {point : DisconnectPoint} {accountId : Uuid}
  {account : IntegrationAccount} {grant : IntegrationGrant} {disconnection : Disconnection}

theorem activeGrantCount_eq_zero {deleted : Uuid} :
    db.activeGrantCount accountId deleted = 0 ↔
      ∀ row ∈ db.grants, row.isActiveFor accountId = true → row.id = deleted := by
  rw [IntegrationDb.activeGrantCount, List.countP_eq_zero]
  constructor
  · intro noneActive row rowMem isActive
    simpa [isActive] using noneActive row rowMem
  · intro isDeleted row rowMem
    by_cases isActive : row.isActiveFor accountId = true
    · simp [isDeleted row rowMem isActive]
    · simp [isActive]

theorem Reads.shrink (reads : Reads before account grant)
    (shrinks : ∀ row ∈ after.grants, row ∈ before.grants) : Reads after account grant :=
  ⟨fun row rowMem => reads.only row (shrinks row rowMem), reads.isActive⟩

/-- A commit deletes grants at most, and keeps the assertions at the points of others. -/
theorem DisconnectStage.shrink (stage : DisconnectStage before point)
    (shrinks : ∀ row ∈ after.grants, row ∈ before.grants) : DisconnectStage after point := by
  cases point with
  | readSubscription account grant => exact Reads.shrink stage shrinks
  | stopWatch disconnection | flush disconnection | count disconnection =>
      exact Reads.shrink stage shrinks
  | commit disconnection revokes =>
      cases revokes with
      | false => exact Reads.shrink stage shrinks
      | true =>
          obtain ⟨reads, isLast⟩ := stage
          exact ⟨reads.shrink shrinks, fun row rowMem => isLast row (shrinks row rowMem)⟩
  | readAccount | readGrant | finished => exact True.intro

/-- Grants that another account has, and that do not change. -/
theorem Granted.of_others {other : Uuid} (different : other ≠ accountId)
    (sameOthers : ∀ row, row.accountId ≠ other → (row ∈ after.grants ↔ row ∈ before.grants)) :
    Granted after accountId ↔ Granted before accountId := by
  have isOther : ∀ row : IntegrationGrant, row.isActiveFor accountId = true →
      row.accountId ≠ other := by
    intro row isActive same
    simp only [IntegrationGrant.isActiveFor, Bool.and_eq_true, decide_eq_true_eq] at isActive
    exact different (same.symm.trans isActive.1)
  constructor
  · rintro ⟨row, rowMem, isActive⟩
    exact ⟨row, (sameOthers row (isOther row isActive)).mp rowMem, isActive⟩
  · rintro ⟨row, rowMem, isActive⟩
    exact ⟨row, (sameOthers row (isOther row isActive)).mpr rowMem, isActive⟩

/-- A state in which the account, its grants and its revocations are as before. -/
theorem Settled.of_iff (settled : Settled accountId before)
    (connected : Connected after accountId ↔ Connected before accountId)
    (granted : Granted after accountId ↔ Granted before accountId)
    (revocations : after.revocations.count accountId = before.revocations.count accountId) :
    Settled accountId after where
  connected_iff := by
    rw [connected, granted]
    exact settled.connected_iff
  unrevoked isConnected := by
    rw [revocations]
    exact settled.unrevoked (connected.mp isConnected)
  revoked notConnected := by
    rw [revocations]
    exact settled.revoked fun isConnected => notConnected (connected.mpr isConnected)

theorem Settled.refreshAccount (settled : Settled accountId db) (refreshedId : Uuid)
    (input : IntegrationInput) : Settled accountId (refreshAccount refreshedId input db) := by
  have connected : Connected (Integrations.refreshAccount refreshedId input db) accountId ↔
      Connected db accountId := by
    constructor
    · rintro ⟨row, rowMem, sameId⟩
      rcases Table.mem_update_cases rowMem with ⟨old, oldMem, _, rfl⟩ | ⟨oldMem, _⟩
      · exact ⟨old, oldMem, sameId⟩
      · exact ⟨row, oldMem, sameId⟩
    · rintro ⟨row, rowMem, sameId⟩
      refine ⟨_, Table.mem_update.mpr ⟨row, rowMem, rfl⟩, ?_⟩
      split
      · exact sameId
      · exact sameId
  exact settled.of_iff connected Iff.rfl rfl

/-- Deleting a grant of another account. -/
theorem Reads.mem_deleteGrant_iff (reads : Reads db disconnection.account disconnection.grant)
    {row : IntegrationGrant} (isOther : row.accountId ≠ disconnection.account.id) :
    row ∈ (deleteGrant disconnection db).grants ↔ row ∈ db.grants := by
  simp only [deleteGrant, List.mem_filter, decide_eq_true_eq, and_iff_left_iff_imp]
  intro rowMem sameId
  have isActive := reads.isActive
  simp only [IntegrationGrant.isActiveFor, Bool.and_eq_true, decide_eq_true_eq] at isActive
  rw [reads.only row rowMem sameId] at isOther
  exact isOther isActive.1

/-- A grant is deleted while another one is left. -/
theorem Settled.deleteGrant (settled : Settled accountId db)
    (reads : Reads db disconnection.account disconnection.grant)
    (left : db.activeGrantCount disconnection.account.id disconnection.grant.id ≠ 0) :
    Settled accountId (deleteGrant disconnection db) := by
  by_cases isOwn : disconnection.account.id = accountId
  · subst isOwn
    rw [Ne, activeGrantCount_eq_zero] at left
    simp only [not_forall] at left
    obtain ⟨row, rowMem, isActive, isOther⟩ := left
    have grantedBefore : Granted db disconnection.account.id := ⟨row, rowMem, isActive⟩
    have grantedAfter : Granted (Integrations.deleteGrant disconnection db)
        disconnection.account.id :=
      ⟨row, List.mem_filter.mpr ⟨rowMem, decide_eq_true isOther⟩, isActive⟩
    exact settled.of_iff Iff.rfl (iff_of_true grantedAfter grantedBefore) rfl
  · exact settled.of_iff Iff.rfl
      (Granted.of_others isOwn fun row isOther => reads.mem_deleteGrant_iff isOther) rfl

/-- The account is deleted with its last grant. -/
theorem Settled.deleteAccount (settled : Settled accountId db)
    (reads : Reads db disconnection.account disconnection.grant)
    (isStored : ∃ row ∈ db.grants, row.id = disconnection.grant.id) :
    Settled accountId (deleteAccount disconnection db) := by
  by_cases isOwn : disconnection.account.id = accountId
  · subst isOwn
    obtain ⟨row, rowMem, sameId⟩ := isStored
    have granted : Granted db disconnection.account.id := by
      refine ⟨row, rowMem, ?_⟩
      rw [reads.only row rowMem sameId]
      exact reads.isActive
    have notConnected :
        ¬ Connected (Integrations.deleteAccount disconnection db) disconnection.account.id := by
      rintro ⟨account, accountMem, isAccount⟩
      exact of_decide_eq_true (List.mem_filter.mp accountMem).2 isAccount
    have notGranted :
        ¬ Granted (Integrations.deleteAccount disconnection db) disconnection.account.id := by
      rintro ⟨grant, grantMem, isActive⟩
      simp only [IntegrationGrant.isActiveFor, Bool.and_eq_true, decide_eq_true_eq] at isActive
      exact of_decide_eq_true (List.mem_filter.mp grantMem).2 isActive.1
    refine ⟨iff_of_false notConnected notGranted, fun isConnected => absurd isConnected notConnected,
      fun _ => ?_⟩
    change List.count _ (disconnection.account.id :: db.revocations) = 1
    rw [List.count_cons_self, settled.unrevoked (settled.connected_iff.mpr granted)]
  · apply settled.of_iff
    · constructor
      · rintro ⟨account, accountMem, isAccount⟩
        exact ⟨account, (List.mem_filter.mp accountMem).1, isAccount⟩
      · rintro ⟨account, accountMem, isAccount⟩
        refine ⟨account, List.mem_filter.mpr ⟨accountMem, ?_⟩, isAccount⟩
        rw [isAccount]
        exact decide_eq_true (Ne.symm isOwn)
    · apply Granted.of_others isOwn
      intro row isOther
      rw [← reads.mem_deleteGrant_iff isOther]
      change row ∈ List.filter _ _ ↔ _
      rw [List.mem_filter, decide_eq_true_eq, and_iff_left isOther]
    · exact List.count_cons_of_ne isOwn

end

/-! ## Runs -/

/-- The primary keys of the grants, and the state of one account. -/
structure DisconnectInvariant (accountId : Uuid) (db : IntegrationDb) : Prop where
  unique : Table.UniqueOn (fun grant => some grant.id) db.grants
  settled : Settled accountId db

/-- The commits of the protocol. -/
inductive DisconnectWriting :
    DisconnectPoint → (IntegrationDb → IntegrationDb) → (IntegrationDb → Option DisconnectPoint) →
      Prop
  | refresh {disconnection : Disconnection} {input : IntegrationInput} :
      DisconnectWriting (.stopWatch disconnection)
        (refreshAccount disconnection.account.id input)
        (fun _ => some (.flush
          { disconnection with account := disconnection.account.refreshed input }))
  | grant {disconnection : Disconnection} :
      DisconnectWriting (.commit disconnection false) (deleteGrant disconnection)
        (fun _ => none)
  | account {disconnection : Disconnection} :
      DisconnectWriting (.commit disconnection true) (deleteAccount disconnection)
        (fun _ => none)

/-- A session whose subscription is running may have to refresh the token first. -/
theorem stopWatch_cases (disconnection : Disconnection) (input : IntegrationInput) :
    disconnectRequest (.stopWatch disconnection) input = .read (fun _ => .flush disconnection) ∨
      ∃ rows permitted, disconnectRequest (.stopWatch disconnection) input =
        .commit rows permitted (refreshAccount disconnection.account.id input)
          (fun _ => some (.flush
            { disconnection with account := disconnection.account.refreshed input }))
          none := by
  rw [disconnectRequest]
  split
  · exact Or.inr ⟨_, _, rfl⟩
  · exact Or.inl rfl

/-- What a request of the protocol is. -/
inductive DisconnectRequests (db : IntegrationDb) (point : DisconnectPoint) :
    Request IntegrationDb IntegrationRow DisconnectPoint → Prop
  | read {next : IntegrationDb → DisconnectPoint} :
      (Table.UniqueOn (fun grant => some grant.id) db.grants → DisconnectStage db point →
        DisconnectStage db (next db)) →
      DisconnectRequests db point (.read next)
  | lock {disconnection : Disconnection} : point = .flush disconnection →
      DisconnectRequests db point (.lock (fun _ => disconnection.rows) fun _ => .count disconnection)
  | commit {rows : IntegrationDb → List IntegrationRow} {permitted : IntegrationDb → Bool}
      {write : IntegrationDb → IntegrationDb} {next : IntegrationDb → Option DisconnectPoint} :
      DisconnectWriting point write next →
      DisconnectRequests db point (.commit rows permitted write next none)
  | finished : DisconnectRequests db point (.rollback none)

theorem disconnectRequests (db : IntegrationDb) (point : DisconnectPoint)
    (input : IntegrationInput) :
    DisconnectRequests db point (disconnectRequest point input) := by
  cases point with
  | readAccount userId accountId integrationKey =>
      apply DisconnectRequests.read
      intro _ _
      split
      · cases db.account? userId accountId <;> exact True.intro
      · exact True.intro
  | readGrant account integrationKey =>
      apply DisconnectRequests.read
      intro unique _
      cases found : db.grant? account.id integrationKey with
      | none => exact True.intro
      | some grant =>
          have grantMem := List.mem_of_find?_eq_some found
          have matched := List.find?_some found
          simp only [Bool.and_eq_true] at matched
          refine ⟨?_, matched.1⟩
          intro row rowMem sameId
          exact unique.eq_of_mem rowMem grantMem rfl (by rw [sameId])
  | readSubscription account grant => exact DisconnectRequests.read fun _ stage => stage
  | stopWatch disconnection =>
      rcases stopWatch_cases disconnection input with isRead | ⟨rows, permitted, isCommit⟩
      · rw [isRead]
        exact DisconnectRequests.read fun _ stage => stage
      · rw [isCommit]
        exact DisconnectRequests.commit DisconnectWriting.refresh
  | flush disconnection => exact DisconnectRequests.lock rfl
  | count disconnection =>
      apply DisconnectRequests.read
      intro _ stage
      by_cases isLast : db.activeGrantCount disconnection.account.id disconnection.grant.id = 0
      · rw [decide_eq_true isLast]
        exact ⟨stage, activeGrantCount_eq_zero.mp isLast⟩
      · rw [decide_eq_false isLast]
        exact stage
  | commit disconnection revokes =>
      cases revokes with
      | false => exact DisconnectRequests.commit DisconnectWriting.grant
      | true => exact DisconnectRequests.commit DisconnectWriting.account
  | finished => exact DisconnectRequests.finished

theorem disconnectRequests_of_eq (db : IntegrationDb) {point : DisconnectPoint}
    {input : IntegrationInput} {request : Request IntegrationDb IntegrationRow DisconnectPoint}
    (requested : disconnectProtocol.request point input = request) :
    DisconnectRequests db point request := by
  rw [← requested]
  exact disconnectRequests db point input

/-- A commit under the condition keeps the invariant, and deletes grants at most. -/
theorem DisconnectWriting.keeps {accountId : Uuid}
    {system : System IntegrationDb IntegrationRow DisconnectPoint} {session : Nat}
    {point : DisconnectPoint} {input : IntegrationInput} {write : IntegrationDb → IntegrationDb}
    {next : IntegrationDb → Option DisconnectPoint}
    (writing : DisconnectWriting point write next)
    (atPoint : system.points session = some point)
    (allowed : countedOnStored system (.advance session input) = true)
    (invariant : DisconnectInvariant accountId system.database)
    (stage : DisconnectStage system.database point) :
    DisconnectInvariant accountId (write system.database) ∧
      ∀ row ∈ (write system.database).grants, row ∈ system.database.grants := by
  cases writing with
  | refresh =>
      exact ⟨⟨invariant.unique, invariant.settled.refreshAccount _ _⟩, fun _ rowMem => rowMem⟩
  | grant =>
      simp only [countedOnStored, atPoint, Bool.and_eq_true, Bool.false_or,
        decide_eq_true_eq] at allowed
      refine ⟨⟨invariant.unique.filter _, invariant.settled.deleteGrant stage allowed.2⟩, ?_⟩
      intro row rowMem
      exact (List.mem_filter.mp rowMem).1
  | account =>
      simp only [countedOnStored, atPoint, Bool.and_eq_true, Bool.true_or, and_true,
        List.any_eq_true, decide_eq_true_eq] at allowed
      refine ⟨⟨(invariant.unique.filter _).filter _,
        invariant.settled.deleteAccount stage.1 allowed⟩, ?_⟩
      intro row rowMem
      exact (List.mem_filter.mp (List.mem_filter.mp rowMem).1).1

/-- The proof outline for one account. -/
def disconnectOutline (accountId : Uuid) :
    Outline disconnectProtocol fun system event => countedOnStored system event = true where
  Global := DisconnectInvariant accountId
  Local db point _ := DisconnectStage db point
  start := by
    intro database point mayStart _
    cases point <;> first | exact True.intro | cases mayStart
  read := by
    intro database point input next held requested invariant stage
    cases disconnectRequests_of_eq database requested with
    | read arrives => exact arrives invariant.unique stage
  lock := by
    intro database point input rows next held requested _ stage
    cases disconnectRequests_of_eq database requested with
    | lock isFlush =>
        subst isFlush
        exact stage
  skipLocked := by
    intro database point input candidates next held chosen requested
    cases disconnectRequests_of_eq database requested
  rollback := by
    intro database point input next target held requested target_eq _ _
    cases disconnectRequests_of_eq database requested with
    | finished => cases target_eq
  refused := by
    intro database point input rows permitted write next refused target held requested
      target_eq _ _
    cases disconnectRequests_of_eq database requested with
    | commit _ => cases target_eq
  commit := by
    intro system session point input rows permitted write next refused commits allowed
      invariant stage
    cases disconnectRequests_of_eq system.database commits.requested with
    | commit writing =>
        refine ⟨(writing.keeps commits.at_point allowed invariant stage).1, ?_⟩
        intro target target_eq
        cases writing with
        | refresh =>
            cases target_eq
            exact ⟨stage.only, stage.isActive⟩
        | grant | account => cases target_eq
  interference := by
    intro system session point input rows permitted write next refused commits allowed
      invariant stage other held otherStage _
    cases disconnectRequests_of_eq system.database commits.requested with
    | commit writing =>
        exact otherStage.shrink (writing.keeps commits.at_point allowed invariant stage).2

/-- In a run in which every transaction that leaves the account stored finds another grant
stored, the account is stored if and only if a grant of it is, and once it no longer is its
token was revoked exactly once. -/
theorem counted_disconnects_settle {accountId : Uuid} {db : IntegrationDb}
    {system : System IntegrationDb IntegrationRow DisconnectPoint}
    (unique : Table.UniqueOn (fun grant => some grant.id) db.grants)
    (settled : Settled accountId db)
    (run : Run (System.step disconnectProtocol)
      (fun system event => countedOnStored system event = true) (System.idle db) system) :
    (Connected system.database accountId ↔ Granted system.database accountId) ∧
      (¬ Connected system.database accountId →
        system.database.revocations.count accountId = 1) := by
  have idle : (disconnectOutline accountId).Sound (System.idle db) :=
    Outline.sound_idle ⟨unique, settled⟩
  have sound := idle.run run
  have invariant : DisconnectInvariant accountId system.database := sound.global
  exact ⟨invariant.settled.connected_iff, invariant.settled.revoked⟩

/-! ## Two disconnections -/

/-- An account with both capabilities. -/
def connectedAccount : IntegrationDb where
  accounts := [⟨1, 7, "google", "access", "refresh", some (3600 * 1000000)⟩]
  grants := [⟨10, 1, "google_calendar", .active⟩, ⟨11, 1, "gmail", .active⟩]
  subscriptions := []
  revocations := []

theorem settled_connectedAccount : Settled 1 connectedAccount where
  connected_iff := iff_of_true ⟨_, List.mem_singleton_self _, rfl⟩
    ⟨_, List.mem_cons_self, rfl⟩
  unrevoked _ := rfl
  revoked notConnected := absurd ⟨_, List.mem_singleton_self _, rfl⟩ notConnected

def disconnectTick (session : Nat) : Event DisconnectPoint IntegrationInput :=
  .advance session ⟨0, "access", 3600 * 1000000⟩

/-- A session disconnects a capability, up to the commit of its caller. -/
def disconnectUpToCommit (session : Nat) (integrationKey : String) :
    List (Event DisconnectPoint IntegrationInput) :=
  .start session (.readAccount 7 1 integrationKey) :: List.replicate 6 (disconnectTick session)

/-- Both capabilities are disconnected at once, each transaction counts the grant of the
other, and the account stays stored without a grant. -/
theorem simultaneous_disconnects_leave_account :
    ∃ system : System IntegrationDb IntegrationRow DisconnectPoint,
      Run (System.step disconnectProtocol) (fun _ _ => True) (System.idle connectedAccount)
        system ∧
      (∀ session ∈ [1, 2], system.points session = none) ∧
      system.database.accounts = connectedAccount.accounts ∧ system.database.grants = [] ∧
      system.database.revocations = [] := by
  have runs : (execute (System.step disconnectProtocol) (fun _ _ => true)
      (System.idle connectedAccount)
      (disconnectUpToCommit 1 "google_calendar" ++ disconnectUpToCommit 2 "gmail" ++
        [disconnectTick 1, disconnectTick 2])).any (fun system =>
      ([1, 2].all fun session => system.points session = none) &&
      (system.database.accounts = connectedAccount.accounts) &&
      (system.database.grants = []) && system.database.revocations = []) = true := by
    decide
  simp only [Option.any_eq_true, Bool.and_eq_true, List.all_eq_true, decide_eq_true_eq] at runs
  rcases runs with ⟨system, executed, ⟨⟨ended, accounts⟩, grants⟩, revocations⟩
  exact ⟨system, (run_of_execute executed).mono fun _ _ _ => True.intro, ended, accounts, grants,
    revocations⟩

/-- The second transaction counts after the first has committed. -/
theorem successive_disconnects_settle :
    ∃ system : System IntegrationDb IntegrationRow DisconnectPoint,
      system.database.accounts = [] ∧ system.database.revocations = [1] ∧
      (Connected system.database 1 ↔ Granted system.database 1) ∧
      (¬ Connected system.database 1 → system.database.revocations.count 1 = 1) := by
  have runs : (execute (System.step disconnectProtocol) countedOnStored
      (System.idle connectedAccount)
      (disconnectUpToCommit 1 "google_calendar" ++ [disconnectTick 1] ++
        disconnectUpToCommit 2 "gmail" ++ [disconnectTick 2])).any (fun system =>
      (system.database.accounts = []) && system.database.revocations = [1]) = true := by
    decide
  simp only [Option.any_eq_true, Bool.and_eq_true, decide_eq_true_eq] at runs
  rcases runs with ⟨system, executed, accounts, revocations⟩
  exact ⟨system, accounts, revocations,
    counted_disconnects_settle (by decide) settled_connectedAccount (run_of_execute executed)⟩

end DotBackend.Integrations
