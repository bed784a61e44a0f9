import DotBackend.Finance.Resync

/-!
# A sync against the provider's change log

A sync that completes stores what the provider's log says, together with the cursor, unless the
last change of some transaction is on an account that the pages do not list.
-/

namespace DotBackend.Finance

open Data

variable {input : SyncInput} {db begun : FinanceDb} {connection : FinancialConnection}
  {literals : Literals} {originalCursor : Option String} {pages : List Json}
  {changes : List StoreChange}

/-! ## What a sync is for -/

/-- The pages of a successful pagination. -/
def loadedPages (input : SyncInput) (db : FinanceDb) : Option (List Json) :=
  match beginSync input db with
  | .error _ => none
  | .ok (_, originalCursor) =>
      match loadTransactionPages originalCursor 3 input.answers with
      | some (.ok pages) => some pages
      | _ => none

/-- The cursor of a connection. -/
def cursorOf (db : FinanceDb) (connectionId : Uuid) : Option String :=
  (connection? db connectionId).bind FinancialConnection.syncCursor

/-- Neither the transactions nor the cursor are other than before. -/
structure KeepsLedger (connectionId : Uuid) (before after : FinanceDb) : Prop where
  transactions : after.transactions = before.transactions
  cursor : cursorOf after connectionId = cursorOf before connectionId

/-- A connection without the time of its last sync. -/
def FinancialConnection.untimed (connection : FinancialConnection) : FinancialConnection :=
  { connection with lastSyncedAt := connection.lastSyncedAt.map fun _ => 0 }

/-- A database without timestamps. -/
def FinanceDb.untimed (db : FinanceDb) : FinanceDb :=
  { db with
    connections := db.connections.map FinancialConnection.untimed
    transactions := db.transactions.map FinancialTransaction.untimed }

/-- A completed call has left what the provider's log says. -/
structure FollowsLog (literals : Literals) (input : SyncInput) (pages : List Json)
    (before : FinanceDb) (run : SyncRun) (after : FinanceDb) : Prop where
  /-- The live transactions are those of the log; none is dropped. -/
  live : liveTransactions after input.connectionId =
    ChangeLog.replay (liveTransactions before input.connectionId)
      (changeLog literals (isKnown before input.connectionId pages) pages)
  /-- The cursor is that of the last page. -/
  cursor : ∀ page cursor, pages.getLast? = some page → get page "next_cursor" = .str cursor →
    cursorOf after input.connectionId = some cursor
  /-- The cursor moves in the transaction that stores the effects. -/
  together : ∀ db ∈ run.commits, db = after ∨ KeepsLedger input.connectionId before db
  /-- The same pages again change timestamps only. -/
  again : ∀ answers now,
    loadTransactionPages (cursorOf after input.connectionId) 3 answers = some (.ok pages) →
      ∃ begun repeated,
        syncFinancialConnection literals { input with answers := answers, now := now } after =
          some ⟨[begun, repeated], .ok ()⟩ ∧ repeated.untimed = after.untimed

/-- The last change of every transaction is a removal, or on an account that the pages list; or
what it says is stored already, and the pages change nothing of the transaction on an account
that they list, nor remove it. -/
def ReachesStore (literals : Literals) (connectionId : Uuid) (pages : List Json)
    (db : FinanceDb) : Prop :=
  let log := changeLog literals (isKnown db connectionId pages) pages
  ∀ providerId change, ChangeLog.last log providerId = some change →
    isOnListed pages change = true ∨
      liveTransactions db connectionId providerId = change.outcome ∧
        ∀ other ∈ log, other.key = providerId → isOnListed pages other = false

/-! ## The transactions around the pages -/

theorem connection?_updateConnection (db : FinanceDb) (connectionId : Uuid)
    (change : FinancialConnection → FinancialConnection) (keeps : ∀ row, (change row).id = row.id) :
    connection? (updateConnection connectionId change db) connectionId =
      (connection? db connectionId).map change := by
  unfold connection? updateConnection
  rw [Table.find?_update_key FinancialConnection.id change keeps, if_pos rfl]

theorem keepsLedger_updateConnection (db : FinanceDb) (connectionId : Uuid)
    {change : FinancialConnection → FinancialConnection} (keeps : ∀ row, (change row).id = row.id)
    (keepsCursor : ∀ row, (change row).syncCursor = row.syncCursor) :
    KeepsLedger connectionId db (updateConnection connectionId change db) := by
  constructor
  · rfl
  · rw [cursorOf, cursorOf, connection?_updateConnection db connectionId change keeps]
    cases connection? db connectionId with
    | none => rfl
    | some row => exact keepsCursor row

theorem KeepsLedger.trans {connectionId : Uuid} {first second third : FinanceDb}
    (earlier : KeepsLedger connectionId first second)
    (later : KeepsLedger connectionId second third) : KeepsLedger connectionId first third :=
  ⟨later.transactions.trans earlier.transactions, later.cursor.trans earlier.cursor⟩

theorem keepsLedger_recordFailure (connectionId : Uuid) (error : SyncError) (db : FinanceDb) :
    KeepsLedger connectionId db (recordFailure connectionId error db) := by
  apply keepsLedger_updateConnection
  · intro row
    rfl
  · intro row
    rfl

/-- How the first transaction marks a connection. -/
def FinancialConnection.marked (connection : FinancialConnection) : FinancialConnection :=
  { connection with syncStatus := .syncing, lastSyncError := none }

/-- The connection, its credentials and the marked database of a call that has begun. -/
theorem beginSync_eq_ok {begun : FinanceDb × Option String}
    (success : beginSync input db = .ok begun) :
    ∃ connection decrypt credentials token, connection? db input.connectionId = some connection ∧
      connection.provider = "plaid" ∧ input.vault = some decrypt ∧
      decrypt connection.credentialsCiphertext = some credentials ∧
      get credentials "access_token" = .str token ∧
      begun = (updateConnection input.connectionId FinancialConnection.marked db,
        connection.syncCursor) := by
  unfold beginSync at success
  split at success
  · cases success
  · rename_i decrypt hasVault
    split at success
    · cases success
    · rename_i connection found
      rw [Option.filter_eq_some_iff] at found
      split at success
      · cases success
      · rename_i credentials decrypted
        split at success
        · rename_i token isToken
          have hasId : connection.id = input.connectionId := by
            simpa using List.find?_some found.1
          cases success
          refine ⟨connection, decrypt, credentials, token, found.1, of_decide_eq_true found.2,
            hasVault, decrypted, isToken, ?_⟩
          rw [hasId]
          rfl
        · cases success

theorem beginSync_of {decrypt : List Char → Option Json} {credentials : Json} {token : String}
    (found : connection? db input.connectionId = some connection)
    (isPlaid : connection.provider = "plaid") (hasVault : input.vault = some decrypt)
    (decrypted : decrypt connection.credentialsCiphertext = some credentials)
    (isToken : get credentials "access_token" = .str token) :
    beginSync input db =
      .ok (updateConnection input.connectionId FinancialConnection.marked db,
        connection.syncCursor) := by
  have hasId : connection.id = input.connectionId := by simpa using List.find?_some found
  have filtered : (connection? db input.connectionId).filter (·.provider = "plaid") =
      some connection := by
    rw [found, Option.filter_some, if_pos (decide_eq_true isPlaid)]
  unfold beginSync
  rw [hasVault]
  simp only [filtered, decrypted, isToken, hasId]
  rfl

/-! ## The transaction that applies the pages -/

/-- The end of that transaction: the cursor, and the event. -/
def conclude (input : SyncInput) (connection : FinancialConnection) (cursor : Option String)
    (accountCount : Nat) (db : FinanceDb) : FinanceDb :=
  let db := updateConnection input.connectionId (finishConnection input.now cursor) db
  if input.notifyOnComplete then enqueueUserEvent input connection accountCount db else db

theorem enqueueUserEvent_keeps (input : SyncInput) (connection : FinancialConnection)
    (accountCount : Nat) (db : FinanceDb) :
    let after := enqueueUserEvent input connection accountCount db
    after.connections = db.connections ∧ after.accounts = db.accounts ∧
      after.transactions = db.transactions ∧ after.nextId = db.nextId := by
  unfold enqueueUserEvent
  simp only
  split <;> exact ⟨rfl, rfl, rfl, rfl⟩

theorem conclude_keeps (input : SyncInput) (connection : FinancialConnection)
    (cursor : Option String) (accountCount : Nat) (db : FinanceDb) :
    let after := conclude input connection cursor accountCount db
    after.connections = (updateConnection input.connectionId (finishConnection input.now cursor)
        db).connections ∧
      after.accounts = db.accounts ∧ after.transactions = db.transactions ∧
      after.nextId = db.nextId := by
  unfold conclude
  simp only
  split
  · exact enqueueUserEvent_keeps input connection accountCount _
  · exact ⟨rfl, rfl, rfl, rfl⟩

/-- What applying the pages has read when it succeeds, and what it leaves. -/
structure Applied (literals : Literals) (input : SyncInput) (originalCursor : Option String)
    (pages : List Json) (begun after : FinanceDb) where
  connection : FinancialConnection
  listed : List (String × Json)
  stored : FinanceDb
  changes : List StoreChange
  found : connection? begun input.connectionId = some connection
  isListed : rawAccounts pages [] = .ok listed
  keys : FinanceKeys stored
  only : OnlyAccounts begun stored
  hold : AllHold literals input.connectionId listed stored
  read : readAll literals (rowsOf stored input.connectionId listed) pages = .ok changes
  cursorFits : (finalCursor pages originalCursor connection.syncCursor).all
    (fun cursor => fitsText cursor.toList) = true
  after_eq : after = conclude input connection
    (finalCursor pages originalCursor connection.syncCursor)
    (rowsOf stored input.connectionId listed).length
    (changes.foldl (StoreChange.perform connection.userId input.now) stored)

theorem exists_applied {after : FinanceDb} (keys : FinanceKeys begun)
    (success : applyPages literals input originalCursor pages begun = .ok after) :
    Nonempty (Applied literals input originalCursor pages begun after) := by
  unfold applyPages at success
  split at success
  · cases success
  · rename_i connection found
    have hasId : connection.id = input.connectionId := by simpa using List.find?_some found
    simp only [upsertAccounts, bind_eq_ok, require_eq_ok, hasId] at success
    rcases success with ⟨stored, ⟨listed, isListed, isStored⟩, applied, isApplied, _, cursorFits,
      concluded⟩
    rcases keys_rawAccounts isListed with ⟨nodup, _⟩
    rcases upsertListed_stored keys (nodup List.nodup_nil) isStored with
      ⟨storedKeys, only, hold, isMap, _⟩
    rw [List.nil_append] at isMap
    rw [isMap] at isApplied concluded
    rcases applyPages_eq_ok.mp isApplied with ⟨changes, read, rfl⟩
    refine ⟨⟨connection, listed, stored.1, changes, found, isListed, storedKeys, only, hold, read,
      cursorFits, ?_⟩⟩
    unfold conclude
    simp only
    split at concluded
    · rename_i notifies
      rw [if_pos notifies]
      exact (pure_eq_ok.mp concluded).symm
    · rename_i quiet
      rw [if_neg quiet]
      exact (pure_eq_ok.mp concluded).symm

theorem applyPages_of {stored : FinanceDb} {listed : List (String × Json)}
    (found : connection? begun input.connectionId = some connection)
    (isListed : rawAccounts pages [] = .ok listed)
    (isStored : upsertListed literals input.connectionId listed begun [] =
      .ok (stored, rowsOf stored input.connectionId listed))
    (read : readAll literals (rowsOf stored input.connectionId listed) pages = .ok changes)
    (cursorFits : (finalCursor pages originalCursor connection.syncCursor).all
      (fun cursor => fitsText cursor.toList) = true) :
    applyPages literals input originalCursor pages begun =
      .ok (conclude input connection (finalCursor pages originalCursor connection.syncCursor)
        (rowsOf stored input.connectionId listed).length
        (changes.foldl (StoreChange.perform connection.userId input.now) stored)) := by
  have hasId : connection.id = input.connectionId := by simpa using List.find?_some found
  unfold applyPages
  rw [found]
  simp only [upsertAccounts, bind_eq_ok, require_eq_ok, hasId]
  refine ⟨_, ⟨listed, isListed, isStored⟩, _, applyPages_eq_ok.mpr ⟨changes, read, rfl⟩, (),
    cursorFits, ?_⟩
  unfold conclude
  simp only
  split <;> rfl

namespace Applied

variable {literals : Literals} {input : SyncInput} {originalCursor : Option String}
  {pages : List Json} {begun after : FinanceDb}

theorem accounts (applied : Applied literals input originalCursor pages begun after) :
    after.accounts = applied.stored.accounts := by
  have kept := congrArg FinanceDb.accounts applied.after_eq
  rw [(conclude_keeps ..).2.1, accounts_performed] at kept
  exact kept

theorem transactions (applied : Applied literals input originalCursor pages begun after) :
    after.transactions = (applied.changes.foldl
      (StoreChange.perform applied.connection.userId input.now) applied.stored).transactions :=
  (congrArg FinanceDb.transactions applied.after_eq).trans (conclude_keeps ..).2.2.1

/-- The live transactions are those of the log about the listed accounts. -/
theorem live (applied : Applied literals input originalCursor pages begun after)
    (keys : FinanceKeys begun) :
    liveTransactions after input.connectionId =
      ChangeLog.replay (liveTransactions begun input.connectionId)
        (changeLog literals (Finance.isListed pages) pages) := by
  have isOn : ∀ account, ((rowsOf applied.stored input.connectionId applied.listed).get?
      account).isSome = Finance.isListed pages account := by
    intro account
    rw [Bool.eq_iff_iff, get?_rowsOf_isSome]
    have same := (keys_rawAccounts applied.isListed).2 account
    simpa using same
  have performed := liveTransactions_performed (mapsAccounts_rowsOf applied.keys applied.hold)
    applied.connection.userId input.now (readAll_onMap applied.read)
  rw [← readAll_logged isOn applied.read, applied.only.liveTransactions keys] at performed
  rw [← performed]
  apply liveTransactions_congr
  · rw [applied.accounts, accounts_performed]
  · exact applied.transactions

theorem connections (applied : Applied literals input originalCursor pages begun after) :
    after.connections = (updateConnection input.connectionId (finishConnection input.now
      (finalCursor pages originalCursor applied.connection.syncCursor)) begun).connections := by
  have kept := congrArg FinanceDb.connections applied.after_eq
  have unperformed : ∀ (changes : List StoreChange) (db : FinanceDb),
      (changes.foldl (StoreChange.perform applied.connection.userId input.now) db).connections =
        db.connections := by
    intro changes
    induction changes with
    | nil => exact fun _ => rfl
    | cons change rest ih =>
        intro db
        rw [List.foldl_cons, ih]
        cases change with
        | upsert write =>
            rw [StoreChange.perform, storeTransaction]
            split <;> rfl
        | removal providerId => rfl
  rw [(conclude_keeps ..).1, updateConnection, unperformed, applied.only.connections] at kept
  exact kept

theorem connection?_eq (applied : Applied literals input originalCursor pages begun after) :
    connection? after input.connectionId = some (finishConnection input.now
      (finalCursor pages originalCursor applied.connection.syncCursor) applied.connection) := by
  have finished := connection?_updateConnection begun input.connectionId (finishConnection input.now
    (finalCursor pages originalCursor applied.connection.syncCursor)) fun _ => rfl
  rw [applied.found, Option.map_some] at finished
  rw [← finished, connection?, connection?, applied.connections]

end Applied

/-! ## The same pages again -/

theorem finalCursor_again (pages : List Json) (originalCursor stored : Option String) :
    finalCursor pages (finalCursor pages originalCursor stored)
        (finalCursor pages originalCursor stored) =
      finalCursor pages originalCursor stored := by
  unfold finalCursor
  cases pages.getLast? with
  | none => cases originalCursor.or stored <;> rfl
  | some page =>
      simp only
      cases get page "next_cursor" <;> rfl

/-- The event of a connection is queued. -/
def IsQueued (connectionId : Uuid) (events : List FinanceEvent) : Prop :=
  events.any (·.idempotencyKey = "finance.connected:".toList ++ uuidText connectionId) = true

theorem isQueued_enqueueUserEvent (input : SyncInput) (connection : FinancialConnection)
    (accountCount : Nat) (db : FinanceDb) :
    IsQueued connection.id (enqueueUserEvent input connection accountCount db).userEvents := by
  unfold enqueueUserEvent
  simp only
  split
  · rename_i already
    exact already
  · simp [IsQueued]

theorem enqueueUserEvent_of_isQueued {accountCount : Nat}
    (queued : IsQueued connection.id db.userEvents) :
    enqueueUserEvent input connection accountCount db = db :=
  if_pos queued

/-- A second event under the key of a connection is not queued. -/
theorem userEvents_conclude_again {first second : SyncInput} {earlier later : FinancialConnection}
    (sameNotice : second.notifyOnComplete = first.notifyOnComplete) (sameId : later.id = earlier.id)
    (firstCursor secondCursor : Option String) (firstCount secondCount : Nat)
    (before : FinanceDb)
    (events : db.userEvents = (conclude first earlier firstCursor firstCount before).userEvents) :
    (conclude second later secondCursor secondCount db).userEvents = db.userEvents := by
  unfold conclude at *
  simp only at *
  rw [sameNotice]
  by_cases notifies : first.notifyOnComplete = true
  · rw [if_pos notifies] at events ⊢
    rw [enqueueUserEvent_of_isQueued]
    · rfl
    · have queued := isQueued_enqueueUserEvent first earlier firstCount
        (updateConnection first.connectionId (finishConnection first.now firstCursor) before)
      rw [← events, ← sameId] at queued
      exact queued
  · rw [if_neg notifies]
    rfl

theorem connections_again {before : FinanceDb} {connectionId : Uuid} (first second : Instant)
    (cursor : Option String) {after : FinanceDb}
    (finished : after.connections =
      (updateConnection connectionId (finishConnection first cursor) before).connections) :
    ((updateConnection connectionId (finishConnection second cursor)
        (updateConnection connectionId FinancialConnection.marked after)).connections).map
      FinancialConnection.untimed = after.connections.map FinancialConnection.untimed := by
  unfold updateConnection at *
  simp only at *
  rw [finished]
  unfold Table.update
  rw [List.map_map, List.map_map, List.map_map, List.map_map]
  apply List.map_congr_left
  intro row _
  by_cases isOne : row.id = connectionId
  · simp [isOne, finishConnection, FinancialConnection.marked, FinancialConnection.untimed]
  · simp [isOne]

theorem transactions_again {rows : List FinancialTransaction}
    (settled : ∀ row ∈ rows, Settled changes row) (now : Instant) :
    (rows.map fun row => changes.foldl (StoreChange.onRow now) row).map
      FinancialTransaction.untimed = rows.map FinancialTransaction.untimed := by
  rw [List.map_map]
  apply List.map_congr_left
  intro row rowMem
  exact (settled row rowMem).untimed_foldl now

/-- The end of a second run of the same changes leaves what the first one left, up to times. -/
theorem untimed_conclude_again {first second : SyncInput} {earlier later : FinancialConnection}
    (sameConnection : second.connectionId = first.connectionId)
    (sameNotice : second.notifyOnComplete = first.notifyOnComplete) (sameId : later.id = earlier.id)
    (cursor : Option String) (firstCount secondCount : Nat) {performed after marked : FinanceDb}
    (settled : ∀ row ∈ performed.transactions, Settled changes row)
    (isAfter : after = conclude first earlier cursor firstCount performed)
    (isMarked : marked = updateConnection first.connectionId FinancialConnection.marked after) :
    (conclude second later cursor secondCount
      { marked with
        transactions := marked.transactions.map
          fun row => changes.foldl (StoreChange.onRow second.now) row }).untimed = after.untimed := by
  rcases conclude_keeps first earlier cursor firstCount performed with
    ⟨connections, accounts, transactions, nextId⟩
  rw [← isAfter] at connections accounts transactions nextId
  generalize isRewritten : { marked with
    transactions := marked.transactions.map
      fun row => changes.foldl (StoreChange.onRow second.now) row } = rewritten
  have events : rewritten.userEvents =
      (conclude first earlier cursor firstCount performed).userEvents := by
    rw [← isRewritten, isMarked, ← isAfter]
    rfl
  rcases conclude_keeps second later cursor secondCount rewritten with
    ⟨connections', accounts', transactions', nextId'⟩
  have events' := userEvents_conclude_again sameNotice sameId cursor cursor firstCount secondCount
    performed events
  rw [← isAfter] at events
  generalize conclude second later cursor secondCount rewritten = repeated at *
  have sameConnections : repeated.connections.map FinancialConnection.untimed =
      after.connections.map FinancialConnection.untimed := by
    rw [connections', ← connections_again first.now second.now cursor connections, ← isRewritten,
      isMarked, sameConnection]
    rfl
  have sameTransactions : repeated.transactions.map FinancialTransaction.untimed =
      after.transactions.map FinancialTransaction.untimed := by
    rw [transactions', ← isRewritten, isMarked]
    apply transactions_again
    intro row rowMem
    apply settled row
    rw [← transactions]
    exact rowMem
  have sameAccounts : repeated.accounts = after.accounts := by
    rw [accounts', ← isRewritten, isMarked]
    rfl
  have sameNextId : repeated.nextId = after.nextId := by
    rw [nextId', ← isRewritten, isMarked]
    rfl
  unfold FinanceDb.untimed
  rw [sameConnections, sameTransactions, sameAccounts, sameNextId, events', events]

/-- Applying the pages to what applying them has left changes timestamps only. -/
theorem Applied.again {after : FinanceDb}
    (applied : Applied literals input originalCursor pages begun after)
    (answers : List (Option String → Answer)) (now : Instant) :
    ∃ repeated,
      applyPages literals { input with answers := answers, now := now }
        (cursorOf after input.connectionId) pages
        (updateConnection input.connectionId FinancialConnection.marked after) = .ok repeated ∧
      repeated.untimed = after.untimed := by
  have cursor_eq : cursorOf after input.connectionId =
      finalCursor pages originalCursor applied.connection.syncCursor := by
    rw [cursorOf, applied.connection?_eq]
    rfl
  rw [cursor_eq]
  have remarked := connection?_updateConnection after input.connectionId
    FinancialConnection.marked fun _ => rfl
  rw [applied.connection?_eq, Option.map_some] at remarked
  generalize isMarked : updateConnection input.connectionId FinancialConnection.marked after = marked
    at remarked
  have sameAccounts : marked.accounts = applied.stored.accounts := by
    rw [← isMarked]
    exact applied.accounts
  have isStored : upsertListed literals input.connectionId applied.listed marked [] =
      .ok (marked, rowsOf marked input.connectionId applied.listed) := by
    apply upsertListed_again
    · rw [sameAccounts]
      exact applied.keys.accountKeys
    · exact applied.hold.of_accounts sameAccounts
  have read : readAll literals (rowsOf marked input.connectionId applied.listed) pages =
      .ok applied.changes := by
    rw [rowsOf_of_accounts sameAccounts]
    exact applied.read
  generalize isConnection : (finishConnection input.now (finalCursor pages originalCursor
    applied.connection.syncCursor) applied.connection).marked = connection at remarked
  have hasCursor : connection.syncCursor =
      finalCursor pages originalCursor applied.connection.syncCursor := by
    rw [← isConnection]
    rfl
  generalize isCursor : finalCursor pages originalCursor applied.connection.syncCursor = cursor
    at hasCursor
  have sameCursor : finalCursor pages cursor connection.syncCursor = cursor := by
    rw [hasCursor, ← isCursor, finalCursor_again]
  have fits := applied.cursorFits
  rw [isCursor, ← sameCursor] at fits
  have stillPresent : ∀ change ∈ applied.changes, change.IsPresent marked := by
    intro change changeMem
    apply IsPresent.of_keys
      ((settled_performed applied.connection.userId input.now applied.changes applied.stored).2
        change changeMem)
    intro row rowMem
    rw [← applied.transactions] at rowMem
    rw [← isMarked]
    exact ⟨row, rowMem, rfl⟩
  generalize isAgain : { input with answers := answers, now := now } = later
  have sameId : later.connectionId = input.connectionId := by
    rw [← isAgain]
  rw [← sameId] at remarked isStored read
  have success := applyPages_of remarked applied.isListed isStored read fits
  rw [sameCursor, performed_of_present _ _ stillPresent] at success
  refine ⟨_, success, ?_⟩
  have sameNotice : later.notifyOnComplete = input.notifyOnComplete := by
    rw [← isAgain]
  have sameRow : connection.id = applied.connection.id := by
    rw [← isConnection]
    rfl
  have isAfter := applied.after_eq
  rw [isCursor] at isAfter
  exact untimed_conclude_again sameId sameNotice sameRow cursor _ _
    (settled_performed applied.connection.userId input.now applied.changes applied.stored).1
    isAfter isMarked.symm

/-! ## A whole call -/

theorem loadedPages_eq_some (loaded : loadedPages input db = some pages) :
    ∃ begun, beginSync input db = .ok begun ∧
      loadTransactionPages begun.2 3 input.answers = some (.ok pages) := by
  unfold loadedPages at loaded
  split at loaded
  · cases loaded
  · rename_i begun originalCursor hasBegun
    split at loaded
    · rename_i answered isLoaded
      cases loaded
      exact ⟨_, hasBegun, isLoaded⟩
    · cases loaded

theorem syncFinancialConnection_of_loaded (literals : Literals) {begun : FinanceDb × Option String}
    (hasBegun : beginSync input db = .ok begun)
    (loaded : loadTransactionPages begun.2 3 input.answers = some (.ok pages)) :
    syncFinancialConnection literals input db =
      some (match applyPages literals input begun.2 pages begun.1 with
        | .ok applied => ⟨[begun.1, applied], .ok ()⟩
        | .error error =>
            ⟨[begun.1, recordFailure input.connectionId error begun.1], .error error⟩) := by
  unfold syncFinancialConnection
  rw [hasBegun]
  cases applied : applyPages literals input begun.2 pages begun.1 with
  | ok applied => simp only [loaded, applied, Option.map_some, Except.bind]
  | error error => simp only [loaded, applied, Option.map_some, Except.bind]

theorem FinanceKeys.updateConnection (keys : FinanceKeys db) (connectionId : Uuid)
    {change : FinancialConnection → FinancialConnection} (keeps : ∀ row, (change row).id = row.id) :
    FinanceKeys (updateConnection connectionId change db) :=
  ⟨keys.connectionIds.update _ keeps, keys.accountIds, keys.accountKeys, keys.transactionKeys,
    keys.accountOf, keys.supply⟩

/-- Replaying the changes on listed accounts leaves what the whole log says just when every last
change reaches the store. -/
theorem replay_listed_iff (literals : Literals) (connectionId : Uuid) (pages : List Json)
    (db : FinanceDb) :
    ChangeLog.replay (liveTransactions db connectionId)
        (changeLog literals (isListed pages) pages) =
      ChangeLog.replay (liveTransactions db connectionId)
        (changeLog literals (isKnown db connectionId pages) pages) ↔
      ReachesStore literals connectionId pages db := by
  rw [changeLog_listed literals db connectionId pages, ChangeLog.replay_filter_eq_iff]
  unfold ReachesStore
  simp only
  generalize changeLog literals (isKnown db connectionId pages) pages = log
  apply forall_congr'
  intro providerId
  apply forall_congr'
  intro change
  apply imp_congr_right
  intro isLast
  by_cases isApplied : isOnListed pages change = true
  · simp [isApplied]
  · simp only [isApplied, Bool.false_eq_true, false_or]
    rw [ChangeLog.replay_eq]
    cases isLastApplied : ChangeLog.last (log.filter (isOnListed pages)) providerId with
    | none =>
        have unapplied : ∀ other ∈ log, other.key = providerId → isOnListed pages other = false := by
          intro other otherMem isKey
          rw [ChangeLog.last_eq_none_iff] at isLastApplied
          by_contra isOn
          rw [Bool.not_eq_false] at isOn
          exact isLastApplied other (List.mem_filter.mpr ⟨otherMem, isOn⟩) isKey
        exact ⟨fun same => ⟨same, unapplied⟩, fun ⟨same, _⟩ => same⟩
    | some applied =>
        rcases ChangeLog.mem_of_last isLastApplied with ⟨appliedMem, isKey⟩
        rcases List.mem_filter.mp appliedMem with ⟨inLog, isOn⟩
        constructor
        · intro same
          apply absurd _ isApplied
          rw [isOnListed, ← same]
          exact isOn
        · rintro ⟨_, unapplied⟩
          rw [unapplied applied inLog isKey] at isOn
          cases isOn

/-- A failed sync keeps the cursor and the transactions. A sync that completes leaves what the
provider's log says if and only if every last change reaches the store. -/
theorem sync_follows_log_iff (literals : Literals) (input : SyncInput) (pages : List Json)
    (before : FinanceDb) (run : SyncRun) (keys : FinanceKeys before)
    (loaded : loadedPages input before = some pages)
    (ran : syncFinancialConnection literals input before = some run) :
    (∀ error, run.outcome = .error error →
      ∀ db ∈ run.commits, KeepsLedger input.connectionId before db) ∧
    (run.outcome = .ok () →
      ((∃ after, run.commits.getLast? = some after ∧
        FollowsLog literals input pages before run after) ↔
          ReachesStore literals input.connectionId pages before)) := by
  rcases loadedPages_eq_some loaded with ⟨⟨begun, originalCursor⟩, hasBegun, isLoaded⟩
  rw [syncFinancialConnection_of_loaded literals hasBegun isLoaded] at ran
  rcases beginSync_eq_ok hasBegun with ⟨connection, decrypt, credentials, token, found, isPlaid,
    hasVault, decrypted, isToken, isBegun⟩
  cases isBegun
  have marking : KeepsLedger input.connectionId before
      (updateConnection input.connectionId FinancialConnection.marked before) :=
    keepsLedger_updateConnection before input.connectionId (fun _ => rfl) fun _ => rfl
  cases isApplied : applyPages literals input connection.syncCursor pages
      (updateConnection input.connectionId FinancialConnection.marked before) with
  | error failure =>
      simp only [isApplied] at ran
      cases ran
      constructor
      · intro error _ db dbMem
        rcases List.mem_cons.mp dbMem with isMarked | isRecorded
        · rw [isMarked]
          exact marking
        · rw [List.mem_singleton.mp isRecorded]
          exact marking.trans (keepsLedger_recordFailure input.connectionId failure _)
      · intro completed
        cases completed
  | ok after =>
      simp only [isApplied] at ran
      cases ran
      constructor
      · intro error failed
        cases failed
      · intro _
        have markedKeys : FinanceKeys
            (updateConnection input.connectionId FinancialConnection.marked before) :=
          keys.updateConnection input.connectionId fun _ => rfl
        rcases exists_applied markedKeys isApplied with ⟨applied⟩
        have live := applied.live markedKeys
        have unmarked : liveTransactions
            (updateConnection input.connectionId FinancialConnection.marked before)
              input.connectionId = liveTransactions before input.connectionId :=
          liveTransactions_congr rfl rfl input.connectionId
        rw [unmarked] at live
        rw [← replay_listed_iff, ← live]
        constructor
        · rintro ⟨_, isAfter, follows⟩
          cases isAfter
          exact follows.live
        · intro same
          refine ⟨after, rfl, same, ?_, ?_, ?_⟩
          · intro page cursor isLastPage hasCursor
            rw [cursorOf, applied.connection?_eq, Option.bind_some]
            simp only [finishConnection, finalCursor, isLastPage, hasCursor]
          · intro db dbMem
            rcases List.mem_cons.mp dbMem with isMarked | isAfter
            · right
              rw [isMarked]
              exact marking
            · left
              exact List.mem_singleton.mp isAfter
          · intro answers now again
            rcases applied.again answers now with ⟨repeated, repeats, sameUntimed⟩
            have isRow := applied.connection?_eq
            have isMarked := connection?_updateConnection before input.connectionId
              FinancialConnection.marked fun _ => rfl
            rw [found, Option.map_some, applied.found, Option.some.injEq] at isMarked
            rw [isMarked] at isRow
            have begins : beginSync { input with answers := answers, now := now } after = _ :=
              beginSync_of isRow isPlaid hasVault decrypted isToken
            have cursor_eq : cursorOf after input.connectionId =
                finalCursor pages connection.syncCursor connection.syncCursor := by
              rw [cursorOf, isRow]
              rfl
            rw [cursor_eq] at again repeats
            refine ⟨updateConnection input.connectionId FinancialConnection.marked after, repeated,
              ?_, sameUntimed⟩
            rw [syncFinancialConnection_of_loaded literals begins again]
            have applies : applyPages literals { input with answers := answers, now := now }
                (finishConnection input.now (finalCursor pages connection.syncCursor
                  connection.syncCursor) connection.marked).syncCursor pages
                (updateConnection input.connectionId FinancialConnection.marked after) =
                  .ok repeated := repeats
            have marks : connection.marked.syncCursor = connection.syncCursor := rfl
            simp only [marks, applies]

/-! ## A checking account that only an earlier page listed -/

/-- A connection whose earlier sync stored one account. -/
def checkingDb : FinanceDb where
  connections := [⟨1, 7, "plaid", "Bank".toList, "sealed".toList, .active, .idle, some "c1",
    some 0, none⟩]
  accounts := [⟨2, 1, "checking",
    ⟨"Checking".toList, none, none, "depository".toList, none, none, none, none, .obj []⟩⟩]
  transactions := []
  userEvents := []
  nextId := 3

/-- A purchase on that account. -/
def coffee : Json :=
  .obj [("transaction_id", .str "coffee"), ("account_id", .str "checking"), ("amount", .int 9),
    ("date", .str "2026-01-02")]

/-- A last page with the purchase, and some accounts. -/
def coffeePage (accounts : List Json) : Json :=
  .obj [("accounts", .arr accounts), ("added", .arr [coffee]), ("modified", .arr []),
    ("removed", .arr []), ("next_cursor", .str "c2"), ("has_more", .bool false)]

/-- A sync for which the provider answers with that page. -/
def coffeeSync (accounts : List Json) : SyncInput where
  connectionId := 1
  vault := some fun _ => some (.obj [("access_token", .str "token")])
  answers := [fun _ => .ok (coffeePage accounts)]
  notifyOnComplete := false
  deliveryProvider := none
  now := 5

def checkingAccount : Json :=
  .obj [("account_id", .str "checking"), ("name", .str "Checking")]

theorem financeKeys_checkingDb : FinanceKeys checkingDb := by
  constructor
  · decide
  · decide
  · decide
  · decide
  · intro transaction transactionMem
    cases transactionMem
  · decide

/-- The purchase is on an account of the connection, but its page does not list the account: the
sync completes, moves the cursor past the purchase, and drops it. -/
theorem unlisted_account_drops_purchase :
    ¬∀ (literals : Literals) (input : SyncInput) (pages : List Json) (before : FinanceDb)
        (run : SyncRun), FinanceKeys before → loadedPages input before = some pages →
      syncFinancialConnection literals input before = some run → run.outcome = .ok () →
        ∃ after, run.commits.getLast? = some after ∧
          FollowsLog literals input pages before run after := by
  intro claimed
  have ran : ∃ run, syncFinancialConnection Literals.ascii (coffeeSync []) checkingDb = some run ∧
      run.outcome = .ok () ∧
      (run.commits.getLast?.map fun after => liveTransactions after 1 "coffee") = some none := by
    exact ⟨_, rfl, by decide, by decide⟩
  rcases ran with ⟨run, isRun, completed, dropped⟩
  rcases claimed Literals.ascii (coffeeSync []) [coffeePage []] checkingDb run
    financeKeys_checkingDb (by decide) isRun completed with ⟨after, isAfter, follows⟩
  rw [isAfter, Option.map_some, Option.some.injEq] at dropped
  have live : liveTransactions after 1 "coffee" = ChangeLog.replay (liveTransactions checkingDb 1)
      (changeLog Literals.ascii (isKnown checkingDb 1 [coffeePage []]) [coffeePage []]) "coffee" :=
    congrFun follows.live "coffee"
  have logged : (ChangeLog.replay (liveTransactions checkingDb 1)
      (changeLog Literals.ascii (isKnown checkingDb 1 [coffeePage []]) [coffeePage []])
        "coffee").isSome = true := by
    decide +kernel
  rw [← live, dropped] at logged
  cases logged

/-- When the page lists the account, the purchase is stored. -/
theorem listed_account_keeps_purchase :
    ∃ run after, syncFinancialConnection Literals.ascii (coffeeSync [checkingAccount]) checkingDb =
        some run ∧ run.commits.getLast? = some after ∧
      FollowsLog Literals.ascii (coffeeSync [checkingAccount]) [coffeePage [checkingAccount]]
        checkingDb run after := by
  have ran : ∃ run, syncFinancialConnection Literals.ascii (coffeeSync [checkingAccount])
      checkingDb = some run ∧ run.outcome = .ok () := by
    exact ⟨_, rfl, by decide +kernel⟩
  rcases ran with ⟨run, isRun, completed⟩
  have reaches : ReachesStore Literals.ascii 1 [coffeePage [checkingAccount]] checkingDb := by
    have listed : (changeLog Literals.ascii
        (isKnown checkingDb 1 [coffeePage [checkingAccount]]) [coffeePage [checkingAccount]]).all
          (isOnListed [coffeePage [checkingAccount]]) = true := by
      decide +kernel
    intro providerId change isLast
    left
    exact List.all_eq_true.mp listed change (ChangeLog.mem_of_last isLast).1
  rcases ((sync_follows_log_iff Literals.ascii (coffeeSync [checkingAccount])
    [coffeePage [checkingAccount]] checkingDb run financeKeys_checkingDb (by decide)
      isRun).2 completed).mpr reaches with ⟨after, isAfter, follows⟩
  exact ⟨run, after, isRun, isAfter, follows⟩

end DotBackend.Finance
