import DotBackend.Data.Literals
import DotBackend.Data.Result
import DotBackend.Data.Table

/-!
# Synchronising a financial connection

A sync reads the provider's change log from the stored cursor on, page by page, and applies
all pages in one transaction: accounts first, then the added, modified and removed
transactions of each page in turn, and at last the cursor. Two more transactions stand around
it, one that marks the connection before the provider is asked and one that records a
failure.
-/

namespace DotBackend.Finance

open Data

/-! ## Rows -/

inductive FinancialConnectionStatus
  | active
  | needsReauthorization
  | revoked
  deriving DecidableEq

inductive FinancialSyncStatus
  | pending
  | syncing
  | idle
  | failed
  deriving DecidableEq

/-- What ends a sync. -/
inductive SyncError
  | provider (message : List Char) (code : Option String)
  | credential
  | runtime (message : String)
  /-- A value has another type than the code relies on. -/
  | type
  /-- The database refuses a value. -/
  | database
  deriving DecidableEq

/-- A connection; its last error stands for the text of it. -/
structure FinancialConnection where
  id : Uuid
  userId : Uuid
  provider : String
  institutionName : List Char
  credentialsCiphertext : List Char
  status : FinancialConnectionStatus
  syncStatus : FinancialSyncStatus
  syncCursor : Option String
  lastSyncedAt : Option Instant
  lastSyncError : Option SyncError
  deriving DecidableEq

/-- The columns of an account that every sync assigns. -/
structure AccountContent where
  name : List Char
  officialName : Option (List Char)
  mask : Option (List Char)
  accountType : List Char
  accountSubtype : Option (List Char)
  currency : Option (List Char)
  currentBalance : Option Numeric
  availableBalance : Option Numeric
  metadataJson : Json
  deriving DecidableEq

structure FinancialAccount where
  id : Uuid
  connectionId : Uuid
  providerAccountId : String
  content : AccountContent
  deriving DecidableEq

/-- The columns of the unique key of an account. -/
def FinancialAccount.key (account : FinancialAccount) : Uuid × String :=
  (account.connectionId, account.providerAccountId)

/-- The columns of a transaction that every upsert assigns. -/
structure TransactionContent where
  amount : Numeric
  currency : Option (List Char)
  transactionDate : Nat
  authorizedDate : Option Nat
  name : List Char
  merchantName : Option (List Char)
  pending : Bool
  pendingTransactionId : Option (List Char)
  categoryJson : Json
  metadataJson : Json
  deriving DecidableEq

structure FinancialTransaction where
  id : Uuid
  userId : Uuid
  accountId : Uuid
  source : String
  providerTransactionId : String
  content : TransactionContent
  removedAt : Option Instant
  deriving DecidableEq

/-- The columns of the unique key of a transaction. -/
def FinancialTransaction.key (transaction : FinancialTransaction) : String × String :=
  (transaction.source, transaction.providerTransactionId)

/-- A queued event about a connection. -/
structure FinanceEvent where
  userId : Uuid
  idempotencyKey : List Char
  connectionId : Uuid
  institutionName : List Char
  accountCount : Nat
  deliveryProvider : Option String
  deriving DecidableEq

structure FinanceDb where
  connections : List FinancialConnection
  accounts : List FinancialAccount
  transactions : List FinancialTransaction
  userEvents : List FinanceEvent
  nextId : Uuid
  deriving DecidableEq

def connection? (db : FinanceDb) (connectionId : Uuid) : Option FinancialConnection :=
  db.connections.find? (·.id = connectionId)

def updateConnection (connectionId : Uuid) (change : FinancialConnection → FinancialConnection)
    (db : FinanceDb) : FinanceDb :=
  { db with connections := Table.update (·.id == connectionId) change db.connections }

/-! ## Reading the provider's data -/

/-- `raw.get(key)`. -/
def get (raw : Json) (key : String) : Json :=
  (raw.get? key).getD .null

/-- `first or second`. -/
def pyOr (first second : Json) : Json :=
  if first.truthy then first else second

/-- The items of `for item in page.get(key, [])`. -/
def items (page : Json) (key : String) : Except SyncError (List Json) :=
  match (page.get? key).getD (.arr []) with
  | .arr items => .ok items
  | .obj fields => .ok (fields.map fun field => .str field.1)
  | .str s => .ok (s.toList.map fun c => .str (String.singleton c))
  | _ => .error .type

def parseDate (literals : Literals) : Json → Option Nat
  | .str text => literals.dateFromisoformat text.toList
  | _ => none

def optionalDecimal (literals : Literals) : Json → Option Decimal
  | .null | .bool _ => none
  | value => Decimal.parse literals.toUnicode (value.pyStr literals)

def optionalString (literals : Literals) (value : Json) (maxLength : Nat) : Option (List Char) :=
  if value = .null then none else some ((value.pyStr literals).take maxLength)

/-- `raw if isinstance(raw, dict) else {}`. -/
def dictOrEmpty : Json → Json
  | .obj fields => .obj fields
  | _ => .obj []

/-! ## What the columns take -/

/-- A text without `NUL`. -/
def fitsText (text : List Char) : Bool :=
  !text.contains (Char.ofNat 0)

/-- A text of a `VARCHAR` column of the provider's identifiers. -/
def fitsIdentifier (identifier : String) : Bool :=
  fitsText identifier.toList && identifier.length ≤ 255

def fitsOptional (text : Option (List Char)) : Bool :=
  text.all fitsText

/-- The value of a `NUMERIC` column. -/
def numeric (value : Decimal) : Except SyncError Numeric :=
  match value.toNumeric with
  | some stored => .ok stored
  | none => .error .database

def optionalNumeric : Option Decimal → Except SyncError (Option Numeric)
  | none => .ok none
  | some value => do
      let stored ← numeric value
      pure (some stored)

/-! ## Accounts -/

/-- The dictionaries of the accounts that some pages list, the last one of each account. -/
def listedAccounts (accounts : List (String × Json)) : List Json → List (String × Json)
  | [] => accounts
  | raw :: rest =>
      match get raw "account_id" with
      | .str providerId => listedAccounts (Json.assign providerId raw accounts) rest
      | _ => listedAccounts accounts rest

def rawAccounts : List Json → List (String × Json) → Except SyncError (List (String × Json))
  | [], accounts => .ok accounts
  | page :: rest, accounts => do
      let raws ← items page "accounts"
      rawAccounts rest (listedAccounts accounts raws)

def account? (db : FinanceDb) (connectionId : Uuid) (providerId : String) :
    Option FinancialAccount :=
  db.accounts.find? (·.key = (connectionId, providerId))

def AccountContent.assign (content : AccountContent) (account : FinancialAccount) :
    FinancialAccount :=
  { account with content := content }

/-- Rewrite the account of an identifier; its key has one row. -/
def updateAccount (connectionId : Uuid) (providerId : String) (content : AccountContent)
    (db : FinanceDb) : FinanceDb :=
  { db with
    accounts := Table.update (·.key = (connectionId, providerId)) content.assign db.accounts }

/-- The columns of a new account, before a sync assigns them. -/
def newAccount (literals : Literals) (raw : Json) : AccountContent where
  name := ((pyOr (get raw "name") (.str "Account")).pyStr literals).take 255
  officialName := none
  mask := none
  accountType := ((pyOr (get raw "type") (.str "other")).pyStr literals).take 64
  accountSubtype := none
  currency := none
  currentBalance := none
  availableBalance := none
  metadataJson := .obj []

/-- `str(value or stored)[:maxLength]`. -/
def textOr (literals : Literals) (value : Json) (stored : List Char) (maxLength : Nat) :
    List Char :=
  if value.truthy then (value.pyStr literals).take maxLength else stored.take maxLength

/-- The columns after a sync has assigned them. -/
def assignAccount (literals : Literals) (raw : Json) (stored : AccountContent) :
    Except SyncError AccountContent := do
  let balances := dictOrEmpty (get raw "balances")
  let current ← optionalNumeric (optionalDecimal literals (get balances "current"))
  let available ← optionalNumeric (optionalDecimal literals (get balances "available"))
  pure {
    name := textOr literals (get raw "name") stored.name 255
    officialName := optionalString literals (get raw "official_name") 255
    mask := optionalString literals (get raw "mask") 16
    accountType := textOr literals (get raw "type") stored.accountType 64
    accountSubtype := optionalString literals (get raw "subtype") 64
    currency := optionalString literals
      (pyOr (get balances "iso_currency_code") (get balances "unofficial_currency_code")) 16
    currentBalance := current
    availableBalance := available
    metadataJson := .obj [("persistent_account_id", get raw "persistent_account_id")] }

/-- The database takes the columns of an account. -/
def AccountContent.fits (content : AccountContent) : Bool :=
  fitsText content.name && fitsOptional content.officialName && fitsOptional content.mask &&
    fitsText content.accountType && fitsOptional content.accountSubtype &&
    fitsOptional content.currency && content.metadataJson.allFinite

/-- Store the account that a dictionary of the pages describes. -/
def upsertAccount (literals : Literals) (connectionId : Uuid) (providerId : String) (raw : Json)
    (db : FinanceDb) : Except SyncError (FinanceDb × Uuid) := do
  require (fitsText providerId.toList) .database
  match account? db connectionId providerId with
  | some account =>
      let content ← assignAccount literals raw account.content
      require content.fits .database
      pure (updateAccount connectionId providerId content db, account.id)
  | none =>
      let content ← assignAccount literals raw (newAccount literals raw)
      require (content.fits && fitsIdentifier providerId) .database
      pure ({ db with
        accounts := db.accounts ++ [⟨db.nextId, connectionId, providerId, content⟩]
        nextId := db.nextId + 1 }, db.nextId)

/-- The rows of the accounts of one connection, by the provider's identifiers. -/
abbrev AccountMap := List (String × Uuid)

def AccountMap.get? (accountMap : AccountMap) (providerId : String) : Option Uuid :=
  (accountMap.find? (·.1 = providerId)).map Prod.snd

def upsertListed (literals : Literals) (connectionId : Uuid) :
    List (String × Json) → FinanceDb → AccountMap → Except SyncError (FinanceDb × AccountMap)
  | [], db, accountMap => .ok (db, accountMap)
  | (providerId, raw) :: rest, db, accountMap => do
      let stored ← upsertAccount literals connectionId providerId raw db
      upsertListed literals connectionId rest stored.1 (accountMap ++ [(providerId, stored.2)])

/-- `_upsert_accounts`. -/
def upsertAccounts (literals : Literals) (connectionId : Uuid) (pages : List Json)
    (db : FinanceDb) : Except SyncError (FinanceDb × AccountMap) := do
  let raws ← rawAccounts pages []
  upsertListed literals connectionId raws db []

/-! ## Transactions -/

/-- What an upsert stores: the columns of a transaction, and its account with the row of it. -/
structure TransactionUpsert where
  providerId : String
  account : String × Uuid
  content : TransactionContent
  deriving DecidableEq

def transactionContent (literals : Literals) (raw : Json) (date : Nat) (amount : Numeric) :
    TransactionContent where
  amount := amount
  currency := optionalString literals
    (pyOr (get raw "iso_currency_code") (get raw "unofficial_currency_code")) 16
  transactionDate := date
  authorizedDate := parseDate literals (get raw "authorized_date")
  name := ((pyOr (get raw "name") (.str "Transaction")).pyStr literals).take 500
  merchantName := optionalString literals (get raw "merchant_name") 255
  pending := get raw "pending" = .bool true
  pendingTransactionId := optionalString literals (get raw "pending_transaction_id") 255
  categoryJson := dictOrEmpty (get raw "personal_finance_category")
  metadataJson := .obj [("logo_url", get raw "logo_url"), ("website", get raw "website"),
    ("payment_channel", get raw "payment_channel"), ("location", dictOrEmpty (get raw "location"))]

/-- The database takes the columns of a transaction. -/
def TransactionContent.fits (content : TransactionContent) : Bool :=
  fitsOptional content.currency && fitsText content.name && fitsOptional content.merchantName &&
    fitsOptional content.pendingTransactionId && content.categoryJson.allFinite &&
    content.metadataJson.allFinite

/-- What `_upsert_transaction` stores of an item, if anything. -/
def readTransaction (literals : Literals) (accountMap : AccountMap) (raw : Json) :
    Except SyncError (Option TransactionUpsert) :=
  match raw, get raw "transaction_id", get raw "account_id" with
  | .obj _, .str providerId, .str providerAccountId =>
      match accountMap.get? providerAccountId with
      | none => .ok none
      | some accountId => do
          require (fitsText providerId.toList) .database
          match parseDate literals (get raw "date"),
              optionalDecimal literals (get raw "amount") with
          | some date, some amount => do
              let stored ← numeric amount
              let content := transactionContent literals raw date stored
              require (content.fits && fitsIdentifier providerId) .database
              pure (some ⟨providerId, (providerAccountId, accountId), content⟩)
          | _, _ => pure none
  | _, _, _ => .ok none

def plaidTransaction? (db : FinanceDb) (providerId : String) : Option FinancialTransaction :=
  db.transactions.find? (·.key = ("plaid", providerId))

/-- Rewrite the transaction of an identifier; its key has one row. -/
def updateTransaction (providerId : String)
    (change : FinancialTransaction → FinancialTransaction) (db : FinanceDb) : FinanceDb :=
  { db with
    transactions := Table.update (·.key = ("plaid", providerId)) change db.transactions }

def TransactionUpsert.assign (upsert : TransactionUpsert) (transaction : FinancialTransaction) :
    FinancialTransaction :=
  { transaction with
    accountId := upsert.account.2, content := upsert.content, removedAt := none }

/-- Insert or update the transaction. -/
def storeTransaction (userId : Uuid) (upsert : TransactionUpsert) (db : FinanceDb) : FinanceDb :=
  match plaidTransaction? db upsert.providerId with
  | some _ => updateTransaction upsert.providerId upsert.assign db
  | none =>
      { db with
        transactions := db.transactions ++
          [⟨db.nextId, userId, upsert.account.2, "plaid", upsert.providerId, upsert.content, none⟩]
        nextId := db.nextId + 1 }

/-- `_upsert_transaction`. -/
def upsertTransaction (literals : Literals) (userId : Uuid) (accountMap : AccountMap)
    (db : FinanceDb) (raw : Json) : Except SyncError FinanceDb := do
  let upsert ← readTransaction literals accountMap raw
  match upsert with
  | some upsert => pure (storeTransaction userId upsert db)
  | none => pure db

/-- The identifier of an item of `removed`; only dictionaries have `get`. -/
def readRemoval : Json → Except SyncError (Option String)
  | .obj fields =>
      match get (.obj fields) "transaction_id" with
      | .str providerId => do
          require (fitsText providerId.toList) .database
          pure (some providerId)
      | _ => .ok none
  | _ => .error .type

def markRemoved (now : Instant) (providerId : String) (db : FinanceDb) : FinanceDb :=
  updateTransaction providerId (fun transaction => { transaction with removedAt := some now }) db

def removeTransaction (now : Instant) (db : FinanceDb) (removed : Json) :
    Except SyncError FinanceDb := do
  let providerId ← readRemoval removed
  match providerId with
  | some providerId => pure (markRemoved now providerId db)
  | none => pure db

/-- The changes of one page. -/
def applyPage (literals : Literals) (userId : Uuid) (accountMap : AccountMap) (now : Instant)
    (db : FinanceDb) (page : Json) : Except SyncError FinanceDb := do
  let added ← items page "added"
  let db ← added.foldlM (upsertTransaction literals userId accountMap) db
  let modified ← items page "modified"
  let db ← modified.foldlM (upsertTransaction literals userId accountMap) db
  let removed ← items page "removed"
  removed.foldlM (removeTransaction now) db

/-! ## The three transactions of a sync -/

/-- What the provider answers a request for a page: an error with its code, or a dictionary. -/
abbrev Answer := Except (List Char × Option String) Json

/-- What a call of `sync_financial_connection` is given. The vault is missing when no key is
configured, and reads nothing from a ciphertext that is not its own; the provider answers one
request after the other, each for a cursor. -/
structure SyncInput where
  connectionId : Uuid
  vault : Option (List Char → Option Json)
  answers : List (Option String → Answer)
  notifyOnComplete : Bool
  deliveryProvider : Option String
  now : Instant

/-- The first transaction, which yields the stored cursor. -/
def beginSync (input : SyncInput) (db : FinanceDb) :
    Except SyncError (FinanceDb × Option String) :=
  match input.vault with
  | none => .error (.runtime "Integration credential encryption is not configured")
  | some decrypt =>
      match (connection? db input.connectionId).filter (·.provider = "plaid") with
      | none => .error (.runtime "Financial connection was not found")
      | some connection =>
          match decrypt connection.credentialsCiphertext with
          | none => .error .credential
          | some credentials =>
              match get credentials "access_token" with
              | .str _ =>
                  .ok (updateConnection connection.id
                    (fun connection =>
                      { connection with syncStatus := .syncing, lastSyncError := none }) db,
                    connection.syncCursor)
              | _ => .error (.runtime "Financial connection credentials are invalid")

/-- One attempt at reading all pages: what it comes to, and the answers it leaves. It comes to
nothing while the provider has not answered. -/
def readPages : List (Option String → Answer) → Option String → List Json →
    Option (Except (List Char × Option String) (List Json) × List (Option String → Answer))
  | [], _, _ => none
  | answer :: rest, cursor, pages =>
      match answer cursor with
      | .error failure => some (.error failure, rest)
      | .ok page =>
          let next := match get page "next_cursor" with
            | .str nextCursor => some nextCursor
            | _ => cursor
          if get page "has_more" = .bool true then readPages rest next (pages ++ [page])
          else some (.ok (pages ++ [page]), rest)

/-- `_load_transaction_pages` with some attempts left. -/
def loadTransactionPages (originalCursor : Option String) :
    Nat → List (Option String → Answer) → Option (Except SyncError (List Json))
  | 0, _ => some (.error (.runtime "Financial transaction sync could not stabilize"))
  | attempts + 1, answers =>
      match readPages answers originalCursor [] with
      | none => none
      | some (.ok pages, _) => some (.ok pages)
      | some (.error failure, rest) =>
          if failure.2 = some "TRANSACTIONS_SYNC_MUTATION_DURING_PAGINATION" ∧ attempts ≠ 0 then
            loadTransactionPages originalCursor attempts rest
          else some (.error (.provider failure.1 failure.2))

/-- The cursor after some pages. -/
def finalCursor (pages : List Json) (originalCursor stored : Option String) : Option String :=
  match pages.getLast? with
  | none => originalCursor.or stored
  | some page =>
      match get page "next_cursor" with
      | .str cursor => some cursor
      | _ => stored

def finishConnection (now : Instant) (cursor : Option String) (connection : FinancialConnection) :
    FinancialConnection :=
  { connection with
    syncCursor := cursor
    syncStatus := .idle
    status := .active
    lastSyncedAt := some now
    lastSyncError := none }

/-- `enqueue_user_event` under the key of the connection. -/
def enqueueUserEvent (input : SyncInput) (connection : FinancialConnection) (accountCount : Nat)
    (db : FinanceDb) : FinanceDb :=
  let key := "finance.connected:".toList ++ uuidText connection.id
  if db.userEvents.any (·.idempotencyKey = key) then db
  else { db with userEvents := db.userEvents ++ [⟨connection.userId, key, connection.id,
    connection.institutionName, accountCount, input.deliveryProvider⟩] }

/-- The transaction that applies all pages. -/
def applyPages (literals : Literals) (input : SyncInput) (originalCursor : Option String)
    (pages : List Json) (db : FinanceDb) : Except SyncError FinanceDb :=
  match connection? db input.connectionId with
  | none => .error (.runtime "Financial connection was removed during sync")
  | some connection => do
      let stored ← upsertAccounts literals connection.id pages db
      let db ← pages.foldlM (applyPage literals connection.userId stored.2 input.now) stored.1
      let cursor := finalCursor pages originalCursor connection.syncCursor
      require (cursor.all fun cursor => fitsText cursor.toList) .database
      let db := updateConnection connection.id (finishConnection input.now cursor) db
      if input.notifyOnComplete then
        pure (enqueueUserEvent input connection stored.2.length db)
      else pure db

/-- A connection whose credentials the provider no longer takes. -/
def SyncError.endsConsent : SyncError → Bool
  | .provider _ code => code = some "ITEM_LOGIN_REQUIRED" || code = some "PENDING_DISCONNECT"
  | _ => false

/-- The transaction that records a failure. -/
def recordFailure (connectionId : Uuid) (error : SyncError) (db : FinanceDb) : FinanceDb :=
  updateConnection connectionId (fun connection =>
    { connection with
      syncStatus := .failed
      lastSyncError := some error
      status := if error.endsConsent then .needsReauthorization else connection.status }) db

/-- What a call has done: the states its transactions left, in order, and how it ended. -/
structure SyncRun where
  commits : List FinanceDb
  outcome : Except SyncError Unit
  deriving DecidableEq

/-- `sync_financial_connection`, once the provider has answered every request. -/
def syncFinancialConnection (literals : Literals) (input : SyncInput) (db : FinanceDb) :
    Option SyncRun :=
  match beginSync input db with
  | .error error => some ⟨[], .error error⟩
  | .ok (begun, originalCursor) =>
      (loadTransactionPages originalCursor 3 input.answers).map fun loaded =>
        match loaded.bind fun pages => applyPages literals input originalCursor pages begun with
        | .ok applied => ⟨[begun, applied], .ok ()⟩
        | .error error => ⟨[begun, recordFailure input.connectionId error begun], .error error⟩

end DotBackend.Finance
