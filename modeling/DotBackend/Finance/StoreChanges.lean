import DotBackend.Data.ChangeLog
import DotBackend.Finance.Sync

/-!
# What a sync does to the stored transactions

The provider describes the live transactions of a connection by a log: an added or a modified
transaction has new columns from then on, a removed one is gone. Applying the pages does,
change by change, what the part of that log says that is about listed accounts.
-/

namespace DotBackend.Finance

open Data

/-! ## What the log means -/

/-- A live transaction: the provider's account, and the columns. -/
structure LedgerEntry where
  account : String
  content : TransactionContent
  deriving DecidableEq

/-- The entry of a stored transaction, if it is live and on an account of the connection. -/
def ledgerEntry (db : FinanceDb) (connectionId : Uuid) (transaction : FinancialTransaction) :
    Option LedgerEntry :=
  if transaction.removedAt.isSome then none
  else ((db.accounts.find? (·.id = transaction.accountId)).filter
    (·.connectionId = connectionId)).map fun account =>
      ⟨account.providerAccountId, transaction.content⟩

/-- The live transactions of a connection, by the provider's identifiers. -/
def liveTransactions (db : FinanceDb) (connectionId : Uuid) (providerId : String) :
    Option LedgerEntry :=
  (plaidTransaction? db providerId).bind (ledgerEntry db connectionId)

/-- The items that are read under a key of a page. -/
def itemsOf (page : Json) (key : String) : List Json :=
  (items page key).toOption.getD []

/-- An added or modified transaction with its identifiers, a date and an amount, on one of the
given accounts. -/
def upsertChange (literals : Literals) (isAccount : String → Bool) (raw : Json) :
    Option (Change String LedgerEntry) :=
  match raw, get raw "transaction_id", get raw "account_id" with
  | .obj _, .str providerId, .str account =>
      if isAccount account then
        match parseDate literals (get raw "date"),
            (optionalDecimal literals (get raw "amount")).bind Decimal.toNumeric with
        | some date, some amount =>
            some ⟨providerId, some ⟨account, transactionContent literals raw date amount⟩⟩
        | _, _ => none
      else none
  | _, _, _ => none

def removalChange (raw : Json) : Option (Change String LedgerEntry) :=
  match get raw "transaction_id" with
  | .str providerId => some ⟨providerId, none⟩
  | _ => none

/-- The changes of one page: added, then modified, then removed. -/
def pageLog (literals : Literals) (isAccount : String → Bool) (page : Json) :
    List (Change String LedgerEntry) :=
  (itemsOf page "added").filterMap (upsertChange literals isAccount) ++
    (itemsOf page "modified").filterMap (upsertChange literals isAccount) ++
      (itemsOf page "removed").filterMap removalChange

/-- The changes of all pages that are about the given accounts. -/
def changeLog (literals : Literals) (isAccount : String → Bool) (pages : List Json) :
    List (Change String LedgerEntry) :=
  pages.flatMap (pageLog literals isAccount)

/-- Some page lists the account. -/
def isListed (pages : List Json) (account : String) : Bool :=
  pages.any fun page => (itemsOf page "accounts").any fun raw => get raw "account_id" = .str account

/-- The account is listed, or an earlier sync has stored it. -/
def isKnown (db : FinanceDb) (connectionId : Uuid) (pages : List Json) (account : String) : Bool :=
  isListed pages account || (account? db connectionId account).isSome

/-- A change that needs no account, or one that the pages list. -/
def isOnListed (pages : List Json) (change : Change String LedgerEntry) : Bool :=
  change.outcome.all fun entry => isListed pages entry.account

/-! ## Leaving out what is on accounts that are not listed -/

theorem upsertChange_filter (literals : Literals) {fewer more : String → Bool}
    (keep : Change String LedgerEntry → Bool)
    (agree : ∀ providerId entry, keep ⟨providerId, some entry⟩ = fewer entry.account)
    (subset : ∀ account, fewer account = true → more account = true) (raw : Json) :
    (upsertChange literals more raw).filter keep = upsertChange literals fewer raw := by
  unfold upsertChange
  split
  · rename_i fields providerId account _ _
    by_cases isMore : more account = true
    · rw [if_pos isMore]
      by_cases isFewer : fewer account = true
      · rw [if_pos isFewer]
        split
        · rw [Option.filter_some, agree, if_pos isFewer]
        · rfl
      · rw [if_neg isFewer]
        split
        · rw [Option.filter_some, agree, if_neg isFewer]
        · rfl
    · have notFewer : ¬fewer account = true := fun isFewer => isMore (subset account isFewer)
      rw [if_neg isMore, if_neg notFewer]
      rfl
  · rfl

theorem filterMap_upsertChange_filter (literals : Literals) {fewer more : String → Bool}
    (keep : Change String LedgerEntry → Bool)
    (agree : ∀ providerId entry, keep ⟨providerId, some entry⟩ = fewer entry.account)
    (subset : ∀ account, fewer account = true → more account = true) (raws : List Json) :
    (raws.filterMap (upsertChange literals more)).filter keep =
      raws.filterMap (upsertChange literals fewer) := by
  rw [List.filter_filterMap]
  apply List.filterMap_congr
  intro raw _
  rw [← upsertChange_filter literals keep agree subset raw]

/-- The log about the listed accounts is the log about the known ones, less the changes on
accounts that are not listed. -/
theorem changeLog_listed (literals : Literals) (db : FinanceDb) (connectionId : Uuid)
    (pages : List Json) :
    changeLog literals (isListed pages) pages =
      (changeLog literals (isKnown db connectionId pages) pages).filter (isOnListed pages) := by
  have subset : ∀ account, isListed pages account = true →
      isKnown db connectionId pages account = true := by
    intro account listed
    rw [isKnown, listed, Bool.true_or]
  have removals : ∀ raws : List Json,
      (raws.filterMap removalChange).filter (isOnListed pages) = raws.filterMap removalChange := by
    intro raws
    apply List.filter_eq_self.mpr
    intro change changeMem
    rcases List.mem_filterMap.mp changeMem with ⟨raw, _, read⟩
    unfold removalChange at read
    split at read
    · cases read
      rfl
    · cases read
  have upserts := filterMap_upsertChange_filter literals (isOnListed pages) (fun _ _ => rfl) subset
  rw [changeLog, changeLog, List.filter_flatMap]
  congr 1
  funext page
  rw [pageLog, pageLog, List.filter_append, List.filter_append, upserts, upserts, removals]

variable {raws pages : List Json} {db : FinanceDb} {raw : Json} {changes : List StoreChange}
  {accountMap : AccountMap}

/-- What an item of the pages asks of the store. -/
inductive StoreChange
  | upsert (write : TransactionUpsert)
  | removal (providerId : String)
  deriving DecidableEq

namespace StoreChange

def perform (userId : Uuid) (now : Instant) (db : FinanceDb) : StoreChange → FinanceDb
  | .upsert write => storeTransaction userId write db
  | .removal providerId => markRemoved now providerId db

/-- What the change says in the provider's log. -/
def logged : StoreChange → Change String LedgerEntry
  | .upsert write => ⟨write.providerId, some ⟨write.account.1, write.content⟩⟩
  | .removal providerId => ⟨providerId, none⟩

end StoreChange

/-- What an added or modified item asks. -/
def readUpsert (literals : Literals) (accountMap : AccountMap) (raw : Json) :
    Except SyncError (Option StoreChange) :=
  (readTransaction literals accountMap raw).map (Option.map .upsert)

/-- What an item of `removed` asks. -/
def readRemoved (removed : Json) : Except SyncError (Option StoreChange) :=
  (readRemoval removed).map (Option.map .removal)

/-- What a page asks. -/
def readPage (literals : Literals) (accountMap : AccountMap) (page : Json) :
    Except SyncError (List StoreChange) := do
  let added ← items page "added"
  let adds ← collect (readUpsert literals accountMap) added
  let modified ← items page "modified"
  let modifications ← collect (readUpsert literals accountMap) modified
  let removed ← items page "removed"
  let removals ← collect readRemoved removed
  pure (adds ++ modifications ++ removals)

/-- What all pages ask. -/
def readAll (literals : Literals) (accountMap : AccountMap) :
    List Json → Except SyncError (List StoreChange)
  | [] => .ok []
  | page :: rest => do
      let changes ← readPage literals accountMap page
      let others ← readAll literals accountMap rest
      pure (changes ++ others)

/-! ## Applying is reading and then performing -/

section Reading

variable {literals : Literals} {userId : Uuid} {accountMap : AccountMap} {now : Instant}

theorem upserts_eq_ok (now : Instant) {after : FinanceDb} :
    raws.foldlM (upsertTransaction literals userId accountMap) db = .ok after ↔
      ∃ changes, collect (readUpsert literals accountMap) raws = .ok changes ∧
        changes.foldl (StoreChange.perform userId now) db = after := by
  apply foldlM_eq_ok
  intro db raw
  rw [upsertTransaction, readUpsert]
  rcases readTransaction literals accountMap raw with error | upsert
  · rfl
  · cases upsert <;> rfl

theorem removals_eq_ok (userId : Uuid) {after : FinanceDb} :
    raws.foldlM (removeTransaction now) db = .ok after ↔
      ∃ changes, collect readRemoved raws = .ok changes ∧
        changes.foldl (StoreChange.perform userId now) db = after := by
  apply foldlM_eq_ok
  intro db raw
  rw [removeTransaction, readRemoved]
  rcases readRemoval raw with error | providerId
  · rfl
  · cases providerId <;> rfl

theorem applyPage_eq_ok {page : Json} {after : FinanceDb} :
    applyPage literals userId accountMap now db page = .ok after ↔
      ∃ changes, readPage literals accountMap page = .ok changes ∧
        changes.foldl (StoreChange.perform userId now) db = after := by
  simp only [applyPage, readPage, bind_eq_ok, pure_eq_ok]
  constructor
  · rintro ⟨added, addedRead, afterAdded, addedDone, modified, modifiedRead, afterModified,
      modifiedDone, removed, removedRead, removedDone⟩
    rcases (upserts_eq_ok now).mp addedDone with ⟨adds, addsRead, rfl⟩
    rcases (upserts_eq_ok now).mp modifiedDone with ⟨modifications, modificationsRead, rfl⟩
    rcases (removals_eq_ok userId).mp removedDone with ⟨removals, removalsRead, rfl⟩
    refine ⟨_, ⟨added, addedRead, adds, addsRead, modified, modifiedRead, modifications,
      modificationsRead, removed, removedRead, removals, removalsRead, rfl⟩, ?_⟩
    rw [List.foldl_append, List.foldl_append]
  · rintro ⟨changes, ⟨added, addedRead, adds, addsRead, modified, modifiedRead, modifications,
      modificationsRead, removed, removedRead, removals, removalsRead, rfl⟩, rfl⟩
    rw [List.foldl_append, List.foldl_append]
    exact ⟨added, addedRead, _, (upserts_eq_ok now).mpr ⟨adds, addsRead, rfl⟩, modified, modifiedRead, _,
      (upserts_eq_ok now).mpr ⟨modifications, modificationsRead, rfl⟩, removed, removedRead,
      (removals_eq_ok userId).mpr ⟨removals, removalsRead, rfl⟩⟩

theorem applyPages_eq_ok {after : FinanceDb} :
    pages.foldlM (applyPage literals userId accountMap now) db = .ok after ↔
      ∃ changes, readAll literals accountMap pages = .ok changes ∧
        changes.foldl (StoreChange.perform userId now) db = after := by
  induction pages generalizing db with
  | nil => simp [readAll, pure, Except.pure]
  | cons page rest ih =>
      rw [List.foldlM_cons]
      simp only [bind_eq_ok, applyPage_eq_ok, ih, readAll, pure_eq_ok]
      constructor
      · rintro ⟨_, ⟨changes, pageRead, rfl⟩, others, othersRead, rfl⟩
        exact ⟨_, ⟨changes, pageRead, others, othersRead, rfl⟩, List.foldl_append⟩
      · rintro ⟨_, ⟨changes, pageRead, others, othersRead, rfl⟩, rfl⟩
        exact ⟨_, ⟨changes, pageRead, rfl⟩, others, othersRead, List.foldl_append.symm⟩

end Reading

/-! ## What is read is what the log says -/

section Logged

variable {literals : Literals} {accountMap : AccountMap} {isAccount : String → Bool}

theorem readTransaction_logged (listed : ∀ account, (accountMap.get? account).isSome = isAccount account)
    {upsert : Option TransactionUpsert}
    (read : readTransaction literals accountMap raw = .ok upsert) :
    upsertChange literals isAccount raw = upsert.map fun upsert => (StoreChange.upsert upsert).logged := by
  unfold readTransaction at read
  split at read
  · rename_i fields providerId account isId isAccountId
    unfold upsertChange
    simp only [isId, isAccountId]
    split at read
    · rename_i notListed
      have notAccount : ¬isAccount account = true := by
        rw [← listed, notListed]
        exact Bool.false_ne_true
      cases read
      rw [if_neg notAccount]
      rfl
    · rename_i accountId found
      have isOne : isAccount account = true := by
        rw [← listed, found]
        rfl
      rw [if_pos isOne]
      simp only [bind_eq_ok] at read
      rcases read with ⟨_, _, read⟩
      split at read
      · rename_i date amount hasDate hasAmount
        simp only [bind_eq_ok, pure_eq_ok] at read
        rcases read with ⟨stored, isStored, _, _, rfl⟩
        have toNumeric : amount.toNumeric = some stored := by
          unfold numeric at isStored
          split at isStored
          · rename_i held
            cases isStored
            exact held
          · cases isStored
        simp [hasDate, hasAmount, toNumeric, StoreChange.logged]
      · rename_i missing
        cases read
        cases hasDate : parseDate literals (get (.obj fields) "date") with
        | none => rfl
        | some date =>
            cases hasAmount : optionalDecimal literals (get (.obj fields) "amount") with
            | none => rfl
            | some value => exact absurd hasAmount (missing date value hasDate)
  · rename_i missing
    cases read
    unfold upsertChange
    split
    · rename_i fields providerId account isString isAccountString
      exact absurd isAccountString (missing fields providerId account rfl isString)
    · rfl

theorem readRemoval_logged {providerId : Option String}
    (read : readRemoval raw = .ok providerId) :
    removalChange raw = providerId.map fun providerId => (StoreChange.removal providerId).logged := by
  unfold readRemoval at read
  split at read
  · split at read
    · rename_i isString
      simp only [bind_eq_ok, pure_eq_ok] at read
      rcases read with ⟨_, _, rfl⟩
      unfold removalChange
      rw [isString]
      rfl
    · rename_i notString
      cases read
      unfold removalChange
      split
      · rename_i isString
        exact absurd isString (notString _)
      · rfl
  · cases read

theorem collect_logged {read : Json → Except SyncError (Option StoreChange)}
    {log : Json → Option (Change String LedgerEntry)}
    (logged : ∀ raw change, read raw = .ok change → log raw = change.map StoreChange.logged)
    (collected : collect read raws = .ok changes) :
    raws.filterMap log = changes.map StoreChange.logged := by
  induction raws generalizing changes with
  | nil =>
      cases collected
      rfl
  | cons raw rest ih =>
      simp only [collect, bind_eq_ok, pure_eq_ok] at collected
      rcases collected with ⟨first, firstRead, others, othersRead, rfl⟩
      rw [List.map_append, ← ih othersRead, List.filterMap_cons,
        logged raw first firstRead]
      cases first <;> rfl

theorem collectUpserts_logged
    (listed : ∀ account, (accountMap.get? account).isSome = isAccount account)
    (collected : collect (readUpsert literals accountMap) raws = .ok changes) :
    raws.filterMap (upsertChange literals isAccount) = changes.map StoreChange.logged := by
  apply collect_logged _ collected
  intro raw change read
  rcases map_eq_ok.mp read with ⟨write, isRead, rfl⟩
  rw [readTransaction_logged listed isRead, Option.map_map]
  rfl

theorem collectRemovals_logged (collected : collect readRemoved raws = .ok changes) :
    raws.filterMap removalChange = changes.map StoreChange.logged := by
  apply collect_logged _ collected
  intro raw change read
  rcases map_eq_ok.mp read with ⟨providerId, isRead, rfl⟩
  rw [readRemoval_logged isRead, Option.map_map]
  rfl

theorem itemsOf_eq {page : Json} {key : String} {found : List Json}
    (read : items page key = .ok found) : itemsOf page key = found := by
  rw [itemsOf, read]
  rfl

/-- The changes that are performed are those of the log that are about listed accounts. -/
theorem readAll_logged (listed : ∀ account, (accountMap.get? account).isSome = isAccount account)
    (read : readAll literals accountMap pages = .ok changes) :
    changeLog literals isAccount pages = changes.map StoreChange.logged := by
  induction pages generalizing changes with
  | nil =>
      cases read
      rfl
  | cons page rest ih =>
      simp only [readAll, readPage, bind_eq_ok, pure_eq_ok] at read
      rcases read with ⟨_, ⟨added, addedRead, adds, addsRead, modified, modifiedRead, modifications,
        modificationsRead, removed, removedRead, removals, removalsRead, rfl⟩, others, othersRead, rfl⟩
      rw [List.map_append, ← ih othersRead, changeLog, List.flatMap_cons, pageLog,
        itemsOf_eq addedRead, itemsOf_eq modifiedRead, itemsOf_eq removedRead,
        collectUpserts_logged listed addsRead, collectUpserts_logged listed modificationsRead,
        collectRemovals_logged removalsRead, List.map_append, List.map_append]
      rfl

end Logged

/-! ## Performing a change does what the log says -/

/-- The map leads to the rows of the accounts of the connection. -/
def MapsAccounts (accountMap : AccountMap) (connectionId : Uuid) (db : FinanceDb) : Prop :=
  ∀ account id, accountMap.get? account = some id →
    ∃ row, db.accounts.find? (·.id = id) = some row ∧ row.connectionId = connectionId ∧
      row.providerAccountId = account

/-- What is stored is stored on the row of the account. -/
def StoreChange.OnMap (accountMap : AccountMap) : StoreChange → Prop
  | .upsert write => accountMap.get? write.account.1 = some write.account.2
  | .removal _ => True

theorem collect_forall {read : Json → Except SyncError (Option StoreChange)}
    {holds : StoreChange → Prop}
    (reads : ∀ raw change, read raw = .ok (some change) → holds change)
    (collected : collect read raws = .ok changes) :
    ∀ change ∈ changes, holds change := by
  induction raws generalizing changes with
  | nil =>
      cases collected
      intro change changeMem
      cases changeMem
  | cons raw rest ih =>
      simp only [collect, bind_eq_ok, pure_eq_ok] at collected
      rcases collected with ⟨first, firstRead, others, othersRead, rfl⟩
      intro change changeMem
      rcases List.mem_append.mp changeMem with isFirst | isOther
      · apply reads raw
        rw [firstRead, Option.mem_toList.mp isFirst]
      · exact ih othersRead change isOther

theorem readTransaction_account {literals : Literals} {write : TransactionUpsert}
    (read : readTransaction literals accountMap raw = .ok (some write)) :
    accountMap.get? write.account.1 = some write.account.2 := by
  unfold readTransaction at read
  split at read
  · split at read
    · cases read
    · rename_i accountId found
      simp only [bind_eq_ok] at read
      rcases read with ⟨_, _, read⟩
      split at read
      · simp only [bind_eq_ok, pure_eq_ok] at read
        rcases read with ⟨_, _, _, _, isWrite⟩
        cases isWrite
        exact found
      · cases read
  · cases read

theorem readAll_onMap {literals : Literals}
    (read : readAll literals accountMap pages = .ok changes) :
    ∀ change ∈ changes, change.OnMap accountMap := by
  have upserts : ∀ raw change, readUpsert literals accountMap raw = .ok (some change) →
      change.OnMap accountMap := by
    intro raw change read
    rcases map_eq_ok.mp read with ⟨write, isRead, isChange⟩
    rcases Option.map_eq_some_iff.mp isChange with ⟨write, rfl, rfl⟩
    exact readTransaction_account isRead
  have removals : ∀ raw change, readRemoved raw = .ok (some change) →
      change.OnMap accountMap := by
    intro raw change read
    rcases map_eq_ok.mp read with ⟨providerId, _, isChange⟩
    rcases Option.map_eq_some_iff.mp isChange with ⟨providerId, rfl, rfl⟩
    trivial
  induction pages generalizing changes with
  | nil =>
      cases read
      intro change changeMem
      cases changeMem
  | cons page rest ih =>
      simp only [readAll, readPage, bind_eq_ok, pure_eq_ok] at read
      rcases read with ⟨_, ⟨added, _, adds, addsRead, modified, _, modifications,
        modificationsRead, removed, _, removals', removalsRead, rfl⟩, others, othersRead, rfl⟩
      intro change changeMem
      rcases List.mem_append.mp changeMem with ofPage | isOther
      · rcases List.mem_append.mp ofPage with isUpsert | isRemoval
        · rcases List.mem_append.mp isUpsert with isAdded | isModified
          · exact collect_forall upserts addsRead change isAdded
          · exact collect_forall upserts modificationsRead change isModified
        · exact collect_forall removals removalsRead change isRemoval
      · exact ih othersRead change isOther

@[simp]
theorem accounts_perform (userId : Uuid) (now : Instant) (db : FinanceDb) (change : StoreChange) :
    (change.perform userId now db).accounts = db.accounts := by
  cases change with
  | upsert write =>
      rw [StoreChange.perform, storeTransaction]
      split <;> rfl
  | removal providerId => rfl

theorem accounts_performed (userId : Uuid) (now : Instant) (changes : List StoreChange)
    (db : FinanceDb) :
    (changes.foldl (StoreChange.perform userId now) db).accounts = db.accounts := by
  induction changes generalizing db with
  | nil => rfl
  | cons change rest ih =>
      rw [List.foldl_cons, ih, accounts_perform]

theorem liveTransactions_congr {first second : FinanceDb}
    (accounts : second.accounts = first.accounts)
    (transactions : second.transactions = first.transactions) (connectionId : Uuid) :
    liveTransactions second connectionId = liveTransactions first connectionId := by
  funext providerId
  unfold liveTransactions plaidTransaction?
  rw [transactions]
  congr 1
  funext transaction
  rw [ledgerEntry, accounts]
  rfl

theorem plaidTransaction?_updateTransaction (db : FinanceDb) (target providerId : String)
    (change : FinancialTransaction → FinancialTransaction)
    (keeps : ∀ transaction, (change transaction).key = transaction.key) :
    plaidTransaction? (updateTransaction target change db) providerId =
      if providerId = target then (plaidTransaction? db providerId).map change
      else plaidTransaction? db providerId := by
  unfold plaidTransaction? updateTransaction
  rw [Table.find?_update FinancialTransaction.key keeps]
  cases isFound : db.transactions.find? (·.key = ("plaid", providerId)) with
  | none => simp
  | some row =>
      have hasKey : row.key = ("plaid", providerId) := by simpa using List.find?_some isFound
      by_cases isTarget : providerId = target
      · simp [hasKey, isTarget]
      · simp [hasKey, isTarget]

/-- Storing a transaction makes it live with its columns, and leaves the others alone. -/
theorem plaidTransaction?_storeTransaction (userId : Uuid) (write : TransactionUpsert)
    (db : FinanceDb) (providerId : String) :
    ∃ row : FinancialTransaction, row.accountId = write.account.2 ∧ row.content = write.content ∧
      row.removedAt = none ∧
      plaidTransaction? (storeTransaction userId write db) providerId =
        if providerId = write.providerId then some row else plaidTransaction? db providerId := by
  unfold storeTransaction
  cases found : plaidTransaction? db write.providerId with
  | some stored =>
      refine ⟨write.assign stored, rfl, rfl, rfl, ?_⟩
      simp only [plaidTransaction?_updateTransaction db _ _ write.assign fun _ => rfl]
      by_cases isWritten : providerId = write.providerId
      · rw [if_pos isWritten, if_pos isWritten, isWritten, found, Option.map_some]
      · rw [if_neg isWritten, if_neg isWritten]
  | none =>
      refine ⟨⟨db.nextId, userId, write.account.2, "plaid", write.providerId, write.content, none⟩,
        rfl, rfl, rfl, ?_⟩
      unfold plaidTransaction? at found ⊢
      rw [List.find?_append]
      by_cases isWritten : providerId = write.providerId
      · rw [if_pos isWritten, isWritten, found, Option.none_or]
        simp [FinancialTransaction.key]
      · have other : ¬write.providerId = providerId := fun same => isWritten same.symm
        rw [if_neg isWritten]
        simp [FinancialTransaction.key, other]

/-- One change. -/
theorem liveTransactions_perform {connectionId : Uuid}
    (maps : MapsAccounts accountMap connectionId db) (userId : Uuid) (now : Instant)
    {change : StoreChange} (onMap : change.OnMap accountMap) :
    liveTransactions (change.perform userId now db) connectionId =
      ChangeLog.apply (liveTransactions db connectionId) change.logged := by
  funext providerId
  have sameEntry : ∀ row, ledgerEntry (change.perform userId now db) connectionId row =
      ledgerEntry db connectionId row := by
    intro row
    rw [ledgerEntry, accounts_perform]
    rfl
  have live_eq : liveTransactions (change.perform userId now db) connectionId providerId =
      (plaidTransaction? (change.perform userId now db) providerId).bind
        (ledgerEntry db connectionId) := by
    rw [liveTransactions]
    congr 1
    exact funext sameEntry
  rw [live_eq, ChangeLog.apply]
  cases change with
  | upsert write =>
      rcases plaidTransaction?_storeTransaction userId write db providerId with
        ⟨row, isOn, hasContent, isLive, found⟩
      rcases maps _ _ onMap with ⟨account, isAccount, ofConnection, isProviders⟩
      rw [StoreChange.perform, found]
      by_cases isWritten : providerId = write.providerId
      · rw [if_pos isWritten, isWritten, StoreChange.logged, Function.update_self, Option.bind_some,
          ledgerEntry, isLive, isOn, isAccount]
        simp [ofConnection, isProviders, hasContent]
      · rw [if_neg isWritten, StoreChange.logged, Function.update_of_ne isWritten]
        rfl
  | removal removed =>
      rw [StoreChange.perform, markRemoved,
        plaidTransaction?_updateTransaction db _ _ (fun row => { row with removedAt := some now })
          fun _ => rfl]
      by_cases isRemoved : providerId = removed
      · rw [if_pos isRemoved, isRemoved, StoreChange.logged, Function.update_self]
        cases plaidTransaction? db removed with
        | none => rfl
        | some row => simp [ledgerEntry]
      · rw [if_neg isRemoved, StoreChange.logged, Function.update_of_ne isRemoved]
        rfl

/-- All changes of a run. -/
theorem liveTransactions_performed {connectionId : Uuid}
    (maps : MapsAccounts accountMap connectionId db) (userId : Uuid) (now : Instant)
    (onMap : ∀ change ∈ changes, change.OnMap accountMap) :
    liveTransactions (changes.foldl (StoreChange.perform userId now) db) connectionId =
      ChangeLog.replay (liveTransactions db connectionId) (changes.map StoreChange.logged) := by
  induction changes generalizing db with
  | nil => rfl
  | cons change rest ih =>
      have still : MapsAccounts accountMap connectionId (change.perform userId now db) := by
        unfold MapsAccounts
        rw [accounts_perform]
        exact maps
      rw [List.foldl_cons, ih still fun other otherMem =>
          onMap other (List.mem_cons_of_mem change otherMem),
        liveTransactions_perform maps userId now (onMap change List.mem_cons_self)]
      rfl

end DotBackend.Finance
