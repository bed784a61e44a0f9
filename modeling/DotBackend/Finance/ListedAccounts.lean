import DotBackend.Finance.StoreChanges

/-!
# The accounts that the pages list

Storing the accounts leaves the transactions and what is read of them alone, yields a map of
exactly the listed accounts to their rows, and does nothing when it is repeated.
-/

namespace DotBackend.Finance

open Data

variable {literals : Literals} {db : FinanceDb} {connectionId : Uuid} {providerId : String}

/-- The declared keys, and the supply of identifiers. -/
structure FinanceKeys (db : FinanceDb) : Prop where
  connectionIds : Table.UniqueOn (fun row => some (FinancialConnection.id row)) db.connections
  accountIds : Table.UniqueOn (fun row => some (FinancialAccount.id row)) db.accounts
  accountKeys : Table.UniqueOn (fun row => some (FinancialAccount.key row)) db.accounts
  transactionKeys : Table.UniqueOn (fun row => some (FinancialTransaction.key row)) db.transactions
  accountOf : ∀ transaction ∈ db.transactions, ∃ account ∈ db.accounts,
    account.id = transaction.accountId
  supply : ∀ account ∈ db.accounts, account.id < db.nextId

/-! ## Which accounts are listed -/

theorem nodup_keys_assign {key : String} {value : Json} {fields : List (String × Json)}
    (nodup : (fields.map Prod.fst).Nodup) : ((Json.assign key value fields).map Prod.fst).Nodup := by
  induction fields with
  | nil => simp [Json.assign]
  | cons field rest ih =>
      rw [List.map_cons, List.nodup_cons] at nodup
      rw [Json.assign]
      by_cases isKey : field.1 = key
      · rw [if_pos isKey, List.map_cons, List.nodup_cons, ← isKey]
        exact nodup
      · rw [if_neg isKey, List.map_cons, List.nodup_cons, Json.mem_keys_assign]
        refine ⟨?_, ih nodup.2⟩
        rintro (same | already)
        · exact isKey same
        · exact nodup.1 already

theorem keys_listedAccounts (raws : List Json) (accounts : List (String × Json)) :
    ((accounts.map Prod.fst).Nodup → ((listedAccounts accounts raws).map Prod.fst).Nodup) ∧
      ∀ account, account ∈ (listedAccounts accounts raws).map Prod.fst ↔
        account ∈ accounts.map Prod.fst ∨
          (raws.any fun raw => get raw "account_id" = .str account) = true := by
  induction raws generalizing accounts with
  | nil => simp [listedAccounts]
  | cons raw rest ih =>
      rw [listedAccounts]
      split
      · rename_i providerId isString
        rcases ih (Json.assign providerId raw accounts) with ⟨nodup, keys⟩
        refine ⟨fun before => nodup (nodup_keys_assign before), ?_⟩
        intro account
        rw [keys, Json.mem_keys_assign, List.any_cons, isString, Bool.or_eq_true, decide_eq_true_eq,
          Json.str.injEq, eq_comm, or_assoc]
        exact or_left_comm
      · rename_i notString
        rcases ih accounts with ⟨nodup, keys⟩
        refine ⟨nodup, ?_⟩
        intro account
        have notAccount : ¬get raw "account_id" = .str account := notString account
        rw [keys, List.any_cons, decide_eq_false notAccount, Bool.false_or]

theorem keys_rawAccounts {pages : List Json} {accounts raws : List (String × Json)}
    (read : rawAccounts pages accounts = .ok raws) :
    ((accounts.map Prod.fst).Nodup → (raws.map Prod.fst).Nodup) ∧
      ∀ account, account ∈ raws.map Prod.fst ↔
        account ∈ accounts.map Prod.fst ∨ isListed pages account = true := by
  induction pages generalizing accounts with
  | nil =>
      cases read
      simp [isListed]
  | cons page rest ih =>
      simp only [rawAccounts, bind_eq_ok] at read
      rcases read with ⟨found, isFound, read⟩
      rcases ih read with ⟨nodup, keys⟩
      rcases keys_listedAccounts found accounts with ⟨nodupFound, keysFound⟩
      refine ⟨fun before => nodup (nodupFound before), ?_⟩
      intro account
      rw [keys, keysFound, isListed, isListed, List.any_cons, itemsOf_eq isFound, Bool.or_eq_true,
        or_assoc]

/-! ## Storing one account -/

theorem textOr_again (literals : Literals) (value : Json) (stored : List Char) (maxLength : Nat) :
    textOr literals value (textOr literals value stored maxLength) maxLength =
      textOr literals value stored maxLength := by
  unfold textOr
  by_cases isTruthy : value.truthy = true
  · rw [if_pos isTruthy, if_pos isTruthy]
  · rw [if_neg isTruthy, if_neg isTruthy, List.take_take, Nat.min_self]

/-- Assigning the columns of an account a second time changes nothing. -/
theorem assignAccount_again {raw : Json} {stored assigned : AccountContent}
    (assigns : assignAccount literals raw stored = .ok assigned) :
    assignAccount literals raw assigned = .ok assigned := by
  simp only [assignAccount, bind_eq_ok, pure_eq_ok] at assigns ⊢
  rcases assigns with ⟨current, isCurrent, available, isAvailable, rfl⟩
  refine ⟨current, isCurrent, available, isAvailable, ?_⟩
  simp only [textOr_again]

/-- The row of an account holds what a dictionary of the pages says. -/
structure Holds (literals : Literals) (connectionId : Uuid) (providerId : String) (raw : Json)
    (row : FinancialAccount) (db : FinanceDb) : Prop where
  found : account? db connectionId providerId = some row
  selectable : fitsText providerId.toList = true
  assigned : assignAccount literals raw row.content = .ok row.content
  fits : row.content.fits = true

/-- What storing accounts leaves alone: everything but the accounts, and which row is whose. -/
structure OnlyAccounts (before after : FinanceDb) : Prop where
  connections : after.connections = before.connections
  transactions : after.transactions = before.transactions
  userEvents : after.userEvents = before.userEvents
  sameKey : ∀ account ∈ before.accounts,
    (after.accounts.find? (·.id = account.id)).map FinancialAccount.key =
      (before.accounts.find? (·.id = account.id)).map FinancialAccount.key

@[simp]
theorem key_assign (content : AccountContent) (account : FinancialAccount) :
    (content.assign account).key = account.key := rfl

@[simp]
theorem id_assign (content : AccountContent) (account : FinancialAccount) :
    (content.assign account).id = account.id := rfl

theorem account?_updateAccount (db : FinanceDb) (connectionId : Uuid) (target providerId : String)
    (content : AccountContent) :
    account? (updateAccount connectionId target content db) connectionId providerId =
      if providerId = target then
        (account? db connectionId providerId).map content.assign
      else account? db connectionId providerId := by
  unfold account? updateAccount
  rw [Table.find?_update FinancialAccount.key (key_assign content)]
  cases isFound : db.accounts.find? (·.key = (connectionId, providerId)) with
  | none => simp
  | some row =>
      have hasKey : row.key = (connectionId, providerId) := by simpa using List.find?_some isFound
      by_cases isTarget : providerId = target
      · simp [hasKey, isTarget]
      · simp [hasKey, isTarget]

theorem FinanceKeys.updateAccount (keys : FinanceKeys db) (connectionId : Uuid)
    (providerId : String) (content : AccountContent) :
    FinanceKeys (updateAccount connectionId providerId content db) := by
  have ids : (Finance.updateAccount connectionId providerId content db).accounts.map
      FinancialAccount.id = db.accounts.map FinancialAccount.id := by
    apply Table.map_update_of_keeps
    intro row
    rfl
  constructor
  · exact keys.connectionIds
  · exact keys.accountIds.update _ fun _ => rfl
  · exact keys.accountKeys.update _ fun _ => rfl
  · exact keys.transactionKeys
  · intro transaction transactionMem
    rcases keys.accountOf transaction transactionMem with ⟨account, accountMem, isOf⟩
    have idMem : account.id ∈ (Finance.updateAccount connectionId providerId content db).accounts.map
        FinancialAccount.id := ids ▸ List.mem_map_of_mem accountMem
    rcases List.mem_map.mp idMem with ⟨row, rowMem, same⟩
    exact ⟨row, rowMem, same.trans isOf⟩
  · intro row rowMem
    have idMem : row.id ∈ db.accounts.map FinancialAccount.id := ids ▸ List.mem_map_of_mem rowMem
    rcases List.mem_map.mp idMem with ⟨account, accountMem, same⟩
    rw [← same]
    exact keys.supply account accountMem

theorem onlyAccounts_updateAccount (connectionId : Uuid) (providerId : String)
    (content : AccountContent) (db : FinanceDb) :
    OnlyAccounts db (updateAccount connectionId providerId content db) := by
  constructor
  · rfl
  · rfl
  · rfl
  · intro account _
    unfold updateAccount
    rw [Table.find?_update FinancialAccount.id (id_assign content), Option.map_map]
    congr 1
    funext row
    rw [Function.comp_apply]
    split <;> rfl

/-- A new account, under an identifier no account has. -/
def insertAccount (connectionId : Uuid) (providerId : String) (content : AccountContent)
    (db : FinanceDb) : FinanceDb :=
  { db with
    accounts := db.accounts ++ [⟨db.nextId, connectionId, providerId, content⟩]
    nextId := db.nextId + 1 }

theorem account?_insertAccount {target : String}
    (isNew : account? db connectionId target = none) (providerId : String)
    (content : AccountContent) :
    account? (insertAccount connectionId target content db) connectionId providerId =
      if providerId = target then some ⟨db.nextId, connectionId, target, content⟩
      else account? db connectionId providerId := by
  unfold account? insertAccount at *
  rw [List.find?_append]
  by_cases isTarget : providerId = target
  · rw [if_pos isTarget, isTarget, isNew, Option.none_or]
    simp [FinancialAccount.key]
  · have other : ¬target = providerId := fun same => isTarget same.symm
    rw [if_neg isTarget]
    simp [FinancialAccount.key, other]

theorem FinanceKeys.insertAccount (keys : FinanceKeys db)
    (isNew : account? db connectionId providerId = none)
    (content : AccountContent) : FinanceKeys (insertAccount connectionId providerId content db) := by
  constructor
  · exact keys.connectionIds
  · apply keys.accountIds.append
    intro account accountMem
    exact Nat.ne_of_lt (keys.supply account accountMem)
  · apply keys.accountKeys.append
    intro account accountMem same
    have notFound := List.find?_eq_none.mp isNew account accountMem
    exact notFound (decide_eq_true same)
  · exact keys.transactionKeys
  · intro transaction transactionMem
    rcases keys.accountOf transaction transactionMem with ⟨account, accountMem, isOf⟩
    exact ⟨account, List.mem_append_left _ accountMem, isOf⟩
  · intro account accountMem
    rcases List.mem_append.mp accountMem with isOld | isNewRow
    · exact Nat.lt_succ_of_lt (keys.supply account isOld)
    · rw [List.mem_singleton.mp isNewRow]
      exact Nat.lt_succ_self db.nextId

theorem onlyAccounts_insertAccount (connectionId : Uuid) (providerId : String)
    (content : AccountContent) (db : FinanceDb) :
    OnlyAccounts db (insertAccount connectionId providerId content db) := by
  constructor
  · rfl
  · rfl
  · rfl
  · intro account accountMem
    unfold insertAccount
    rw [List.find?_append]
    cases found : db.accounts.find? (·.id = account.id) with
    | some row => rfl
    | none =>
        have notFound := List.find?_eq_none.mp found account accountMem
        exact absurd (decide_eq_true rfl) notFound

/-- What storing one account does. -/
theorem upsertAccount_stored {raw : Json} {stored : FinanceDb × Uuid} (keys : FinanceKeys db)
    (success : upsertAccount literals connectionId providerId raw db = .ok stored) :
    FinanceKeys stored.1 ∧ OnlyAccounts db stored.1 ∧
      (∃ row, row.id = stored.2 ∧ Holds literals connectionId providerId raw row stored.1) ∧
      ∀ other, other ≠ providerId →
        account? stored.1 connectionId other = account? db connectionId other := by
  simp only [upsertAccount, bind_eq_ok, require_eq_ok] at success
  rcases success with ⟨_, selectable, success⟩
  split at success
  · rename_i account found
    simp only [bind_eq_ok, require_eq_ok, pure_eq_ok] at success
    rcases success with ⟨content, assigned, _, fits, rfl⟩
    refine ⟨keys.updateAccount connectionId providerId content,
      onlyAccounts_updateAccount connectionId providerId content db,
      ⟨content.assign account, rfl, ?_, selectable, assignAccount_again assigned, fits⟩,
      ?_⟩
    · rw [account?_updateAccount, if_pos rfl, found, Option.map_some]
    · intro other isOther
      rw [account?_updateAccount, if_neg isOther]
  · rename_i isNew
    simp only [bind_eq_ok, require_eq_ok, pure_eq_ok, Bool.and_eq_true] at success
    rcases success with ⟨content, assigned, _, ⟨fits, _⟩, rfl⟩
    refine ⟨keys.insertAccount isNew content,
      onlyAccounts_insertAccount connectionId providerId content db,
      ⟨⟨db.nextId, connectionId, providerId, content⟩, rfl, ?_, selectable,
        assignAccount_again assigned, fits⟩, ?_⟩
    · exact (account?_insertAccount isNew providerId content).trans (if_pos rfl)
    · intro other isOther
      exact (account?_insertAccount isNew other content).trans (if_neg isOther)

/-! ## Storing all accounts -/

theorem OnlyAccounts.refl (db : FinanceDb) : OnlyAccounts db db :=
  ⟨rfl, rfl, rfl, fun _ _ => rfl⟩

theorem OnlyAccounts.trans {first second third : FinanceDb} (earlier : OnlyAccounts first second)
    (later : OnlyAccounts second third) : OnlyAccounts first third := by
  constructor
  · exact later.connections.trans earlier.connections
  · exact later.transactions.trans earlier.transactions
  · exact later.userEvents.trans earlier.userEvents
  · intro account accountMem
    have same := earlier.sameKey account accountMem
    cases found : second.accounts.find? (·.id = account.id) with
    | none =>
        rw [found, Option.map_none, eq_comm, Option.map_eq_none_iff, List.find?_eq_none] at same
        exact absurd (decide_eq_true rfl) (same account accountMem)
    | some row =>
        have hasId : row.id = account.id := by simpa using List.find?_some found
        have kept := later.sameKey row (List.mem_of_find?_eq_some found)
        rw [hasId] at kept
        exact kept.trans same

/-- What is live on a connection depends on the transactions and on which account is whose. -/
theorem OnlyAccounts.liveTransactions {before after : FinanceDb} (keys : FinanceKeys before)
    (only : OnlyAccounts before after) (connectionId : Uuid) :
    liveTransactions after connectionId = liveTransactions before connectionId := by
  funext providerId
  unfold Finance.liveTransactions plaidTransaction?
  rw [only.transactions]
  cases found : before.transactions.find? (·.key = ("plaid", providerId)) with
  | none => rfl
  | some transaction =>
      rcases keys.accountOf transaction (List.mem_of_find?_eq_some found) with
        ⟨account, accountMem, isOf⟩
      have same := only.sameKey account accountMem
      rw [isOf] at same
      have entry_eq : ∀ rows : Option FinancialAccount,
          ((rows.filter (·.connectionId = connectionId)).map fun account =>
            (⟨account.providerAccountId, transaction.content⟩ : LedgerEntry)) =
          (((rows.map FinancialAccount.key).filter (·.1 = connectionId)).map fun key =>
            ⟨key.2, transaction.content⟩) := by
        intro rows
        cases rows with
        | none => rfl
        | some row =>
            by_cases isConnection : row.connectionId = connectionId
            · simp [FinancialAccount.key, Option.filter, isConnection]
            · simp [FinancialAccount.key, Option.filter, isConnection]
      rw [Option.bind_some, Option.bind_some, ledgerEntry, ledgerEntry, entry_eq, entry_eq, same]

/-- The row of an account. -/
def rowId (db : FinanceDb) (connectionId : Uuid) (providerId : String) : Uuid :=
  ((account? db connectionId providerId).map FinancialAccount.id).getD 0

/-- The map of some accounts to their rows. -/
def rowsOf (db : FinanceDb) (connectionId : Uuid) (listed : List (String × Json)) : AccountMap :=
  listed.map fun entry => (entry.1, rowId db connectionId entry.1)

/-- Every listed account holds what the pages say. -/
def AllHold (literals : Literals) (connectionId : Uuid) (listed : List (String × Json))
    (db : FinanceDb) : Prop :=
  ∀ entry ∈ listed, ∃ row, Holds literals connectionId entry.1 entry.2 row db

theorem upsertListed_stored {listed : List (String × Json)} {accountMap : AccountMap}
    {stored : FinanceDb × AccountMap} (keys : FinanceKeys db) (nodup : (listed.map Prod.fst).Nodup)
    (success : upsertListed literals connectionId listed db accountMap = .ok stored) :
    FinanceKeys stored.1 ∧ OnlyAccounts db stored.1 ∧
      AllHold literals connectionId listed stored.1 ∧
      stored.2 = accountMap ++ rowsOf stored.1 connectionId listed ∧
      ∀ other, other ∉ listed.map Prod.fst →
        account? stored.1 connectionId other = account? db connectionId other := by
  induction listed generalizing db accountMap with
  | nil =>
      cases success
      refine ⟨keys, OnlyAccounts.refl db, ?_, ?_, fun _ _ => rfl⟩
      · intro entry entryMem
        cases entryMem
      · rw [rowsOf, List.map_nil, List.append_nil]
  | cons entry rest ih =>
      rw [List.map_cons, List.nodup_cons] at nodup
      simp only [upsertListed, bind_eq_ok] at success
      rcases success with ⟨first, firstStored, restStored⟩
      rcases upsertAccount_stored keys firstStored with ⟨firstKeys, firstOnly, ⟨row, isRow, holds⟩,
        firstOthers⟩
      rcases ih firstKeys nodup.2 restStored with
        ⟨restKeys, restOnly, restHold, isMap, restOthers⟩
      have stays := restOthers entry.1 nodup.1
      refine ⟨restKeys, firstOnly.trans restOnly, ?_, ?_, ?_⟩
      · intro other otherMem
        rcases List.mem_cons.mp otherMem with isFirst | isRest
        · rw [isFirst]
          exact ⟨row, stays.trans holds.found, holds.selectable, holds.assigned, holds.fits⟩
        · exact restHold other isRest
      · have isId : rowId stored.1 connectionId entry.1 = first.2 := by
          rw [rowId, stays, holds.found, Option.map_some, Option.getD_some, isRow]
        rw [isMap, rowsOf, rowsOf, List.map_cons, isId, List.append_assoc, List.singleton_append]
      · intro other isOther
        rw [List.map_cons, List.mem_cons, not_or] at isOther
        exact (restOthers other isOther.2).trans (firstOthers other isOther.1)

theorem AllHold.of_accounts {listed : List (String × Json)} {first second : FinanceDb}
    (same : second.accounts = first.accounts) (hold : AllHold literals connectionId listed first) :
    AllHold literals connectionId listed second := by
  intro entry entryMem
  rcases hold entry entryMem with ⟨row, holds⟩
  refine ⟨row, ?_, holds.selectable, holds.assigned, holds.fits⟩
  rw [account?, same]
  exact holds.found

theorem rowsOf_of_accounts {first second : FinanceDb} (same : second.accounts = first.accounts)
    (connectionId : Uuid) (listed : List (String × Json)) :
    rowsOf second connectionId listed = rowsOf first connectionId listed := by
  unfold rowsOf rowId account?
  rw [same]

theorem updateAccount_same
    (unique : Table.UniqueOn (fun row => some (FinancialAccount.key row)) db.accounts)
    {row : FinancialAccount}
    (found : account? db connectionId providerId = some row) :
    updateAccount connectionId providerId row.content db = db := by
  have hasKey : row.key = (connectionId, providerId) := by simpa using List.find?_some found
  have same : Table.update (·.key = (connectionId, providerId)) row.content.assign db.accounts =
      db.accounts := by
    rw [Table.update]
    conv_rhs => rw [← List.map_id db.accounts]
    apply List.map_congr_left
    intro other otherMem
    by_cases isKey : other.key = (connectionId, providerId)
    · have isRow : other = row := unique.eq_of_mem otherMem
        (List.mem_of_find?_eq_some found) rfl (by rw [hasKey, isKey])
      rw [if_pos (decide_eq_true isKey), isRow]
      rfl
    · rw [if_neg (by simpa using isKey)]
      rfl
  rw [updateAccount, same]

/-- Storing the accounts again finds every row as it should be. -/
theorem upsertListed_again
    (unique : Table.UniqueOn (fun row => some (FinancialAccount.key row)) db.accounts)
    {listed : List (String × Json)} {accountMap : AccountMap}
    (hold : AllHold literals connectionId listed db) :
    upsertListed literals connectionId listed db accountMap =
      .ok (db, accountMap ++ rowsOf db connectionId listed) := by
  induction listed generalizing accountMap with
  | nil => simp [upsertListed, rowsOf]
  | cons entry rest ih =>
      rcases hold entry List.mem_cons_self with ⟨row, holds⟩
      have first : upsertAccount literals connectionId entry.1 entry.2 db = .ok (db, row.id) := by
        simp only [upsertAccount, bind_eq_ok, require_eq_ok]
        refine ⟨(), holds.selectable, ?_⟩
        simp only [holds.found, bind_eq_ok, require_eq_ok, pure_eq_ok]
        refine ⟨row.content, holds.assigned, (), holds.fits, ?_⟩
        rw [updateAccount_same unique holds.found]
      have isId : rowId db connectionId entry.1 = row.id := by
        rw [rowId, holds.found, Option.map_some, Option.getD_some]
      simp only [upsertListed, first, bind, Except.bind]
      rw [ih fun other otherMem => hold other (List.mem_cons_of_mem entry otherMem),
        rowsOf, rowsOf, List.map_cons, isId, List.append_assoc, List.singleton_append]

/-! ## The map of the accounts -/

theorem get?_rowsOf_isSome (db : FinanceDb) (connectionId : Uuid) (listed : List (String × Json))
    (account : String) :
    ((rowsOf db connectionId listed).get? account).isSome = true ↔
      account ∈ listed.map Prod.fst := by
  simp only [AccountMap.get?, rowsOf, Option.isSome_map, List.find?_isSome, List.mem_map,
    decide_eq_true_eq]
  constructor
  · rintro ⟨_, ⟨entry, entryMem, rfl⟩, isAccount⟩
    exact ⟨entry, entryMem, isAccount⟩
  · rintro ⟨entry, entryMem, isAccount⟩
    exact ⟨_, ⟨entry, entryMem, rfl⟩, isAccount⟩

theorem mapsAccounts_rowsOf (keys : FinanceKeys db) {listed : List (String × Json)}
    (hold : AllHold literals connectionId listed db) :
    MapsAccounts (rowsOf db connectionId listed) connectionId db := by
  intro account id isMapped
  rcases Option.map_eq_some_iff.mp isMapped with ⟨mapped, isFound, rfl⟩
  have isAccount : mapped.1 = account := by simpa using List.find?_some isFound
  rcases List.mem_map.mp (List.mem_of_find?_eq_some isFound) with ⟨entry, entryMem, rfl⟩
  rcases hold entry entryMem with ⟨row, holds⟩
  have hasKey : row.key = (connectionId, entry.1) := by simpa using List.find?_some holds.found
  have isId : rowId db connectionId entry.1 = row.id := by
    rw [rowId, holds.found, Option.map_some, Option.getD_some]
  refine ⟨row, ?_, (Prod.mk.inj hasKey).1, (Prod.mk.inj hasKey).2.trans isAccount⟩
  rw [isId]
  exact keys.accountIds.find?_eq_some (List.mem_of_find?_eq_some holds.found)

end DotBackend.Finance
