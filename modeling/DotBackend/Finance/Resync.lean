import DotBackend.Finance.ListedAccounts

/-!
# Applying the same pages again

A second run of the same changes finds every transaction it upserts, so that it rewrites rows
only; and each row is, up to the times of removals, as those changes leave it.
-/

namespace DotBackend.Finance

open Data

namespace StoreChange

/-- What a change writes to the account and the columns of a transaction. -/
def columns (change : StoreChange) (key : String × String) :
    Option (Uuid × TransactionContent) :=
  match change with
  | .upsert write =>
      if key = ("plaid", write.providerId) then some (write.account.2, write.content) else none
  | .removal _ => none

/-- What a change writes about the removal of a transaction. -/
def removed (change : StoreChange) (key : String × String) : Option Bool :=
  match change with
  | .upsert write => if key = ("plaid", write.providerId) then some false else none
  | .removal providerId => if key = ("plaid", providerId) then some true else none

/-- What a change does to a row that is there. -/
def onRow (now : Instant) (row : FinancialTransaction) (change : StoreChange) :
    FinancialTransaction :=
  match change with
  | .upsert write => if row.key = ("plaid", write.providerId) then write.assign row else row
  | .removal providerId =>
      if row.key = ("plaid", providerId) then { row with removedAt := some now } else row

/-- The transaction that a change upserts is there. -/
def IsPresent (db : FinanceDb) : StoreChange → Prop
  | .upsert write => ∃ row ∈ db.transactions, row.key = ("plaid", write.providerId)
  | .removal _ => True

end StoreChange

def FinancialTransaction.columns (row : FinancialTransaction) : Uuid × TransactionContent :=
  (row.accountId, row.content)

/-- A transaction without the time of its removal. -/
def FinancialTransaction.untimed (row : FinancialTransaction) : FinancialTransaction :=
  { row with removedAt := row.removedAt.map fun _ => 0 }

/-- A row is as some changes leave it. -/
structure Settled (changes : List StoreChange) (row : FinancialTransaction) : Prop where
  columns : overwrite (changes.map (·.columns row.key)) row.columns = row.columns
  removed : overwrite (changes.map (·.removed row.key)) row.removedAt.isSome = row.removedAt.isSome

/-! ## One row -/

@[simp]
theorem key_onRow (now : Instant) (row : FinancialTransaction) (change : StoreChange) :
    (StoreChange.onRow now row change).key = row.key := by
  unfold StoreChange.onRow
  cases change with
  | upsert write =>
      simp only
      split <;> rfl
  | removal providerId =>
      simp only
      split <;> rfl

theorem columns_onRow (now : Instant) (row : FinancialTransaction) (change : StoreChange) :
    (StoreChange.onRow now row change).columns = (change.columns row.key).getD row.columns := by
  unfold StoreChange.onRow StoreChange.columns
  cases change with
  | upsert write =>
      simp only
      split <;> rfl
  | removal providerId =>
      simp only
      split <;> rfl

theorem removed_onRow (now : Instant) (row : FinancialTransaction) (change : StoreChange) :
    (StoreChange.onRow now row change).removedAt.isSome =
      (change.removed row.key).getD row.removedAt.isSome := by
  unfold StoreChange.onRow StoreChange.removed
  cases change with
  | upsert write =>
      simp only
      split <;> rfl
  | removal providerId =>
      simp only
      split <;> rfl

theorem Settled.onRow {changes : List StoreChange} {row : FinancialTransaction}
    (settled : Settled changes row) (now : Instant) (change : StoreChange) :
    Settled (changes ++ [change]) (StoreChange.onRow now row change) := by
  constructor
  · rw [key_onRow, columns_onRow, List.map_append, List.map_singleton]
    exact overwrite_settled settled.columns _
  · rw [key_onRow, removed_onRow, List.map_append, List.map_singleton]
    exact overwrite_settled settled.removed _

/-- What identifies a row, and what the changes write. -/
theorem fields_foldl_onRow (now : Instant) (changes : List StoreChange)
    (row : FinancialTransaction) :
    let after := changes.foldl (StoreChange.onRow now) row
    after.id = row.id ∧ after.userId = row.userId ∧ after.key = row.key ∧
      after.columns = overwrite (changes.map (·.columns row.key)) row.columns ∧
      after.removedAt.isSome = overwrite (changes.map (·.removed row.key)) row.removedAt.isSome := by
  induction changes generalizing row with
  | nil => exact ⟨rfl, rfl, rfl, rfl, rfl⟩
  | cons change rest ih =>
      rcases ih (StoreChange.onRow now row change) with
        ⟨sameId, sameUser, sameKey, columns, removed⟩
      have sameFields : (StoreChange.onRow now row change).id = row.id ∧
          (StoreChange.onRow now row change).userId = row.userId := by
        unfold StoreChange.onRow
        cases change with
        | upsert write =>
            simp only
            split <;> exact ⟨rfl, rfl⟩
        | removal providerId =>
            simp only
            split <;> exact ⟨rfl, rfl⟩
      rw [key_onRow, columns_onRow] at columns
      rw [key_onRow, removed_onRow] at removed
      exact ⟨sameId.trans sameFields.1, sameUser.trans sameFields.2, sameKey.trans (key_onRow ..),
        columns, removed⟩

/-- The changes leave a settled row as it is, up to the time of its removal. -/
theorem Settled.untimed_foldl {changes : List StoreChange} {row : FinancialTransaction}
    (settled : Settled changes row) (now : Instant) :
    (changes.foldl (StoreChange.onRow now) row).untimed = row.untimed := by
  have fields := fields_foldl_onRow now changes row
  rw [settled.columns, settled.removed] at fields
  generalize changes.foldl (StoreChange.onRow now) row = after at fields
  rcases fields with ⟨sameId, sameUser, sameKey, sameColumns, sameRemoved⟩
  rcases after with ⟨id, userId, accountId, source, providerTransactionId, content, removedAt⟩
  rcases row with ⟨id', userId', accountId', source', providerTransactionId', content', removedAt'⟩
  cases sameId
  cases sameUser
  cases sameKey
  cases sameColumns
  cases removedAt with
  | none =>
      cases removedAt' with
      | none => rfl
      | some _ => cases sameRemoved
  | some _ =>
      cases removedAt' with
      | none => cases sameRemoved
      | some _ => rfl

/-! ## All rows -/

theorem perform_of_present {db : FinanceDb} {change : StoreChange} (present : change.IsPresent db)
    (userId : Uuid) (now : Instant) :
    change.perform userId now db =
      { db with transactions := db.transactions.map fun row => StoreChange.onRow now row change } := by
  cases change with
  | upsert write =>
      rcases present with ⟨row, rowMem, hasKey⟩
      rw [StoreChange.perform, storeTransaction]
      cases found : plaidTransaction? db write.providerId with
      | none =>
          have notFound := List.find?_eq_none.mp found row rowMem
          exact absurd (decide_eq_true hasKey) notFound
      | some stored =>
          simp [updateTransaction, Table.update, StoreChange.onRow]
  | removal providerId =>
      simp [StoreChange.perform, markRemoved, updateTransaction, Table.update, StoreChange.onRow]

theorem IsPresent.of_keys {first second : FinanceDb} {change : StoreChange}
    (present : change.IsPresent first)
    (keys : ∀ row ∈ first.transactions, ∃ other ∈ second.transactions, other.key = row.key) :
    change.IsPresent second := by
  cases change with
  | upsert write =>
      rcases present with ⟨row, rowMem, hasKey⟩
      rcases keys row rowMem with ⟨other, otherMem, sameKey⟩
      exact ⟨other, otherMem, sameKey.trans hasKey⟩
  | removal providerId => trivial

theorem performed_of_present (userId : Uuid) (now : Instant) {changes : List StoreChange}
    {db : FinanceDb} (present : ∀ change ∈ changes, change.IsPresent db) :
    changes.foldl (StoreChange.perform userId now) db =
      { db with
        transactions := db.transactions.map fun row => changes.foldl (StoreChange.onRow now) row } := by
  induction changes generalizing db with
  | nil => simp
  | cons change rest ih =>
      rw [List.foldl_cons, perform_of_present (present change List.mem_cons_self),
        ih]
      · simp only [List.map_map]
        rfl
      · intro other otherMem
        apply IsPresent.of_keys (present other (List.mem_cons_of_mem change otherMem))
        intro row rowMem
        exact ⟨_, List.mem_map_of_mem rowMem, key_onRow now row change⟩

/-- Whatever the store held, afterwards every row is as the changes leave it, and every
transaction they upsert is there. -/
theorem settled_performed (userId : Uuid) (now : Instant) (changes : List StoreChange)
    (db : FinanceDb) :
    let after := changes.foldl (StoreChange.perform userId now) db
    (∀ row ∈ after.transactions, Settled changes row) ∧
      ∀ change ∈ changes, change.IsPresent after := by
  induction changes using List.reverseRecOn with
  | nil =>
      refine ⟨fun row _ => ⟨rfl, rfl⟩, ?_⟩
      intro change changeMem
      cases changeMem
  | append_singleton changes change ih =>
      rcases ih with ⟨settled, present⟩
      rw [List.foldl_append, List.foldl_cons, List.foldl_nil]
      generalize changes.foldl (StoreChange.perform userId now) db = before at settled present
      by_cases isPresent : change.IsPresent before
      · rw [perform_of_present isPresent]
        have sameKeys : ∀ row ∈ before.transactions,
            ∃ other ∈ before.transactions.map fun row => StoreChange.onRow now row change,
              other.key = row.key :=
          fun row rowMem => ⟨_, List.mem_map_of_mem rowMem, key_onRow now row change⟩
        constructor
        · intro row rowMem
          rcases List.mem_map.mp rowMem with ⟨old, oldMem, rfl⟩
          exact (settled old oldMem).onRow now change
        · intro other otherMem
          rcases List.mem_append.mp otherMem with isEarlier | isLast
          · exact IsPresent.of_keys (present other isEarlier) sameKeys
          · rw [List.mem_singleton.mp isLast]
            exact IsPresent.of_keys isPresent sameKeys
      · cases change with
        | removal providerId => exact absurd trivial isPresent
        | upsert write =>
            have isNew : ∀ row ∈ before.transactions, row.key ≠ ("plaid", write.providerId) :=
              fun row rowMem hasKey => isPresent ⟨row, rowMem, hasKey⟩
            have notFound : plaidTransaction? before write.providerId = none := by
              apply List.find?_eq_none.mpr
              intro row rowMem
              simpa using isNew row rowMem
            rw [StoreChange.perform, storeTransaction, notFound]
            constructor
            · intro row rowMem
              rcases List.mem_append.mp rowMem with isOld | isInserted
              · have unwritten : StoreChange.onRow now row (.upsert write) = row := by
                  rw [StoreChange.onRow, if_neg (isNew row isOld)]
                have still := (settled row isOld).onRow now (.upsert write)
                rw [unwritten] at still
                exact still
              · rw [List.mem_singleton.mp isInserted]
                constructor
                · rw [List.map_append, List.map_singleton, overwrite_concat]
                  simp [StoreChange.columns, FinancialTransaction.key, FinancialTransaction.columns]
                · rw [List.map_append, List.map_singleton, overwrite_concat]
                  simp [StoreChange.removed, FinancialTransaction.key]
            · intro other otherMem
              rcases List.mem_append.mp otherMem with isEarlier | isLast
              · apply IsPresent.of_keys (present other isEarlier)
                intro row rowMem
                exact ⟨row, List.mem_append_left _ rowMem, rfl⟩
              · rw [List.mem_singleton.mp isLast]
                exact ⟨_, List.mem_append_right _ (List.mem_singleton_self _), rfl⟩

end DotBackend.Finance
