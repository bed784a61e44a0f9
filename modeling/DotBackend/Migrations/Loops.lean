import DotBackend.Migrations.CanonicalConversations
import Mathlib.Data.List.Perm.Basic

/-!
# The loops of the upgrade

Each loop is brought into a closed form: the assignments list every conversation once with
the oldest one of its user, every message is rewritten in place, and merging deletes
conversations only when nothing refers to them any more.
-/

namespace DotBackend.Migrations

open Data

variable {assignment : Assignment} {rest : List ChannelMessage}

/-! ## Revision 0004 -/

/-- The constraints at revision 0004; the new tables are empty. -/
structure Database.Valid (db : Database) : Prop where
  conversationIds : Table.UniqueOn (fun row => some row.id) db.conversations
  conversationKeys : Table.UniqueOn (fun row => some (row.provider, row.externalId)) db.conversations
  messageIds : Table.UniqueOn (fun row => some row.id) db.messages
  messageExternalIds : Table.UniqueOn
    (fun row => row.externalId.map fun externalId => (row.provider, externalId)) db.messages
  messageKeys : Table.UniqueOn
    (fun row => row.idempotencyKey.map fun key => (row.provider, key)) db.messages
  messageConversations : ∀ message ∈ db.messages,
    ∃ row ∈ db.conversations, row.id = message.conversationId
  runConversations : ∀ run ∈ db.runs, ∃ row ∈ db.conversations, row.id = run.conversationId
  triggers : ∀ run ∈ db.runs, ∃ message ∈ db.messages, message.id = run.triggerMessageId
  calls : ∀ call ∈ db.toolCalls, ∃ run ∈ db.runs, run.id = call.agentRunId
  noChannels : db.channels = []
  noDeliveries : db.deliveries = []

/-- No conversation of the user is older; ties are broken by the identifier. -/
def Oldest (rows : List ChannelConversation) (row : ChannelConversation) : Prop :=
  row ∈ rows ∧ ∀ other ∈ rows, other.userId = row.userId →
    toLex (row.createdAt, row.id) ≤ toLex (other.createdAt, other.id)

/-! ## Assignments -/

section Assignments

variable {rows userRows : List ChannelConversation} {row : ChannelConversation}

theorem mem_orderedByAge : row ∈ orderedByAge rows ↔ row ∈ rows :=
  Table.mem_orderBy

theorem orderedByAge_perm (rows : List ChannelConversation) : (orderedByAge rows).Perm rows :=
  List.perm_insertionSort _ rows

/-- The first of the ordered rows is the oldest. -/
theorem head_orderedByAge {later : List ChannelConversation} (ordered : orderedByAge rows = row :: later) :
    row ∈ rows ∧ ∀ other ∈ rows, toLex (row.createdAt, row.id) ≤ toLex (other.createdAt, other.id) := by
  have sorted : (orderedByAge rows).Pairwise fun a b =>
      toLex (a.createdAt, a.id) ≤ toLex (b.createdAt, b.id) := by
    have bySort := List.pairwise_insertionSort (fun a b : ChannelConversation =>
      toLex (a.createdAt, a.id) ≤ toLex (b.createdAt, b.id)) rows
    unfold orderedByAge Table.orderBy
    simpa using bySort
  rw [ordered, List.pairwise_cons] at sorted
  have isRow : ∀ other, other ∈ row :: later ↔ other ∈ rows := by
    intro other
    rw [← ordered]
    exact mem_orderedByAge
  constructor
  · exact (isRow row).mp List.mem_cons_self
  · intro other otherMem
    rcases List.mem_cons.mp ((isRow other).mpr otherMem) with rfl | isLater
    · exact le_refl _
    · exact sorted.1 other isLater

theorem mem_rowsByUser (isGroup : userRows ∈ rowsByUser rows) :
    ∃ userId, userRows = rows.filter (·.userId = userId) := by
  rcases List.mem_map.mp isGroup with ⟨userId, _, rfl⟩
  exact ⟨userId, rfl⟩

/-- Every row is in the group of its user. -/
theorem group_mem_rowsByUser (rowMem : row ∈ rows) :
    rows.filter (·.userId = row.userId) ∈ rowsByUser rows := by
  apply List.mem_map.mpr
  exact ⟨row.userId, List.mem_eraseDups.mpr (List.mem_map_of_mem rowMem), rfl⟩

/-- The assignments of the groups, with identifiers from `nextId` on. -/
def planFrom : Uuid → List (List ChannelConversation) → List Assignment
  | _, [] => []
  | nextId, userRows :: groups =>
      match orderedByAge userRows with
      | [] => planFrom nextId groups
      | canonical :: later =>
          ((canonical :: later).zipIdx.map fun (row, i) => ⟨row, canonical.id, nextId + i⟩) ++
            planFrom (nextId + (canonical :: later).length) groups

/-- A conversation but for its time of update. -/
def ChannelConversation.identity (row : ChannelConversation) : ChannelConversation :=
  { row with updatedAt := 0 }

/-- The first loop only touches times of update. -/
theorem foldl_assignUser (groups : List (List ChannelConversation)) (db : Database)
    (assignments : List Assignment) : ∃ conversations nextId,
      groups.foldl assignUser (db, assignments) =
        ({ db with conversations := conversations, nextId := nextId },
          assignments ++ planFrom db.nextId groups) ∧
      conversations.map ChannelConversation.identity =
        db.conversations.map ChannelConversation.identity := by
  induction groups generalizing db assignments with
  | nil => exact ⟨db.conversations, db.nextId, by simp [planFrom], rfl⟩
  | cons userRows groups ih =>
      cases ordered : orderedByAge userRows with
      | nil =>
          simp only [List.foldl_cons, planFrom, assignUser, ordered]
          exact ih db assignments
      | cons canonical later =>
          simp only [List.foldl_cons, planFrom, assignUser, ordered]
          rcases ih _ _ with ⟨conversations, nextId, folded, same⟩
          refine ⟨conversations, nextId, ?_, ?_⟩
          · rw [folded, List.append_assoc]
          · rw [same]
            apply Table.map_update_of_keeps
            exact fun _ => rfl

theorem map_row_planFrom (nextId : Uuid) (groups : List (List ChannelConversation)) :
    (planFrom nextId groups).map (·.row) = groups.flatMap orderedByAge := by
  induction groups generalizing nextId with
  | nil => rfl
  | cons userRows groups ih =>
      rw [planFrom, List.flatMap_cons]
      split
      · rename_i ordered
        rw [ordered, ih, List.nil_append]
      · rename_i canonical later ordered
        rw [ordered, List.map_append, ih, List.map_map]
        congr 1
        exact List.zipIdx_map_fst 0 _

theorem map_channelId_planFrom (nextId : Uuid) (groups : List (List ChannelConversation)) :
    (planFrom nextId groups).map (·.channelId) =
      List.range' nextId (planFrom nextId groups).length := by
  induction groups generalizing nextId with
  | nil => rfl
  | cons userRows groups ih =>
      cases ordered : orderedByAge userRows with
      | nil =>
          simp only [planFrom, ordered]
          exact ih nextId
      | cons canonical later =>
          simp only [planFrom, ordered]
          have here : ((canonical :: later).zipIdx.map fun (row, i) =>
              (⟨row, canonical.id, nextId + i⟩ : Assignment)).map (·.channelId) =
                List.range' nextId (canonical :: later).length := by
            rw [List.map_map]
            have indices := List.zipIdx_map_snd 0 (canonical :: later)
            rw [← Nat.add_zero nextId, ← List.map_add_range', ← indices, List.map_map]
            apply List.map_congr_left
            rintro ⟨row, i⟩ _
            rfl
          rw [List.map_append, here, ih, List.length_append, List.length_map,
            List.length_zipIdx, List.range'_append_1]

/-- Every assignment points to the oldest conversation of the user. -/
theorem canonical_planFrom {nextId : Uuid} {groups : List (List ChannelConversation)}
    (isAssignment : assignment ∈ planFrom nextId groups) :
    ∃ userRows ∈ groups, assignment.row ∈ userRows ∧ ∃ canonical ∈ userRows,
      assignment.canonicalId = canonical.id ∧ ∀ other ∈ userRows,
        toLex (canonical.createdAt, canonical.id) ≤ toLex (other.createdAt, other.id) := by
  induction groups generalizing nextId with
  | nil => cases isAssignment
  | cons userRows groups ih =>
      rw [planFrom] at isAssignment
      split at isAssignment
      · rcases ih isAssignment with ⟨found, foundMem, isFound⟩
        exact ⟨found, List.mem_cons_of_mem _ foundMem, isFound⟩
      · rename_i canonical later ordered
        rcases List.mem_append.mp isAssignment with isHere | isLater
        · rcases List.mem_map.mp isHere with ⟨⟨row, i⟩, isIndexed, rfl⟩
          have rowMem : row ∈ orderedByAge userRows := by
            rw [ordered]
            exact List.fst_mem_of_mem_zipIdx isIndexed
          rcases head_orderedByAge ordered with ⟨canonicalMem, isOldest⟩
          exact ⟨userRows, List.mem_cons_self, mem_orderedByAge.mp rowMem, canonical, canonicalMem,
            rfl, isOldest⟩
        · rcases ih isLater with ⟨found, foundMem, isFound⟩
          exact ⟨found, List.mem_cons_of_mem _ foundMem, isFound⟩

/-- What the assignments of all conversations are. -/
structure Assigned (rows : List ChannelConversation) (assignments : List Assignment) : Prop where
  rows_perm : (assignments.map (·.row)).Perm rows
  channelIds : (assignments.map (·.channelId)).Nodup
  canonical : ∀ assignment ∈ assignments, ∃ canonical, Oldest rows canonical ∧
    canonical.userId = assignment.row.userId ∧ assignment.canonicalId = canonical.id

/-- The groups are the rows in another order. -/
theorem flatten_rowsByUser (distinct : rows.Nodup) : (rowsByUser rows).flatten.Perm rows := by
  rw [List.perm_ext_iff_of_nodup _ distinct]
  · intro row
    rw [List.mem_flatten]
    constructor
    · rintro ⟨userRows, isGroup, rowMem⟩
      rcases mem_rowsByUser isGroup with ⟨userId, rfl⟩
      exact List.mem_of_mem_filter rowMem
    · intro rowMem
      exact ⟨_, group_mem_rowsByUser rowMem, List.mem_filter.mpr ⟨rowMem, decide_eq_true rfl⟩⟩
  · rw [List.nodup_flatten]
    constructor
    · intro userRows isGroup
      rcases mem_rowsByUser isGroup with ⟨userId, rfl⟩
      exact distinct.filter _
    · rw [rowsByUser, List.pairwise_map]
      apply (Table.nodup_eraseDups (rows.map (·.userId))).imp
      intro user other differ row isUser isOther
      apply differ
      rw [← of_decide_eq_true (List.mem_filter.mp isUser).2]
      exact of_decide_eq_true (List.mem_filter.mp isOther).2

theorem assigned_planFrom (distinct : rows.Nodup) (nextId : Uuid) :
    Assigned rows (planFrom nextId (rowsByUser rows)) where
  rows_perm := by
    rw [map_row_planFrom]
    apply List.Perm.trans _ (flatten_rowsByUser distinct)
    rw [← List.flatMap_id]
    exact List.Perm.flatMap_left _ fun userRows _ => orderedByAge_perm userRows
  channelIds := by
    rw [map_channelId_planFrom]
    exact List.nodup_range'
  canonical := by
    intro assignment isAssignment
    rcases canonical_planFrom isAssignment with
      ⟨userRows, isGroup, rowMem, canonical, canonicalMem, id_eq, isOldest⟩
    rcases mem_rowsByUser isGroup with ⟨userId, rfl⟩
    rcases List.mem_filter.mp rowMem with ⟨_, ofUser⟩
    rcases List.mem_filter.mp canonicalMem with ⟨stored, canonicalUser⟩
    rw [decide_eq_true_eq] at ofUser canonicalUser
    refine ⟨canonical, ⟨stored, ?_⟩, canonicalUser.trans ofUser.symm, id_eq⟩
    intro other otherMem sameUser
    apply isOldest
    exact List.mem_filter.mpr ⟨otherMem, decide_eq_true (sameUser.trans canonicalUser)⟩

section Lookup

variable {assignments : List Assignment} {assignment other : Assignment}

theorem Assigned.row_mem (assigned : Assigned rows assignments)
    (isAssignment : assignment ∈ assignments) : assignment.row ∈ rows :=
  assigned.rows_perm.mem_iff.mp (List.mem_map_of_mem isAssignment)

theorem Assigned.exists_of_mem (assigned : Assigned rows assignments) (rowMem : row ∈ rows) :
    ∃ assignment ∈ assignments, assignment.row = row :=
  List.mem_map.mp (assigned.rows_perm.mem_iff.mpr rowMem)

/-- Every conversation has one assignment. -/
theorem Assigned.rowIds (assigned : Assigned rows assignments)
    (distinct : Table.UniqueOn (fun row => some row.id) rows) :
    Table.UniqueOn (fun assignment : Assignment => some assignment.row.id) assignments := by
  have perm := assigned.rows_perm.filterMap fun row => some row.id
  rw [List.filterMap_map] at perm
  exact perm.nodup_iff.mpr distinct

theorem Assigned.eq_of_rowId (assigned : Assigned rows assignments)
    (distinct : Table.UniqueOn (fun row => some row.id) rows)
    (isAssignment : assignment ∈ assignments) (isOther : other ∈ assignments)
    (same : assignment.row.id = other.row.id) : assignment = other :=
  (assigned.rowIds distinct).eq_of_mem isAssignment isOther (congrArg some same) rfl

/-- Two oldest conversations of a user are the same. -/
theorem Oldest.eq (distinct : Table.UniqueOn (fun row => some row.id) rows)
    {first second : ChannelConversation} (isFirst : Oldest rows first) (isSecond : Oldest rows second)
    (sameUser : first.userId = second.userId) : first = second := by
  have keys := le_antisymm (isFirst.2 second isSecond.1 sameUser.symm)
    (isSecond.2 first isFirst.1 sameUser)
  have ids : first.id = second.id := congrArg Prod.snd (toLex.injective keys)
  exact distinct.eq_of_mem isFirst.1 isSecond.1 (congrArg some ids) rfl

/-- The canonical conversation of a canonical conversation is itself. -/
theorem Assigned.canonical_canonical (assigned : Assigned rows assignments)
    (distinct : Table.UniqueOn (fun row => some row.id) rows)
    (isAssignment : assignment ∈ assignments) (isOther : other ∈ assignments)
    (isCanonical : other.row.id = assignment.canonicalId) :
    other.canonicalId = assignment.canonicalId := by
  rcases assigned.canonical assignment isAssignment with ⟨first, isFirst, firstUser, firstId⟩
  rcases assigned.canonical other isOther with ⟨second, isSecond, secondUser, secondId⟩
  have otherRow : other.row = first :=
    distinct.eq_of_mem (assigned.row_mem isOther) isFirst.1
      (congrArg some (isCanonical.trans firstId)) rfl
  rw [secondId, firstId]
  rw [otherRow] at secondUser
  rw [isSecond.eq distinct isFirst secondUser]

/-- The assignment of a conversation is found by its identifier. -/
theorem Assigned.find_eq (assigned : Assigned rows assignments)
    (distinct : Table.UniqueOn (fun row => some row.id) rows)
    (isAssignment : assignment ∈ assignments) :
    assignments.find? (·.row.id = assignment.row.id) = some assignment :=
  (assigned.rowIds distinct).find?_eq_some isAssignment

end Lookup

end Assignments

/-! ## Messages -/

section Messages

variable {assignments : List Assignment} {db : Database}

/-- A message after the loop. -/
def moved (assignments : List Assignment) (row : ChannelMessage) : ChannelMessage :=
  match assignments.find? (·.row.id = row.conversationId) with
  | some assignment => bindMessage row assignment row
  | none => row

/-- The deliveries of outbound messages, with identifiers from `nextId` on. -/
def deliveriesFrom (assignments : List Assignment) : Uuid → List ChannelMessage → List MessageDelivery
  | _, [] => []
  | nextId, row :: rest =>
      match assignments.find? (·.row.id = row.conversationId) with
      | some assignment =>
          if row.isOutbound then
            deliveryOf row assignment.channelId nextId :: deliveriesFrom assignments (nextId + 1) rest
          else deliveriesFrom assignments nextId rest
      | none => deliveriesFrom assignments nextId rest

theorem moved_id (row : ChannelMessage) : (moved assignments row).id = row.id := by
  unfold moved
  split <;> rfl

/-- Rewriting the first row that is left. -/
theorem update_first {done : List ChannelMessage} {row : ChannelMessage}
    {change : ChannelMessage → ChannelMessage}
    (distinct : ((done ++ row :: rest).map (·.id)).Nodup) :
    Table.update (·.id = row.id) change (done ++ row :: rest) = done ++ change row :: rest := by
  rw [List.map_append, List.map_cons, List.nodup_append, List.nodup_cons] at distinct
  rcases distinct with ⟨_, ⟨notLater, _⟩, apart⟩
  have unchanged : ∀ {part : List ChannelMessage}, row.id ∉ part.map (·.id) →
      Table.update (·.id = row.id) change part = part := by
    intro part absent
    apply Table.update_eq_self
    intro other otherMem
    apply decide_eq_false
    intro same
    exact absent (List.mem_map.mpr ⟨other, otherMem, same⟩)
  have before : row.id ∉ done.map (·.id) :=
    fun isDone => apart _ isDone _ List.mem_cons_self rfl
  rw [Table.update, List.map_append, List.map_cons, if_pos (decide_eq_true rfl)]
  have doneSame := unchanged before
  have restSame := unchanged notLater
  rw [Table.update] at doneSame restSame
  rw [doneSame, restSame]

/-- The loop rewrites every message in place and gives the outbound ones a delivery. -/
theorem foldlM_migrateMessage (rest done : List ChannelMessage) (db : Database)
    (deliveries : List MessageDelivery) (stored : db.messages = done ++ rest)
    (distinct : ((done ++ rest).map (·.id)).Nodup)
    (known : ∀ row ∈ rest, ∃ assignment ∈ assignments, assignment.row.id = row.conversationId) :
    ∃ nextId, rest.foldlM (migrateMessage assignments) (db, deliveries) =
      some ({ db with messages := done ++ rest.map (moved assignments), nextId := nextId },
        deliveries ++ deliveriesFrom assignments db.nextId rest) := by
  induction rest generalizing done db deliveries with
  | nil =>
      refine ⟨db.nextId, ?_⟩
      rw [List.map_nil, ← stored, deliveriesFrom, List.append_nil]
      rfl
  | cons row rest ih =>
      rcases known row List.mem_cons_self with ⟨assignment, assignmentMem, isAssignment⟩
      rcases find_eq : assignments.find? (·.row.id = row.conversationId) with _ | found
      · exact absurd (decide_eq_true isAssignment) (List.find?_eq_none.mp find_eq assignment assignmentMem)
      · have moved_eq : moved assignments row = bindMessage row found row := by
          rw [moved, find_eq]
        have nextDistinct : ((done ++ [moved assignments row] ++ rest).map (·.id)).Nodup := by
          simpa [moved_id] using distinct
        have later := fun other otherMem => known other (List.mem_cons_of_mem row otherMem)
        have rewritten : Table.update (·.id = row.id) (bindMessage row found) db.messages =
            done ++ [moved assignments row] ++ rest := by
          rw [stored, update_first distinct, moved_eq, List.append_assoc]
          rfl
        rw [List.foldlM_cons, migrateMessage, find_eq]
        simp only [Option.bind_eq_bind, Option.bind_some, deliveriesFrom, find_eq]
        cases row.isOutbound with
        | true =>
            rcases ih (done ++ [moved assignments row])
              { db with messages := done ++ [moved assignments row] ++ rest, nextId := db.nextId + 1 }
              (deliveries ++ [deliveryOf row found.channelId db.nextId]) rfl nextDistinct later with
                ⟨nextId, folded⟩
            refine ⟨nextId, ?_⟩
            simpa [rewritten] using folded
        | false =>
            rcases ih (done ++ [moved assignments row])
              { db with messages := done ++ [moved assignments row] ++ rest } deliveries rfl
              nextDistinct later with ⟨nextId, folded⟩
            refine ⟨nextId, ?_⟩
            simpa [rewritten] using folded

theorem mem_deliveriesFrom {nextId : Uuid} {delivery : MessageDelivery}
    (isDelivery : delivery ∈ deliveriesFrom assignments nextId rest) :
    ∃ row ∈ rest, row.isOutbound = true ∧ ∃ assignment,
      assignments.find? (·.row.id = row.conversationId) = some assignment ∧ ∃ id,
        delivery = deliveryOf row assignment.channelId id := by
  induction rest generalizing nextId with
  | nil => cases isDelivery
  | cons row rest ih =>
      have ofRest : ∀ {nextId}, delivery ∈ deliveriesFrom assignments nextId rest →
          ∃ other ∈ row :: rest, other.isOutbound = true ∧ ∃ assignment,
            assignments.find? (·.row.id = other.conversationId) = some assignment ∧ ∃ id,
              delivery = deliveryOf other assignment.channelId id := by
        intro nextId isLater
        rcases ih isLater with ⟨other, otherMem, isOther⟩
        exact ⟨other, List.mem_cons_of_mem row otherMem, isOther⟩
      rw [deliveriesFrom] at isDelivery
      split at isDelivery
      · rename_i assignment found
        split at isDelivery
        · rename_i outbound
          rcases List.mem_cons.mp isDelivery with rfl | isLater
          · exact ⟨row, List.mem_cons_self, outbound, assignment, found, nextId, rfl⟩
          · exact ofRest isLater
        · exact ofRest isDelivery
      · exact ofRest isDelivery

@[simp] theorem messageId_deliveryOf (row : ChannelMessage) (channelId id : Uuid) :
    (deliveryOf row channelId id).messageId = row.id :=
  rfl

/-- No delivery for a message that is not in the list. -/
theorem filter_deliveriesFrom_of_absent {id : Uuid} (absent : ∀ row ∈ rest, row.id ≠ id)
    (nextId : Uuid) :
    (deliveriesFrom assignments nextId rest).filter (·.messageId = id) = [] := by
  apply List.filter_eq_nil_iff.mpr
  intro delivery isDelivery isMessage
  rcases mem_deliveriesFrom isDelivery with ⟨row, rowMem, _, _, _, _, rfl⟩
  exact absent row rowMem (of_decide_eq_true isMessage)

/-- An outbound message has one delivery, an inbound message has none. -/
theorem filter_deliveriesFrom {row : ChannelMessage}
    (distinct : (rest.map (·.id)).Nodup) (rowMem : row ∈ rest)
    (found : assignments.find? (·.row.id = row.conversationId) = some assignment) (nextId : Uuid) :
    (row.isOutbound = true → ∃ id, (deliveriesFrom assignments nextId rest).filter
        (·.messageId = row.id) = [deliveryOf row assignment.channelId id]) ∧
      (row.isOutbound = false →
        (deliveriesFrom assignments nextId rest).filter (·.messageId = row.id) = []) := by
  induction rest generalizing nextId with
  | nil => cases rowMem
  | cons first rest ih =>
      rw [List.map_cons, List.nodup_cons] at distinct
      rcases List.mem_cons.mp rowMem with rfl | isLater
      · have absent : ∀ other ∈ rest, other.id ≠ row.id := by
          intro other otherMem same
          exact distinct.1 (List.mem_map.mpr ⟨other, otherMem, same⟩)
        rw [deliveriesFrom, found]
        cases row.isOutbound with
        | true =>
            constructor
            · intro _
              refine ⟨nextId, ?_⟩
              have later : (deliveriesFrom assignments (nextId + 1) rest).filter
                  (·.messageId = row.id) = [] :=
                filter_deliveriesFrom_of_absent absent (nextId + 1)
              simp [later]
            · rintro ⟨⟩
        | false =>
            constructor
            · rintro ⟨⟩
            · exact fun _ => filter_deliveriesFrom_of_absent absent nextId
      · have differs : first.id ≠ row.id := by
          intro same
          exact distinct.1 (List.mem_map.mpr ⟨row, isLater, same.symm⟩)
        have later := ih distinct.2 isLater
        rw [deliveriesFrom]
        split
        · split
          · simpa [differs] using later _
          · exact later _
        · exact later _

/-- A key of the deliveries that is one of the messages stays unique. -/
theorem uniqueOn_deliveriesFrom {key : ChannelMessage → Option (String × String)}
    {deliveryKey : MessageDelivery → Option (String × String)}
    (same : ∀ row channelId id, deliveryKey (deliveryOf row channelId id) = key row)
    (unique : Table.UniqueOn key rest) (nextId : Uuid) :
    Table.UniqueOn deliveryKey (deliveriesFrom assignments nextId rest) := by
  have sublist : ((deliveriesFrom assignments nextId rest).filterMap deliveryKey).Sublist
      (rest.filterMap key) := by
    clear unique
    induction rest generalizing nextId with
    | nil => exact List.Sublist.refl _
    | cons row rest ih =>
        have skips : ∀ nextId, ((deliveriesFrom assignments nextId rest).filterMap
            deliveryKey).Sublist ((row :: rest).filterMap key) := by
          intro nextId
          exact (ih nextId).trans ((List.sublist_cons_self row rest).filterMap key)
        rw [deliveriesFrom]
        split
        · split
          · rw [List.filterMap_cons, List.filterMap_cons, same]
            split
            · exact ih _
            · exact (ih _).cons_cons _
          · exact skips _
        · exact skips _
  exact unique.sublist sublist

end Messages

/-! ## Merging -/

/-- The references of messages, runs, calls and deliveries are closed. -/
structure Database.Closed (db : Database) : Prop where
  bindings : ∀ message ∈ db.messages, ∀ id, message.sourceBindingId = some id →
    ∃ channel ∈ db.channels, channel.id = id
  triggers : ∀ run ∈ db.runs, ∃ message ∈ db.messages, message.id = run.triggerMessageId
  calls : ∀ call ∈ db.toolCalls, ∃ run ∈ db.runs, run.id = call.agentRunId
  deliveries : ∀ delivery ∈ db.deliveries,
    (∃ message ∈ db.messages, message.id = delivery.messageId) ∧
      ∃ channel ∈ db.channels, channel.id = delivery.channelId

section Merging

variable {db : Database} {assignments : List Assignment}

/-- Deleting a conversation that nothing refers to deletes nothing else. -/
theorem deleteConversation_eq {id : Uuid} (closed : db.Closed)
    (noMessages : ∀ message ∈ db.messages, message.conversationId ≠ id)
    (noRuns : ∀ run ∈ db.runs, run.conversationId ≠ id)
    (noChannels : ∀ channel ∈ db.channels, channel.conversationId ≠ id) :
    db.deleteConversation id =
      { db with conversations := db.conversations.filter (·.id ≠ id) } := by
  have messages : db.messages.filter (·.conversationId ≠ id) = db.messages :=
    List.filter_eq_self.mpr fun message messageMem => decide_eq_true (noMessages message messageMem)
  have channels : db.channels.filter (·.conversationId ≠ id) = db.channels :=
    List.filter_eq_self.mpr fun channel channelMem => decide_eq_true (noChannels channel channelMem)
  have hasMessage : ∀ {messageId}, (∃ message ∈ db.messages, message.id = messageId) →
      (db.messages.any fun message => message.id = messageId) = true := by
    rintro messageId ⟨message, messageMem, isMessage⟩
    exact List.any_eq_true.mpr ⟨message, messageMem, decide_eq_true isMessage⟩
  have hasChannel : ∀ {channelId}, (∃ channel ∈ db.channels, channel.id = channelId) →
      (db.channels.any fun channel => channel.id = channelId) = true := by
    rintro channelId ⟨channel, channelMem, isChannel⟩
    exact List.any_eq_true.mpr ⟨channel, channelMem, decide_eq_true isChannel⟩
  have runs : (db.runs.filter fun run => run.conversationId ≠ id &&
      db.messages.any (·.id = run.triggerMessageId)) = db.runs := by
    apply List.filter_eq_self.mpr
    intro run runMem
    rw [hasMessage (closed.triggers run runMem), Bool.and_true]
    exact decide_eq_true (noRuns run runMem)
  have calls : (db.toolCalls.filter fun call => db.runs.any (·.id = call.agentRunId)) =
      db.toolCalls := by
    apply List.filter_eq_self.mpr
    intro call callMem
    rcases closed.calls call callMem with ⟨run, runMem, isRun⟩
    exact List.any_eq_true.mpr ⟨run, runMem, decide_eq_true isRun⟩
  have deliveries : (db.deliveries.filter fun delivery =>
      db.messages.any (·.id = delivery.messageId) && db.channels.any (·.id = delivery.channelId)) =
        db.deliveries := by
    apply List.filter_eq_self.mpr
    intro delivery deliveryMem
    rcases closed.deliveries delivery deliveryMem with ⟨message, channel⟩
    rw [hasMessage message, hasChannel channel]
    rfl
  have bindings : Table.update (fun message : ChannelMessage =>
      message.sourceBindingId.any fun channelId => !db.channels.any (·.id = channelId))
        (fun message => { message with sourceBindingId := none }) db.messages = db.messages := by
    apply Table.update_eq_self
    intro message messageMem
    cases binding : message.sourceBindingId with
    | none => rfl
    | some channelId =>
        rw [Option.any_some, hasChannel (closed.bindings message messageMem channelId binding)]
        rfl
  simp only [Database.deleteConversation, messages, channels, runs, calls, deliveries, bindings]

/-- Where a reference to a conversation points after merging. -/
def rerouted (assignments : List Assignment) (id : Uuid) : Uuid :=
  match assignments.find? (·.row.id = id) with
  | some assignment => assignment.canonicalId
  | none => id

/-- A conversation is canonical for itself, as far as the assignments go. -/
def isKept (assignments : List Assignment) (id : Uuid) : Bool :=
  assignments.all fun assignment =>
    assignment.row.id ≠ id || assignment.row.id = assignment.canonicalId

def AgentRun.reroute (assignments : List Assignment) (run : AgentRun) : AgentRun :=
  { run with conversationId := rerouted assignments run.conversationId }

def ConversationChannel.reroute (assignments : List Assignment) (channel : ConversationChannel) :
    ConversationChannel :=
  { channel with conversationId := rerouted assignments channel.conversationId }

/-- One step of rerouting, then the others. -/
theorem rerouted_cons {first : Assignment}
    (canonical : ∀ other ∈ assignments, other.row.id = first.canonicalId →
      other.canonicalId = first.canonicalId) (id : Uuid) :
    rerouted assignments (if id = first.row.id then first.canonicalId else id) =
      rerouted (first :: assignments) id := by
  by_cases isFirst : id = first.row.id
  · have found : (first :: assignments).find? (·.row.id = id) = some first := by
      rw [List.find?_cons, decide_eq_true isFirst.symm]
    rw [if_pos isFirst, rerouted, rerouted, found]
    cases later : assignments.find? (·.row.id = first.canonicalId) with
    | none => rfl
    | some other =>
        have sameId : other.row.id = first.canonicalId := by simpa using List.find?_some later
        exact canonical other (List.mem_of_find?_eq_some later) sameId
  · have skipped : (first :: assignments).find? (·.row.id = id) =
        assignments.find? (·.row.id = id) := by
      rw [List.find?_cons, decide_eq_false (Ne.symm isFirst)]
    rw [if_neg isFirst, rerouted, rerouted, skipped]

/-- The runs and the channels of one conversation are moved. -/
def emptied (db : Database) (assignment : Assignment) : Database :=
  { db with
    runs := Table.update (·.conversationId = assignment.row.id)
      (fun run => { run with conversationId := assignment.canonicalId }) db.runs
    channels := Table.update (·.conversationId = assignment.row.id)
      (fun channel => { channel with conversationId := assignment.canonicalId }) db.channels }

theorem closed_emptied (closed : db.Closed) (assignment : Assignment) :
    (emptied db assignment).Closed := by
  have channels : ∀ id, (∃ channel ∈ db.channels, channel.id = id) →
      ∃ channel ∈ (emptied db assignment).channels, channel.id = id := by
    rintro id ⟨channel, channelMem, rfl⟩
    refine ⟨_, Table.mem_update.mpr ⟨channel, channelMem, rfl⟩, ?_⟩
    split <;> rfl
  constructor
  · intro message messageMem id binding
    exact channels id (closed.bindings message messageMem id binding)
  · intro run runMem
    rcases Table.mem_update_cases runMem with ⟨old, oldMem, _, rfl⟩ | ⟨oldMem, _⟩
    · exact closed.triggers old oldMem
    · exact closed.triggers run oldMem
  · intro call callMem
    rcases closed.calls call callMem with ⟨run, runMem, isRun⟩
    refine ⟨_, Table.mem_update.mpr ⟨run, runMem, rfl⟩, ?_⟩
    split <;> exact isRun
  · intro delivery deliveryMem
    rcases closed.deliveries delivery deliveryMem with ⟨message, channel⟩
    exact ⟨message, channels delivery.channelId channel⟩

theorem mergeConversation_eq (closed : db.Closed)
    (differs : assignment.row.id ≠ assignment.canonicalId)
    (noMessages : ∀ message ∈ db.messages, message.conversationId ≠ assignment.row.id) :
    mergeConversation db assignment = { emptied db assignment with
      conversations := db.conversations.filter (·.id ≠ assignment.row.id) } := by
  rw [mergeConversation, if_neg differs]
  apply deleteConversation_eq (closed_emptied closed assignment)
  · exact noMessages
  · intro run runMem
    rcases Table.mem_update_cases runMem with ⟨old, _, _, rfl⟩ | ⟨_, notSelected⟩
    · exact differs.symm
    · exact of_decide_eq_false notSelected
  · intro channel channelMem
    rcases Table.mem_update_cases channelMem with ⟨old, _, _, rfl⟩ | ⟨_, notSelected⟩
    · exact differs.symm
    · exact of_decide_eq_false notSelected

/-- The last loop reroutes runs and channels and keeps the canonical conversations. -/
theorem foldl_mergeConversation (closed : db.Closed)
    (noMessages : ∀ message ∈ db.messages, ∀ assignment ∈ assignments,
      assignment.row.id ≠ assignment.canonicalId → message.conversationId ≠ assignment.row.id)
    (canonical : ∀ first ∈ assignments, ∀ other ∈ assignments, other.row.id = first.canonicalId →
      other.canonicalId = first.canonicalId) :
    assignments.foldl mergeConversation db = { db with
      runs := db.runs.map (AgentRun.reroute assignments)
      channels := db.channels.map (ConversationChannel.reroute assignments)
      conversations := db.conversations.filter (fun row => isKept assignments row.id) } := by
  induction assignments generalizing db with
  | nil =>
      have runs : db.runs.map (AgentRun.reroute []) = db.runs := List.map_id' db.runs
      have channels : db.channels.map (ConversationChannel.reroute []) = db.channels :=
        List.map_id' db.channels
      have conversations : (db.conversations.filter fun row => isKept [] row.id) = db.conversations :=
        List.filter_eq_self.mpr fun _ _ => rfl
      rw [runs, channels, conversations]
      rfl
  | cons first rest ih =>
      have laterCanonical := fun a aMem b bMem =>
        canonical a (List.mem_cons_of_mem first aMem) b (List.mem_cons_of_mem first bMem)
      have laterMessages := fun message messageMem a aMem =>
        noMessages message messageMem a (List.mem_cons_of_mem first aMem)
      have reroute := rerouted_cons fun other otherMem =>
        canonical first List.mem_cons_self other (List.mem_cons_of_mem first otherMem)
      rw [List.foldl_cons]
      by_cases isCanonical : first.row.id = first.canonicalId
      · have sameRoute : ∀ id, rerouted rest id = rerouted (first :: rest) id := by
          intro id
          rw [← reroute id]
          split
          · rename_i isFirst
            rw [isFirst, isCanonical]
          · rfl
        have runs : AgentRun.reroute rest = AgentRun.reroute (first :: rest) := by
          funext run
          rw [AgentRun.reroute, AgentRun.reroute, sameRoute]
        have channels : ConversationChannel.reroute rest =
            ConversationChannel.reroute (first :: rest) := by
          funext channel
          rw [ConversationChannel.reroute, ConversationChannel.reroute, sameRoute]
        have kept : isKept rest = isKept (first :: rest) := by
          funext id
          simp [isKept, isCanonical]
        rw [mergeConversation, if_pos isCanonical,
          ih closed laterMessages laterCanonical, runs, channels, kept]
      · have merged := mergeConversation_eq closed isCanonical fun message messageMem =>
          noMessages message messageMem first List.mem_cons_self isCanonical
        have mergedClosed := closed_emptied closed first
        rw [merged, ih]
        · have runs : (emptied db first).runs.map (AgentRun.reroute rest) =
              db.runs.map (AgentRun.reroute (first :: rest)) := by
            change (Table.update _ _ db.runs).map _ = _
            rw [Table.update, List.map_map]
            apply List.map_congr_left
            intro run _
            rw [AgentRun.reroute, ← reroute]
            by_cases isFirst : run.conversationId = first.row.id
            · simp [isFirst, AgentRun.reroute]
            · simp [isFirst, AgentRun.reroute]
          have channels : (emptied db first).channels.map (ConversationChannel.reroute rest) =
              db.channels.map (ConversationChannel.reroute (first :: rest)) := by
            change (Table.update _ _ db.channels).map _ = _
            rw [Table.update, List.map_map]
            apply List.map_congr_left
            intro channel _
            rw [ConversationChannel.reroute, ← reroute]
            by_cases isFirst : channel.conversationId = first.row.id
            · simp [isFirst, ConversationChannel.reroute]
            · simp [isFirst, ConversationChannel.reroute]
          have conversations : (db.conversations.filter (·.id ≠ first.row.id)).filter
              (fun row => isKept rest row.id) =
                db.conversations.filter (fun row => isKept (first :: rest) row.id) := by
            rw [List.filter_filter]
            apply List.filter_congr
            intro row _
            simp [isKept, isCanonical, Bool.and_comm, eq_comm]
          rw [runs, channels, conversations]
          rfl
        · exact ⟨mergedClosed.bindings, mergedClosed.triggers, mergedClosed.calls,
            mergedClosed.deliveries⟩
        · exact laterMessages
        · exact laterCanonical

end Merging

end DotBackend.Migrations
