import DotBackend.Migrations.Loops

/-!
# The upgrade loses nothing

At the constraints of revision 0004 no statement of the upgrade fails. Every former
conversation is a channel of the oldest one of its user, and messages, runs, tool calls and
deliveries are read off the tables before the upgrade.
-/

namespace DotBackend.Migrations

open Data

variable {assignment : Assignment} {conversations : List ChannelConversation}

/-! ## What is kept -/

/-- The channel that a former conversation becomes. -/
def channelFor (canonical channelOf : Uuid → Uuid) (row : ChannelConversation) :
    ConversationChannel where
  id := channelOf row.id
  conversationId := canonical row.id
  provider := row.provider
  externalId := row.externalId
  service := row.service
  status := row.status
  createdAt := row.createdAt
  updatedAt := row.updatedAt

/-- A message in the canonical conversation, bound to the channel it came through. -/
def messageIn (canonical channelOf : Uuid → Uuid) (row : ChannelMessage) : Message where
  id := row.id
  conversationId := canonical row.conversationId
  userId := row.userId
  sourceChannel := row.provider
  sourceExternalId := if row.isOutbound then none else row.externalId
  sourceBindingId := some (channelOf row.conversationId)
  idempotencyKey := row.idempotencyKey
  direction := row.direction
  status := if row.isOutbound then "completed" else "received"
  content := row.content
  rawPayload := row.rawPayload
  createdAt := row.createdAt
  updatedAt := row.updatedAt

/-- The direct conversations of a user. -/
def CanonicalDatabase.direct (db : CanonicalDatabase) (userId : Uuid) : List Conversation :=
  db.conversations.filter fun conversation =>
    conversation.kind = "direct" && conversation.userId = userId

/-- The deliveries of a message. -/
def CanonicalDatabase.deliveriesOf (db : CanonicalDatabase) (messageId : Uuid) :
    List MessageDelivery :=
  db.deliveries.filter (·.messageId = messageId)

/-- The tables before and after the upgrade, given the canonical conversation and the channel
of every former conversation. -/
structure KeepsAll (before : Database) (after : CanonicalDatabase) (canonical channelOf : Uuid → Uuid) :
    Prop where
  conversations : ∀ row ∈ before.conversations, ∃ oldest, Oldest before.conversations oldest ∧
    oldest.userId = row.userId ∧ canonical row.id = oldest.id ∧ ∃ updatedAt,
      after.direct row.userId = [{ oldest.toConversation with updatedAt := updatedAt }]
  noOthers : ∀ conversation ∈ after.conversations,
    ∃ row ∈ before.conversations, conversation.id = canonical row.id
  channels : after.channels.Perm (before.conversations.map (channelFor canonical channelOf))
  channelIds : (after.channels.map (·.id)).Nodup
  messages : after.messages = before.messages.map (messageIn canonical channelOf)
  runs : after.runs = before.runs.map fun run =>
    { run with conversationId := canonical run.conversationId }
  toolCalls : after.toolCalls = before.toolCalls
  outbound : ∀ row ∈ before.messages, row.isOutbound = true → ∃ id,
    after.deliveriesOf row.id = [deliveryOf row (channelOf row.conversationId) id]
  inbound : ∀ row ∈ before.messages, row.isOutbound = false → after.deliveriesOf row.id = []

/-- The unique constraints that the upgrade creates. -/
structure CanonicalDatabase.Constrained (db : CanonicalDatabase) : Prop where
  directUsers : Table.UniqueOn Conversation.directUser db.conversations
  providerKeys : Table.UniqueOn ConversationChannel.providerKey db.channels
  externalIds : Table.UniqueOn Message.externalKey db.messages
  idempotencyKeys : Table.UniqueOn Message.idempotency db.messages
  deliveryExternalIds : Table.UniqueOn MessageDelivery.externalKey db.deliveries
  deliveryIdempotencyKeys : Table.UniqueOn MessageDelivery.idempotency db.deliveries

/-! ## References after the loops -/

section Plan

variable {db : Database} {assignments : List Assignment}

/-- The channel of a former conversation. -/
def channelIdOf (assignments : List Assignment) (id : Uuid) : Uuid :=
  match assignments.find? (·.row.id = id) with
  | some assignment => assignment.channelId
  | none => id

theorem rerouted_of_mem (assigned : Assigned db.conversations assignments) (valid : db.Valid)
    (isAssignment : assignment ∈ assignments) :
    rerouted assignments assignment.row.id = assignment.canonicalId := by
  rw [rerouted, assigned.find_eq valid.conversationIds isAssignment]

theorem channelIdOf_of_mem (assigned : Assigned db.conversations assignments) (valid : db.Valid)
    (isAssignment : assignment ∈ assignments) :
    channelIdOf assignments assignment.row.id = assignment.channelId := by
  rw [channelIdOf, assigned.find_eq valid.conversationIds isAssignment]

/-- The assignment of the conversation of a message. -/
theorem exists_assignment (assigned : Assigned db.conversations assignments) (valid : db.Valid)
    {row : ChannelMessage} (rowMem : row ∈ db.messages) :
    ∃ assignment ∈ assignments, assignment.row.id = row.conversationId := by
  rcases valid.messageConversations row rowMem with ⟨conversation, conversationMem, isConversation⟩
  rcases assigned.exists_of_mem conversationMem with ⟨assignment, isAssignment, rfl⟩
  exact ⟨assignment, isAssignment, isConversation⟩

theorem moved_eq (assigned : Assigned db.conversations assignments) (valid : db.Valid)
    {row : ChannelMessage} (isAssignment : assignment ∈ assignments)
    (isConversation : assignment.row.id = row.conversationId) :
    moved assignments row = bindMessage row assignment row := by
  rw [moved, ← isConversation, assigned.find_eq valid.conversationIds isAssignment]

theorem toMessage_moved (assigned : Assigned db.conversations assignments) (valid : db.Valid)
    {row : ChannelMessage} (rowMem : row ∈ db.messages) :
    (moved assignments row).toMessage =
      messageIn (rerouted assignments) (channelIdOf assignments) row := by
  rcases exists_assignment assigned valid rowMem with ⟨assignment, isAssignment, isConversation⟩
  rw [moved_eq assigned valid isAssignment isConversation, messageIn, ← isConversation,
    rerouted_of_mem assigned valid isAssignment, channelIdOf_of_mem assigned valid isAssignment]
  rfl

theorem reroute_channel (assigned : Assigned db.conversations assignments) (valid : db.Valid)
    (isAssignment : assignment ∈ assignments) :
    assignment.channel.reroute assignments =
      channelFor (rerouted assignments) (channelIdOf assignments) assignment.row := by
  rw [channelFor, channelIdOf_of_mem assigned valid isAssignment]
  rfl

/-- A conversation is kept when it is the oldest one of its user. -/
theorem isKept_iff (assigned : Assigned db.conversations assignments) (valid : db.Valid)
    {row : ChannelConversation} (rowMem : row ∈ db.conversations) :
    isKept assignments row.id = true ↔ Oldest db.conversations row := by
  rcases assigned.exists_of_mem rowMem with ⟨assignment, isAssignment, rfl⟩
  rcases assigned.canonical assignment isAssignment with ⟨oldest, isOldest, sameUser, id_eq⟩
  constructor
  · intro kept
    have canonical : assignment.row.id = assignment.canonicalId := by
      simpa using List.all_eq_true.mp kept assignment isAssignment
    have same : assignment.row = oldest :=
      valid.conversationIds.eq_of_mem rowMem isOldest.1 (congrArg some (canonical.trans id_eq)) rfl
    rw [same]
    exact isOldest
  · intro rowOldest
    have same : oldest = assignment.row := isOldest.eq valid.conversationIds rowOldest sameUser
    apply List.all_eq_true.mpr
    intro other isOther
    by_cases sameId : other.row.id = assignment.row.id
    · have isSame := assigned.eq_of_rowId valid.conversationIds isOther isAssignment sameId
      rw [isSame, id_eq, same]
      simp
    · simp [sameId]

end Plan

/-! ## The kept conversations -/

section Conversations

variable {db : Database} {assignments : List Assignment} {conversations : List ChannelConversation}

theorem exists_before (same : conversations.map ChannelConversation.identity =
    db.conversations.map ChannelConversation.identity) {row : ChannelConversation}
    (rowMem : row ∈ conversations) : ∃ old ∈ db.conversations, old.identity = row.identity := by
  apply List.mem_map.mp
  rw [← same]
  exact List.mem_map_of_mem rowMem

theorem exists_after (same : conversations.map ChannelConversation.identity =
    db.conversations.map ChannelConversation.identity) {row : ChannelConversation}
    (rowMem : row ∈ db.conversations) : ∃ later ∈ conversations, later.identity = row.identity := by
  apply List.mem_map.mp
  rw [same]
  exact List.mem_map_of_mem rowMem

theorem id_of_identity {row other : ChannelConversation} (same : row.identity = other.identity) :
    row.id = other.id := by
  have ids := congrArg ChannelConversation.id same
  exact ids

theorem userId_of_identity {row other : ChannelConversation} (same : row.identity = other.identity) :
    row.userId = other.userId := by
  have users := congrArg ChannelConversation.userId same
  exact users

theorem conversationIds_after (valid : db.Valid)
    (same : conversations.map ChannelConversation.identity =
      db.conversations.map ChannelConversation.identity) : (conversations.map (·.id)).Nodup := by
  have ids : conversations.map (·.id) = db.conversations.map (·.id) := by
    have mapped := congrArg (List.map ChannelConversation.id) same
    rw [List.map_map, List.map_map] at mapped
    exact mapped
  rw [ids]
  have distinct := valid.conversationIds
  rw [Table.UniqueOn] at distinct
  rw [← List.filterMap_eq_map]
  exact distinct

/-- What is kept of a user's conversations is the oldest one. -/
theorem kept_iff (assigned : Assigned db.conversations assignments) (valid : db.Valid)
    (same : conversations.map ChannelConversation.identity =
      db.conversations.map ChannelConversation.identity) {row : ChannelConversation} :
    row ∈ conversations.filter (fun row => isKept assignments row.id) ↔
      row ∈ conversations ∧ ∃ old, Oldest db.conversations old ∧ old.identity = row.identity := by
  rw [List.mem_filter]
  apply and_congr_right
  intro rowMem
  rcases exists_before same rowMem with ⟨old, oldMem, isOld⟩
  rw [← id_of_identity isOld, isKept_iff assigned valid oldMem]
  constructor
  · intro oldest
    exact ⟨old, oldest, isOld⟩
  · rintro ⟨oldest, isOldest, identity⟩
    have sameId : oldest.id = old.id := id_of_identity (identity.trans isOld.symm)
    rw [← valid.conversationIds.eq_of_mem isOldest.1 oldMem (congrArg some sameId) rfl]
    exact isOldest

/-- Two kept conversations of a user are the same. -/
theorem kept_eq (assigned : Assigned db.conversations assignments) (valid : db.Valid)
    (same : conversations.map ChannelConversation.identity =
      db.conversations.map ChannelConversation.identity) {first second : ChannelConversation}
    (isFirst : first ∈ conversations.filter (fun row => isKept assignments row.id))
    (isSecond : second ∈ conversations.filter (fun row => isKept assignments row.id))
    (sameUser : first.userId = second.userId) : first.id = second.id := by
  rcases (kept_iff assigned valid same).mp isFirst with ⟨_, one, isOne, oneIdentity⟩
  rcases (kept_iff assigned valid same).mp isSecond with ⟨_, two, isTwo, twoIdentity⟩
  have users : one.userId = two.userId := by
    rw [userId_of_identity oneIdentity, userId_of_identity twoIdentity, sameUser]
  rw [← id_of_identity oneIdentity, ← id_of_identity twoIdentity,
    isOne.eq valid.conversationIds isTwo users]

theorem uniqueOn_directUser (assigned : Assigned db.conversations assignments) (valid : db.Valid)
    (same : conversations.map ChannelConversation.identity =
      db.conversations.map ChannelConversation.identity) :
    Table.UniqueOn Conversation.directUser ((conversations.filter fun row =>
      isKept assignments row.id).map ChannelConversation.toConversation) := by
  rw [Table.uniqueOn_iff_pairwise, List.pairwise_map]
  have apart := conversationIds_after valid same
  rw [List.Nodup, List.pairwise_map] at apart
  apply (apart.filter fun row => isKept assignments row.id).imp_of_mem
  intro first second firstMem secondMem differ userId isFirst isSecond
  apply differ
  apply kept_eq assigned valid same firstMem secondMem
  exact (Option.some.inj isFirst).trans (Option.some.inj isSecond).symm

/-- The direct conversation of a user is the oldest one. -/
theorem direct_eq (assigned : Assigned db.conversations assignments) (valid : db.Valid)
    (same : conversations.map ChannelConversation.identity =
      db.conversations.map ChannelConversation.identity) {oldest : ChannelConversation}
    (isOldest : Oldest db.conversations oldest) : ∃ updatedAt,
      (((conversations.filter fun row => isKept assignments row.id).map
        ChannelConversation.toConversation).filter fun conversation =>
          conversation.kind = "direct" && conversation.userId = oldest.userId) =
            [{ oldest.toConversation with updatedAt := updatedAt }] := by
  rcases exists_after same isOldest.1 with ⟨later, laterMem, identity⟩
  refine ⟨later.updatedAt, ?_⟩
  have isLater : later.toConversation =
      { oldest.toConversation with updatedAt := later.updatedAt } := by
    rcases later with ⟨⟩
    cases identity
    rfl
  have laterKept := (kept_iff assigned valid same).mpr ⟨laterMem, oldest, isOldest, identity.symm⟩
  have users : later.userId = oldest.userId := userId_of_identity identity
  have distinct := conversationIds_after valid same
  rw [List.filter_map, ← isLater, ← List.map_singleton]
  congr 1
  rw [← List.perm_singleton, List.perm_ext_iff_of_nodup
    ((distinct.of_map _).filter _ |>.filter _) (List.nodup_singleton later)]
  intro row
  rw [List.mem_filter, List.mem_singleton]
  constructor
  · rintro ⟨rowKept, isDirect⟩
    rw [Function.comp_apply, Bool.and_eq_true] at isDirect
    have ofUser : row.userId = oldest.userId := of_decide_eq_true isDirect.2
    have sameId := kept_eq assigned valid same rowKept laterKept (ofUser.trans users.symm)
    exact List.inj_on_of_nodup_map distinct (List.mem_of_mem_filter rowKept) laterMem sameId
  · rintro rfl
    exact ⟨laterKept, by simp [ChannelConversation.toConversation, users]⟩

end Conversations

/-! ## The upgrade -/

section Upgrade

variable {db : Database} {assignments : List Assignment}

/-- The tables before the last loop refer only to what they hold. -/
theorem closed_delivered (assigned : Assigned db.conversations assignments) (valid : db.Valid)
    (conversations : List ChannelConversation) (start nextId : Uuid) :
    ({ db with
        conversations := conversations
        channels := assignments.map Assignment.channel
        messages := db.messages.map (moved assignments)
        deliveries := deliveriesFrom assignments start db.messages
        nextId := nextId } : Database).Closed := by
  have hasChannel : ∀ assignment ∈ assignments,
      ∃ channel ∈ assignments.map Assignment.channel, channel.id = assignment.channelId := by
    intro assignment isAssignment
    exact ⟨assignment.channel, List.mem_map_of_mem isAssignment, rfl⟩
  have hasMessage : ∀ row ∈ db.messages,
      ∃ message ∈ db.messages.map (moved assignments), message.id = row.id := by
    intro row rowMem
    exact ⟨moved assignments row, List.mem_map_of_mem rowMem, moved_id row⟩
  constructor
  · intro message messageMem id binding
    rcases List.mem_map.mp messageMem with ⟨row, rowMem, rfl⟩
    rcases exists_assignment assigned valid rowMem with ⟨assignment, isAssignment, isConversation⟩
    rw [moved_eq assigned valid isAssignment isConversation] at binding
    rw [← Option.some.inj binding]
    exact hasChannel assignment isAssignment
  · intro run runMem
    rcases valid.triggers run runMem with ⟨message, messageMem, isTrigger⟩
    rw [← isTrigger]
    exact hasMessage message messageMem
  · exact valid.calls
  · intro delivery deliveryMem
    rcases mem_deliveriesFrom deliveryMem with ⟨row, rowMem, _, assignment, found, id, rfl⟩
    exact ⟨hasMessage row rowMem, hasChannel assignment (List.mem_of_find?_eq_some found)⟩

theorem messageIds_nodup (valid : db.Valid) : (db.messages.map (·.id)).Nodup := by
  have ids := valid.messageIds
  rw [Table.UniqueOn] at ids
  rw [← List.filterMap_eq_map]
  exact ids

/-- No message is left in a conversation that is not canonical. -/
theorem conversationId_moved_ne (assigned : Assigned db.conversations assignments)
    (valid : db.Valid) {message : ChannelMessage}
    (messageMem : message ∈ db.messages.map (moved assignments))
    (isAssignment : assignment ∈ assignments)
    (differs : assignment.row.id ≠ assignment.canonicalId) :
    message.conversationId ≠ assignment.row.id := by
  rcases List.mem_map.mp messageMem with ⟨row, rowMem, rfl⟩
  rcases exists_assignment assigned valid rowMem with ⟨own, isOwn, isConversation⟩
  rw [moved_eq assigned valid isOwn isConversation]
  intro sameId
  have canonical := assigned.canonical_canonical valid.conversationIds isOwn isAssignment
    (Eq.symm sameId)
  exact differs (Eq.trans (Eq.symm sameId) canonical.symm)

/-- The channels have the keys of the conversations. -/
theorem uniqueOn_providerKey (assigned : Assigned db.conversations assignments) (valid : db.Valid) :
    Table.UniqueOn ConversationChannel.providerKey (assignments.map Assignment.channel) := by
  have perm := assigned.rows_perm.filterMap fun row => some (row.provider, row.externalId)
  rw [Table.UniqueOn, List.filterMap_map]
  rw [List.filterMap_map] at perm
  exact perm.nodup_iff.mpr valid.conversationKeys

/-- Message keys that are those of revision 0004, or gone. -/
theorem uniqueOn_messageIn {canonical channelOf : Uuid → Uuid}
    {key : ChannelMessage → Option (String × String)} {newKey : Message → Option (String × String)}
    (unique : Table.UniqueOn key db.messages)
    (keeps : ∀ row, newKey (messageIn canonical channelOf row) = key row ∨
      newKey (messageIn canonical channelOf row) = none) :
    Table.UniqueOn newKey (db.messages.map (messageIn canonical channelOf)) := by
  rw [Table.uniqueOn_iff_pairwise] at unique ⊢
  rw [List.pairwise_map]
  have had : ∀ row value, newKey (messageIn canonical channelOf row) = some value →
      key row = some value := by
    intro row value hasKey
    rcases keeps row with same | gone
    · exact same.symm.trans hasKey
    · cases gone.symm.trans hasKey
  apply unique.imp
  intro first second apart value firstKey secondKey
  exact apart value (had first value firstKey) (had second value secondKey)

theorem externalKey_messageIn (canonical channelOf : Uuid → Uuid) (row : ChannelMessage) :
    (messageIn canonical channelOf row).externalKey =
        row.externalId.map (fun externalId => (row.provider, externalId)) ∨
      (messageIn canonical channelOf row).externalKey = none := by
  rw [Message.externalKey, messageIn]
  cases row.isOutbound with
  | true => exact Or.inr rfl
  | false => exact Or.inl rfl

/-- The tables that the upgrade leaves. -/
def upgraded (db : Database) (conversations : List ChannelConversation)
    (assignments : List Assignment) (nextId : Uuid) : CanonicalDatabase where
  conversations := (conversations.filter fun row => isKept assignments row.id).map
    ChannelConversation.toConversation
  channels := assignments.map fun assignment =>
    channelFor (rerouted assignments) (channelIdOf assignments) assignment.row
  messages := db.messages.map (messageIn (rerouted assignments) (channelIdOf assignments))
  deliveries := deliveriesFrom assignments nextId db.messages
  runs := db.runs.map (AgentRun.reroute assignments)
  toolCalls := db.toolCalls

theorem constrained_upgraded (assigned : Assigned db.conversations assignments) (valid : db.Valid)
    (same : conversations.map ChannelConversation.identity =
      db.conversations.map ChannelConversation.identity) (nextId : Uuid) :
    (upgraded db conversations assignments nextId).Constrained where
  directUsers := uniqueOn_directUser assigned valid same
  providerKeys := by
    have unique := uniqueOn_providerKey assigned valid
    rw [Table.UniqueOn, List.filterMap_map] at unique
    rw [Table.UniqueOn, upgraded, List.filterMap_map]
    exact unique
  externalIds := uniqueOn_messageIn valid.messageExternalIds (externalKey_messageIn _ _)
  idempotencyKeys := uniqueOn_messageIn valid.messageKeys fun _ => Or.inl rfl
  deliveryExternalIds :=
    uniqueOn_deliveriesFrom (fun _ _ _ => rfl) valid.messageExternalIds nextId
  deliveryIdempotencyKeys := uniqueOn_deliveriesFrom (fun _ _ _ => rfl) valid.messageKeys nextId

/-- The new constraints hold, so the last statements do not fail. -/
theorem constrain_eq (assigned : Assigned db.conversations assignments) (valid : db.Valid)
    (same : conversations.map ChannelConversation.identity =
      db.conversations.map ChannelConversation.identity) (start nextId : Uuid) :
    ({ db with
        conversations := conversations.filter fun row => isKept assignments row.id
        channels := (assignments.map Assignment.channel).map (ConversationChannel.reroute assignments)
        messages := db.messages.map (moved assignments)
        deliveries := deliveriesFrom assignments start db.messages
        runs := db.runs.map (AgentRun.reroute assignments)
        nextId := nextId } : Database).constrain =
      some (upgraded db conversations assignments start) := by
  have constrained := constrained_upgraded assigned valid same start
  have messages : (db.messages.map (moved assignments)).map ChannelMessage.toMessage =
      (upgraded db conversations assignments start).messages := by
    rw [List.map_map]
    exact List.map_congr_left fun row rowMem => toMessage_moved assigned valid rowMem
  have channels : (assignments.map Assignment.channel).map (ConversationChannel.reroute assignments) =
      (upgraded db conversations assignments start).channels := by
    rw [List.map_map]
    exact List.map_congr_left fun assignment isAssignment =>
      reroute_channel assigned valid isAssignment
  have direct : Table.UniqueOn Conversation.directUser
      ((conversations.filter fun row => isKept assignments row.id).map
        ChannelConversation.toConversation) := constrained.directUsers
  rw [Database.constrain]
  simp only [messages, channels]
  simp only [guard, direct, constrained.externalIds, constrained.idempotencyKeys, if_true]
  rfl

/-- No statement fails, and the tables are those read off before. -/
theorem upgrade_eq (valid : db.Valid) : ∃ conversations assignments nextId,
    Assigned db.conversations assignments ∧
    conversations.map ChannelConversation.identity =
      db.conversations.map ChannelConversation.identity ∧
    upgrade db = some (upgraded db conversations assignments nextId) := by
  have distinct : db.conversations.Nodup := by
    have ids := conversationIds_after valid rfl
    exact ids.of_map _
  have assigned := assigned_planFrom distinct db.nextId
  rcases foldl_assignUser (rowsByUser db.conversations) db [] with
    ⟨conversations, nextId, folded, same⟩
  rw [List.nil_append] at folded
  generalize planFrom db.nextId (rowsByUser db.conversations) = assignments at assigned folded
  have inserted : Database.insertChannels
      { db with conversations := conversations, nextId := nextId }
      (assignments.map Assignment.channel) = some { db with
        conversations := conversations, nextId := nextId
        channels := assignments.map Assignment.channel } := by
    simp [Database.insertChannels, valid.noChannels, uniqueOn_providerKey assigned valid]
  rcases foldlM_migrateMessage db.messages [] { db with
      conversations := conversations, nextId := nextId
      channels := assignments.map Assignment.channel } [] rfl (messageIds_nodup valid)
      (fun row rowMem => exists_assignment assigned valid rowMem) with ⟨lastId, migrated⟩
  have externalKeys : Table.UniqueOn MessageDelivery.externalKey
      (deliveriesFrom assignments nextId db.messages) :=
    uniqueOn_deliveriesFrom (fun _ _ _ => rfl) valid.messageExternalIds nextId
  have keys : Table.UniqueOn MessageDelivery.idempotency
      (deliveriesFrom assignments nextId db.messages) :=
    uniqueOn_deliveriesFrom (fun _ _ _ => rfl) valid.messageKeys nextId
  have delivered : Database.insertDeliveries { db with
        conversations := conversations
        channels := assignments.map Assignment.channel
        messages := db.messages.map (moved assignments), nextId := lastId }
      (deliveriesFrom assignments nextId db.messages) = some { db with
        conversations := conversations
        channels := assignments.map Assignment.channel
        messages := db.messages.map (moved assignments)
        deliveries := deliveriesFrom assignments nextId db.messages, nextId := lastId } := by
    simp [Database.insertDeliveries, valid.noDeliveries, externalKeys, keys]
  have merged := foldl_mergeConversation
    (closed_delivered assigned valid conversations nextId lastId)
    (fun message messageMem assignment isAssignment differs =>
      conversationId_moved_ne assigned valid messageMem isAssignment differs)
    (fun first firstMem other otherMem isCanonical =>
      assigned.canonical_canonical valid.conversationIds firstMem otherMem isCanonical)
  refine ⟨conversations, assignments, nextId, assigned, same, ?_⟩
  rw [upgrade, folded]
  simp only [inserted, Option.bind_eq_bind, Option.bind_some]
  rw [migrated]
  simp only [List.nil_append, Option.bind_some]
  rw [delivered, Option.bind_some, merged]
  exact constrain_eq assigned valid same nextId lastId

/-- One oldest conversation for each user with a conversation. -/
theorem id_mem_upgraded (assigned : Assigned db.conversations assignments) (valid : db.Valid)
    (same : conversations.map ChannelConversation.identity =
      db.conversations.map ChannelConversation.identity) {nextId : Uuid} {conversation : Conversation}
    (isConversation : conversation ∈ (upgraded db conversations assignments nextId).conversations) :
    ∃ row ∈ db.conversations, conversation.id = rerouted assignments row.id := by
  rcases List.mem_map.mp isConversation with ⟨later, laterMem, rfl⟩
  rcases (kept_iff assigned valid same).mp laterMem with ⟨_, oldest, isOldest, identity⟩
  rcases assigned.exists_of_mem isOldest.1 with ⟨assignment, isAssignment, rfl⟩
  rcases assigned.canonical assignment isAssignment with ⟨first, isFirst, sameUser, id_eq⟩
  refine ⟨assignment.row, isOldest.1, ?_⟩
  rw [rerouted_of_mem assigned valid isAssignment, id_eq,
    isFirst.eq valid.conversationIds isOldest sameUser]
  exact (id_of_identity identity).symm

theorem keepsAll_upgraded (assigned : Assigned db.conversations assignments) (valid : db.Valid)
    (same : conversations.map ChannelConversation.identity =
      db.conversations.map ChannelConversation.identity) (nextId : Uuid) :
    KeepsAll db (upgraded db conversations assignments nextId) (rerouted assignments)
      (channelIdOf assignments) where
  conversations := by
    intro row rowMem
    rcases assigned.exists_of_mem rowMem with ⟨assignment, isAssignment, rfl⟩
    rcases assigned.canonical assignment isAssignment with ⟨oldest, isOldest, sameUser, id_eq⟩
    rcases direct_eq assigned valid same isOldest with ⟨updatedAt, direct⟩
    refine ⟨oldest, isOldest, sameUser, ?_, updatedAt, ?_⟩
    · rw [rerouted_of_mem assigned valid isAssignment, id_eq]
    · rw [← sameUser]
      exact direct
  noOthers := fun _ isConversation => id_mem_upgraded assigned valid same isConversation
  channels := by
    have perm := assigned.rows_perm.map
      (channelFor (rerouted assignments) (channelIdOf assignments))
    rw [List.map_map] at perm
    exact perm
  channelIds := by
    have ids : (upgraded db conversations assignments nextId).channels.map (·.id) =
        assignments.map (·.channelId) := by
      rw [upgraded, List.map_map]
      exact List.map_congr_left fun _ isAssignment => channelIdOf_of_mem assigned valid isAssignment
    rw [ids]
    exact assigned.channelIds
  messages := rfl
  runs := rfl
  toolCalls := rfl
  outbound := by
    intro row rowMem isOutbound
    rcases exists_assignment assigned valid rowMem with ⟨assignment, isAssignment, isConversation⟩
    have found := assigned.find_eq valid.conversationIds isAssignment
    rw [isConversation] at found
    rw [← isConversation, channelIdOf_of_mem assigned valid isAssignment]
    exact (filter_deliveriesFrom (messageIds_nodup valid) rowMem found nextId).1 isOutbound
  inbound := by
    intro row rowMem isInbound
    rcases exists_assignment assigned valid rowMem with ⟨assignment, isAssignment, isConversation⟩
    have found := assigned.find_eq valid.conversationIds isAssignment
    rw [isConversation] at found
    exact (filter_deliveriesFrom (messageIds_nodup valid) rowMem found nextId).2 isInbound

/-- From every state of revision 0004 the upgrade succeeds, keeps everything and ends under the
new constraints. -/
theorem upgrade_loses_nothing (valid : db.Valid) : ∃ after canonical channelOf,
    upgrade db = some after ∧ KeepsAll db after canonical channelOf ∧ after.Constrained := by
  rcases upgrade_eq valid with ⟨conversations, assignments, nextId, assigned, same, upgraded_eq⟩
  exact ⟨upgraded db conversations assignments nextId, rerouted assignments, channelIdOf assignments,
    upgraded_eq, keepsAll_upgraded assigned valid same nextId,
    constrained_upgraded assigned valid same nextId⟩

end Upgrade

/-- A user with a conversation at each of two providers, and an outbound message with a run in
the later one. -/
def twoProviders : Database where
  conversations :=
    [⟨2, 9, "telegram", "tg-9", none, "active", 20, 25⟩,
      ⟨1, 9, "linq", "chat-9", some "iMessage", "closed", 10, 12⟩]
  channels := []
  messages :=
    [⟨11, 2, 9, "telegram", some "m-1", none, "inbound", "received", "Hello", Json.null, none, none,
        none, 21, 21, none⟩,
      ⟨12, 2, 9, "telegram", none, some "reply-11", "outbound", "queued", "Hi", Json.null, some 23,
        none, none, 22, 23, none⟩]
  deliveries := []
  runs := [⟨31, 2, 9, 11⟩]
  toolCalls := [⟨41, 31⟩]
  nextId := 100

theorem valid_twoProviders : twoProviders.Valid where
  conversationIds := by decide
  conversationKeys := by decide
  messageIds := by decide
  messageExternalIds := by decide
  messageKeys := by decide
  messageConversations := by decide
  runConversations := by decide
  triggers := by decide
  calls := by decide
  noChannels := rfl
  noDeliveries := rfl

/-- Both conversations of the user become channels of the older one. -/
theorem upgrade_twoProviders : twoProviders.Valid ∧ ∃ after canonical channelOf,
    upgrade twoProviders = some after ∧ KeepsAll twoProviders after canonical channelOf ∧
      after.Constrained :=
  ⟨valid_twoProviders, upgrade_loses_nothing valid_twoProviders⟩

/-- The outbound message is completed and its delivery waits. -/
example : (upgrade twoProviders).map (fun after =>
    (after.conversations.map (·.id), after.runs.map (·.conversationId),
      after.deliveries.map fun delivery => (delivery.messageId, delivery.status))) =
    some ([1], [1], [(12, "pending")]) := by
  decide

end DotBackend.Migrations
