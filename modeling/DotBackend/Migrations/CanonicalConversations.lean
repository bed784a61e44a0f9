import DotBackend.Data.Number
import DotBackend.Data.Table
import Mathlib.Data.Prod.Lex

/-!
# The migration to canonical conversations

Until revision 0004 a conversation belongs to one provider. The upgrade keeps the oldest
conversation of every user, makes all of them channels of it, binds the messages to the
channels, and gives each outbound message a delivery. The statements are the loops of the
upgrade, table by table; the columns that it neither reads nor writes are left out.
-/

namespace DotBackend.Migrations

open Data

/-! ## Tables -/

/-- A row of `channel_conversations`. -/
structure ChannelConversation where
  id : Uuid
  userId : Uuid
  provider : String
  externalId : String
  service : Option String
  status : String
  createdAt : Instant
  updatedAt : Instant
  deriving DecidableEq

/-- A row of `channel_messages` with the new column `source_binding_id`. -/
structure ChannelMessage where
  id : Uuid
  conversationId : Uuid
  userId : Uuid
  provider : String
  externalId : Option String
  idempotencyKey : Option String
  direction : String
  status : String
  content : String
  rawPayload : Json
  sentAt : Option Instant
  deliveredAt : Option Instant
  readAt : Option Instant
  createdAt : Instant
  updatedAt : Instant
  sourceBindingId : Option Uuid
  deriving DecidableEq

structure ConversationChannel where
  id : Uuid
  conversationId : Uuid
  provider : String
  externalId : String
  service : Option String
  status : String
  createdAt : Instant
  updatedAt : Instant
  deriving DecidableEq

structure MessageDelivery where
  id : Uuid
  messageId : Uuid
  channelId : Uuid
  provider : String
  externalId : Option String
  idempotencyKey : Option String
  status : String
  rawPayload : Json
  sentAt : Option Instant
  deliveredAt : Option Instant
  readAt : Option Instant
  createdAt : Instant
  updatedAt : Instant
  deriving DecidableEq

structure AgentRun where
  id : Uuid
  conversationId : Uuid
  userId : Uuid
  triggerMessageId : Uuid
  deriving DecidableEq

structure AgentToolCall where
  id : Uuid
  agentRunId : Uuid
  deriving DecidableEq

/-- The tables during the upgrade; `nextId` stands for the random identifiers. -/
structure Database where
  conversations : List ChannelConversation
  channels : List ConversationChannel
  messages : List ChannelMessage
  deliveries : List MessageDelivery
  runs : List AgentRun
  toolCalls : List AgentToolCall
  nextId : Uuid
  deriving DecidableEq

/-- A row of `conversations` after the upgrade. -/
structure Conversation where
  id : Uuid
  userId : Uuid
  kind : String
  status : String
  createdAt : Instant
  updatedAt : Instant
  deriving DecidableEq

/-- A row of `messages` after the upgrade. -/
structure Message where
  id : Uuid
  conversationId : Uuid
  userId : Uuid
  sourceChannel : String
  sourceExternalId : Option String
  sourceBindingId : Option Uuid
  idempotencyKey : Option String
  direction : String
  status : String
  content : String
  rawPayload : Json
  createdAt : Instant
  updatedAt : Instant
  deriving DecidableEq

/-- The tables after the upgrade. -/
structure CanonicalDatabase where
  conversations : List Conversation
  channels : List ConversationChannel
  messages : List Message
  deliveries : List MessageDelivery
  runs : List AgentRun
  toolCalls : List AgentToolCall
  deriving DecidableEq

/-! ## Statements -/

/-- `DELETE` of a conversation: its messages, runs and channels go with it, and what refers to
those; a message whose channel is gone loses its binding. -/
def Database.deleteConversation (db : Database) (id : Uuid) : Database :=
  let messages := db.messages.filter (·.conversationId ≠ id)
  let channels := db.channels.filter (·.conversationId ≠ id)
  let runs := db.runs.filter fun run =>
    run.conversationId ≠ id && messages.any (·.id = run.triggerMessageId)
  { db with
    conversations := db.conversations.filter (·.id ≠ id)
    channels := channels
    messages := Table.update
      (fun message => message.sourceBindingId.any fun channelId => !channels.any (·.id = channelId))
      (fun message => { message with sourceBindingId := none }) messages
    deliveries := db.deliveries.filter fun delivery =>
      messages.any (·.id = delivery.messageId) && channels.any (·.id = delivery.channelId)
    runs := runs
    toolCalls := db.toolCalls.filter fun call => runs.any (·.id = call.agentRunId) }

/-- `uq_conversation_channels_provider_id`. -/
def ConversationChannel.providerKey (channel : ConversationChannel) : Option (String × String) :=
  some (channel.provider, channel.externalId)

/-- `uq_message_deliveries_provider_id`. -/
def MessageDelivery.externalKey (delivery : MessageDelivery) : Option (String × String) :=
  delivery.externalId.map fun externalId => (delivery.provider, externalId)

/-- `uq_message_deliveries_provider_idempotency`. -/
def MessageDelivery.idempotency (delivery : MessageDelivery) : Option (String × String) :=
  delivery.idempotencyKey.map fun key => (delivery.provider, key)

/-- `INSERT` of channels. -/
def Database.insertChannels (db : Database) (rows : List ConversationChannel) : Option Database := do
  guard (Table.UniqueOn ConversationChannel.providerKey (db.channels ++ rows))
  pure { db with channels := db.channels ++ rows }

/-- `INSERT` of deliveries. -/
def Database.insertDeliveries (db : Database) (rows : List MessageDelivery) : Option Database := do
  guard (Table.UniqueOn MessageDelivery.externalKey (db.deliveries ++ rows))
  guard (Table.UniqueOn MessageDelivery.idempotency (db.deliveries ++ rows))
  pure { db with deliveries := db.deliveries ++ rows }

/-! ## Conversations -/

/-- `rows_by_user`: the groups in the order of their first rows. -/
def rowsByUser (rows : List ChannelConversation) : List (List ChannelConversation) :=
  (rows.map (·.userId)).eraseDups.map fun userId => rows.filter (·.userId = userId)

/-- `sorted(user_rows, key=lambda row: (row["created_at"], str(row["id"])))`. -/
def orderedByAge (rows : List ChannelConversation) : List ChannelConversation :=
  Table.orderBy (fun a b => toLex (a.createdAt, a.id) ≤ toLex (b.createdAt, b.id)) rows

/-- What the upgrade remembers of a conversation. -/
structure Assignment where
  row : ChannelConversation
  canonicalId : Uuid
  channelId : Uuid

/-- The conversation as a channel of itself. -/
def Assignment.channel (assignment : Assignment) : ConversationChannel where
  id := assignment.channelId
  conversationId := assignment.row.id
  provider := assignment.row.provider
  externalId := assignment.row.externalId
  service := assignment.row.service
  status := assignment.row.status
  createdAt := assignment.row.createdAt
  updatedAt := assignment.row.updatedAt

/-- The rows of one user: the oldest is canonical and as fresh as the latest. -/
def assignUser (state : Database × List Assignment) (userRows : List ChannelConversation) :
    Database × List Assignment :=
  match orderedByAge userRows with
  | [] => state
  | canonical :: later =>
      let latestUpdatedAt := later.foldl (fun latest row => max latest row.updatedAt)
        canonical.updatedAt
      ({ state.1 with
          conversations := Table.update (·.id = canonical.id)
            (fun row => { row with updatedAt := latestUpdatedAt }) state.1.conversations
          nextId := state.1.nextId + (canonical :: later).length },
        state.2 ++ (canonical :: later).zipIdx.map fun (row, i) =>
          ⟨row, canonical.id, state.1.nextId + i⟩)

/-! ## Messages -/

def allowedDeliveryStatuses : List String :=
  ["pending", "sent", "delivered", "read", "failed"]

/-- The delivery of an outbound message. -/
def deliveryOf (row : ChannelMessage) (channelId id : Uuid) : MessageDelivery where
  id := id
  messageId := row.id
  channelId := channelId
  provider := row.provider
  externalId := row.externalId
  idempotencyKey := row.idempotencyKey
  status := if row.status ∈ allowedDeliveryStatuses then row.status else "pending"
  rawPayload := row.rawPayload
  sentAt := row.sentAt
  deliveredAt := row.deliveredAt
  readAt := row.readAt
  createdAt := row.createdAt
  updatedAt := row.updatedAt

def ChannelMessage.isOutbound (row : ChannelMessage) : Bool :=
  row.direction = "outbound"

/-- The two statements for a message: it is bound to its channel, and its status is now its own
and no more that of a delivery. -/
def bindMessage (row : ChannelMessage) (assignment : Assignment) (current : ChannelMessage) :
    ChannelMessage :=
  { current with
    conversationId := assignment.canonicalId
    sourceBindingId := some assignment.channelId
    externalId := if row.isOutbound then none else current.externalId
    status := if row.isOutbound then "completed" else "received" }

/-- One round of the loop over the messages. -/
def migrateMessage (assignments : List Assignment) (state : Database × List MessageDelivery)
    (row : ChannelMessage) : Option (Database × List MessageDelivery) := do
  let assignment ← assignments.find? (·.row.id = row.conversationId)
  let bound := { state.1 with
    messages := Table.update (·.id = row.id) (bindMessage row assignment) state.1.messages }
  if row.isOutbound then
    pure ({ bound with nextId := bound.nextId + 1 },
      state.2 ++ [deliveryOf row assignment.channelId bound.nextId])
  else pure (bound, state.2)

/-! ## Merging -/

/-- One round of the last loop: a conversation that is not canonical is emptied and deleted. -/
def mergeConversation (db : Database) (assignment : Assignment) : Database :=
  if assignment.row.id = assignment.canonicalId then db
  else
    let emptied := { db with
      runs := Table.update (·.conversationId = assignment.row.id)
        (fun run => { run with conversationId := assignment.canonicalId }) db.runs
      channels := Table.update (·.conversationId = assignment.row.id)
        (fun channel => { channel with conversationId := assignment.canonicalId }) db.channels }
    emptied.deleteConversation assignment.row.id

/-- The columns of a conversation that stay, all active and direct. -/
def ChannelConversation.toConversation (row : ChannelConversation) : Conversation where
  id := row.id
  userId := row.userId
  kind := "direct"
  status := "active"
  createdAt := row.createdAt
  updatedAt := row.updatedAt

/-- The columns of a message that stay. -/
def ChannelMessage.toMessage (row : ChannelMessage) : Message where
  id := row.id
  conversationId := row.conversationId
  userId := row.userId
  sourceChannel := row.provider
  sourceExternalId := row.externalId
  sourceBindingId := row.sourceBindingId
  idempotencyKey := row.idempotencyKey
  direction := row.direction
  status := row.status
  content := row.content
  rawPayload := row.rawPayload
  createdAt := row.createdAt
  updatedAt := row.updatedAt

/-- `uq_conversations_direct_user`. -/
def Conversation.directUser (conversation : Conversation) : Option Uuid :=
  if conversation.kind = "direct" then some conversation.userId else none

/-- `uq_messages_source_external_id`. -/
def Message.externalKey (message : Message) : Option (String × String) :=
  message.sourceExternalId.map fun externalId => (message.sourceChannel, externalId)

/-- `uq_messages_source_idempotency`. -/
def Message.idempotency (message : Message) : Option (String × String) :=
  message.idempotencyKey.map fun key => (message.sourceChannel, key)

/-- Columns are dropped and the new unique constraints are created. -/
def Database.constrain (db : Database) : Option CanonicalDatabase := do
  let conversations := db.conversations.map ChannelConversation.toConversation
  let messages := db.messages.map ChannelMessage.toMessage
  guard (Table.UniqueOn Conversation.directUser conversations)
  guard (Table.UniqueOn Message.externalKey messages)
  guard (Table.UniqueOn Message.idempotency messages)
  pure { conversations, channels := db.channels, messages, deliveries := db.deliveries
         runs := db.runs, toolCalls := db.toolCalls }

/-- `upgrade`; without a value it has raised and the transaction is rolled back. -/
def upgrade (db : Database) : Option CanonicalDatabase := do
  let (assigned, assignments) := (rowsByUser db.conversations).foldl assignUser (db, [])
  let bound ← assigned.insertChannels (assignments.map Assignment.channel)
  let (moved, deliveries) ← bound.messages.foldlM (migrateMessage assignments) (bound, [])
  let delivered ← moved.insertDeliveries deliveries
  (assignments.foldl mergeConversation delivered).constrain

end DotBackend.Migrations
