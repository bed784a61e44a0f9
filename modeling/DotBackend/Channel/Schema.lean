import DotBackend.Data.Number
import DotBackend.Data.Table

/-!
# Conversations and messages

The rows of the conversation tables. Columns that no modelled function reads are left
out.
-/

namespace DotBackend.Channel

open Data

inductive ConversationKind
  | direct | group
  deriving DecidableEq

inductive ConversationMemberRole
  | owner | member
  deriving DecidableEq

/-- The status of a member; `other` is a text that only a provider uses. -/
inductive ConversationMemberStatus
  | active | left | removed
  | other (text : String)
  deriving DecidableEq

inductive GroupResponseMode
  | auto | mentions | always
  deriving DecidableEq

/-- The values of `group_owner_source` that the service writes. -/
inductive GroupOwnerSource
  | explicit | firstInvoker | transferred | unclaimed | legacyInferred
  deriving DecidableEq

inductive MessageDirection
  | inbound | outbound
  deriving DecidableEq

inductive MessageStatus
  | received | completed
  deriving DecidableEq

structure User where
  id : Uuid
  displayName : Option String
  /-- `onboarding_status` is `complete`. -/
  onboarded : Bool
  deriving DecidableEq

structure Conversation where
  id : Uuid
  userId : Uuid
  kind : ConversationKind
  title : Option String
  responseMode : GroupResponseMode
  groupOwnerSource : Option GroupOwnerSource
  /-- `status` is `active`. -/
  isActive : Bool
  deriving DecidableEq

structure ConversationMember where
  id : Uuid
  conversationId : Uuid
  userId : Option Uuid
  externalHandle : String
  externalId : Option String
  displayName : Option String
  service : Option String
  role : ConversationMemberRole
  status : ConversationMemberStatus
  joinedAt : Instant
  leftAt : Option Instant
  createdAt : Instant
  deriving DecidableEq

/-- The keys that the table of members declares. -/
structure MembersValid (members : List ConversationMember) : Prop where
  id : Table.UniqueOn (fun member => some member.id) members
  handle : Table.UniqueOn (fun member => some (member.conversationId, member.externalHandle)) members
  user : Table.UniqueOn (fun member => member.userId.map fun id => (member.conversationId, id))
    members

instance (members : List ConversationMember) : Decidable (MembersValid members) :=
  decidable_of_iff
    (Table.UniqueOn (fun member => some member.id) members ∧
      Table.UniqueOn (fun member => some (member.conversationId, member.externalHandle)) members ∧
      Table.UniqueOn (fun member => member.userId.map fun id => (member.conversationId, id)) members)
    ⟨fun ⟨id, handle, user⟩ => ⟨id, handle, user⟩,
      fun valid => ⟨valid.id, valid.handle, valid.user⟩⟩

structure ConversationInvite where
  id : Uuid
  conversationId : Uuid
  tokenHash : String
  maxUses : Int
  useCount : Int
  expiresAt : Instant
  revokedAt : Option Instant
  deriving DecidableEq

structure ConversationChannel where
  id : Uuid
  conversationId : Uuid
  provider : String
  externalId : String
  service : Option String
  /-- `status` is `active`. -/
  isActive : Bool
  deriving DecidableEq

structure Message where
  id : Uuid
  conversationId : Uuid
  userId : Uuid
  senderUserId : Option Uuid
  sourceBindingId : Option Uuid
  sourceChannel : String
  sourceExternalId : Option String
  idempotencyKey : Option String
  responseGroupId : Option Uuid
  responseOrdinal : Option Int
  direction : MessageDirection
  status : MessageStatus
  content : String
  rawPayload : List (String × Json)
  createdAt : Instant
  deriving DecidableEq

/-- The keys that the table of messages declares. -/
structure MessagesValid (messages : List Message) : Prop where
  id : Table.UniqueOn (fun message => some message.id) messages
  source : Table.UniqueOn
    (fun message => message.sourceExternalId.map fun id => (message.sourceChannel, id)) messages
  idempotency : Table.UniqueOn
    (fun message => message.idempotencyKey.map fun key => (message.sourceChannel, key)) messages

instance (messages : List Message) : Decidable (MessagesValid messages) :=
  decidable_of_iff
    (Table.UniqueOn (fun message => some message.id) messages ∧
      Table.UniqueOn
        (fun message => message.sourceExternalId.map fun id => (message.sourceChannel, id))
        messages ∧
      Table.UniqueOn
        (fun message => message.idempotencyKey.map fun key => (message.sourceChannel, key))
        messages)
    ⟨fun ⟨id, source, idempotency⟩ => ⟨id, source, idempotency⟩,
      fun valid => ⟨valid.id, valid.source, valid.idempotency⟩⟩

end DotBackend.Channel
