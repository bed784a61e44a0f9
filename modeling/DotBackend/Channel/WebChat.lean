import DotBackend.Agents.Service

/-!
# Web chat

A web client sends a message under an id of its own; repeating the id returns the reply
that was stored. The lookups of the earlier reply, the earlier message and the earlier
turn are keyed by that id alone.
-/

namespace DotBackend.Channel

open Data Agents

/-- `GROUP_MENTION_PATTERN` after a character that is no word character, or at the start:
an optional `@`, a name of the agent and the end of a word. -/
def mentionsAt (unicode : Unicode) (text : List Char) : Bool :=
  ["dot", "benji"].any fun name =>
    [text, if text.head? = some '@' then text.tail else text].any fun rest =>
      match Text.afterPhrase name.toList none rest with
      | some (_, after) => after.head?.all fun c => !Text.isWordChar unicode c
      | none => false

/-- `group_message_addresses_benji`. -/
def groupMessageAddressesBenji (unicode : Unicode) (text : List Char) : Bool :=
  mentionsAt unicode text || text.tails.any fun suffix =>
    match suffix with
    | c :: rest => !Text.isWordChar unicode c && mentionsAt unicode rest
    | [] => false

/-- `get_conversation_for_member`. -/
def getConversationForMember (db : ChatDb) (conversationId userId : Uuid) :
    Option Conversation :=
  db.conversations.find? fun conversation =>
    conversation.id = conversationId ∧ conversation.isActive ∧
      (db.members.any fun member =>
        member.conversationId = conversation.id ∧ member.userId = some userId ∧
          member.status = .active)

/-- The conversation that the user may write to. -/
def authorizedConversation (db : ChatDb) (userId conversationId : Uuid) :
    Except TurnError Conversation :=
  match db.conversation? conversationId with
  | none => .error .conversationNotFound
  | some conversation =>
      if conversation.kind = .direct then
        if conversation.userId = userId then .ok conversation else .error .conversationNotFound
      else
        match getConversationForMember db conversationId userId with
        | some conversation => .ok conversation
        | none => .error .conversationNotFound

/-- The web channel of a conversation. -/
def webChannel (db : ChatDb) (conversationId : Uuid) : Except TurnError ConversationChannel :=
  match db.channels.find? fun channel =>
      channel.conversationId = conversationId ∧ channel.provider = "web" with
  | some channel => .ok channel
  | none => .error .webChannelNotFound

/-- The key under which the reply to a client message is stored. -/
def replyKey (clientMessageId : Uuid) : String :=
  "benji:web:" ++ String.ofList (uuidText clientMessageId) ++ ":reply"

/-- The lookup of an earlier reply. -/
def existingReply (db : ChatDb) (clientMessageId : Uuid) : Option Message :=
  db.messages.find? fun message =>
    message.sourceChannel = "web" ∧ message.idempotencyKey = some (replyKey clientMessageId)

/-- The lookup of an earlier inbound message. -/
def existingInbound (db : ChatDb) (clientMessageId : Uuid) : Option Message :=
  db.messages.find? fun message =>
    message.sourceChannel = "web" ∧
      message.sourceExternalId = some (String.ofList (uuidText clientMessageId))

/-- `ORDER BY response_ordinal`. -/
def Message.beforeInGroup (a b : Message) : Bool :=
  match a.responseOrdinal, b.responseOrdinal with
  | some i, some j => i ≤ j
  | none, some _ => false
  | _, none => true

/-- `_load_response_group`. -/
def loadResponseGroup (db : ChatDb) (first : Message) : List Message :=
  match first.responseGroupId with
  | none => [first]
  | some group =>
      Table.orderBy Message.beforeInGroup
        (db.messages.filter fun message => message.responseGroupId = some group)

/-- What one call reads from outside the database. -/
structure WebInputs where
  inboundId : Uuid
  now : Instant
  /-- `should_respond` of the participation decision. -/
  participation : Except TurnError Bool
  wake : WakeInputs
  onboarding : Except TurnError OnboardingResult

structure WebChatTurn where
  conversation : Conversation
  assistantMessages : List Message

/-- The inbound message of a call. -/
def newInbound (inputs : WebInputs) (userId : Uuid) (conversation : Conversation)
    (channel : ConversationChannel) (clientMessageId : Uuid) (content : String) : Message where
  id := inputs.inboundId
  conversationId := conversation.id
  userId := userId
  senderUserId := some userId
  sourceBindingId := some channel.id
  sourceChannel := "web"
  sourceExternalId := some (String.ofList (uuidText clientMessageId))
  idempotencyKey := none
  responseGroupId := none
  responseOrdinal := none
  direction := .inbound
  status := .received
  content := String.ofList (Text.strip content.toList)
  rawPayload := [("client_message_id", .str (String.ofList (uuidText clientMessageId)))]
  createdAt := inputs.now

/-- The inbound message of the client id, stored unless one is there. -/
def storeInbound (inputs : WebInputs) (userId : Uuid) (conversation : Conversation)
    (channel : ConversationChannel) (clientMessageId : Uuid) (content : String) (db : ChatDb) :
    Except TurnError (ChatDb × Message) :=
  match existingInbound db clientMessageId with
  | some inbound => .ok (db, inbound)
  | none => do
      let inbound := newInbound inputs userId conversation channel clientMessageId content
      let db ← db.insertMessage inbound
      return (db, inbound)

/-- Whether the conversation has another inbound message. -/
def hasPriorInbound (messages : List Message) (conversationId inboundId : Uuid) : Bool :=
  messages.any fun message =>
    message.conversationId = conversationId ∧ message.direction = .inbound ∧
      message.id ≠ inboundId

/-- Whether the agent answers: always in a direct conversation, in a group when it is
forced to or decides to. -/
def shouldAnswer (unicode : Unicode) (inputs : WebInputs) (messages : List Message)
    (conversation : Conversation) (inboundId : Uuid) (content : String) :
    Except TurnError Bool :=
  if conversation.kind = .direct then .ok true
  else if !hasPriorInbound messages conversation.id inboundId ||
      conversation.responseMode = .always ||
      groupMessageAddressesBenji unicode content.toList then .ok true
  else if conversation.responseMode = .auto then inputs.participation
  else .ok false

/-- The wake of the agent for a web message. -/
def webWake (userId : Uuid) (conversation : Conversation) (channel : ConversationChannel)
    (inboundId clientMessageId : Uuid) : Wake where
  conversationId := conversation.id
  userId := userId
  triggerMessageId := some inboundId
  purpose := .conversation
  wakeType := "user_message"
  sourceChannel := "web"
  sourceBindingId := some channel.id
  idempotencyKey := replyKey clientMessageId
  requiredAppUrl := none

/-- The turn runs the agent itself; before a user is onboarded, a direct conversation
runs the onboarding. -/
def usesAgent (user : User) (conversation : Conversation) : Bool :=
  user.onboarded || conversation.kind = .group

/-- The turn that answers a web message. -/
def runWebTurn (unicode : Unicode) (inputs : WebInputs) (user : User)
    (conversation : Conversation) (wake : Wake) (db : ChatDb) :
    Except TurnError (ChatDb × PersistedTurn) :=
  if usesAgent user conversation then runAgentWake unicode wake inputs.wake db
  else runOnboardingTurn wake inputs.wake inputs.onboarding db

/-- The stored messages of the replies of a turn. -/
def assistantMessages (db : ChatDb) : List PersistedReply → Except TurnError (List Message)
  | [] => .ok []
  | reply :: rest =>
      match db.message? reply.messageId with
      | none => .error .replyNotFound
      | some message => do
          let messages ← assistantMessages db rest
          return message :: messages

/-- The part of `send_web_chat_message` behind the lookup of an earlier reply. -/
def answerWebMessage (unicode : Unicode) (inputs : WebInputs) (user : User)
    (conversation : Conversation) (channel : ConversationChannel) (clientMessageId : Uuid)
    (content : String) (db : ChatDb) : Except TurnError (ChatDb × WebChatTurn) := do
  let (db, inbound) ← storeInbound inputs user.id conversation channel clientMessageId content db
  let answers ← shouldAnswer unicode inputs db.messages conversation inbound.id content
  if answers then
    let wake := webWake user.id conversation channel inbound.id clientMessageId
    let (db, turn) ← runWebTurn unicode inputs user conversation wake db
    let messages ← assistantMessages db turn.replies
    return (db, ⟨conversation, messages⟩)
  else return (db, ⟨conversation, []⟩)

/-- `send_web_chat_message`. -/
def sendWebChatMessage (unicode : Unicode) (inputs : WebInputs) (user : User)
    (conversationId clientMessageId : Uuid) (content : String) (db : ChatDb) :
    Except TurnError (ChatDb × WebChatTurn) := do
  let conversation ← authorizedConversation db user.id conversationId
  let channel ← webChannel db conversation.id
  match existingReply db clientMessageId with
  | some reply => return (db, ⟨conversation, loadResponseGroup db reply⟩)
  | none => answerWebMessage unicode inputs user conversation channel clientMessageId content db

end DotBackend.Channel
