import DotBackend.Agents.TextStyle
import DotBackend.Channel.Schema
import DotBackend.Data.Result

/-!
# Agent turns

One wake of the agent: a turn that was persisted under the same key is returned as it
is, otherwise the model runs and its messages are stored as bubbles. The model and the
tools are outside; what a run returned, the clock and the random identifiers are inputs.
-/

namespace DotBackend.Agents

open Data Channel

/-- The trigger of one run of the agent. -/
structure AgentRun where
  id : Uuid
  conversationId : Uuid
  userId : Uuid
  triggerMessageId : Option Uuid
  deriving DecidableEq

/-- The tables that conversations and agent turns work on. -/
structure ChatDb where
  users : List User
  conversations : List Conversation
  members : List ConversationMember
  channels : List ConversationChannel
  agentRuns : List AgentRun
  messages : List Message
  messages_valid : MessagesValid messages

/-- The exceptions of a turn. -/
inductive TurnError
  | agentRowsGone
  | onboardingRowsGone
  | emptyTurn
  | emptyOnboardingTurn
  | conversationNotFound
  | webChannelNotFound
  | replyNotFound
  /-- A unique constraint of the database. -/
  | integrity
  /-- Whatever the model, the tools or a guard raised. -/
  | raised (message : String)
  deriving DecidableEq

def TurnError.message : TurnError → String
  | .agentRowsGone => "Agent conversation or user no longer exists"
  | .onboardingRowsGone => "Onboarding conversation or user no longer exists"
  | .emptyTurn => "Agent returned an empty plain-text turn"
  | .emptyOnboardingTurn => "Onboarding model returned an empty assistant turn"
  | .conversationNotFound => "Dot conversation was not found"
  | .webChannelNotFound => "Web channel was not found"
  | .replyNotFound => "Persisted web reply was not found"
  | .integrity => "IntegrityError"
  | .raised message => message

namespace ChatDb

/-- `session.get(Message, id)`. -/
def message? (db : ChatDb) (id : Uuid) : Option Message :=
  db.messages.find? fun message => message.id = id

def conversation? (db : ChatDb) (id : Uuid) : Option Conversation :=
  db.conversations.find? fun conversation => conversation.id = id

def user? (db : ChatDb) (id : Uuid) : Option User :=
  db.users.find? fun user => user.id = id

/-- The insertion of a message, which fails when it breaks a key. -/
def insertMessage (db : ChatDb) (message : Message) : Except TurnError ChatDb :=
  if valid : MessagesValid (db.messages ++ [message]) then
    .ok { db with messages := db.messages ++ [message], messages_valid := valid }
  else .error .integrity

def insertMessages (db : ChatDb) : List Message → Except TurnError ChatDb
  | [] => .ok db
  | message :: rest => do
      let db ← db.insertMessage message
      db.insertMessages rest

def insertRun (db : ChatDb) (run : AgentRun) : ChatDb :=
  { db with agentRuns := db.agentRuns ++ [run] }

theorem message?_of_mem {db : ChatDb} {message : Message} (stored : message ∈ db.messages) :
    db.message? message.id = some message :=
  db.messages_valid.id.find?_eq_some stored

theorem insertMessage_eq_ok {db after : ChatDb} {message : Message}
    (inserted : db.insertMessage message = .ok after) :
    after.messages = db.messages ++ [message] ∧ after.agentRuns = db.agentRuns := by
  unfold insertMessage at inserted
  split at inserted
  · cases inserted
    exact ⟨rfl, rfl⟩
  · cases inserted

theorem insertMessages_eq_ok {messages : List Message} {db after : ChatDb}
    (inserted : db.insertMessages messages = .ok after) :
    after.messages = db.messages ++ messages ∧ after.agentRuns = db.agentRuns := by
  induction messages generalizing db with
  | nil =>
      cases inserted
      simp
  | cons message rest ih =>
      rw [insertMessages, bind_eq_ok] at inserted
      obtain ⟨middle, first, later⟩ := inserted
      obtain ⟨messages_eq, runs_eq⟩ := insertMessage_eq_ok first
      obtain ⟨rest_eq, restRuns_eq⟩ := ih later
      rw [rest_eq, restRuns_eq, messages_eq, runs_eq]
      simp

end ChatDb

/-! ## Persisted turns -/

structure PersistedReply where
  messageId : Uuid
  text : String
  deriving DecidableEq

structure PersistedReaction where
  messageId : Uuid
  targetExternalId : String
  reactionType : String
  deriving DecidableEq

structure PersistedTurn where
  replies : List PersistedReply
  onboardingCompleted : Bool
  reaction : Option PersistedReaction
  deriving DecidableEq

/-- The messages of a wake key: the key itself, or the key with an ordinal behind it. -/
def Message.hasTurnKey (key : String) (message : Message) : Bool :=
  message.idempotencyKey.any fun stored =>
    stored = key || Text.like (key ++ ":%").toList stored.toList

/-- `ORDER BY created_at, response_ordinal`, a missing ordinal coming last. -/
def Message.beforeInTurn (a b : Message) : Bool :=
  a.createdAt < b.createdAt || (a.createdAt = b.createdAt &&
    match a.responseOrdinal, b.responseOrdinal with
    | some i, some j => i ≤ j
    | none, some _ => false
    | _, none => true)

/-- The rows that `_load_existing_turn` selects. -/
def existingTurnMessages (db : ChatDb) (sourceChannel key : String) : List Message :=
  Table.orderBy Message.beforeInTurn (db.messages.filter fun message =>
    message.sourceChannel = sourceChannel ∧ Message.hasTurnKey key message)

def Message.asReply (message : Message) : PersistedReply :=
  ⟨message.id, message.content⟩

/-- The reaction recorded in the payload of a message. -/
def Message.reaction? (message : Message) : Option PersistedReaction :=
  match Json.lookup message.rawPayload "reaction" with
  | some (.obj reaction) =>
      match Json.lookup reaction "target_external_id", Json.lookup reaction "type" with
      | some (.str target), some (.str reactionType) =>
          if target ≠ "" ∧ reactionType ≠ "" then some ⟨message.id, target, reactionType⟩ else none
      | _, _ => none
  | _ => none

/-- `_load_existing_turn`. -/
def loadExistingTurn (db : ChatDb) (sourceChannel key : String) : Option PersistedTurn :=
  let messages := existingTurnMessages db sourceChannel key
  if messages.isEmpty then none
  else
    some {
      replies := (messages.filter (·.content ≠ "")).map Message.asReply
      onboardingCompleted := false
      reaction := messages.findSome? Message.reaction? }

/-! ## Running a turn -/

inductive AgentRunPurpose
  | conversation | event | followUp | onboarding
  deriving DecidableEq

structure ExecutedToolCall where
  callId : String
  name : String
  arguments : List (String × Json)
  output : List (String × Json)
  succeeded : Bool
  deriving DecidableEq

/-- What the runner returns. -/
structure AgentResult where
  messages : List (List Char)
  responseId : String
  toolCalls : List ExecutedToolCall
  reaction : Option String
  deriving DecidableEq

/-- The arguments of `_run_agent_wake` that decide what is persisted. -/
structure Wake where
  conversationId : Uuid
  userId : Uuid
  triggerMessageId : Option Uuid
  purpose : AgentRunPurpose
  wakeType : String
  sourceChannel : String
  sourceBindingId : Option Uuid
  idempotencyKey : String
  requiredAppUrl : Option (List Char)

/-- What a wake reads from outside the database. -/
structure WakeInputs where
  runId : Uuid
  /-- What the runner returned or what was raised before anything is persisted. -/
  result : Except TurnError AgentResult
  responseGroupId : Uuid
  messageId : Nat → Uuid
  clock : Nat → Instant

/-- `direct_imessage_reaction_target`. -/
def directImessageReactionTarget (unicode : Unicode) (conversation : Conversation)
    (channel : Option ConversationChannel) (trigger : Option Message) : Option String :=
  match channel, trigger with
  | some channel, some trigger =>
      if conversation.kind = .direct ∧ channel.provider = "linq" ∧
          Text.casefold unicode (channel.service.getD "").toList = "imessage".toList ∧
          trigger.sourceChannel = "linq" ∧ trigger.sourceBindingId = some channel.id then
        trigger.sourceExternalId.filter (· ≠ "")
      else none
  | _, _ => none

/-- One tool call as the wake hands it to the collector of links. -/
def ExecutedToolCall.asJson (call : ExecutedToolCall) : Json :=
  .obj [("name", .str call.name), ("succeeded", .bool call.succeeded), ("output", .obj call.output)]

/-- The bubbles of a result; the collector is given a generator over the tool calls. -/
def cleanMessages (requiredAppUrl : Option (List Char)) (result : AgentResult) :
    List (List Char) :=
  let trustedUrls :=
    trustedUrlsFromToolOutputs (.generator (result.toolCalls.map ExecutedToolCall.asJson))
  match requiredAppUrl with
  | some appUrl => prepareAppCompletionBubbles result.messages appUrl
  | none =>
      if trustedUrls ≠ [] then prepareTrustedLinkBubbles result.messages trustedUrls
      else prepareTextBubbles result.messages

/-- The message of an outbound bubble or reaction of a turn. -/
def outboundMessage (wake : Wake) (id groupId : Uuid) (key : String) (ordinal : Int)
    (content : String) (payload : List (String × Json)) (createdAt : Instant) : Message where
  id := id
  conversationId := wake.conversationId
  userId := wake.userId
  senderUserId := none
  sourceBindingId := wake.sourceBindingId
  sourceChannel := wake.sourceChannel
  sourceExternalId := none
  idempotencyKey := some key
  responseGroupId := some groupId
  responseOrdinal := some ordinal
  direction := .outbound
  status := .completed
  content := content
  rawPayload := payload
  createdAt := createdAt

/-- The key of the bubble with an ordinal. -/
def bubbleKey (key : String) (ordinal : Nat) : String :=
  if ordinal = 0 then key else key ++ ":" ++ String.ofList (Nat.toDigits 10 ordinal)

/-- The messages of the bubbles of a turn, from an ordinal on. -/
def bubbleMessages (wake : Wake) (inputs : WakeInputs) (payload : List (String × Json)) :
    Nat → List (List Char) → List Message
  | _, [] => []
  | ordinal, text :: rest =>
      outboundMessage wake (inputs.messageId (ordinal + 1)) inputs.responseGroupId
          (bubbleKey wake.idempotencyKey ordinal) ordinal (String.ofList text) payload
          (inputs.clock (ordinal + 1)) ::
        bubbleMessages wake inputs payload (ordinal + 1) rest

/-- The payload that every message of a turn has. -/
def turnPayload (inputs : WakeInputs) (responseId : String) : List (String × Json) :=
  [("agent_run_id", .str (String.ofList (uuidText inputs.runId))),
    ("model_response_id", .str responseId)]

/-- The message that records a reaction. -/
def reactionMessage (wake : Wake) (inputs : WakeInputs) (responseId target reaction : String) :
    Message :=
  outboundMessage wake (inputs.messageId 0) inputs.responseGroupId
    (wake.idempotencyKey ++ ":reaction") (-1) ""
    (turnPayload inputs responseId ++ [("wake_type", .str wake.wakeType),
      ("reaction", .obj [("type", .str reaction), ("target_external_id", .str target)])])
    (inputs.clock 0)

/-- The transaction that stores the outcome of a run. -/
def persistTurn (wake : Wake) (inputs : WakeInputs) (reactionTarget : Option String)
    (result : AgentResult) (db : ChatDb) : Except TurnError (ChatDb × PersistedTurn) :=
  let selected := reactionTarget.bind fun target => result.reaction.map fun kind => (target, kind)
  let bubbles := cleanMessages wake.requiredAppUrl result
  if bubbles = [] ∧ selected = none then
    if wake.purpose = .event ∧ wake.wakeType = "schedule.triggered" then
      .ok (db, ⟨[], false, none⟩)
    else .error .emptyTurn
  else do
    let reactions := selected.toList.map fun (target, kind) =>
      reactionMessage wake inputs result.responseId target kind
    let payload := turnPayload inputs result.responseId ++ [("wake_type", .str wake.wakeType)]
    let messages := bubbleMessages wake inputs payload 0 bubbles
    let db ← db.insertMessages (reactions ++ messages)
    return (db, {
      replies := messages.map Message.asReply
      onboardingCompleted := false
      reaction := selected.map fun (target, kind) => ⟨inputs.messageId 0, target, kind⟩ })

/-- `_run_agent_wake`. -/
def runAgentWake (unicode : Unicode) (wake : Wake) (inputs : WakeInputs) (db : ChatDb) :
    Except TurnError (ChatDb × PersistedTurn) :=
  match loadExistingTurn db wake.sourceChannel wake.idempotencyKey with
  | some turn => .ok (db, turn)
  | none =>
      match db.conversation? wake.conversationId, db.user? wake.userId with
      | some conversation, some _ => do
          let trigger := wake.triggerMessageId.bind db.message?
          let channel := wake.sourceBindingId.bind fun id =>
            db.channels.find? fun channel => channel.id = id
          let target := directImessageReactionTarget unicode conversation channel trigger
          let db := db.insertRun
            ⟨inputs.runId, wake.conversationId, wake.userId, wake.triggerMessageId⟩
          let result ← inputs.result
          persistTurn wake inputs target result db
      | _, _ => .error .agentRowsGone

/-! ## Onboarding -/

/-- What the onboarding model's output comes to: its messages with the repair of a
rejected profile field, and whether the profile is complete. -/
structure OnboardingResult where
  responseId : String
  messages : List (List Char)
  completed : Bool

/-- `_run_onboarding_turn_unlocked`. -/
def runOnboardingTurn (wake : Wake) (inputs : WakeInputs)
    (onboarding : Except TurnError OnboardingResult) (db : ChatDb) :
    Except TurnError (ChatDb × PersistedTurn) :=
  match db.conversation? wake.conversationId, db.user? wake.userId with
  | some _, some _ => do
      let db := db.insertRun
        ⟨inputs.runId, wake.conversationId, wake.userId, wake.triggerMessageId⟩
      let result ← onboarding
      let bubbles := prepareTextBubbles result.messages
      if bubbles = [] then .error .emptyOnboardingTurn
      else
        let payload :=
          turnPayload inputs result.responseId ++ [("onboarding_completed", .bool result.completed)]
        let messages := bubbleMessages wake inputs payload 0 bubbles
        let db ← db.insertMessages messages
        return (db, ⟨messages.map Message.asReply, result.completed, none⟩)
  | _, _ => .error .onboardingRowsGone

end DotBackend.Agents
