import DotBackend.Agents.Service
import DotBackend.Transition.Run

/-!
# Dispatching a user event

An event of the outbox is claimed by a worker, which lets the agent continue the
conversation, delivers what was said and marks the event as processed. Workers fail, crash
and are overtaken by others that find the event stale, so every transaction of every worker
is a step of its own. The lock of the conversation is left out: nothing here relies on one
worker waiting for another.
-/

namespace DotBackend.Agents

open Data Channel Transition

/-! ## Rows -/

inductive UserEventStatus
  | pending | processing | processed | failed | skipped
  deriving DecidableEq

/-- A row of `user_events`. -/
structure UserEvent where
  id : Uuid
  userId : Uuid
  conversationId : Option Uuid
  eventType : String
  payload : List (String × Json)
  deliveryProvider : Option String
  status : UserEventStatus
  attempts : Nat
  nextAttemptAt : Instant
  lockedAt : Option Instant
  deriving DecidableEq

/-- `_AGENT_EVENT_TYPES`. -/
def agentEventTypes : List String :=
  ["integration.connected", "finance.connected", "finance.reauth_required", "group.benji_added",
    "group.dot_added", "schedule.triggered", "app.build.completed", "app.build.failed"]

/-- `message_key`. -/
def UserEvent.messageKey (event : UserEvent) : String :=
  "benji:user-event:" ++ String.ofList (uuidText event.id)

/-- Two minutes. -/
def staleAfter : Int :=
  120000000

/-- The condition of `_claim_event`. -/
def UserEvent.isEligible (maxAttempts : Nat) (now : Instant) (event : UserEvent) : Bool :=
  (event.status = .pending || (event.status = .failed && event.nextAttemptAt ≤ now) ||
    (event.status = .processing && event.lockedAt.any (· ≤ now - staleAfter))) &&
  event.attempts < maxAttempts

/-- `_claim_event`. -/
def UserEvent.claim (now : Instant) (event : UserEvent) : UserEvent :=
  { event with status := .processing, attempts := event.attempts + 1, lockedAt := some now }

/-- `_finish_event`. -/
def UserEvent.finish (status : UserEventStatus) (event : UserEvent) : UserEvent :=
  { event with status := status, lockedAt := none }

/-- `_retry_event`. -/
def UserEvent.retry (now : Instant) (event : UserEvent) : UserEvent :=
  { event with
    status := .failed
    lockedAt := none
    nextAttemptAt := now + (min (2 ^ max event.attempts 1) 300 : Nat) * 1000000 }

/-! ## The conversation -/

/-- The direct conversation of a user. -/
def ChatDb.directConversation (db : ChatDb) (userId : Uuid) : Option Conversation :=
  db.conversations.find? fun conversation =>
    conversation.userId = userId && conversation.kind = .direct

/-- The conversation that an event is about. -/
def ChatDb.eventConversation (db : ChatDb) (event : UserEvent) : Option Uuid :=
  event.conversationId <|> (db.directConversation event.userId).map (·.id)

theorem ChatDb.eventConversation_direct (db : ChatDb) {event : UserEvent}
    (unnamed : event.conversationId = none) :
    db.eventConversation event = (db.directConversation event.userId).map (·.id) := by
  rw [eventConversation, unnamed]
  rfl

theorem ChatDb.eventConversation_named (db : ChatDb) {event : UserEvent} {id : Uuid}
    (named : event.conversationId = some id) : db.eventConversation event = some id := by
  rw [eventConversation, named]
  rfl

/-- What a worker reads from outside the tables. -/
structure DispatchInputs where
  now : Instant
  /-- A call or a statement raises. -/
  fails : Bool
  /-- The channels of the conversation in the order of their last update. -/
  latest : List ConversationChannel → Option ConversationChannel
  /-- A new direct conversation with its owner; looking up the handle may raise. -/
  newConversation : Option (Uuid × ConversationMember)
  optedOut : Bool
  /-- Automated replies are enabled and there is a client. -/
  canDeliver : Bool
  /-- There is a model provider. -/
  hasProvider : Bool
  wake : WakeInputs

/-- `resolve_direct_conversation`. -/
def resolveDirectConversation (db : ChatDb) (userId : Uuid) (inputs : DispatchInputs) :
    Except TurnError (ChatDb × Conversation) :=
  match db.directConversation userId, db.user? userId, inputs.newConversation with
  | some conversation, _, _ => .ok (db, conversation)
  | none, some _, some (id, member) =>
      let conversation : Conversation := ⟨id, userId, .direct, none, .auto, none, true⟩
      if (db.conversation? id).isSome then .error .integrity
      else .ok ({ db with
        conversations := db.conversations ++ [conversation]
        members := db.members ++ [member] }, conversation)
  | none, _, _ => .error (.raised "Direct conversation user no longer exists")

/-- `_resolve_event_target`. -/
def resolveEventTarget (db : ChatDb) (event : UserEvent) (inputs : DispatchInputs) :
    Except TurnError (ChatDb × Conversation × Option ConversationChannel) := do
  let (db, conversation) ← match event.conversationId with
    | none => resolveDirectConversation db event.userId inputs
    | some id =>
        match db.conversation? id with
        | none => .error (.raised "Event conversation target no longer exists")
        | some conversation => do
            require (conversation.isActive &&
                !(conversation.kind = .direct && conversation.userId ≠ event.userId))
              (.raised "Event conversation target no longer exists")
            pure (db, conversation)
  let channel := event.deliveryProvider.bind fun provider =>
    inputs.latest (db.channels.filter fun channel =>
      channel.conversationId = conversation.id && channel.provider = provider && channel.isActive)
  pure (db, conversation, channel)

/-- Where a worker continues a conversation, and whether it delivers what is said there. -/
structure Target where
  conversationId : Uuid
  channelId : Option Uuid
  deliveryReady : Bool
  deriving DecidableEq

/-- `delivery_ready`. -/
def deliveryReady (event : UserEvent) (conversation : Conversation)
    (channel : Option ConversationChannel) (inputs : DispatchInputs) : Except TurnError Bool :=
  match event.deliveryProvider with
  | none => .ok false
  | some provider =>
      if provider = "linq" then
        .ok (!(conversation.kind = .direct && inputs.optedOut) && channel.isSome &&
          inputs.canDeliver)
      else .error (.raised ("No delivery adapter for " ++ provider))

/-! ## The turn of an event -/

/-- `HTTP_URL.sub(app_url, bubble)`: a backslash in the address is read as an escape, and may
be refused. -/
structure UrlRewriter where
  sub : List Char → List Char → Except TurnError (List Char)
  sub_plain : ∀ url bubble, '\\' ∉ url →
    sub url bubble = .ok (Text.substitute (httpUrl url) bubble)

/-- `_required_app_completion_url`. -/
def requiredAppCompletionUrl (event : UserEvent) : Except TurnError (Option (List Char)) :=
  if event.eventType ≠ "app.build.completed" then .ok none
  else match Json.lookup event.payload "app_url" with
    | some (.str url) => do
        require (!(Text.strip url.toList).isEmpty)
          (.raised "App completion event is missing its trusted app URL")
        pure (some url.toList)
    | _ => .error (.raised "App completion event is missing its trusted app URL")

/-- `prepare_app_completion_bubbles`, for any address. -/
def appCompletionBubbles (rewriter : UrlRewriter) (messages : List (List Char))
    (appUrl : List Char) : Except TurnError (List (List Char)) := do
  let bubbles ← (prepareTextBubbles messages).mapM (rewriter.sub appUrl)
  pure (if bubbles.any (Text.occurs appUrl) then bubbles
    else bubbles.take (deliveryBubbleSafetyLimit - 1) ++ [appUrl])

/-- `clean_messages` of a wake. -/
def wakeBubbles (rewriter : UrlRewriter) (requiredAppUrl : Option (List Char))
    (result : AgentResult) : Except TurnError (List (List Char)) :=
  match requiredAppUrl with
  | some appUrl => appCompletionBubbles rewriter result.messages appUrl
  | none => .ok (cleanMessages none result)

/-- The wake of `run_agent_event`. -/
def eventWake (event : UserEvent) (target : Target) (requiredAppUrl : Option (List Char)) :
    Wake where
  conversationId := target.conversationId
  userId := event.userId
  triggerMessageId := none
  purpose := .event
  wakeType := event.eventType
  sourceChannel := "event"
  sourceBindingId := target.channelId
  idempotencyKey := event.messageKey
  requiredAppUrl := requiredAppUrl

/-- The transaction that stores the outcome of the model; without a trigger there is nothing to
react to. -/
def persistEventTurn (rewriter : UrlRewriter) (wake : Wake) (inputs : WakeInputs)
    (result : AgentResult) (db : ChatDb) : Except TurnError (ChatDb × PersistedTurn) := do
  let bubbles ← wakeBubbles rewriter wake.requiredAppUrl result
  if bubbles = [] then
    if wake.wakeType = "schedule.triggered" then pure (db, ⟨[], false, none⟩)
    else .error .emptyTurn
  else do
    let payload := turnPayload inputs result.responseId ++ [("wake_type", .str wake.wakeType)]
    let messages := bubbleMessages wake inputs payload 0 bubbles
    let db ← db.insertMessages messages
    pure (db, ⟨messages.map Message.asReply, false, none⟩)

/-! ## Fallbacks -/

/-- `UPDATE` of a message. -/
def ChatDb.updateMessage (db : ChatDb) (id : Uuid) (change : Message → Message) :
    Except TurnError ChatDb :=
  if valid : MessagesValid (Table.update (·.id = id) change db.messages) then
    .ok { db with
      messages := Table.update (·.id = id) change db.messages
      messages_valid := valid }
  else .error .integrity

/-- The message that a fallback stores. -/
def fallbackMessage (event : UserEvent) (target : Target) (inputs : WakeInputs) (key : String)
    (groupId : Uuid) (ordinal : Int) (content : String) (payload : List (String × Json)) :
    Message where
  id := inputs.messageId 0
  conversationId := target.conversationId
  userId := event.userId
  senderUserId := none
  sourceBindingId := target.channelId
  sourceChannel := "event"
  sourceExternalId := none
  idempotencyKey := some key
  responseGroupId := some groupId
  responseOrdinal := some ordinal
  direction := .outbound
  status := .completed
  content := content
  rawPayload := payload
  createdAt := inputs.clock 0

/-- `max((message.response_ordinal or 0 for message in messages), default=-1) + 1`. -/
def nextOrdinal : List Message → Int
  | [] => 0
  | first :: rest =>
      rest.foldl (fun ordinal message => max ordinal (message.responseOrdinal.getD 0))
        (first.responseOrdinal.getD 0) + 1

/-- `_ensure_app_completion_turn`. -/
def ensureAppCompletionTurn (event : UserEvent) (target : Target) (inputs : WakeInputs)
    (db : ChatDb) : Except TurnError (ChatDb × PersistedTurn) :=
  let missing : TurnError := .raised "App completion event is missing its trusted app URL"
  match Json.lookup event.payload "app_url" with
  | some (.str appUrl) => do
      require (!(Text.strip appUrl.toList).isEmpty) missing
      let messages := existingTurnMessages db "event" event.messageKey
      if messages.any fun message => Text.occurs appUrl.toList message.content.toList then
        pure (db, ⟨messages.map Message.asReply, false, none⟩)
      else do
        let groupId := (messages.head?.bind (·.responseGroupId)).getD inputs.responseGroupId
        let trustedKey :=
          if messages.isEmpty then event.messageKey else event.messageKey ++ ":trusted-link"
        match messages.find? (·.idempotencyKey = some trustedKey) with
        | none => do
            let fallback := fallbackMessage event target inputs trustedKey groupId
              (nextOrdinal messages) appUrl
              [("wake_type", .str "app.build.completed"), ("trusted_app_url", .str appUrl),
                ("canonical_fallback", .bool true)]
            let db ← db.insertMessage fallback
            pure (db, ⟨(messages ++ [fallback]).map Message.asReply, false, none⟩)
        | some found => do
            let rewrite (message : Message) : Message := { message with
              content := appUrl
              rawPayload := Json.assign "canonical_fallback" (.bool true)
                (Json.assign "trusted_app_url" (.str appUrl) message.rawPayload) }
            let db ← db.updateMessage found.id rewrite
            pure (db, ⟨(Table.update (·.id = found.id) rewrite messages).map Message.asReply,
              false, none⟩)
  | _ => .error missing

/-- The text of `_ensure_app_failure_turn`. -/
def appFailureText (event : UserEvent) : String :=
  let label := match Json.lookup event.payload "title" with
    | some (.str title) =>
        if (Text.strip title.toList).isEmpty then "that app"
        else String.ofList (Text.strip title.toList)
    | _ => "that app"
  "i couldn't get " ++ label ++ " working cleanly, so i didn't send you a broken link. " ++
    "tell me what matters most and i'll take another run at it."

/-- `_ensure_app_failure_turn`. -/
def ensureAppFailureTurn (event : UserEvent) (target : Target) (inputs : WakeInputs) (db : ChatDb) :
    Except TurnError (ChatDb × PersistedTurn) :=
  match db.messages.find? fun message =>
      message.sourceChannel = "event" && message.idempotencyKey = some event.messageKey with
  | some existing => .ok (db, ⟨[Message.asReply existing], false, none⟩)
  | none => do
      let message := fallbackMessage event target inputs event.messageKey inputs.responseGroupId 0
        (appFailureText event)
        [("wake_type", .str "app.build.failed"), ("canonical_fallback", .bool true)]
      let db ← db.insertMessage message
      pure (db, ⟨[Message.asReply message], false, none⟩)

/-! ## Workers -/

/-- Where a worker stands in `dispatch_user_event`. -/
inductive DispatchPoint
  | claimed
  | targeted (target : Target)
  /-- The run is open and the model works. -/
  | generating (target : Target)
  /-- The generation raised and the link is stored instead. -/
  | fallingBack (target : Target)
  | delivering (target : Target) (turn : PersistedTurn)
  | finishing (target : Target)
  /-- The exception handler, with the target if there is one. -/
  | raised (target : Option Target)
  | exhausted (target : Option Target)
  /-- The fallback after the last attempt is stored. -/
  | settling
  deriving DecidableEq

/-- The event, the tables and the workers. -/
structure Dispatch where
  event : UserEvent
  db : ChatDb
  workers : Nat → Option DispatchPoint

def Dispatch.moveTo (system : Dispatch) (worker : Nat) (point : Option DispatchPoint) : Dispatch :=
  { system with workers := Function.update system.workers worker point }

/-- What happens after the generation raised. -/
def generationFailed (event : UserEvent) (target : Target) : DispatchPoint :=
  if event.eventType = "app.build.completed" then .fallingBack target else .raised (some target)

/-- The target and the delivery of a worker that has claimed the event. -/
def advanceClaimed (event : UserEvent) (db : ChatDb) (inputs : DispatchInputs) :
    ChatDb × DispatchPoint :=
  match if inputs.fails then .error .integrity else resolveEventTarget db event inputs with
  | .error _ => (db, .raised none)
  | .ok (db, conversation, channel) =>
      match deliveryReady event conversation channel inputs with
      | .error _ => (db, .raised (some ⟨conversation.id, channel.map (·.id), false⟩))
      | .ok ready => (db, .targeted ⟨conversation.id, channel.map (·.id), ready⟩)

/-- The beginning of `run_agent_event`: a stored turn, or a run for the model. -/
def advanceTargeted (event : UserEvent) (target : Target) (db : ChatDb) (inputs : DispatchInputs) :
    ChatDb × DispatchPoint :=
  let failed := (db, generationFailed event target)
  if inputs.fails || !inputs.hasProvider then failed
  else match requiredAppCompletionUrl event with
    | .error _ => failed
    | .ok _ =>
        match loadExistingTurn db "event" event.messageKey with
        | some turn => (db, .delivering target turn)
        | none =>
            if (db.conversation? target.conversationId).isNone ||
                (db.user? event.userId).isNone then failed
            else (db.insertRun ⟨inputs.wake.runId, target.conversationId, event.userId, none⟩,
              .generating target)

/-- The end of `run_agent_event`. -/
def generate (rewriter : UrlRewriter) (event : UserEvent) (target : Target)
    (inputs : DispatchInputs) (db : ChatDb) : Except TurnError (ChatDb × PersistedTurn) := do
  require (!inputs.fails) .integrity
  let requiredAppUrl ← requiredAppCompletionUrl event
  let result ← inputs.wake.result
  persistEventTurn rewriter (eventWake event target requiredAppUrl) inputs.wake result db

def advanceGenerating (rewriter : UrlRewriter) (event : UserEvent) (target : Target) (db : ChatDb)
    (inputs : DispatchInputs) : ChatDb × DispatchPoint :=
  match generate rewriter event target inputs db with
  | .error _ => (db, generationFailed event target)
  | .ok (db, turn) => (db, .delivering target turn)

def advanceFallingBack (event : UserEvent) (target : Target) (db : ChatDb)
    (inputs : DispatchInputs) : ChatDb × DispatchPoint :=
  match if inputs.fails then .error .integrity
      else ensureAppCompletionTurn event target inputs.wake db with
  | .error _ => (db, .raised (some target))
  | .ok (db, turn) => (db, .delivering target turn)

/-- The fallback after the last attempt; what it raises is logged. -/
def advanceExhausted (event : UserEvent) (target : Target) (db : ChatDb) (inputs : DispatchInputs) :
    ChatDb × Option DispatchPoint :=
  let ensure := if event.eventType = "app.build.completed" then ensureAppCompletionTurn
    else ensureAppFailureTurn
  match if inputs.fails then .error .integrity else ensure event target inputs.wake db with
  | .error _ => (db, none)
  | .ok (db, _) => (db, some .settling)

/-- The last attempt raised before there was a target. -/
def advanceUnresolved (event : UserEvent) (db : ChatDb) (inputs : DispatchInputs) :
    ChatDb × Option DispatchPoint :=
  match if inputs.fails then .error .integrity else resolveEventTarget db event inputs with
  | .error _ => (db, none)
  | .ok (db, conversation, channel) =>
      (db, some (.exhausted (some ⟨conversation.id, channel.map ConversationChannel.id, false⟩)))

/-- One step of a worker; at `none` the worker has returned. -/
def advanceDispatch (rewriter : UrlRewriter) (maxAttempts : Nat) (system : Dispatch) (worker : Nat)
    (point : DispatchPoint) (inputs : DispatchInputs) : Dispatch :=
  let goTo (result : ChatDb × DispatchPoint) : Dispatch :=
    { system with db := result.1 }.moveTo worker (some result.2)
  match point with
  | .claimed =>
      if system.event.eventType ∉ agentEventTypes then
        if inputs.fails then system.moveTo worker (some (.raised none))
        else { system with event := system.event.finish .skipped }.moveTo worker none
      else goTo (advanceClaimed system.event system.db inputs)
  | .targeted target => goTo (advanceTargeted system.event target system.db inputs)
  | .generating target => goTo (advanceGenerating rewriter system.event target system.db inputs)
  | .fallingBack target => goTo (advanceFallingBack system.event target system.db inputs)
  | .delivering target _ =>
      if target.deliveryReady && inputs.fails then
        system.moveTo worker (some (.raised (some target)))
      else system.moveTo worker (some (.finishing target))
  | .finishing target =>
      if inputs.fails then system.moveTo worker (some (.raised (some target)))
      else { system with event := system.event.finish .processed }.moveTo worker none
  | .raised target =>
      if inputs.fails then system.moveTo worker none
      else { system with event := system.event.retry inputs.now }.moveTo worker
        (if maxAttempts ≤ system.event.attempts &&
            (system.event.eventType = "app.build.completed" ||
              system.event.eventType = "app.build.failed") then
          some (.exhausted target)
        else none)
  | .exhausted none =>
      let result := advanceUnresolved system.event system.db inputs
      { system with db := result.1 }.moveTo worker result.2
  | .exhausted (some target) =>
      let result := advanceExhausted system.event target system.db inputs
      { system with db := result.1 }.moveTo worker result.2
  | .settling =>
      if inputs.fails then system.moveTo worker none
      else { system with event := system.event.finish .processed }.moveTo worker none

inductive DispatchStep
  | claim (worker : Nat) (now : Instant)
  | advance (worker : Nat) (inputs : DispatchInputs)
  | crash (worker : Nat)
  /-- Another part of the service commits. -/
  | other (db : ChatDb)

/-- The messages stored under the key of the event. -/
def ownMessages (event : UserEvent) (db : ChatDb) : List Message :=
  db.messages.filter fun message =>
    message.sourceChannel = "event" ∧ Message.hasTurnKey event.messageKey message

/-- Another part of the service stores no message under the key of the event and changes none, and
the direct conversation of a user stays the same. -/
def keepsEvent (event : UserEvent) (before after : ChatDb) : Bool :=
  ownMessages event after = ownMessages event before &&
    (before.directConversation event.userId).all fun conversation =>
      (after.directConversation event.userId).map Conversation.id = some conversation.id

def dispatchStep (rewriter : UrlRewriter) (maxAttempts : Nat) (system : Dispatch) :
    DispatchStep → Option Dispatch
  | .claim worker now =>
      if (system.workers worker).isNone && system.event.isEligible maxAttempts now then
        some ({ system with event := system.event.claim now }.moveTo worker (some .claimed))
      else none
  | .advance worker inputs => (system.workers worker).map fun point =>
      advanceDispatch rewriter maxAttempts system worker point inputs
  | .crash worker => (system.workers worker).map fun _ => system.moveTo worker none
  | .other db =>
      if keepsEvent system.event system.db db then some { system with db := db } else none

end DotBackend.Agents
