import DotBackend.Channel.WebChat

/-!
# Isolation of web chats

Every lookup that a client message id drives is keyed by the web channel and that id;
the conversation and the sender were authorised separately. A call stays in its
conversation exactly when the rows that the id finds belong there.
-/

namespace DotBackend.Channel

open Data Agents

variable {wake : Wake} {inputs : WakeInputs} {db : ChatDb} {unicode : Unicode} {user : User}
  {conversation : Conversation} {messages : List Message} {clientMessageId : Uuid}

/-! ## What a turn stores -/

/-- A turn that ran the model: it recorded its run, kept every message and replied with
stored messages of its conversation. -/
structure TurnRan (wake : Wake) (runId : Uuid) (db after : ChatDb) (turn : PersistedTurn) :
    Prop where
  runs : after.agentRuns =
    db.agentRuns ++ [⟨runId, wake.conversationId, wake.userId, wake.triggerMessageId⟩]
  kept : ∀ message ∈ db.messages, message ∈ after.messages
  replies : ∃ messages : List Message, turn.replies = messages.map Message.asReply ∧
    ∀ message ∈ messages, message ∈ after.messages ∧
      message.conversationId = wake.conversationId

theorem conversationId_of_mem_bubbleMessages {payload : List (String × Json)} {ordinal : Nat}
    {bubbles : List (List Char)}
    {message : Message} (messageMem : message ∈ bubbleMessages wake inputs payload ordinal bubbles) :
    message.conversationId = wake.conversationId := by
  induction bubbles generalizing ordinal with
  | nil => exact absurd messageMem List.not_mem_nil
  | cons text rest ih =>
      rcases List.mem_cons.mp messageMem with rfl | later
      · rfl
      · exact ih later

theorem persistTurn_ran {target : Option String}
    {result : AgentResult} {after : ChatDb} {turn : PersistedTurn} {run : AgentRun}
    (run_eq : run = ⟨inputs.runId, wake.conversationId, wake.userId, wake.triggerMessageId⟩)
    (stored : persistTurn wake inputs target result (db.insertRun run) = .ok (after, turn)) :
    TurnRan wake inputs.runId db after turn := by
  subst run_eq
  unfold persistTurn at stored
  simp only at stored
  split at stored
  · split at stored
    · cases stored
      exact ⟨rfl, fun _ kept => kept, [], rfl, by simp⟩
    · cases stored
  · obtain ⟨middle, inserted, returned⟩ := bind_eq_ok.mp stored
    obtain ⟨messages_eq, runs_eq⟩ := ChatDb.insertMessages_eq_ok inserted
    cases returned
    refine ⟨runs_eq, fun message kept => ?_, _, rfl, fun message messageMem => ?_⟩
    · rw [messages_eq]
      exact List.mem_append_left _ kept
    · refine ⟨?_, conversationId_of_mem_bubbleMessages messageMem⟩
      rw [messages_eq]
      exact List.mem_append_right _ (List.mem_append_right _ messageMem)

theorem runOnboardingTurn_ran {onboarding : Except TurnError OnboardingResult} {after : ChatDb}
    {turn : PersistedTurn}
    (ran : runOnboardingTurn wake inputs onboarding db = .ok (after, turn)) :
    TurnRan wake inputs.runId db after turn := by
  unfold runOnboardingTurn at ran
  split at ran
  · obtain ⟨result, -, stored⟩ := bind_eq_ok.mp ran
    simp only at stored
    split at stored
    · cases stored
    · obtain ⟨middle, inserted, returned⟩ := bind_eq_ok.mp stored
      obtain ⟨messages_eq, runs_eq⟩ := ChatDb.insertMessages_eq_ok inserted
      cases returned
      refine ⟨runs_eq, fun message kept => ?_, _, rfl, fun message messageMem => ?_⟩
      · rw [messages_eq]
        exact List.mem_append_left _ kept
      · refine ⟨?_, conversationId_of_mem_bubbleMessages messageMem⟩
        rw [messages_eq]
        exact List.mem_append_right _ messageMem
  · cases ran

/-- A wake either returns the turn stored under its key and changes nothing, or runs. -/
theorem runAgentWake_cases {after : ChatDb} {turn : PersistedTurn}
    (ran : runAgentWake unicode wake inputs db = .ok (after, turn)) :
    (existingTurnMessages db wake.sourceChannel wake.idempotencyKey ≠ [] ∧ after = db ∧
        turn.replies =
          ((existingTurnMessages db wake.sourceChannel wake.idempotencyKey).filter
            (·.content ≠ "")).map Message.asReply) ∨
      (existingTurnMessages db wake.sourceChannel wake.idempotencyKey = [] ∧
        TurnRan wake inputs.runId db after turn) := by
  unfold runAgentWake loadExistingTurn at ran
  by_cases none : existingTurnMessages db wake.sourceChannel wake.idempotencyKey = []
  · simp only [none, List.isEmpty_nil, if_true] at ran
    refine Or.inr ⟨none, ?_⟩
    split at ran
    · obtain ⟨result, -, stored⟩ := bind_eq_ok.mp ran
      exact persistTurn_ran rfl stored
    · cases ran
  · simp only [List.isEmpty_iff, none, if_false] at ran
    cases ran
    exact Or.inl ⟨none, rfl, rfl⟩

/-- A web turn returns the turn stored under its key, or runs. -/
theorem runWebTurn_cases {inputs : WebInputs} {after : ChatDb} {turn : PersistedTurn}
    (ran : runWebTurn unicode inputs user conversation wake db = .ok (after, turn)) :
    (usesAgent user conversation = true ∧
        existingTurnMessages db wake.sourceChannel wake.idempotencyKey ≠ [] ∧ after = db ∧
        turn.replies =
          ((existingTurnMessages db wake.sourceChannel wake.idempotencyKey).filter
            (·.content ≠ "")).map Message.asReply) ∨
      (¬ (usesAgent user conversation = true ∧
          existingTurnMessages db wake.sourceChannel wake.idempotencyKey ≠ []) ∧
        TurnRan wake inputs.wake.runId db after turn) := by
  unfold runWebTurn at ran
  by_cases agent : usesAgent user conversation = true
  · rw [if_pos agent] at ran
    rcases runAgentWake_cases ran with ⟨stored, same, replies⟩ | ⟨none, turnRan⟩
    · exact Or.inl ⟨agent, stored, same, replies⟩
    · exact Or.inr ⟨fun both => both.2 none, turnRan⟩
  · rw [if_neg agent] at ran
    exact Or.inr ⟨fun both => agent both.1, runOnboardingTurn_ran ran⟩

/-! ## What a call looks up -/

theorem authorizedConversation_id {userId conversationId : Uuid}
    (authorized : authorizedConversation db userId conversationId = .ok conversation) :
    conversation.id = conversationId := by
  unfold authorizedConversation at authorized
  cases found : db.conversation? conversationId with
  | none => simp [found] at authorized
  | some row =>
      have row_id : row.id = conversationId := by simpa using List.find?_some found
      simp only [found] at authorized
      split at authorized
      · split at authorized
        · cases authorized
          exact row_id
        · cases authorized
      · cases member : getConversationForMember db conversationId userId with
        | none => simp [member] at authorized
        | some joined =>
            have matched := List.find?_some member
            simp only [member, Except.ok.injEq] at authorized
            subst authorized
            simp only [decide_eq_true_eq] at matched
            exact matched.1

/-- The replies of a turn are read back as the messages they were made of. -/
theorem assistantMessages_of_stored (stored : ∀ message ∈ messages, message ∈ db.messages) :
    assistantMessages db (messages.map Message.asReply) = .ok messages := by
  induction messages with
  | nil => rfl
  | cons message rest ih =>
      have found : db.message? (Message.asReply message).messageId = some message :=
        ChatDb.message?_of_mem (stored message List.mem_cons_self)
      rw [List.map_cons, assistantMessages, found,
        ih fun later laterMem => stored later (List.mem_cons_of_mem _ laterMem)]
      rfl

/-- The id of the inbound message that a call works with. -/
def inboundId (inputs : WebInputs) (db : ChatDb) (clientMessageId : Uuid) : Uuid :=
  ((existingInbound db clientMessageId).map (·.id)).getD inputs.inboundId

/-- Storing the inbound message finds it, or adds it and hides it from later lookups. -/
structure InboundStored (inputs : WebInputs) (userId : Uuid) (conversation : Conversation)
    (clientMessageId : Uuid) (db after : ChatDb) (inbound : Message) : Prop where
  stored : inbound ∈ after.messages
  id : inbound.id = inboundId inputs db clientMessageId
  runs : after.agentRuns = db.agentRuns
  turns : ∀ key, existingTurnMessages after "web" key = existingTurnMessages db "web" key
  prior : hasPriorInbound after.messages conversation.id inbound.id =
    hasPriorInbound db.messages conversation.id inbound.id
  found : existingInbound db clientMessageId = some inbound ∨
    existingInbound db clientMessageId = none ∧ inbound.direction = .inbound ∧
      inbound.conversationId = conversation.id ∧ inbound.senderUserId = some userId

theorem storeInbound_stored {inputs : WebInputs} {userId : Uuid} {channel : ConversationChannel}
    {content : String}
    {after : ChatDb} {inbound : Message}
    (ran : storeInbound inputs userId conversation channel clientMessageId content db =
      .ok (after, inbound)) :
    InboundStored inputs userId conversation clientMessageId db after inbound := by
  unfold storeInbound at ran
  cases found : existingInbound db clientMessageId with
  | some row =>
      simp only [found] at ran
      cases ran
      exact {
        stored := List.mem_of_find?_eq_some found
        id := by simp [inboundId, found]
        runs := rfl
        turns := fun _ => rfl
        prior := rfl
        found := Or.inl found }
  | none =>
      simp only [found] at ran
      obtain ⟨middle, inserted, returned⟩ := bind_eq_ok.mp ran
      obtain ⟨messages_eq, runs_eq⟩ := ChatDb.insertMessage_eq_ok inserted
      cases returned
      exact {
        stored := by simp [messages_eq]
        id := by simp [inboundId, found, newInbound]
        runs := runs_eq
        turns := fun key => by
          simp [existingTurnMessages, messages_eq, Message.hasTurnKey, newInbound]
        prior := by simp [hasPriorInbound, messages_eq]
        found := Or.inr ⟨found, rfl, rfl, rfl⟩ }

/-! ## Isolation -/

/-- The call stayed in its conversation: so do the messages it returned, and so does the
inbound message that triggered a run, which the user sent. -/
structure WebChatIsolated (user : User) (conversationId : Uuid) (db after : ChatDb)
    (turn : WebChatTurn) : Prop where
  replies : ∀ message ∈ turn.assistantMessages, message.conversationId = conversationId
  triggers : ∀ run ∈ after.agentRuns.drop db.agentRuns.length, ∃ trigger ∈ after.messages,
    run.triggerMessageId = some trigger.id ∧ trigger.direction = .inbound ∧
      trigger.conversationId = conversationId ∧ trigger.senderUserId = some user.id

/-- The messages of an earlier turn that a retry finds are in the conversation. -/
def TurnsOwned (db : ChatDb) (conversationId clientMessageId : Uuid) : Prop :=
  ∀ message ∈ existingTurnMessages db "web" (replyKey clientMessageId),
    message.content ≠ "" → message.conversationId = conversationId

/-- The inbound message that the client id finds was sent by the user in the
conversation. -/
def InboundOwned (db : ChatDb) (userId conversationId clientMessageId : Uuid) : Prop :=
  ∀ inbound, existingInbound db clientMessageId = some inbound →
    inbound.direction = .inbound ∧ inbound.conversationId = conversationId ∧
      inbound.senderUserId = some userId

/-- The rows that a client id finds belong to the conversation and the user: the earlier
reply's group; or else, when the agent answers, the earlier turn; or else the earlier
inbound message. -/
def ClientIdOwned (unicode : Unicode) (inputs : WebInputs) (db : ChatDb) (user : User)
    (conversation : Conversation) (clientMessageId : Uuid) (content : String) : Prop :=
  match existingReply db clientMessageId with
  | some reply =>
      ∀ message ∈ loadResponseGroup db reply, message.conversationId = conversation.id
  | none =>
      shouldAnswer unicode inputs db.messages conversation (inboundId inputs db clientMessageId)
          content = .ok true →
        if usesAgent user conversation = true ∧
            existingTurnMessages db "web" (replyKey clientMessageId) ≠ [] then
          TurnsOwned db conversation.id clientMessageId
        else InboundOwned db user.id conversation.id clientMessageId

/-- A retry that gets an earlier turn back is isolated when that turn is. -/
theorem isolated_of_existing_iff {after : ChatDb} {replies : List PersistedReply}
    (runs : after.agentRuns = db.agentRuns)
    (turns : existingTurnMessages after "web" (replyKey clientMessageId) =
      existingTurnMessages db "web" (replyKey clientMessageId))
    (replies_eq : replies =
      ((existingTurnMessages after "web" (replyKey clientMessageId)).filter
        (·.content ≠ "")).map Message.asReply)
    (messages_eq : assistantMessages after replies = .ok messages) :
    WebChatIsolated user conversation.id db after ⟨conversation, messages⟩ ↔
      TurnsOwned db conversation.id clientMessageId := by
  have stored : ∀ message ∈ (existingTurnMessages after "web" (replyKey clientMessageId)).filter
      (·.content ≠ ""), message ∈ after.messages := by
    intro message messageMem
    have selected := (List.mem_filter.mp messageMem).1
    rw [existingTurnMessages, Table.mem_orderBy] at selected
    exact (List.mem_filter.mp selected).1
  rw [replies_eq, assistantMessages_of_stored stored] at messages_eq
  cases messages_eq
  have membership (message : Message) :
      message ∈ (existingTurnMessages after "web" (replyKey clientMessageId)).filter
          (·.content ≠ "") ↔
        message ∈ existingTurnMessages db "web" (replyKey clientMessageId) ∧
          message.content ≠ "" := by
    rw [turns, List.mem_filter, decide_eq_true_eq]
  constructor
  · intro isolated message messageMem content
    exact isolated.replies message ((membership message).mpr ⟨messageMem, content⟩)
  · intro owned
    refine ⟨fun message messageMem => ?_, fun run runMem => ?_⟩
    · obtain ⟨turnMem, content⟩ := (membership message).mp messageMem
      exact owned message turnMem content
    · simp [runs] at runMem

/-- A call that runs a turn is isolated when its inbound message is the user's own. -/
theorem isolated_of_ran_iff {inputs : WebInputs} {channel : ConversationChannel} {runId : Uuid}
    {middle after : ChatDb}
    {inbound : Message} {turn : PersistedTurn}
    (inboundStored : InboundStored inputs user.id conversation clientMessageId db middle inbound)
    (ran : TurnRan (webWake user.id conversation channel inbound.id clientMessageId) runId middle
      after turn)
    (messages_eq : assistantMessages after turn.replies = .ok messages) :
    WebChatIsolated user conversation.id db after ⟨conversation, messages⟩ ↔
      InboundOwned db user.id conversation.id clientMessageId := by
  obtain ⟨bubbles, replies_eq, bubblesOwned⟩ := ran.replies
  rw [replies_eq, assistantMessages_of_stored fun message messageMem =>
    (bubblesOwned message messageMem).1] at messages_eq
  cases messages_eq
  have newRuns : after.agentRuns.drop db.agentRuns.length =
      [⟨runId, conversation.id, user.id, some inbound.id⟩] := by
    rw [ran.runs, inboundStored.runs]
    simp [webWake]
  have stored : inbound ∈ after.messages := ran.kept inbound inboundStored.stored
  constructor
  · intro isolated earlier found
    rcases inboundStored.found with same | ⟨none, -⟩
    · obtain ⟨trigger, triggerMem, trigger_id, owned⟩ := isolated.triggers _ (by
        rw [newRuns]
        exact List.mem_singleton_self _)
      have sameRow : inbound = trigger := after.messages_valid.id.eq_of_mem stored triggerMem
        rfl (by rw [Option.some.inj trigger_id])
      rw [found, Option.some.injEq] at same
      rwa [same, sameRow]
    · rw [none] at found
      cases found
  · intro owned
    refine ⟨fun message messageMem => (bubblesOwned message messageMem).2, fun run runMem => ?_⟩
    rw [newRuns, List.mem_singleton] at runMem
    refine ⟨inbound, stored, by rw [runMem], ?_⟩
    rcases inboundStored.found with found | ⟨-, new⟩
    · exact owned inbound found
    · exact new

theorem answerWebMessage_isolated_iff {inputs : WebInputs} {channel : ConversationChannel}
    {content : String} {after : ChatDb} {turn : WebChatTurn}
    (returned : answerWebMessage unicode inputs user conversation channel clientMessageId content
      db = .ok (after, turn)) :
    WebChatIsolated user conversation.id db after turn ↔
      (shouldAnswer unicode inputs db.messages conversation (inboundId inputs db clientMessageId)
          content = .ok true →
        if usesAgent user conversation = true ∧
            existingTurnMessages db "web" (replyKey clientMessageId) ≠ [] then
          TurnsOwned db conversation.id clientMessageId
        else InboundOwned db user.id conversation.id clientMessageId) := by
  unfold answerWebMessage at returned
  obtain ⟨⟨middle, inbound⟩, storedRan, decided⟩ := bind_eq_ok.mp returned
  have inboundStored := storeInbound_stored storedRan
  obtain ⟨answers, answers_eq, answered⟩ := bind_eq_ok.mp decided
  have sameDecision : shouldAnswer unicode inputs middle.messages conversation inbound.id content =
      shouldAnswer unicode inputs db.messages conversation (inboundId inputs db clientMessageId)
        content := by
    rw [shouldAnswer, inboundStored.prior, inboundStored.id, shouldAnswer]
  rw [← sameDecision, answers_eq]
  cases answers with
  | false =>
      cases answered
      refine ⟨fun _ impossible => by simp at impossible, fun _ => ⟨by simp, fun run runMem => ?_⟩⟩
      simp [inboundStored.runs] at runMem
  | true =>
      obtain ⟨⟨ranDb, webTurn⟩, ran, replied⟩ := bind_eq_ok.mp answered
      obtain ⟨messages, messages_eq, final⟩ := bind_eq_ok.mp replied
      cases final
      simp only [forall_const]
      rcases runWebTurn_cases ran with ⟨agent, earlier, same, replies⟩ | ⟨runs, turnRan⟩
      · subst same
        have earlierBefore : existingTurnMessages db "web" (replyKey clientMessageId) ≠ [] := by
          rw [← inboundStored.turns]
          exact earlier
        rw [if_pos ⟨agent, earlierBefore⟩]
        exact isolated_of_existing_iff inboundStored.runs (inboundStored.turns _) replies messages_eq
      · have runsBefore : ¬ (usesAgent user conversation = true ∧
            existingTurnMessages db "web" (replyKey clientMessageId) ≠ []) := by
          rw [← inboundStored.turns]
          exact runs
        rw [if_neg runsBefore]
        exact isolated_of_ran_iff inboundStored turnRan messages_eq

/-- A call that returns stays in its conversation exactly when the rows that the client
id finds belong to the conversation and the user. -/
theorem sendWebChatMessage_isolated_iff {unicode : Unicode} {inputs : WebInputs} {user : User}
    {conversationId clientMessageId : Uuid} {content : String} {db after : ChatDb}
    {turn : WebChatTurn}
    (returned : sendWebChatMessage unicode inputs user conversationId clientMessageId content db =
      .ok (after, turn)) :
    WebChatIsolated user conversationId db after turn ↔
      ∀ conversation, authorizedConversation db user.id conversationId = .ok conversation →
        ClientIdOwned unicode inputs db user conversation clientMessageId content := by
  unfold sendWebChatMessage at returned
  obtain ⟨conversation, authorized, withChannel⟩ := bind_eq_ok.mp returned
  obtain ⟨channel, -, looked⟩ := bind_eq_ok.mp withChannel
  simp only [authorized, Except.ok.injEq, forall_eq', ClientIdOwned]
  rw [← authorizedConversation_id authorized]
  cases found : existingReply db clientMessageId with
  | none =>
      simp only [found] at looked
      exact answerWebMessage_isolated_iff looked
  | some reply =>
      simp only [found] at looked
      cases looked
      exact ⟨fun isolated => isolated.replies, fun owned => ⟨owned, by simp⟩⟩

/-! ## A client id used in two conversations -/

/-- The reply that another user got in conversation 3 under the client id 7. -/
def otherReply : Message where
  id := 30
  conversationId := 3
  userId := 4
  senderUserId := none
  sourceBindingId := some 31
  sourceChannel := "web"
  sourceExternalId := none
  idempotencyKey := some (replyKey 7)
  responseGroupId := some 32
  responseOrdinal := some 0
  direction := .outbound
  status := .completed
  content := "see you on tuesday"
  rawPayload := []
  createdAt := 0

/-- User 1 has the direct conversation 2; the reply in conversation 3 is not theirs. -/
def sharedIdDb : ChatDb where
  users := [⟨1, none, true⟩, ⟨4, none, true⟩]
  conversations := [
    { id := 2, userId := 1, kind := .direct, title := none, responseMode := .auto,
      groupOwnerSource := none, isActive := true },
    { id := 3, userId := 4, kind := .direct, title := none, responseMode := .auto,
      groupOwnerSource := none, isActive := true }]
  members := []
  channels := [⟨21, 2, "web", "user:1", some "web", true⟩, ⟨31, 3, "web", "user:4", some "web", true⟩]
  agentRuns := []
  messages := [otherReply]
  messages_valid := by decide

def sharedIdInputs : WebInputs where
  inboundId := 40
  now := 0
  participation := .ok true
  wake := ⟨41, .error (.raised "unused"), 42, fun i => 50 + i, fun _ => 0⟩
  onboarding := .error (.raised "unused")

/-- The call of user 1 with the client id of user 4. -/
def sharedIdCall : Except TurnError (ChatDb × WebChatTurn) :=
  sendWebChatMessage Unicode.ascii sharedIdInputs ⟨1, none, true⟩ 2 7 "hello" sharedIdDb

private theorem sharedIdCall_returns :
    ∃ after turn, sharedIdCall = .ok (after, turn) ∧ turn.assistantMessages = [otherReply] := by
  obtain ⟨⟨after, turn⟩, returned⟩ : ∃ outcome, sharedIdCall = .ok outcome :=
    exists_eq_ok (by decide)
  refine ⟨after, turn, returned, ?_⟩
  have replies : sharedIdCall.toOption.map (fun outcome => outcome.2.assistantMessages) =
      some [otherReply] := by
    decide
  simpa [returned, Except.toOption] using replies

/-- The equivalence at the call with the shared client id. -/
theorem sendWebChatMessage_isolated_iff_shared_id :
    ∃ after turn, sharedIdCall = .ok (after, turn) ∧
      (WebChatIsolated ⟨1, none, true⟩ 2 sharedIdDb after turn ↔
        ∀ conversation, authorizedConversation sharedIdDb 1 2 = .ok conversation →
          ClientIdOwned Unicode.ascii sharedIdInputs sharedIdDb ⟨1, none, true⟩ conversation 7
            "hello") := by
  obtain ⟨after, turn, returned, -⟩ := sharedIdCall_returns
  exact ⟨after, turn, returned, sendWebChatMessage_isolated_iff returned⟩

/-- User 1 is returned the reply of another user's conversation. -/
theorem sendWebChatMessage_returns_foreign_reply :
    ∃ after turn, sharedIdCall = .ok (after, turn) ∧
      ¬ WebChatIsolated ⟨1, none, true⟩ 2 sharedIdDb after turn := by
  obtain ⟨after, turn, returned, replies⟩ := sharedIdCall_returns
  refine ⟨after, turn, returned, fun isolated => ?_⟩
  have foreign := isolated.replies otherReply (by simp [replies])
  exact absurd foreign (by decide)

end DotBackend.Channel
