import DotBackend.Agents.Service

/-!
# Delivery of trusted links

The link tools hand the model addresses that it is meant to send; the wake collects them
so that a forgotten one can be appended. The collector takes lists and tuples only, and
the wake passes it a generator, so an address is delivered exactly when the model wrote
it itself.
-/

namespace DotBackend.Agents

open Data Channel

/-- The distinct `https` addresses that the link tools returned in a run. -/
def linkUrls (calls : List ExecutedToolCall) : List (List Char) :=
  collectUrls [] (calls.map ExecutedToolCall.asJson)

/-- The model wrote an address itself, where cleaning and the safety limit leave it. -/
def WrittenByModel (messages : List (List Char)) (url : List Char) : Prop :=
  ∃ paragraph ∈ (cleanParagraphs messages).take deliveryBubbleSafetyLimit, url <:+: paragraph

/-- Without a required address, nothing that the tools returned reaches the bubbles. -/
theorem cleanMessages_none (result : AgentResult) :
    cleanMessages none result = prepareTextBubbles result.messages := by
  simp [cleanMessages, trustedUrlsFromToolOutputs]

theorem bubbleMessages_contents (wake : Wake) (inputs : WakeInputs)
    (payload : List (String × Json)) (ordinal : Nat) (bubbles : List (List Char)) :
    (bubbleMessages wake inputs payload ordinal bubbles).map
        (fun message => message.content.toList) = bubbles := by
  induction bubbles generalizing ordinal with
  | nil => rfl
  | cons text rest ih =>
      rw [bubbleMessages, List.map_cons, ih]
      simp [outboundMessage]

/-- The replies of a stored turn are its bubbles. -/
theorem persistTurn_replies {wake : Wake} {inputs : WakeInputs} {target : Option String}
    {result : AgentResult} {db after : ChatDb} {turn : PersistedTurn}
    (stored : persistTurn wake inputs target result db = .ok (after, turn)) :
    turn.replies.map (fun reply => reply.text.toList) =
      cleanMessages wake.requiredAppUrl result := by
  unfold persistTurn at stored
  simp only at stored
  split at stored
  · rename_i noBubbles
    split at stored
    · cases stored
      simp [noBubbles.1]
    · cases stored
  · rw [bind_eq_ok] at stored
    obtain ⟨middle, -, returned⟩ := stored
    cases returned
    rw [List.map_map]
    exact bubbleMessages_contents wake inputs _ 0 _

/-- A wake that ran the model replies with the bubbles of its result. -/
theorem runAgentWake_replies {unicode : Unicode} {wake : Wake} {inputs : WakeInputs}
    {db after : ChatDb} {turn : PersistedTurn} {result : AgentResult}
    (ran : runAgentWake unicode wake inputs db = .ok (after, turn))
    (fresh : loadExistingTurn db wake.sourceChannel wake.idempotencyKey = none)
    (returned : inputs.result = .ok result) :
    turn.replies.map (fun reply => reply.text.toList) =
      cleanMessages wake.requiredAppUrl result := by
  simp only [runAgentWake, fresh] at ran
  split at ran
  · simp only [returned] at ran
    exact persistTurn_replies ran
  · cases ran

/-- In a turn without a required address, every address that a link tool returned is in
a reply exactly when the model wrote every one of them. -/
theorem runAgentWake_delivers_links_iff {unicode : Unicode} {wake : Wake}
    {inputs : WakeInputs} {db after : ChatDb} {turn : PersistedTurn} {result : AgentResult}
    (ran : runAgentWake unicode wake inputs db = .ok (after, turn))
    (fresh : loadExistingTurn db wake.sourceChannel wake.idempotencyKey = none)
    (returned : inputs.result = .ok result) (noRequired : wake.requiredAppUrl = none) :
    (∀ url ∈ linkUrls result.toolCalls, ∃ reply ∈ turn.replies, url <:+: reply.text.toList) ↔
      ∀ url ∈ linkUrls result.toolCalls, WrittenByModel result.messages url := by
  have replies := runAgentWake_replies ran fresh returned
  rw [noRequired, cleanMessages_none] at replies
  have sameTexts (url : List Char) : (∃ reply ∈ turn.replies, url <:+: reply.text.toList) ↔
      WrittenByModel result.messages url := by
    have inReplies : (∃ reply ∈ turn.replies, url <:+: reply.text.toList) ↔
        ∃ text ∈ turn.replies.map (fun reply => reply.text.toList), url <:+: text := by
      simp
    rw [inReplies, replies]
    rfl
  simp only [sameTexts]

/-! ## A turn whose link is lost -/

/-- A direct conversation without messages. -/
def linkDb : ChatDb where
  users := [{ id := 1, displayName := none, onboarded := true }]
  conversations := [{
    id := 2, userId := 1, kind := .direct, title := none, responseMode := .auto,
    groupOwnerSource := none, isActive := true }]
  members := []
  channels := []
  agentRuns := []
  messages := []
  messages_valid := by decide

def linkWake : Wake where
  conversationId := 2
  userId := 1
  triggerMessageId := none
  purpose := .conversation
  wakeType := "user_message"
  sourceChannel := "web"
  sourceBindingId := none
  idempotencyKey := "benji:web:1:reply"
  requiredAppUrl := none

/-- The model asked for the link of an app and then forgot to send it. -/
def linkResult : AgentResult where
  messages := ["here is your app".toList]
  responseId := "r1"
  toolCalls := [{
    callId := "c1", name := "create_custom_app_link", arguments := [],
    output := [("app_url", .str "https://dot.app/a/1")], succeeded := true }]
  reaction := none

def linkInputs : WakeInputs where
  runId := 10
  result := .ok linkResult
  responseGroupId := 11
  messageId i := 20 + i
  clock _ := 0

private theorem linkWake_returns :
    ∃ outcome, runAgentWake Unicode.ascii linkWake linkInputs linkDb = .ok outcome :=
  exists_eq_ok (by decide)

/-- The equivalence at the turn of the forgotten link. -/
theorem runAgentWake_delivers_links_iff_forgotten :
    ∃ after turn, runAgentWake Unicode.ascii linkWake linkInputs linkDb = .ok (after, turn) ∧
      ((∀ url ∈ linkUrls linkResult.toolCalls,
          ∃ reply ∈ turn.replies, url <:+: reply.text.toList) ↔
        ∀ url ∈ linkUrls linkResult.toolCalls, WrittenByModel linkResult.messages url) := by
  obtain ⟨⟨after, turn⟩, ran⟩ := linkWake_returns
  exact ⟨after, turn, ran, runAgentWake_delivers_links_iff ran rfl rfl rfl⟩

/-- The turn is persisted, and the only link of its run is in no reply. -/
theorem runAgentWake_loses_forgotten_link :
    ∃ after turn, runAgentWake Unicode.ascii linkWake linkInputs linkDb = .ok (after, turn) ∧
      turn.replies ≠ [] ∧
        linkUrls linkResult.toolCalls = ["https://dot.app/a/1".toList] ∧
          ∀ reply ∈ turn.replies, ¬ "https://dot.app/a/1".toList <:+: reply.text.toList := by
  obtain ⟨⟨after, turn⟩, ran⟩ := linkWake_returns
  have replies : turn.replies.map (fun reply => reply.text.toList) = ["here is your app".toList] :=
    (runAgentWake_replies ran rfl rfl).trans (by decide)
  refine ⟨after, turn, ran, ?_, by decide, ?_⟩
  · intro noReplies
    simp [noReplies] at replies
  · intro reply replyMem contained
    have text_eq : reply.text.toList = "here is your app".toList := by
      have textMem := List.mem_map_of_mem (f := fun reply => reply.text.toList) replyMem
      rw [replies] at textMem
      exact List.mem_singleton.mp textMem
    rw [text_eq] at contained
    exact absurd ((Text.occurs_iff _ _).mpr contained) (by decide)

end DotBackend.Agents
