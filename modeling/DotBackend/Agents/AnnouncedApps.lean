import DotBackend.Agents.EventDispatch
import DotBackend.Agents.TurnReplay
import DotBackend.Channel.WebChatIsolation
import DotBackend.Data.UuidText

/-!
# Finished apps are announced

The event of a finished app carries its address, and the event is marked as processed only
when a message of the conversation has that address. Three mechanisms bring it there: the
rewritten answer of the model, the link that is stored after a failed generation, and the
link that is stored after the last attempt. Each of them finds the messages of the others
by the key of the event.
-/

namespace DotBackend.Agents

open Data Channel Transition

variable {event : UserEvent} {db : ChatDb} {inputs : DispatchInputs} {rewriter : UrlRewriter}
  {address : String} {reached : DispatchPoint} {system : Dispatch}

/-! ## The key of an event -/

theorem ordinary_uuidText (id : Uuid) : ∀ c ∈ uuidText id, Text.Ordinary c := by
  have absent : ∀ c : Char, c ≠ '-' → (∀ digit < 16, Nat.digitChar digit ≠ c) → ∀ d ∈ uuidText id,
      d ≠ c := by
    intro c notDash notHex d mem same
    rw [same] at mem
    exact absurd mem (not_mem_uuidText notDash notHex id)
  intro c mem
  exact ⟨absent '%' (by decide) (by decide) c mem, absent '_' (by decide) (by decide) c mem,
    absent '\\' (by decide) (by decide) c mem⟩

theorem ordinary_messageKey (event : UserEvent) :
    ∀ c ∈ event.messageKey.toList, Text.Ordinary c := by
  intro c mem
  have key_eq : event.messageKey.toList = "benji:user-event:".toList ++ uuidText event.id := by
    change ("benji:user-event:" ++ String.ofList (uuidText event.id)).toList = _
    rw [String.toList_append, String.toList_ofList, String.toList_ofList]
  rw [key_eq] at mem
  rcases List.mem_append.mp mem with fixed | ofId
  · have allOrdinary : ∀ d ∈ "benji:user-event:".toList, d ≠ '%' ∧ d ≠ '_' ∧ d ≠ '\\' := by decide
    exact allOrdinary c fixed
  · exact ordinary_uuidText event.id c ofId

/-- A row with something behind the key of the event is found. -/
theorem hasTurnKey_later {message : Message} {part : String}
    (key : message.idempotencyKey = some (event.messageKey ++ ":" ++ part)) :
    Message.hasTurnKey event.messageKey message = true := by
  have matched : Text.like (event.messageKey ++ ":%").toList
      (event.messageKey ++ ":" ++ part).toList = true := by
    rw [String.append_assoc, String.toList_append, String.toList_append,
      Text.like_ordinary_append (ordinary_messageKey event), String.toList_append]
    have separator : ∀ c ∈ [':'], Text.Ordinary c := by
      intro c mem
      rw [List.mem_singleton.mp mem]
      exact colon_ordinary
    exact (Text.like_ordinary_append separator ['%'] part.toList).mpr (Text.like_everything _)
  rw [hasTurnKey_of_key key, matched, Bool.or_true]

theorem hasTurnKey_first {message : Message}
    (key : message.idempotencyKey = some event.messageKey) :
    Message.hasTurnKey event.messageKey message = true := by
  rw [hasTurnKey_of_key key, decide_eq_true rfl, Bool.true_or]

theorem mem_ownMessages {message : Message} :
    message ∈ ownMessages event db ↔ message ∈ db.messages ∧ message.sourceChannel = "event" ∧
      Message.hasTurnKey event.messageKey message = true := by
  simp [ownMessages]

theorem existingTurnMessages_own (event : UserEvent) (db : ChatDb) :
    existingTurnMessages db "event" event.messageKey =
      Table.orderBy Message.beforeInTurn (ownMessages event db) :=
  rfl

theorem mem_existingTurnMessages {message : Message} :
    message ∈ existingTurnMessages db "event" event.messageKey ↔
      message ∈ ownMessages event db := by
  rw [existingTurnMessages_own, Table.mem_orderBy]

theorem loadExistingTurn_own {turn : PersistedTurn}
    (loaded : loadExistingTurn db "event" event.messageKey = some turn) :
    ownMessages event db ≠ [] := by
  intro none
  rw [loadExistingTurn_eq, existingTurnMessages_own, none] at loaded
  exact nomatch loaded

/-! ## What a transaction keeps -/

/-- The messages of the event are in its conversation, and one of them has the address. -/
structure LinkFirst (event : UserEvent) (url : List Char) (db : ChatDb) : Prop where
  place : ∀ message ∈ ownMessages event db, db.eventConversation event = some message.conversationId
  linked : ownMessages event db ≠ [] →
    ∃ message ∈ ownMessages event db, url <:+: message.content.toList

/-- The conversation of the event and the messages that have the address stay as they are. -/
structure LinksKept (event : UserEvent) (url : List Char) (before after : ChatDb) : Prop where
  conversation : ∀ id, before.eventConversation event = some id →
    after.eventConversation event = some id
  messages : ∀ message ∈ ownMessages event before, url <:+: message.content.toList →
    message ∈ ownMessages event after

variable {event : UserEvent} {url : List Char} {db after : ChatDb}

theorem LinksKept.refl : LinksKept event url db db where
  conversation _ same := same
  messages _ own _ := own

/-- The messages of an event do not disappear. -/
theorem LinksKept.own_ne_nil (kept : LinksKept event url db after)
    (first : LinkFirst event url db) (stored : ownMessages event db ≠ []) :
    ownMessages event after ≠ [] := by
  obtain ⟨message, own, linked⟩ := first.linked stored
  exact List.ne_nil_of_mem (kept.messages message own linked)

/-- A transaction that stores no message. -/
structure MessagesUntouched (event : UserEvent) (before after : ChatDb) : Prop where
  messages : after.messages = before.messages
  conversation : ∀ id, before.eventConversation event = some id →
    after.eventConversation event = some id

theorem MessagesUntouched.own (untouched : MessagesUntouched event db after) :
    ownMessages event after = ownMessages event db := by
  rw [ownMessages, ownMessages, untouched.messages]

theorem MessagesUntouched.kept (untouched : MessagesUntouched event db after) :
    LinksKept event url db after where
  conversation := untouched.conversation
  messages _ own _ := untouched.own ▸ own

theorem MessagesUntouched.first (untouched : MessagesUntouched event db after)
    (first : LinkFirst event url db) : LinkFirst event url after where
  place message own := untouched.conversation _ (first.place message (untouched.own ▸ own))
  linked := untouched.own ▸ first.linked

/-! ## The conversation -/

theorem resolveDirectConversation_eq_ok {userId : Uuid} {conversation : Conversation}
    (resolved : resolveDirectConversation db userId inputs = .ok (after, conversation)) :
    after.messages = db.messages ∧ after.directConversation userId = some conversation ∧
      ∀ found, db.directConversation userId = some found → found = conversation := by
  unfold resolveDirectConversation at resolved
  cases found : db.directConversation userId with
  | some existing =>
      rw [found] at resolved
      cases resolved
      refine ⟨rfl, found, ?_⟩
      rintro _ ⟨⟩
      rfl
  | none =>
      simp only [found] at resolved
      split at resolved
      · contradiction
      · split at resolved
        · cases resolved
        · cases resolved
          refine ⟨rfl, ?_, by rintro _ ⟨⟩⟩
          unfold ChatDb.directConversation at found ⊢
          rw [List.find?_append, found]
          simp
      · cases resolved

/-- A worker goes to the conversation of the event, and nothing changes it later. -/
theorem resolveEventTarget_eq_ok {conversation : Conversation}
    {channel : Option ConversationChannel}
    (resolved : resolveEventTarget db event inputs = .ok (after, conversation, channel)) :
    MessagesUntouched event db after ∧
      after.eventConversation event = some conversation.id := by
  unfold resolveEventTarget at resolved
  cases place : event.conversationId with
  | none =>
      simp only [place] at resolved
      obtain ⟨⟨middle, chosen⟩, found, returned⟩ := bind_eq_ok.mp resolved
      cases returned
      obtain ⟨messages, direct, same⟩ := resolveDirectConversation_eq_ok found
      have placed := middle.eventConversation_direct place
      rw [direct] at placed
      refine ⟨⟨messages, ?_⟩, placed⟩
      intro id before
      rw [db.eventConversation_direct place, Option.map_eq_some_iff] at before
      obtain ⟨earlier, earlier_eq, rfl⟩ := before
      rw [same earlier earlier_eq]
      exact placed
  | some id =>
      simp only [place] at resolved
      cases stored : db.conversation? id with
      | none =>
          rw [stored] at resolved
          cases resolved
      | some existing =>
          rw [stored] at resolved
          obtain ⟨_, -, returned⟩ := bind_eq_ok.mp resolved
          cases returned
          have isNamed := List.find?_some stored
          have existing_id : existing.id = id := of_decide_eq_true isNamed
          refine ⟨⟨rfl, fun _ same => same⟩, ?_⟩
          rw [existing_id]
          exact db.eventConversation_named place

/-! ## Storing the link -/

theorem requiredAppCompletionUrl_eq_ok {required : Option (List Char)}
    (isCompletion : event.eventType = "app.build.completed")
    (checked : requiredAppCompletionUrl event = .ok required) :
    ∃ url : String, Json.lookup event.payload "app_url" = some (.str url) ∧
      required = some url.toList := by
  unfold requiredAppCompletionUrl at checked
  rw [if_neg (not_not_intro isCompletion)] at checked
  split at checked
  · rename_i url found
    obtain ⟨_, -, returned⟩ := bind_eq_ok.mp checked
    cases returned
    exact ⟨url, found, rfl⟩
  · cases checked

/-- Some bubble has the address, whatever the model said. -/
theorem appCompletionBubbles_linked {texts bubbles : List (List Char)}
    (prepared : appCompletionBubbles rewriter texts url = .ok bubbles) :
    ∃ bubble ∈ bubbles, url <:+: bubble := by
  obtain ⟨rewritten, -, returned⟩ := bind_eq_ok.mp prepared
  cases returned
  by_cases linked : rewritten.any (Text.occurs url) = true
  · rw [if_pos linked]
    obtain ⟨bubble, mem, contained⟩ := List.any_eq_true.mp linked
    exact ⟨bubble, mem, (Text.occurs_iff url bubble).mp contained⟩
  · rw [if_neg linked]
    exact ⟨url, by simp, List.infix_refl url⟩

/-- Rows of the event that are put behind the others, one of which has the address. -/
theorem append_linked {rows : List Message} (first : LinkFirst event url db)
    (appended : after.messages = db.messages ++ rows)
    (conversation : after.eventConversation event = db.eventConversation event)
    (ofEvent : ∀ row ∈ rows, row.sourceChannel = "event" ∧
      Message.hasTurnKey event.messageKey row = true ∧
      db.eventConversation event = some row.conversationId)
    (linked : ∃ row ∈ rows, url <:+: row.content.toList) :
    LinkFirst event url after ∧ LinksKept event url db after ∧ ownMessages event after ≠ [] := by
  have own : ownMessages event after = ownMessages event db ++ rows := by
    rw [ownMessages, ownMessages, appended, List.filter_append]
    congr 1
    rw [List.filter_eq_self]
    intro row mem
    obtain ⟨channel, key, -⟩ := ofEvent row mem
    simp [channel, key]
  obtain ⟨row, rowMem, contained⟩ := linked
  have rowOwn : row ∈ ownMessages event after := own ▸ List.mem_append_right _ rowMem
  refine ⟨⟨?_, fun _ => ⟨row, rowOwn, contained⟩⟩, ⟨?_, ?_⟩, List.ne_nil_of_mem rowOwn⟩
  · intro message mem
    rw [conversation]
    rcases List.mem_append.mp (own ▸ mem) with earlier | new
    · exact first.place message earlier
    · exact (ofEvent message new).2.2
  · intro id same
    rw [conversation]
    exact same
  · intro message mem _
    exact own ▸ List.mem_append_left _ mem

theorem insertMessage_conversations {message : Message}
    (inserted : db.insertMessage message = .ok after) : after.conversations = db.conversations := by
  unfold ChatDb.insertMessage at inserted
  split at inserted
  · cases inserted
    rfl
  · cases inserted

theorem insertMessages_conversations {messages : List Message}
    (inserted : db.insertMessages messages = .ok after) :
    after.conversations = db.conversations := by
  induction messages generalizing db with
  | nil =>
      cases inserted
      rfl
  | cons message rest ih =>
      obtain ⟨middle, first, later⟩ := bind_eq_ok.mp inserted
      rw [ih later, insertMessage_conversations first]

theorem eventConversation_congr (same : after.conversations = db.conversations) :
    after.eventConversation event = db.eventConversation event := by
  rw [ChatDb.eventConversation, ChatDb.eventConversation, ChatDb.directConversation,
    ChatDb.directConversation, same]

/-- The answer of the model is stored with the link. -/
theorem generate_links {target : Target} {turn : PersistedTurn}
    (first : LinkFirst event address.toList db)
    (isCompletion : event.eventType = "app.build.completed")
    (hasUrl : Json.lookup event.payload "app_url" = some (.str address))
    (place : db.eventConversation event = some target.conversationId)
    (generated : generate rewriter event target inputs db = .ok (after, turn)) :
    LinkFirst event address.toList after ∧ LinksKept event address.toList db after ∧
      ownMessages event after ≠ [] := by
  obtain ⟨_, -, unfailed⟩ := bind_eq_ok.mp generated
  obtain ⟨required, checked, answered⟩ := bind_eq_ok.mp unfailed
  obtain ⟨found, found_eq, rfl⟩ := requiredAppCompletionUrl_eq_ok isCompletion checked
  rw [hasUrl] at found_eq
  cases found_eq
  obtain ⟨result, -, stored⟩ := bind_eq_ok.mp answered
  obtain ⟨bubbles, prepared, persisted⟩ := bind_eq_ok.mp stored
  obtain ⟨bubble, bubbleMem, contained⟩ := appCompletionBubbles_linked prepared
  rw [if_neg (List.ne_nil_of_mem bubbleMem)] at persisted
  obtain ⟨middle, inserted, returned⟩ := bind_eq_ok.mp persisted
  cases returned
  obtain ⟨messages_eq, -⟩ := ChatDb.insertMessages_eq_ok inserted
  apply append_linked first messages_eq
    (eventConversation_congr (insertMessages_conversations inserted))
  · intro row rowMem
    refine ⟨channel_of_mem_bubbleMessages rowMem, ?_, ?_⟩
    · obtain ⟨i, -, -, key_eq⟩ := key_of_mem_bubbleMessages rowMem
      rw [bubbleKey] at key_eq
      split at key_eq
      · exact hasTurnKey_first key_eq
      · exact hasTurnKey_later key_eq
    · rw [conversationId_of_mem_bubbleMessages rowMem]
      exact place
  · have contents := bubbleMem
    rw [← bubbleMessages_contents (eventWake event target (some address.toList)) inputs.wake
      (turnPayload inputs.wake result.responseId ++
        [("wake_type", .str (eventWake event target (some address.toList)).wakeType)]) 0 bubbles]
      at contents
    obtain ⟨row, rowMem, rfl⟩ := List.mem_map.mp contents
    exact ⟨row, rowMem, contained⟩

/-- The fallback stores the link, unless a message of the event has it already. -/
theorem ensureAppCompletionTurn_links {target : Target} {inputs : WakeInputs}
    {turn : PersistedTurn} (first : LinkFirst event address.toList db)
    (hasUrl : Json.lookup event.payload "app_url" = some (.str address))
    (place : db.eventConversation event = some target.conversationId)
    (ensured : ensureAppCompletionTurn event target inputs db = .ok (after, turn)) :
    LinkFirst event address.toList after ∧ LinksKept event address.toList db after ∧
      ownMessages event after ≠ [] := by
  unfold ensureAppCompletionTurn at ensured
  simp only [hasUrl] at ensured
  obtain ⟨_, -, checked⟩ := bind_eq_ok.mp ensured
  by_cases nothing : ownMessages event db = []
  · -- Nothing is stored under the key, so the link is.
    have noMessages : existingTurnMessages db "event" event.messageKey = [] := by
      rw [existingTurnMessages_own, nothing]
      rfl
    rw [noMessages] at checked
    obtain ⟨middle, inserted, returned⟩ := bind_eq_ok.mp checked
    cases returned
    obtain ⟨messages_eq, -⟩ := ChatDb.insertMessage_eq_ok inserted
    apply append_linked first messages_eq
      (eventConversation_congr (insertMessage_conversations inserted))
    · intro row rowMem
      rw [List.mem_singleton.mp rowMem]
      exact ⟨rfl, hasTurnKey_first rfl, place⟩
    · exact ⟨_, List.mem_singleton_self _, List.infix_refl _⟩
  · -- Whatever is stored has the link among it.
    obtain ⟨message, own, contained⟩ := first.linked nothing
    have linked : (existingTurnMessages db "event" event.messageKey).any
        (fun message => Text.occurs address.toList message.content.toList) = true := by
      rw [List.any_eq_true]
      exact ⟨message, mem_existingTurnMessages.mpr own, (Text.occurs_iff _ _).mpr contained⟩
    rw [if_pos linked] at checked
    cases checked
    exact ⟨first, LinksKept.refl, nothing⟩

/-! ## Workers -/

/-- Where a worker continues the conversation, once it knows. -/
def DispatchPoint.target? : DispatchPoint → Option Target
  | .claimed | .settling => none
  | .targeted target | .generating target | .fallingBack target | .delivering target _ |
    .finishing target => some target
  | .raised target | .exhausted target => target

/-- The worker has seen that something is stored for the event. -/
def DispatchPoint.hasTurn : DispatchPoint → Bool
  | .delivering .. | .finishing _ | .settling => true
  | _ => false

/-- What holds of a worker. -/
structure PointSound (event : UserEvent) (db : ChatDb) (point : DispatchPoint) : Prop where
  place : ∀ target, point.target? = some target →
    db.eventConversation event = some target.conversationId
  turn : point.hasTurn = true → ownMessages event db ≠ []

/-- The event of a finished app, with its address. -/
structure AppCompleted (event : UserEvent) (address : String) : Prop where
  eventType : event.eventType = "app.build.completed"
  appUrl : Json.lookup event.payload "app_url" = some (.str address)
  notBlank : Text.strip address.toList ≠ []

structure Announcing (address : String) (system : Dispatch) : Prop where
  completed : AppCompleted system.event address
  first : LinkFirst system.event address.toList system.db
  workers : ∀ worker point, system.workers worker = some point →
    PointSound system.event system.db point
  processed : system.event.status = .processed → ownMessages system.event system.db ≠ []

theorem PointSound.kept {point : DispatchPoint} (sound : PointSound event db point)
    (first : LinkFirst event url db) (kept : LinksKept event url db after) :
    PointSound event after point where
  place target isTarget := kept.conversation _ (sound.place target isTarget)
  turn has := kept.own_ne_nil first (sound.turn has)

/-- A transaction of a worker and where the worker stands after it. -/
structure Advanced (event : UserEvent) (url : List Char) (db after : ChatDb)
    (point : Option DispatchPoint) : Prop where
  first : LinkFirst event url after
  kept : LinksKept event url db after
  sound : ∀ reached, point = some reached → PointSound event after reached

theorem Advanced.stay {point : Option DispatchPoint} (first : LinkFirst event url db)
    (place : ∀ reached, point = some reached → ∀ target, reached.target? = some target →
      db.eventConversation event = some target.conversationId)
    (turn : ∀ reached, point = some reached → reached.hasTurn = true → ownMessages event db ≠ []) :
    Advanced event url db db point where
  first := first
  kept := LinksKept.refl
  sound reached isReached := ⟨place reached isReached, turn reached isReached⟩

/-- A worker with a target goes on to a point with the same target. -/
theorem Advanced.keep {target : Target} (first : LinkFirst event url db)
    (place : db.eventConversation event = some target.conversationId)
    (sameTarget : reached.target? = some target)
    (turn : reached.hasTurn = true → ownMessages event db ≠ []) :
    Advanced event url db db (some reached) := by
  apply Advanced.stay first
  · intro _ same found isTarget
    cases same
    rw [sameTarget] at isTarget
    cases isTarget
    exact place
  · intro _ same has
    cases same
    exact turn has

theorem Advanced.store {target : Target}
    (stored : LinkFirst event url after ∧ LinksKept event url db after ∧
      ownMessages event after ≠ [])
    (place : db.eventConversation event = some target.conversationId)
    (sameTarget : ∀ found, reached.target? = some found → found = target) :
    Advanced event url db after (some reached) where
  first := stored.1
  kept := stored.2.1
  sound := by
    intro _ same
    cases same
    constructor
    · intro found isTarget
      rw [sameTarget found isTarget]
      exact stored.2.1.conversation _ place
    · intro _
      exact stored.2.2

theorem Advanced.untouched (first : LinkFirst event url db)
    (untouched : MessagesUntouched event db after)
    (place : ∀ target, reached.target? = some target →
      after.eventConversation event = some target.conversationId)
    (noTurn : reached.hasTurn = false) : Advanced event url db after (some reached) where
  first := untouched.first first
  kept := untouched.kept
  sound := by
    rintro _ ⟨⟩
    constructor
    · exact place
    · intro has
      rw [noTurn] at has
      cases has

theorem advanceClaimed_sound (inputs : DispatchInputs) (first : LinkFirst event url db) :
    Advanced event url db (advanceClaimed event db inputs).1
      (some (advanceClaimed event db inputs).2) := by
  unfold advanceClaimed
  split
  · apply Advanced.stay first
    · rintro _ ⟨⟩ _ ⟨⟩
    · rintro _ ⟨⟩ ⟨⟩
  · rename_i middle conversation channel resolved
    split at resolved
    · cases resolved
    · obtain ⟨untouched, place⟩ := resolveEventTarget_eq_ok resolved
      split
      · apply Advanced.untouched first untouched _ rfl
        rintro _ ⟨⟩
        exact place
      · apply Advanced.untouched first untouched _ rfl
        rintro _ ⟨⟩
        exact place

theorem generationFailed_sound {target : Target} (first : LinkFirst event url db)
    (place : db.eventConversation event = some target.conversationId) :
    Advanced event url db db (some (generationFailed event target)) := by
  unfold generationFailed
  split
  · exact Advanced.keep first place rfl nofun
  · exact Advanced.keep first place rfl nofun

theorem advanceTargeted_sound {target : Target} (inputs : DispatchInputs)
    (first : LinkFirst event url db)
    (place : db.eventConversation event = some target.conversationId) :
    Advanced event url db (advanceTargeted event target db inputs).1
      (some (advanceTargeted event target db inputs).2) := by
  have failed := generationFailed_sound first place
  unfold advanceTargeted
  split
  · exact failed
  · split
    · exact failed
    · split
      · rename_i turn loaded
        exact Advanced.keep first place rfl fun _ => loadExistingTurn_own loaded
      · split
        · exact failed
        · have opened : MessagesUntouched event db (db.insertRun
              ⟨inputs.wake.runId, target.conversationId, event.userId, none⟩) :=
            ⟨rfl, fun _ same => same⟩
          apply Advanced.untouched first opened
          · rintro _ ⟨⟩
            exact place
          · rfl

theorem advanceGenerating_sound {target : Target} (inputs : DispatchInputs)
    (completed : AppCompleted event address)
    (first : LinkFirst event address.toList db)
    (place : db.eventConversation event = some target.conversationId) :
    Advanced event address.toList db (advanceGenerating rewriter event target db inputs).1
      (some (advanceGenerating rewriter event target db inputs).2) := by
  unfold advanceGenerating
  split
  · exact generationFailed_sound first place
  · rename_i after turn generated
    apply Advanced.store (generate_links first completed.eventType completed.appUrl place generated)
      place
    rintro _ ⟨⟩
    rfl

theorem advanceFallingBack_sound {target : Target} (inputs : DispatchInputs)
    (completed : AppCompleted event address) (first : LinkFirst event address.toList db)
    (place : db.eventConversation event = some target.conversationId) :
    Advanced event address.toList db (advanceFallingBack event target db inputs).1
      (some (advanceFallingBack event target db inputs).2) := by
  unfold advanceFallingBack
  split
  · exact Advanced.keep first place rfl nofun
  · rename_i after turn ensured
    split at ensured
    · cases ensured
    · apply Advanced.store (ensureAppCompletionTurn_links first completed.appUrl place ensured)
        place
      rintro _ ⟨⟩
      rfl

theorem Advanced.return (first : LinkFirst event url db) : Advanced event url db db none := by
  apply Advanced.stay first
  · rintro _ ⟨⟩
  · rintro _ ⟨⟩

theorem advanceExhausted_sound {target : Target} (inputs : DispatchInputs)
    (completed : AppCompleted event address) (first : LinkFirst event address.toList db)
    (place : db.eventConversation event = some target.conversationId) :
    Advanced event address.toList db (advanceExhausted event target db inputs).1
      (advanceExhausted event target db inputs).2 := by
  unfold advanceExhausted
  simp only [if_pos completed.eventType]
  split
  · exact Advanced.return first
  · rename_i after turn ensured
    split at ensured
    · cases ensured
    · apply Advanced.store (ensureAppCompletionTurn_links first completed.appUrl place ensured)
        place
      rintro _ ⟨⟩

theorem advanceUnresolved_sound (inputs : DispatchInputs) (first : LinkFirst event url db) :
    Advanced event url db (advanceUnresolved event db inputs).1
      (advanceUnresolved event db inputs).2 := by
  unfold advanceUnresolved
  split
  · exact Advanced.return first
  · rename_i middle conversation channel resolved
    split at resolved
    · cases resolved
    · obtain ⟨untouched, place⟩ := resolveEventTarget_eq_ok resolved
      apply Advanced.untouched first untouched _ rfl
      rintro _ ⟨⟩
      exact place

/-- A step keeps the invariant and every message of the event that has the address. -/
structure KeepsLink (address : String) (system after : Dispatch) : Prop where
  announcing : Announcing address after
  messages : ∀ message ∈ ownMessages system.event system.db,
    address.toList <:+: message.content.toList → message ∈ ownMessages after.event after.db

theorem Announcing.moved {worker : Nat}
    {point : Option DispatchPoint} {status : UserEventStatus} {attempts : Nat}
    {nextAttemptAt : Instant} {lockedAt : Option Instant} (announcing : Announcing address system)
    (advanced : Advanced system.event address.toList system.db db point)
    (processed : status = .processed → system.event.status = .processed ∨
      ownMessages system.event db ≠ []) :
    KeepsLink address system
      ⟨{ system.event with
        status := status, attempts := attempts, nextAttemptAt := nextAttemptAt,
        lockedAt := lockedAt }, db, Function.update system.workers worker point⟩ := by
  refine ⟨?_, advanced.kept.messages⟩
  constructor
  · exact ⟨announcing.completed.eventType, announcing.completed.appUrl,
      announcing.completed.notBlank⟩
  · exact ⟨advanced.first.place, advanced.first.linked⟩
  · intro other reached isReached
    have sound : PointSound system.event db reached := by
      dsimp only at isReached
      by_cases same : other = worker
      · rw [same, Function.update_self] at isReached
        exact advanced.sound reached isReached
      · rw [Function.update_of_ne same] at isReached
        exact (announcing.workers other reached isReached).kept announcing.first advanced.kept
    exact ⟨sound.place, sound.turn⟩
  · intro isProcessed
    rcases processed isProcessed with before | stored
    · exact advanced.kept.own_ne_nil announcing.first (announcing.processed before)
    · exact stored

/-- What every step of every worker preserves. -/
theorem Announcing.advance {rewriter : UrlRewriter} {maxAttempts : Nat} {address : String}
    {system : Dispatch} {worker : Nat} {point : DispatchPoint} {inputs : DispatchInputs}
    (announcing : Announcing address system) (stands : system.workers worker = some point) :
    KeepsLink address system (advanceDispatch rewriter maxAttempts system worker point inputs) := by
  obtain ⟨place, turn⟩ := announcing.workers worker point stands
  have first := announcing.first
  have completed := announcing.completed
  have leaves : Advanced system.event address.toList system.db system.db none :=
    Advanced.return first
  cases point with
  | claimed =>
      have isAgentEvent : "app.build.completed" ∈ agentEventTypes := by decide
      simp only [advanceDispatch, completed.eventType, if_neg (not_not_intro isAgentEvent)]
      exact announcing.moved (advanceClaimed_sound inputs first) Or.inl
  | targeted target =>
      exact announcing.moved (advanceTargeted_sound inputs first (place target rfl)) Or.inl
  | generating target =>
      exact announcing.moved (advanceGenerating_sound inputs completed first (place target rfl))
        Or.inl
  | fallingBack target =>
      exact announcing.moved (advanceFallingBack_sound inputs completed first (place target rfl))
        Or.inl
  | delivering target stored =>
      simp only [advanceDispatch]
      split
      · exact announcing.moved (Advanced.keep first (place target rfl) rfl nofun) Or.inl
      · exact announcing.moved (Advanced.keep first (place target rfl) rfl fun _ => turn rfl) Or.inl
  | finishing target =>
      simp only [advanceDispatch]
      split
      · exact announcing.moved (Advanced.keep first (place target rfl) rfl nofun) Or.inl
      · exact announcing.moved leaves fun _ => Or.inr (turn rfl)
  | raised target =>
      simp only [advanceDispatch]
      split
      · exact announcing.moved leaves Or.inl
      · have failed : UserEventStatus.failed = .processed → system.event.status = .processed ∨
            ownMessages system.event system.db ≠ [] := nofun
        split
        · have exhausted : Advanced system.event address.toList system.db system.db
              (some (.exhausted target)) := by
            apply Advanced.stay first
            · rintro _ ⟨⟩ found isTarget
              exact place found isTarget
            · rintro _ ⟨⟩ ⟨⟩
          exact announcing.moved exhausted failed
        · exact announcing.moved leaves failed
  | exhausted target =>
      cases target with
      | none => exact announcing.moved (advanceUnresolved_sound inputs first) Or.inl
      | some target =>
          exact announcing.moved (advanceExhausted_sound inputs completed first (place target rfl))
            Or.inl
  | settling =>
      simp only [advanceDispatch]
      split
      · exact announcing.moved leaves Or.inl
      · exact announcing.moved leaves fun _ => Or.inr (turn rfl)

theorem eventConversation_of_keepsEvent (keeps : keepsEvent event db after = true) {id : Uuid}
    (same : db.eventConversation event = some id) : after.eventConversation event = some id := by
  cases place : event.conversationId with
  | some named =>
      rw [db.eventConversation_named place] at same
      rw [after.eventConversation_named place]
      exact same
  | none =>
      rw [db.eventConversation_direct place, Option.map_eq_some_iff] at same
      obtain ⟨conversation, found, rfl⟩ := same
      rw [after.eventConversation_direct place]
      simp only [keepsEvent, found, Option.all_some, Bool.and_eq_true, decide_eq_true_eq] at keeps
      exact keeps.2

theorem Announcing.other (announcing : Announcing address system)
    (keeps : keepsEvent system.event system.db db = true) :
    KeepsLink address system { system with db := db } := by
  have own : ownMessages system.event db = ownMessages system.event system.db := by
    simp only [keepsEvent, Bool.and_eq_true, decide_eq_true_eq] at keeps
    exact keeps.1
  have conversation : ∀ id, system.db.eventConversation system.event = some id →
      db.eventConversation system.event = some id :=
    fun _ same => eventConversation_of_keepsEvent keeps same
  refine ⟨?_, fun message mem _ => own ▸ mem⟩
  constructor
  · exact announcing.completed
  · constructor
    · intro message mem
      exact conversation _ (announcing.first.place message (own ▸ mem))
    · rw [own]
      exact announcing.first.linked
  · intro worker point stands
    obtain ⟨place, turn⟩ := announcing.workers worker point stands
    constructor
    · intro target isTarget
      exact conversation _ (place target isTarget)
    · rw [own]
      exact turn
  · rw [own]
    exact announcing.processed

theorem Announcing.step {maxAttempts : Nat} {after : Dispatch} {step : DispatchStep}
    (announcing : Announcing address system)
    (stepped : dispatchStep rewriter maxAttempts system step = some after) :
    KeepsLink address system after := by
  have leaves : Advanced system.event address.toList system.db system.db none :=
    Advanced.return announcing.first
  cases step with
  | claim worker now =>
      simp only [dispatchStep] at stepped
      split at stepped
      · cases stepped
        have claimed : Advanced system.event address.toList system.db system.db (some .claimed) := by
          apply Advanced.stay announcing.first
          · rintro _ ⟨⟩ _ ⟨⟩
          · rintro _ ⟨⟩ ⟨⟩
        have processing : UserEventStatus.processing = .processed →
            system.event.status = .processed ∨ ownMessages system.event system.db ≠ [] := nofun
        exact announcing.moved claimed processing
      · cases stepped
  | advance worker inputs =>
      obtain ⟨point, stands, rfl⟩ := Option.map_eq_some_iff.mp stepped
      exact announcing.advance stands
  | crash worker =>
      obtain ⟨point, stands, rfl⟩ := Option.map_eq_some_iff.mp stepped
      exact announcing.moved leaves Or.inl
  | other db =>
      simp only [dispatchStep] at stepped
      split at stepped
      · rename_i keeps
        cases stepped
        exact announcing.other keeps
      · cases stepped

/-! ## Whole runs -/

theorem KeepsLink.run {maxAttempts : Nat} {after : Dispatch}
    (announcing : Announcing address system)
    (run : Run (dispatchStep rewriter maxAttempts) (fun _ _ => True) system after) :
    KeepsLink address system after := by
  induction run with
  | refl => exact ⟨announcing, fun _ own _ => own⟩
  | tail _ _ stepped ih =>
      obtain ⟨before, kept⟩ := ih
      obtain ⟨reached, keptNext⟩ := before.step stepped
      exact ⟨reached, fun message own linked => keptNext message (kept message own linked) linked⟩

/-- An event that no worker has claimed and that has no message yet. -/
structure NewEvent (system : Dispatch) : Prop where
  notProcessed : system.event.status ≠ .processed
  noMessages : ownMessages system.event system.db = []
  noWorkers : ∀ worker, system.workers worker = none

theorem NewEvent.announcing (isNew : NewEvent system)
    (completed : AppCompleted system.event address) : Announcing address system where
  completed := completed
  first := by
    constructor
    · intro message mem
      rw [isNew.noMessages] at mem
      exact absurd mem List.not_mem_nil
    · intro stored
      exact absurd isNew.noMessages stored
  workers worker point stands := by
    rw [isNew.noWorkers worker] at stands
    cases stands
  processed isProcessed := absurd isProcessed isNew.notProcessed

/-- A message of the event in its conversation that has an address. -/
structure HasLink (event : UserEvent) (address : String) (db : ChatDb) (message : Message) :
    Prop where
  stored : message ∈ db.messages
  channel : message.sourceChannel = "event"
  conversation : db.eventConversation event = some message.conversationId
  linked : address.toList <:+: message.content.toList

/-- In every run the event of a finished app is processed only when a message has its address,
and no step removes or changes a message of the event that has it. -/
theorem app_is_announced {rewriter : UrlRewriter} {maxAttempts : Nat} {address : String}
    {system after : Dispatch} (completed : AppCompleted system.event address)
    (isNew : NewEvent system)
    (run : Run (dispatchStep rewriter maxAttempts) (fun _ _ => True) system after) :
    (after.event.status = .processed →
        ∃ message, HasLink after.event address after.db message) ∧
      ∀ later, Run (dispatchStep rewriter maxAttempts) (fun _ _ => True) after later →
        ∀ message ∈ ownMessages after.event after.db,
          address.toList <:+: message.content.toList → message ∈ later.db.messages := by
  have announcing := (KeepsLink.run (isNew.announcing completed) run).announcing
  constructor
  · intro processed
    obtain ⟨message, own, linked⟩ := announcing.first.linked (announcing.processed processed)
    obtain ⟨stored, channel, -⟩ := mem_ownMessages.mp own
    exact ⟨message, stored, channel, announcing.first.place message own, linked⟩
  · intro later continued message own linked
    have kept := (KeepsLink.run announcing continued).messages message own linked
    exact (mem_ownMessages.mp kept).1

/-! ## A failed model and a crash -/

/-- Addresses with a backslash are refused. -/
def plainRewriter : UrlRewriter where
  sub url bubble :=
    if '\\' ∈ url then .error (.raised "bad escape")
    else .ok (Text.substitute (httpUrl url) bubble)
  sub_plain _ _ plain := if_neg plain

def finishedApp : UserEvent where
  id := 5
  userId := 1
  conversationId := some 2
  eventType := "app.build.completed"
  payload := [("app_url", .str "https://dot.app/a")]
  deliveryProvider := none
  status := .pending
  attempts := 0
  nextAttemptAt := 0
  lockedAt := none

def finishedAppSystem : Dispatch :=
  ⟨finishedApp, replayDb, fun _ => none⟩

def dispatchInputs (result : Except TurnError AgentResult) : DispatchInputs where
  now := 0
  fails := false
  latest := List.head?
  newConversation := none
  optedOut := false
  canDeliver := true
  hasProvider := true
  wake := { replayInputs 10 [] with result := result }

/-- The model fails, the first worker stores the link and crashes, the second finds it. -/
def crashedDispatch : List DispatchStep :=
  let failing := dispatchInputs (.error (.raised "model unavailable"))
  [.claim 0 0, .advance 0 failing, .advance 0 failing, .advance 0 failing, .advance 0 failing,
    .crash 0, .claim 1 staleAfter, .advance 1 failing, .advance 1 failing, .advance 1 failing,
    .advance 1 failing]

theorem finishedApp_is_announced : ∃ after : Dispatch, after.event.status = .processed ∧
    after.event.attempts = 2 ∧
    ∃ message, HasLink after.event "https://dot.app/a" after.db message := by
  have executed : (execute (dispatchStep plainRewriter 3) (fun _ _ => true) finishedAppSystem
      crashedDispatch).any
        (fun after => after.event.status = .processed && after.event.attempts = 2) = true := by
    decide
  rw [Option.any_eq_true] at executed
  obtain ⟨after, reached, ended⟩ := executed
  rw [Bool.and_eq_true, decide_eq_true_eq, decide_eq_true_eq] at ended
  have completed : AppCompleted finishedAppSystem.event "https://dot.app/a" :=
    ⟨rfl, rfl, by decide⟩
  have isNew : NewEvent finishedAppSystem := ⟨by decide, rfl, fun _ => rfl⟩
  have run := (run_of_execute reached).mono fun _ _ _ => True.intro
  exact ⟨after, ended.1, ended.2, (app_is_announced completed isNew run).1 ended.1⟩

end DotBackend.Agents
