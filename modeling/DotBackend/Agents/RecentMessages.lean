import DotBackend.Channel.Schema
import DotBackend.Data.Rebuild

/-!
# Recent messages

The model is shown the last messages of a conversation up to the message that woke it. Messages
of the same time or later are left out, so that nothing that arrives meanwhile is answered with it.
-/

namespace DotBackend.Agents

open Data Channel

/-! ## Attachments -/

/-- What `urlsplit` makes of an address; `port` is `none` where reading it raises `ValueError`. -/
structure SplitUrl where
  scheme : String
  hostname : Option String
  username : Option String
  password : Option String
  port : Option (Option Nat)
  fragment : String

/-- The parser of addresses, which raises `ValueError` for some, and the Unicode tables. -/
structure MediaLibrary extends Unicode where
  urlsplit : String → Option SplitUrl

/-- A library that knows ASCII and reads no address. -/
def MediaLibrary.ascii : MediaLibrary :=
  { Unicode.ascii with urlsplit := fun _ => none }

structure MessageAttachment where
  id : Uuid
  messageId : Uuid
  provider : String
  providerAttachmentId : Option String
  partIndex : Int
  filename : Option String
  mimeType : Option String
  sizeBytes : Option Int
  sourceUrl : Option String
  sourceUrlExpiresAt : Option Instant
  deriving DecidableEq

inductive AttachmentKind
  | image | file | media
  deriving DecidableEq

structure AgentAttachment where
  kind : AttachmentKind
  mimeType : Option String
  filename : Option String
  url : Option String
  provider : String
  providerId : Option String
  sizeBytes : Option Int
  deriving DecidableEq

/-- `ValueError`, raised by the parser of addresses. -/
inductive HistoryError
  | valueError
  deriving DecidableEq

def modelImageMimeTypes : List String :=
  ["image/jpeg", "image/png", "image/webp"]

def modelFileMimeTypes : List String :=
  ["application/pdf"]

def maxModelAttachmentBytes : Int :=
  20 * 1024 * 1024

def MediaLibrary.casefold (library : MediaLibrary) (value : String) : String :=
  String.ofList (Text.casefold library.toUnicode value.toList)

/-- `_url_is_model_safe`. -/
def urlIsModelSafe (library : MediaLibrary) (now : Instant) (attachment : MessageAttachment) :
    Except HistoryError Bool :=
  match attachment.sourceUrl with
  | none => .ok false
  | some sourceUrl =>
      if attachment.provider ≠ "linq" then .ok false
      else if attachment.sizeBytes.any fun size => maxModelAttachmentBytes < size then .ok false
      else match library.urlsplit sourceUrl with
        | none => .error .valueError
        | some parsed => match parsed.port with
          | none => .ok false
          | some port =>
              .ok (library.casefold parsed.scheme = "https" &&
                (parsed.hostname.map library.casefold) = some "cdn.linqapp.com" &&
                parsed.username.isNone && parsed.password.isNone &&
                (port = none || port = some 443) && parsed.fragment = "" &&
                attachment.sourceUrlExpiresAt.all fun expiresAt => now < expiresAt)

/-- `model_attachment`. -/
def modelAttachment (library : MediaLibrary) (now : Instant) (attachment : MessageAttachment) :
    Except HistoryError AgentAttachment := do
  let mimeType := (attachment.mimeType.filter (· ≠ "")).map library.casefold
  let kind := if mimeType.any (· ∈ modelImageMimeTypes) then AttachmentKind.image
    else if mimeType.any (· ∈ modelFileMimeTypes) then .file
    else .media
  let safe ← if kind = .media then .ok false else urlIsModelSafe library now attachment
  pure ⟨kind, mimeType, attachment.filename, if safe then attachment.sourceUrl else none,
    attachment.provider, attachment.providerAttachmentId, attachment.sizeBytes⟩

/-! ## Messages -/

/-- What is read of the user that sent a message. -/
structure Sender where
  id : Uuid
  displayName : Option String
  phoneNumber : Option String
  deriving DecidableEq

structure History where
  conversations : List Conversation
  messages : List Message
  users : List Sender
  attachments : List MessageAttachment
  messages_valid : Table.UniqueOn (fun message => some message.id) messages

inductive AgentRole
  | user | assistant
  deriving DecidableEq

structure AgentMessage where
  role : AgentRole
  content : String
  attachments : List AgentAttachment
  deriving DecidableEq

/-- The outer join with the users. -/
def History.senderOf (history : History) (message : Message) : Option Sender :=
  message.senderUserId.bind fun senderId => history.users.find? (·.id = senderId)

/-- `_group_message_content`. -/
def groupMessageContent (message : Message) (sender : Option Sender) : String :=
  let label := match sender.bind fun sender => sender.displayName.filter (· ≠ "") with
    | some displayName => displayName
    | none => match sender.bind fun sender => sender.phoneNumber.filter (· ≠ "") with
      | some phoneNumber => "member ending " ++
          String.ofList (phoneNumber.toList.drop (phoneNumber.length - 4))
      | none => match Json.lookup message.rawPayload "_sender_label" with
        | some (.str label) => if label ≠ "" then label else "group member"
        | _ => "group member"
  "[" ++ label ++ "]: " ++ message.content

/-- The content of a message as the model reads it. -/
def readContent (conversation : Conversation) (message : Message) (sender : Option Sender) : String :=
  if conversation.kind = .group ∧ message.direction = .inbound then groupMessageContent message sender
  else message.content

/-- A message as the model reads it. -/
def agentMessage (library : MediaLibrary) (now : Instant) (conversation : Conversation)
    (sender : Option Sender) (attachments : List MessageAttachment) (message : Message) :
    Except HistoryError AgentMessage := do
  let read ← attachments.mapM (modelAttachment library now)
  pure ⟨if message.direction = .inbound then .user else .assistant,
    readContent conversation message sender, read⟩

/-- `ORDER BY message_id, part_index`. -/
def MessageAttachment.before (a b : MessageAttachment) : Bool :=
  a.messageId < b.messageId || (a.messageId = b.messageId && a.partIndex ≤ b.partIndex)

/-- The attachments of some messages. -/
def History.attachmentRows (history : History) (rows : List Message) : List MessageAttachment :=
  Table.orderBy MessageAttachment.before (history.attachments.filter fun attachment =>
    attachment.messageId ∈ rows.map (·.id))

/-- The newest messages that may be shown, the oldest first. -/
def History.recentRows (history : History) (conversationId : Uuid) (limit : Nat)
    (through : Option Message) : List Message :=
  let selected := history.messages.filter fun message =>
    message.conversationId = conversationId && message.content ≠ "" &&
      through.all fun through => message.createdAt < through.createdAt || message.id = through.id
  ((Table.orderBy (fun a b => b.createdAt ≤ a.createdAt) selected).take limit).reverse

/-- `load_recent_messages`. -/
def loadRecentMessages (library : MediaLibrary) (now : Instant) (history : History)
    (conversationId : Uuid) (limit : Nat) (throughMessageId : Option Uuid) :
    Except HistoryError (List AgentMessage) :=
  match history.conversations.find? (·.id = conversationId) with
  | none => .ok []
  | some conversation =>
      let through := throughMessageId.bind fun id => history.messages.find? (·.id = id)
      if throughMessageId.isSome && !through.any (·.conversationId = conversationId) then .ok []
      else
        let rows := history.recentRows conversationId limit through
        let attachmentRows := history.attachmentRows rows
        rows.mapM fun message => agentMessage library now conversation (history.senderOf message)
          (attachmentRows.filter (·.messageId = message.id)) message

/-! ## Nothing later is read -/

/-- The trigger, and the messages of its conversation that were created before it. -/
def upTo (trigger message : Message) : Bool :=
  message.id = trigger.id ||
    (message.conversationId = trigger.conversationId && message.createdAt < trigger.createdAt)

/-- Two histories that are the same up to a trigger, in the order in which they are read. -/
structure SameUpTo (trigger : Message) (first second : History) : Prop where
  conversation : first.conversations.find? (·.id = trigger.conversationId) =
    second.conversations.find? (·.id = trigger.conversationId)
  messages : first.messages.filter (upTo trigger) = second.messages.filter (upTo trigger)
  senders : ∀ message ∈ first.messages, upTo trigger message = true →
    first.senderOf message = second.senderOf message
  attachments : first.attachments.filter (fun attachment =>
      attachment.messageId ∈ (first.messages.filter (upTo trigger)).map (·.id)) =
    second.attachments.filter fun attachment =>
      attachment.messageId ∈ (second.messages.filter (upTo trigger)).map (·.id)

section LookAhead

variable {library : MediaLibrary} {now : Instant} {first second history : History}
  {trigger : Message} {limit : Nat}

theorem find?_trigger (triggerMem : trigger ∈ history.messages) :
    history.messages.find? (·.id = trigger.id) = some trigger :=
  history.messages_valid.find?_eq_some triggerMem

/-- The messages that may be shown are among those up to the trigger. -/
theorem recentRows_eq (history : History) (trigger : Message) (limit : Nat) :
    history.recentRows trigger.conversationId limit (some trigger) =
      ((Table.orderBy (fun a b => b.createdAt ≤ a.createdAt)
        ((history.messages.filter (upTo trigger)).filter fun message =>
          message.conversationId = trigger.conversationId && message.content ≠ "")).take
            limit).reverse := by
  rw [History.recentRows, List.filter_filter]
  congr 3
  apply List.filter_congr
  intro message _
  rw [Option.all_some, upTo]
  by_cases isConversation : message.conversationId = trigger.conversationId
  · simp only [isConversation, decide_true, Bool.true_and]
    rw [Bool.or_comm]
  · simp [isConversation]

theorem mem_recentRows {message : Message}
    (messageMem : message ∈ history.recentRows trigger.conversationId limit (some trigger)) :
    message ∈ history.messages ∧ upTo trigger message = true := by
  rw [recentRows_eq, List.mem_reverse] at messageMem
  have selected := Table.mem_orderBy.mp (List.mem_of_mem_take messageMem)
  exact List.mem_filter.mp (List.mem_of_mem_filter selected)

theorem recentRows_congr (same : SameUpTo trigger first second) :
    first.recentRows trigger.conversationId limit (some trigger) =
      second.recentRows trigger.conversationId limit (some trigger) := by
  rw [recentRows_eq, recentRows_eq, same.messages]

/-- Attachments are read of messages up to the trigger only. -/
theorem attachmentRows_congr (same : SameUpTo trigger first second) {rows : List Message}
    (rowsMem : ∀ row ∈ rows, row ∈ first.messages ∧ upTo trigger row = true) :
    first.attachmentRows rows = second.attachmentRows rows := by
  have ofRelevant : ∀ history : History, (∀ row ∈ rows, row ∈ history.messages ∧
      upTo trigger row = true) → history.attachments.filter (fun attachment =>
        attachment.messageId ∈ rows.map (·.id)) =
      (history.attachments.filter fun attachment => attachment.messageId ∈
        (history.messages.filter (upTo trigger)).map (·.id)).filter fun attachment =>
          attachment.messageId ∈ rows.map (·.id) := by
    intro history areStored
    rw [List.filter_filter]
    apply List.filter_congr
    intro attachment _
    by_cases isRow : attachment.messageId ∈ rows.map (·.id)
    · have isStored : attachment.messageId ∈
          (history.messages.filter (upTo trigger)).map (·.id) := by
        rcases List.mem_map.mp isRow with ⟨row, rowMem, isId⟩
        exact List.mem_map.mpr ⟨row, List.mem_filter.mpr (areStored row rowMem), isId⟩
      rw [decide_eq_true isRow, decide_eq_true isStored]
      rfl
    · rw [decide_eq_false isRow, Bool.false_and]
  have alsoSecond : ∀ row ∈ rows, row ∈ second.messages ∧ upTo trigger row = true := by
    intro row rowMem
    have inFirst := List.mem_filter.mpr (rowsMem row rowMem)
    rw [same.messages] at inFirst
    exact List.mem_filter.mp inFirst
  rw [History.attachmentRows, History.attachmentRows, ofRelevant first rowsMem,
    ofRelevant second alsoSecond, same.attachments]

/-- Two histories that are the same up to the trigger are read alike. -/
theorem loadRecentMessages_congr (triggerMem : trigger ∈ first.messages)
    (same : SameUpTo trigger first second) :
    loadRecentMessages library now first trigger.conversationId limit (some trigger.id) =
      loadRecentMessages library now second trigger.conversationId limit (some trigger.id) := by
  have alsoSecond : trigger ∈ second.messages := by
    have inFirst : trigger ∈ first.messages.filter (upTo trigger) :=
      List.mem_filter.mpr ⟨triggerMem, by simp [upTo]⟩
    rw [same.messages] at inFirst
    exact List.mem_of_mem_filter inFirst
  have rowsMem := fun row rowMem => @mem_recentRows first trigger limit row rowMem
  rw [loadRecentMessages, loadRecentMessages, ← same.conversation]
  cases first.conversations.find? (·.id = trigger.conversationId) with
  | none => rfl
  | some conversation =>
      simp only [Option.bind_some, find?_trigger triggerMem, find?_trigger alsoSecond,
        ← recentRows_congr same, ← attachmentRows_congr same rowsMem]
      split
      · rfl
      · apply mapM_congr
        intro message messageMem
        rcases rowsMem message messageMem with ⟨inFirst, isUpTo⟩
        rw [same.senders message inFirst isUpTo]

/-! ## What is shown -/

/-- The order of creation, the newest first. -/
theorem pairwise_newest (messages : List Message) :
    (Table.orderBy (fun a b : Message => b.createdAt ≤ a.createdAt) messages).Pairwise
      fun a b => b.createdAt ≤ a.createdAt := by
  have total : Std.Total fun a b : Message => (decide (b.createdAt ≤ a.createdAt)) = true :=
    ⟨fun a b => by
      rw [decide_eq_true_eq, decide_eq_true_eq]
      exact le_total b.createdAt a.createdAt⟩
  have transitive : IsTrans Message fun a b => (decide (b.createdAt ≤ a.createdAt)) = true :=
    ⟨fun a b c first second => by
      rw [decide_eq_true_eq] at first second ⊢
      exact le_trans second first⟩
  apply (List.pairwise_insertionSort _ messages).imp
  intro a b isBefore
  exact of_decide_eq_true isBefore

/-- The trigger is the newest of the messages that may be shown. -/
theorem getLast?_recentRows (triggerMem : trigger ∈ history.messages)
    (hasContent : trigger.content ≠ "") (positive : 1 ≤ limit) :
    (history.recentRows trigger.conversationId limit (some trigger)).getLast? = some trigger := by
  rw [recentRows_eq, List.getLast?_reverse]
  generalize selected_eq : (history.messages.filter (upTo trigger)).filter (fun message =>
    message.conversationId = trigger.conversationId && message.content ≠ "") = selected
  have triggerSelected : trigger ∈ selected := by
    rw [← selected_eq]
    simp [triggerMem, upTo, hasContent]
  have newest := pairwise_newest selected
  have triggerSorted : trigger ∈
      Table.orderBy (fun a b : Message => b.createdAt ≤ a.createdAt) selected :=
    Table.mem_orderBy.mpr triggerSelected
  cases sorted_eq : Table.orderBy (fun a b : Message => b.createdAt ≤ a.createdAt) selected with
  | nil =>
      rw [sorted_eq] at triggerSorted
      cases triggerSorted
  | cons head rest =>
      rw [sorted_eq] at newest triggerSorted
      have isHead : head = trigger := by
        rcases List.mem_cons.mp triggerSorted with same | isLater
        · exact same.symm
        · have notOlder := (List.pairwise_cons.mp newest).1 trigger isLater
          have headSelected : head ∈ selected := by
            rw [← Table.mem_orderBy, sorted_eq]
            exact List.mem_cons_self
          rw [← selected_eq] at headSelected
          rcases List.mem_filter.mp (List.mem_of_mem_filter headSelected) with ⟨headMem, isUpTo⟩
          simp only [upTo, Bool.or_eq_true, Bool.and_eq_true, decide_eq_true_eq] at isUpTo
          rcases isUpTo with sameId | ⟨_, isOlder⟩
          · exact history.messages_valid.eq_of_mem headMem triggerMem rfl (by rw [sameId])
          · exact absurd isOlder (not_lt.mpr notOlder)
      cases limit with
      | zero => exact absurd positive (by decide)
      | succ limit => rw [List.take_succ_cons, List.head?_cons, isHead]

theorem pairwise_recentRows (history : History) (trigger : Message) (limit : Nat) :
    (history.recentRows trigger.conversationId limit (some trigger)).Pairwise
      fun a b => a.createdAt ≤ b.createdAt := by
  rw [recentRows_eq, List.pairwise_reverse]
  exact List.Pairwise.sublist (List.take_sublist limit _) (pairwise_newest _)

theorem length_recentRows_le (history : History) (trigger : Message) (limit : Nat) :
    (history.recentRows trigger.conversationId limit (some trigger)).length ≤ limit := by
  rw [recentRows_eq, List.length_reverse]
  exact List.length_take_le limit _

/-- A message in a group is shown with a label before it. -/
theorem suffix_readContent (conversation : Conversation) (message : Message)
    (sender : Option Sender) :
    message.content.toList <:+ (readContent conversation message sender).toList := by
  rw [readContent]
  split
  · rw [groupMessageContent, String.toList_append]
    exact List.suffix_append ..
  · exact List.suffix_refl _

/-- What is read of a conversation up to a trigger. -/
structure ReadUpTo (library : MediaLibrary) (now : Instant) (history : History)
    (conversation : Conversation) (trigger : Message) (limit : Nat) (result : List AgentMessage) :
    Prop where
  /-- The messages that are shown, in the order of their creation. -/
  rows : ∃ rows : List Message, rows.Pairwise (fun a b => a.createdAt ≤ b.createdAt) ∧
    (∀ row ∈ rows, row ∈ history.messages ∧ upTo trigger row = true) ∧
    List.Forall₂ (fun row shown => ∃ attachments, agentMessage library now conversation
      (history.senderOf row) attachments row = .ok shown) rows result
  few : result.length ≤ limit
  /-- The trigger is the last message that is shown. -/
  last : ∃ shown, result.getLast? = some shown ∧
    shown.content = readContent conversation trigger (history.senderOf trigger) ∧
      trigger.content.toList <:+ shown.content.toList

theorem getLast?_forall₂ {α β : Type} {relation : α → β → Prop} {items : List α} {others : List β}
    {last : α} (related : List.Forall₂ relation items others) (isLast : items.getLast? = some last) :
    ∃ other, others.getLast? = some other ∧ relation last other := by
  induction related with
  | nil => cases isLast
  | @cons a b items others first rest ih =>
      cases rest with
      | nil =>
          cases isLast
          exact ⟨b, rfl, first⟩
      | cons second rest =>
          rw [List.getLast?_cons_cons] at isLast ⊢
          exact ih isLast

/-- Whatever was created at the time of the trigger or later, the model is shown the same: messages
in the order of their creation, no more than the limit, with the trigger at the end. -/
theorem no_look_ahead (library : MediaLibrary) (now : Instant) (first second : History)
    (conversation : Conversation) (trigger : Message) (limit : Nat)
    (isConversation : first.conversations.find? (·.id = trigger.conversationId) = some conversation)
    (triggerMem : trigger ∈ first.messages) (hasContent : trigger.content ≠ "")
    (positive : 1 ≤ limit) (same : SameUpTo trigger first second) :
    loadRecentMessages library now first trigger.conversationId limit (some trigger.id) =
      loadRecentMessages library now second trigger.conversationId limit (some trigger.id) ∧
    ∀ result, loadRecentMessages library now first trigger.conversationId limit (some trigger.id) =
      .ok result → ReadUpTo library now first conversation trigger limit result := by
  refine ⟨loadRecentMessages_congr triggerMem same, ?_⟩
  intro result loaded
  rw [loadRecentMessages, isConversation] at loaded
  simp only [Option.bind_some, find?_trigger triggerMem, Option.isSome_some, Option.any_some,
    decide_true, Bool.not_true, Bool.and_false, Bool.false_eq_true, if_false, mapM_eq_ok] at loaded
  have isLast := @getLast?_recentRows first trigger limit triggerMem hasContent positive
  constructor
  · refine ⟨_, pairwise_recentRows first trigger limit, fun row rowMem => mem_recentRows rowMem, ?_⟩
    apply loaded.imp
    intro row shown isShown
    exact ⟨_, isShown⟩
  · rw [← loaded.length_eq]
    exact length_recentRows_le first trigger limit
  · rcases getLast?_forall₂ loaded isLast with ⟨shown, shownLast, isShown⟩
    simp only [agentMessage, bind_eq_ok, pure_eq_ok] at isShown
    rcases isShown with ⟨_, _, rfl⟩
    exact ⟨_, shownLast, rfl, suffix_readContent conversation trigger _⟩

end LookAhead

/-! ## A message that arrives meanwhile -/

/-- A message of a user in a conversation. -/
def plainMessage (id : Uuid) (createdAt : Instant) (content : String) : Message where
  id := id
  conversationId := 2
  userId := 1
  senderUserId := some 1
  sourceBindingId := none
  sourceChannel := "linq"
  sourceExternalId := none
  idempotencyKey := none
  responseGroupId := none
  responseOrdinal := none
  direction := .inbound
  status := .received
  content := content
  rawPayload := []
  createdAt := createdAt

/-- A question and what came before it. -/
def quietHistory : History where
  conversations := [{
    id := 2, userId := 1, kind := .direct, title := none, responseMode := .auto,
    groupOwnerSource := none, isActive := true }]
  messages := [plainMessage 10 5 "hi", plainMessage 11 7 "what is the plan?"]
  users := [⟨1, some "Ann", none⟩]
  attachments := []
  messages_valid := by decide

/-- The same, with another message of the same time and one that came later. -/
def busyHistory : History where
  conversations := quietHistory.conversations
  messages := [plainMessage 12 7 "never mind", plainMessage 10 5 "hi",
    plainMessage 11 7 "what is the plan?", plainMessage 13 9 "hello?"]
  users := quietHistory.users
  attachments := [⟨30, 13, "linq", none, 0, none, none, none, none, none⟩]
  messages_valid := by decide

theorem no_look_ahead_busy :
    loadRecentMessages MediaLibrary.ascii 100 quietHistory 2 20 (some 11) =
      loadRecentMessages MediaLibrary.ascii 100 busyHistory 2 20 (some 11) := by
  have same : SameUpTo (plainMessage 11 7 "what is the plan?") quietHistory busyHistory := by
    constructor
    · rfl
    · decide
    · decide
    · decide
  exact (no_look_ahead MediaLibrary.ascii 100 quietHistory busyHistory _
    (plainMessage 11 7 "what is the plan?") 20 rfl (by decide) (by decide) (by decide) same).1

end DotBackend.Agents
