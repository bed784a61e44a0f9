import DotBackend.Groups.Ownership

/-!
# Members of groups

The members of a group are read from the events of the provider and from the lists of
participants that it sends. Somebody who is in both is one member: members are matched by
their handle and by the user that their handle belongs to.
-/

namespace DotBackend.Groups

open Data Channel Apps

/-- What the service reads of users and their identifiers, and of the values of a
provider. -/
structure Directory where
  /-- `_canonical_handle`. -/
  canonicalHandle : String → String
  /-- `_find_optional_identifier_user`. -/
  findUser : String → Option User
  /-- `get_primary_user_handle`. -/
  primaryHandle : User → String
  /-- `_parse_datetime` of a text. -/
  parseDatetime : String → Option Instant
  /-- `str` of a value that is not a text. -/
  text : Json → String

/-- Handles that are normalized already, of which two belong to users. -/
def tripDirectory : Directory where
  canonicalHandle handle := handle
  findUser handle :=
    if handle = "+14155552681" then some ⟨7, some "Alice", true⟩
    else if handle = "+14155552682" then some ⟨8, some "Bob", true⟩
    else none
  primaryHandle user := if user.id = 7 then "+14155552681" else "+14155552682"
  parseDatetime _ := none
  text _ := ""

/-! ## Values of the provider -/

/-- `first or second`. -/
def orElse (first second : Option Json) : Option Json :=
  if first.any Json.truthy then first else second

/-- `isinstance(value, str)`. -/
def textOf : Option Json → Option String
  | some (.str text) => some text
  | _ => none

/-- `_clean_optional_text`. -/
def cleanOptionalText (value : Option Json) (maxLength : Nat) : Option String :=
  match textOf value with
  | none => none
  | some text =>
      let clean := Text.strip text.toList
      if clean.isEmpty then none else some (String.ofList (clean.take maxLength))

/-- `first or second`, of two columns. -/
def orText (first second : Option String) : Option String :=
  if first.any (· ≠ "") then first else second

/-- The status that a text stands for. -/
def statusOfText (text : String) : ConversationMemberStatus :=
  if text = "active" then .active
  else if text = "left" then .left
  else if text = "removed" then .removed
  else .other text

/-- `str(value or default)`. -/
def statusOf (directory : Directory) (value : Option Json) (default : ConversationMemberStatus) :
    ConversationMemberStatus :=
  match value with
  | none => default
  | some (.str text) => if text = "" then default else statusOfText text
  | some value => if value.truthy then statusOfText (directory.text value) else default

def parsedDatetime (directory : Directory) (value : Option Json) : Option Instant :=
  (textOf value).bind directory.parseDatetime

/-! ## One member -/

/-- The arguments of `_upsert_group_member`. -/
structure Participant where
  handle : String
  user : Option User
  role : ConversationMemberRole
  service : Option String
  externalId : Option String
  displayName : Option String
  status : ConversationMemberStatus
  joinedAt : Option Instant
  leftAt : Option Instant

namespace Participant

/-- The rows that stand for a participant. -/
def isRowOf (conversationId : Uuid) (participant : Participant) (member : ConversationMember) :
    Bool :=
  member.conversationId = conversationId &&
    (member.externalHandle = participant.handle ||
      participant.user.any fun user => member.userId = some user.id)

/-- The row of a participant who had none. -/
def newRow (id conversationId : Uuid) (now : Instant) (participant : Participant) :
    ConversationMember where
  id := id
  conversationId := conversationId
  userId := participant.user.map (·.id)
  externalHandle := participant.handle
  externalId := orText participant.externalId none
  displayName := participant.displayName
  service := orText participant.service none
  role := participant.role
  status := participant.status
  joinedAt := participant.joinedAt.getD now
  leftAt := participant.leftAt
  createdAt := now

/-- The row of a participant who had one. -/
def writtenRow (participant : Participant) (member : ConversationMember) : ConversationMember :=
  { member with
    userId := (participant.user.map (·.id)).or member.userId
    externalId := orText participant.externalId member.externalId
    displayName := orText participant.displayName member.displayName
    service := orText participant.service member.service
    role := if participant.role = .owner then .owner else member.role
    status := participant.status
    joinedAt := participant.joinedAt.getD member.joinedAt
    leftAt := participant.leftAt }

end Participant

/-- The keys of the table of members let a row be inserted. -/
def acceptsMember (db : AppsDb) (member : ConversationMember) : Bool :=
  (db.conversation? member.conversationId).isSome && decide (MembersValid (db.members ++ [member]))

/-- `_upsert_group_member`; the database refuses members that break its keys. -/
def upsertGroupMember (db : AppsDb) (conversationId : Uuid) (participant : Participant)
    (now : Instant) : Except GroupError (ConversationMember × AppsDb) :=
  match db.members.find? (participant.isRowOf conversationId) with
  | none => do
      let member := participant.newRow db.nextId conversationId now
      require (acceptsMember db member) .integrity
      pure (member, { db with members := db.members ++ [member], nextId := db.nextId + 1 })
  | some member => do
      let members := Table.update (fun row => row.id == member.id)
        (fun _ => participant.writtenRow member) db.members
      require (MembersValid members) .integrity
      pure (participant.writtenRow member, { db with members := members })

/-- What an upsert stores. -/
inductive Upserted (conversationId : Uuid) (participant : Participant) (now : Instant)
    (db : AppsDb) : ConversationMember → AppsDb → Prop
  | inserted : db.members.find? (participant.isRowOf conversationId) = none →
      acceptsMember db (participant.newRow db.nextId conversationId now) = true →
      Upserted conversationId participant now db (participant.newRow db.nextId conversationId now)
        { db with
          members := db.members ++ [participant.newRow db.nextId conversationId now]
          nextId := db.nextId + 1 }
  | written {member : ConversationMember} :
      db.members.find? (participant.isRowOf conversationId) = some member →
      MembersValid (Table.update (fun row => row.id == member.id)
        (fun _ => participant.writtenRow member) db.members) →
      Upserted conversationId participant now db (participant.writtenRow member)
        { db with
          members := Table.update (fun row => row.id == member.id)
            (fun _ => participant.writtenRow member) db.members }

theorem upsertGroupMember_eq_ok {db after : AppsDb} {conversationId : Uuid}
    {participant : Participant} {now : Instant} {member : ConversationMember}
    (upserts : upsertGroupMember db conversationId participant now = .ok (member, after)) :
    Upserted conversationId participant now db member after := by
  unfold upsertGroupMember at upserts
  split at upserts
  · rename_i isNew
    simp only [bind_eq_ok, require_eq_ok, pure_eq_ok] at upserts
    rcases upserts with ⟨_, accepted, same⟩
    cases same
    exact Upserted.inserted isNew accepted
  · rename_i found
    simp only [bind_eq_ok, require_eq_ok, decide_eq_true_eq, pure_eq_ok] at upserts
    rcases upserts with ⟨_, valid, same⟩
    cases same
    exact Upserted.written found valid

namespace Upserted

variable {conversationId : Uuid} {participant : Participant} {now : Instant} {db after : AppsDb}
  {member : ConversationMember}

/-- The written row is a member of the conversation. -/
theorem mem (upserted : Upserted conversationId participant now db member after) :
    member ∈ membersOf after conversationId := by
  cases upserted with
  | inserted _ _ =>
      apply List.mem_filter.mpr
      exact ⟨List.mem_append_right _ (List.mem_singleton_self _), decide_eq_true rfl⟩
  | @written old found _ =>
      have isRow := List.find?_some found
      simp only [Participant.isRowOf, Bool.and_eq_true, decide_eq_true_eq] at isRow
      apply List.mem_filter.mpr
      refine ⟨?_, decide_eq_true isRow.1⟩
      apply Table.mem_update.mpr
      exact ⟨old, List.mem_of_find?_eq_some found, if_pos (beq_self_eq_true old.id)⟩

end Upserted

/-! ## Lists of participants -/

/-- The participant that an element of `handles` describes. -/
def listedParticipant (directory : Directory) : Json → Option Participant
  | .obj raw =>
      if Json.lookup raw "is_me" = some (.bool true) then none
      else
        match textOf (Json.lookup raw "handle") with
        | none => none
        | some handle =>
            if (Text.strip handle.toList).isEmpty then none
            else
              let normalized := directory.canonicalHandle handle
              let user := directory.findUser normalized
              some {
                handle := normalized
                user := user
                role := .member
                service := cleanOptionalText (Json.lookup raw "service") 32
                externalId := cleanOptionalText (Json.lookup raw "id") 255
                displayName := orText (user.bind (·.displayName))
                  (cleanOptionalText (orElse (Json.lookup raw "display_name")
                    (Json.lookup raw "name")) 120)
                status := statusOf directory (Json.lookup raw "status") .active
                joinedAt := parsedDatetime directory (Json.lookup raw "joined_at")
                leftAt := parsedDatetime directory (Json.lookup raw "left_at") }
  | _ => none

/-- The participants that are listed in the data of a chat. -/
def listedParticipants (directory : Directory) (chatData : Fields) : List Participant :=
  match Json.lookup chatData "handles" with
  | some (.arr handles) => handles.filterMap (listedParticipant directory)
  | _ => []

/-- The loop of `sync_linq_group_participants`. -/
def syncParticipants (conversationId : Uuid) (now : Instant) :
    List Participant → AppsDb → Except GroupError AppsDb
  | [], db => .ok db
  | participant :: rest, db => do
      let (_, after) ← upsertGroupMember db conversationId participant now
      syncParticipants conversationId now rest after

/-- `sync_linq_group_participants`. -/
def syncLinqGroupParticipants (directory : Directory) (db : AppsDb) (conversationId : Uuid)
    (chatData : Fields) (now : Instant) : Except GroupError AppsDb :=
  syncParticipants conversationId now (listedParticipants directory chatData) db

/-! ## Events -/

/-- The chat that an event is about. -/
def eventChatId (data : Fields) : Option String :=
  match ((Json.lookup data "chat").bind fun chat => textOf (chat.get? "id")) with
  | some id => some id
  | none => textOf (orElse (Json.lookup data "chat_id") (Json.lookup data "id"))

/-- The channel of a chat of the provider. -/
def linqChannel (db : AppsDb) (chatId : String) : Option ConversationChannel :=
  db.channels.find? fun channel => channel.provider = "linq" && channel.externalId = chatId

/-- The group that a chat is attached to. -/
def linqGroup (db : AppsDb) (chatId : String) : Option (ConversationChannel × Conversation) := do
  let channel ← linqChannel db chatId
  let conversation ← db.conversation? channel.conversationId
  if conversation.kind = .group then some (channel, conversation) else none

/-- `details`. -/
def participantDetails (data : Fields) : Fields :=
  match Json.lookup data "participant" with
  | some (.obj details) => details
  | _ => []

/-- Dot was added to a group, or removed from it. -/
def setGroupActive (db : AppsDb) (channelId conversationId : Uuid) (isActive : Bool) : AppsDb where
  __ := db
  conversations := Table.update (fun row => row.id == conversationId)
    (fun row => { row with isActive := isActive }) db.conversations
  channels := Table.update (fun row => row.id == channelId)
    (fun row => { row with isActive := isActive }) db.channels

/-- The participant of an event. -/
def eventParticipant (directory : Directory) (removed : Bool) (data : Fields) (handle : String) :
    Participant :=
  let details := participantDetails data
  let normalized := directory.canonicalHandle handle
  let user := directory.findUser normalized
  { handle := normalized
    user := user
    role := .member
    service := cleanOptionalText (Json.lookup details "service") 32
    externalId := cleanOptionalText (Json.lookup details "id") 255
    displayName := orText (user.bind (·.displayName))
      (cleanOptionalText (orElse (Json.lookup details "display_name") (Json.lookup details "name"))
        120)
    status := if removed then statusOf directory (Json.lookup details "status") .removed
      else .active
    joinedAt := parsedDatetime directory
      (orElse (Json.lookup details "joined_at") (Json.lookup data "added_at"))
    leftAt := parsedDatetime directory
      (orElse (Json.lookup details "left_at") (Json.lookup data "removed_at")) }

/-- `ORDER BY joined_at, created_at`. -/
def joinedBefore (a b : ConversationMember) : Bool :=
  a.joinedAt < b.joinedAt || a.joinedAt = b.joinedAt && a.createdAt ≤ b.createdAt

/-- The member who becomes owner when the owner is removed. -/
def replacementOwner (db : AppsDb) (conversationId memberId : Uuid) : Option ConversationMember :=
  (Table.orderBy joinedBefore ((membersOf db conversationId).filter fun member =>
    member.status = .active && member.userId.isSome && member.id ≠ memberId)).head?

theorem mem_of_replacementOwner {db : AppsDb} {conversationId memberId : Uuid}
    {replacement : ConversationMember}
    (replaced : replacementOwner db conversationId memberId = some replacement) :
    replacement ∈ membersOf db conversationId ∧ replacement.status = .active ∧
      replacement.userId.isSome ∧ replacement.id ≠ memberId := by
  have sorted := List.mem_of_head? replaced
  rw [Table.mem_orderBy] at sorted
  obtain ⟨isMember, isFree⟩ := List.mem_filter.mp sorted
  simp only [Bool.and_eq_true, decide_eq_true_eq] at isFree
  exact ⟨isMember, isFree.1.1, isFree.1.2, isFree.2⟩

/-- Writing the row of the owner does not change who replaces the owner. -/
theorem replacementOwner_written {db : AppsDb} {conversationId : Uuid}
    {owner new : ConversationMember} (sameId : new.id = owner.id) :
    replacementOwner { db with
      members := Table.update (fun row => row.id == owner.id) (fun _ => new) db.members }
      conversationId owner.id = replacementOwner db conversationId owner.id := by
  rw [replacementOwner, replacementOwner, membersOf, membersOf, List.filter_filter,
    List.filter_filter]
  rw [Table.filter_update_of_dropped]
  intro row _ selected
  rw [beq_iff_eq] at selected
  simp [selected, sameId]

/-- The owner of a group is nobody, until somebody claims it. -/
def writeUnclaimed (db : AppsDb) (conversationId memberId : Uuid) : AppsDb :=
  { db with
    members := Table.update (fun member => member.id == memberId)
      (fun member => { member with role := .member }) db.members
    conversations := Table.update (fun row => row.id == conversationId)
      (fun row => { row with groupOwnerSource := some .unclaimed }) db.conversations }

/-- The user whom a removed owner was. -/
def departingOwner (conversation : Conversation) (member : ConversationMember) : Uuid :=
  member.userId.getD conversation.userId

/-- The owner of a group was removed. -/
def removeOwner (db : AppsDb) (conversation : Conversation) (member : ConversationMember)
    (now : Instant) : Except GroupError AppsDb :=
  match replacementOwner db conversation.id member.id with
  | some replacement =>
      transferGroupOwnership db conversation replacement .transferred
        (some (departingOwner conversation member)) now
  | none =>
      .ok (revokeUnclaimedGroupAppOwner (writeUnclaimed db conversation.id member.id)
        conversation.id (departingOwner conversation member) now)

/-- A participant was added to a group, or removed from it. -/
def applyParticipant (directory : Directory) (db : AppsDb) (conversation : Conversation)
    (removed : Bool) (data : Fields) (handle : String) (now : Instant) : Except GroupError AppsDb :=
  (upsertGroupMember db conversation.id (eventParticipant directory removed data handle) now).bind
    fun (member, after) =>
      if removed && member.role = .owner then removeOwner after conversation member now
      else .ok after

/-- The events that rename a group. -/
def renameLinqGroup (db : AppsDb) (conversationId : Uuid) (data : Fields) : AppsDb where
  __ := db
  conversations := Table.update (fun row => row.id == conversationId)
    (fun row => { row with
      title := some ((cleanOptionalText (orElse (Json.lookup data "new_value")
        (orElse (Json.lookup data "display_name")
          (orElse (Json.lookup data "group_name") (Json.lookup data "name")))) 120).getD
        "group with dot") })
    db.conversations

/-- `apply_linq_group_event`; it returns whether the event was handled. -/
def applyLinqGroupEvent (directory : Directory) (db : AppsDb) (eventType : String) (data : Fields)
    (now : Instant) : Except GroupError (Bool × AppsDb) :=
  match (eventChatId data).bind (linqGroup db) with
  | none => .ok (false, db)
  | some (channel, conversation) =>
      if eventType = "chat.group_name_updated" then
        .ok (true, renameLinqGroup db conversation.id data)
      else if eventType = "chat.group_icon_updated" then .ok (true, db)
      else if eventType ≠ "participant.added" ∧ eventType ≠ "participant.removed" then
        .ok (false, db)
      else if Json.lookup (participantDetails data) "is_me" = some (.bool true) then
        .ok (true, setGroupActive db channel.id conversation.id (eventType = "participant.added"))
      else
        match textOf (orElse (Json.lookup (participantDetails data) "handle")
          (Json.lookup data "handle")) with
        | none => .ok (false, db)
        | some handle =>
            (applyParticipant directory db conversation (eventType = "participant.removed") data
              handle now).map fun after => (true, after)

/-! ## Chats of the provider -/

/-- The group of a chat, which is created for a chat that is new. -/
def openLinqGroup (db : AppsDb) (externalChatId : String) (sender : User) (service : Option String)
    (chatData : Option Fields) :
    Except GroupError (Conversation × ConversationChannel × Bool × AppsDb) :=
  match linqChannel db externalChatId with
  | none =>
      let title := cleanOptionalText (Json.lookup (chatData.getD []) "display_name") 120
      let conversation : Conversation := ⟨db.nextId, sender.id, .group,
        some (title.getD "group with dot"), .auto, some .unclaimed, true⟩
      let channel : ConversationChannel :=
        ⟨db.nextId + 1, db.nextId, "linq", externalChatId, service, true⟩
      .ok (conversation, channel, true, { db with
        conversations := db.conversations ++ [conversation]
        channels := db.channels ++ [channel]
        nextId := db.nextId + 2 })
  | some channel =>
      match db.conversation? channel.conversationId with
      | none => .error (.permission "Linq chat is not attached to a group conversation")
      | some conversation =>
          if conversation.kind ≠ .group then
            .error (.permission "Linq chat is not attached to a group conversation")
          else
            .ok (conversation, { channel with service := orText service channel.service }, false,
              { db with
                channels := Table.update (fun row => row.id == channel.id)
                  (fun row => { row with service := orText service row.service }) db.channels })

/-- The sender of a message is a member. -/
def senderParticipant (directory : Directory) (sender : User) (service senderHandle : Option String) :
    Participant where
  handle := directory.canonicalHandle
    ((senderHandle.filter (· ≠ "")).getD (directory.primaryHandle sender))
  user := some sender
  role := .member
  service := service
  externalId := none
  displayName := sender.displayName
  status := .active
  joinedAt := none
  leftAt := none

/-- The participants and the title that the data of a chat tells. -/
def syncChatData (directory : Directory) (db : AppsDb) (conversationId : Uuid) (chatData : Fields)
    (now : Instant) : Except GroupError AppsDb :=
  if chatData.isEmpty then .ok db
  else do
    let synced ← syncLinqGroupParticipants directory db conversationId chatData now
    match cleanOptionalText (Json.lookup chatData "display_name") 120 with
    | none => pure synced
    | some title => pure { synced with
        conversations := Table.update (fun row => row.id == conversationId)
          (fun row => { row with title := some title }) synced.conversations }

/-- A member claims a group, as both are stored. -/
def claimStored (db : AppsDb) (conversationId memberId : Uuid) (source : GroupOwnerSource)
    (now : Instant) : Except GroupError (Bool × AppsDb) :=
  match db.conversation? conversationId,
    (membersOf db conversationId).find? fun member => member.id = memberId with
  | some conversation, some member => claimGroupOwner db conversation member source now
  | _, _ => .error (.notFound "Group conversation was not found")

/-- The sender claims the group, if asked to. -/
def claimForSender (claimOwner : Bool) (db : AppsDb) (conversationId memberId : Uuid)
    (now : Instant) : Except GroupError AppsDb :=
  if claimOwner then (claimStored db conversationId memberId .firstInvoker now).map Prod.snd
  else .ok db

/-- `resolve_linq_group_conversation`. -/
def resolveLinqGroupConversation (directory : Directory) (db : AppsDb) (externalChatId : String)
    (sender : User) (service senderHandle : Option String) (chatData : Option Fields)
    (claimOwner : Bool) (now : Instant) :
    Except GroupError (Conversation × ConversationChannel × Bool × AppsDb) := do
  let (conversation, channel, created, opened) ←
    openLinqGroup db externalChatId sender service chatData
  let (senderMember, joined) ← upsertGroupMember opened conversation.id
    (senderParticipant directory sender service senderHandle) now
  let synced ← syncChatData directory joined conversation.id (chatData.getD []) now
  let after ← claimForSender claimOwner synced conversation.id senderMember.id now
  pure (((after.conversation? conversation.id).getD conversation), channel, created, after)

/-! ## Groups of the web -/

/-- `create_web_group`. -/
def createWebGroup (directory : Directory) (db : AppsDb) (owner : User) (title : String)
    (now : Instant) : Except GroupError (Conversation × AppsDb) := do
  let cleanTitle := Text.strip title.toList
  require (1 ≤ cleanTitle.length && cleanTitle.length ≤ 120)
    (.value "Group name must contain between 1 and 120 characters")
  let conversation : Conversation := ⟨db.nextId, owner.id, .group, some (String.ofList cleanTitle),
    .auto, some .explicit, true⟩
  let member : ConversationMember := ⟨db.nextId + 1, db.nextId, some owner.id,
    directory.primaryHandle owner, none, owner.displayName, some "web", .owner, .active, now, none,
    now⟩
  let channel : ConversationChannel := ⟨db.nextId + 2, db.nextId, "web",
    "group:" ++ String.ofList (uuidText db.nextId), some "web", true⟩
  require (MembersValid (db.members ++ [member])) .integrity
  pure (conversation, { db with
    conversations := db.conversations ++ [conversation]
    members := db.members ++ [member]
    channels := db.channels ++ [channel]
    nextId := db.nextId + 3 })

/-- `get_conversation_for_member`. -/
def getConversationForMember (db : AppsDb) (conversationId userId : Uuid) :
    Except GroupError Conversation :=
  match db.conversation? conversationId with
  | none => .error (.notFound "Conversation was not found")
  | some conversation =>
      if conversation.isActive && (membersOf db conversationId).any fun member =>
        member.userId = some userId && member.status = .active then .ok conversation
      else .error (.notFound "Conversation was not found")

/-- The check of an invite in `join_group_from_invite`. -/
def ConversationInvite.isOpen (now : Instant) (invite : ConversationInvite) : Bool :=
  invite.revokedAt.isNone && (now < invite.expiresAt : Bool) &&
    (invite.useCount < invite.maxUses : Bool)

/-- The rows that stand for a user who joins. -/
def isJoining (conversationId userId : Uuid) (handle : String) (member : ConversationMember) :
    Bool :=
  member.conversationId = conversationId &&
    (member.userId = some userId || member.externalHandle = handle)

/-- The row of a user who joins a group. -/
def joinedRow (id conversationId : Uuid) (user : User) (handle : String) (now : Instant) :
    ConversationMember :=
  ⟨id, conversationId, some user.id, handle, none, user.displayName, some "web", .member, .active,
    now, none, now⟩

/-- The row of a user who joins a group that they had joined before. -/
def rejoinedRow (user : User) (member : ConversationMember) : ConversationMember :=
  { member with
    userId := some user.id
    displayName := orText user.displayName member.displayName
    status := .active
    leftAt := none }

/-- The writes of `join_group_from_invite`. -/
def writeJoin (db : AppsDb) (invite : ConversationInvite) (user : User) (handle : String)
    (now : Instant) : Except GroupError AppsDb :=
  match db.members.find? (isJoining invite.conversationId user.id handle) with
  | none => do
      let member := joinedRow db.nextId invite.conversationId user handle now
      require (acceptsMember db member) .integrity
      pure { db with
        members := db.members ++ [member]
        invites := Table.update (fun row => row.id == invite.id)
          (fun row => { row with useCount := row.useCount + 1 }) db.invites
        nextId := db.nextId + 1 }
  | some member => do
      let members := Table.update (fun row => row.id == member.id) (fun _ => rejoinedRow user member)
        db.members
      require (MembersValid members) .integrity
      pure { db with members := members }

/-- `join_group_from_invite`. -/
def joinGroupFromInvite (directory : Directory) (db : AppsDb) (token : String) (user : User)
    (now : Instant) : Except GroupError (Conversation × AppsDb) :=
  match (db.invites.find? fun invite => invite.tokenHash = sha256 token.toList).filter
    (ConversationInvite.isOpen now) with
  | none => .error (.invite "This group invite is invalid or has expired")
  | some invite =>
      match (db.conversation? invite.conversationId).filter fun row => row.kind = .group with
      | none => .error (.invite "This group no longer exists")
      | some conversation => do
          let after ← writeJoin db invite user (directory.primaryHandle user) now
          pure (conversation, after)

/-- The row of a member who left. -/
def leftRow (now : Instant) (member : ConversationMember) : ConversationMember :=
  { member with status := .left, leftAt := some now }

/-- `leave_web_group`. -/
def leaveWebGroup (db : AppsDb) (conversationId userId : Uuid) (now : Instant) :
    Except GroupError AppsDb := do
  let conversation ← getConversationForMember db conversationId userId
  require (conversation.kind = .group) (.notFound "Group conversation was not found")
  match (membersOf db conversationId).find? fun member => member.userId = some userId with
  | none => .error (.notFound "Group membership was not found")
  | some member => do
      require (member.role ≠ .owner) (.permission "The group owner cannot leave yet")
      pure { db with
        members := Table.update (fun row => row.id == member.id) (fun _ => leftRow now member)
          db.members }

end DotBackend.Groups
