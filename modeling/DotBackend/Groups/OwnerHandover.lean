import DotBackend.Groups.Participants

/-!
# Handing a group over

When the owner of a group is removed, the group and its apps go to the linked member who
joined first. Whoever left loses the apps; the new owner and the anonymous members of the
group keep what they use.
-/

namespace DotBackend.Groups

open Data Channel Apps

/-- A ticket that has not expired. -/
def isUnexpired (instant : Instant) (row : GeneratedAppAccessTicket) : Bool :=
  instant < row.expiresAt

/-- What a ticket grants. -/
def ticketTerms (row : GeneratedAppAccessTicket) :
    Option Uuid × GeneratedAppRole × String × Instant × Nat :=
  (row.principalUserId, row.role, row.tokenHash, row.expiresAt, row.redemptionCount)

/-- The sessions and tickets that a transfer leaves: those of the new owner and those of
anonymous members. -/
def isLeftTo (newOwnerId : Uuid) (userId : Option Uuid) (role : GeneratedAppRole) : Bool :=
  userId = some newOwnerId || (userId = none && role = .member)

/-- The sessions among them that can be used at an instant. -/
def usableSessions (db : AppsDb) (appId newOwnerId : Uuid) (instant : Instant) :
    List GeneratedAppSession :=
  db.sessions.filter fun row =>
    row.appId = appId && isLeftTo newOwnerId row.userId row.role && row.isValid instant

/-- The tickets among them that can be used at an instant. -/
def usableTickets (db : AppsDb) (appId newOwnerId : Uuid) (instant : Instant) :
    List (Option Uuid × GeneratedAppRole × String × Instant × Nat) :=
  (db.tickets.filter fun row =>
    row.appId = appId && isLeftTo newOwnerId row.principalUserId row.role &&
      isUnexpired instant row).map ticketTerms

/-- One app was handed over. -/
structure AppHandedOver (before after : AppsDb) (departedId newOwnerId : Uuid) (now : Instant)
    (app : GeneratedApp) : Prop where
  user : app.userId = newOwnerId
  owns : (⟨app.id, newOwnerId, .owner⟩ : GeneratedAppMembership) ∈ after.memberships
  only : ∀ row ∈ after.memberships, row.appId = app.id → row.role = .owner →
    row.userId = newOwnerId
  departedMembership : departedId ≠ newOwnerId → ∀ row ∈ after.memberships, row.appId = app.id →
    row.userId ≠ departedId
  departedSession : departedId ≠ newOwnerId → ∀ row ∈ after.sessions, row.appId = app.id →
    row.userId = some departedId → row.revokedAt.isSome
  departedTicket : departedId ≠ newOwnerId → ∀ row ∈ after.tickets, row.appId = app.id →
    row.principalUserId = some departedId → row.expiresAt ≤ now
  ownerSession : ∀ row ∈ after.sessions, row.appId = app.id → row.role = .owner →
    row.revokedAt = none → row.userId = some newOwnerId
  ownerTicket : ∀ row ∈ after.tickets, row.appId = app.id → row.role = .owner →
    now < row.expiresAt → row.principalUserId = some newOwnerId
  sessions : ∀ later, now ≤ later →
    usableSessions after app.id newOwnerId later = usableSessions before app.id newOwnerId later
  tickets : ∀ later, now ≤ later →
    usableTickets after app.id newOwnerId later = usableTickets before app.id newOwnerId later

/-- The apps of a group were handed over. -/
def HandedOver (before after : AppsDb) (conversationId departedId newOwnerId : Uuid)
    (now : Instant) : Prop :=
  ∀ app ∈ appsOf after conversationId, AppHandedOver before after departedId newOwnerId now app

/-- A user has neither a session nor a ticket for the apps of a group that can be used. -/
structure HoldsNothing (db : AppsDb) (conversationId userId : Uuid) (now : Instant) : Prop where
  session : ∀ app ∈ appsOf db conversationId, ∀ row ∈ db.sessions, row.appId = app.id →
    row.userId = some userId → row.isValid now = false
  ticket : ∀ app ∈ appsOf db conversationId, ∀ row ∈ db.tickets, row.appId = app.id →
    row.principalUserId = some userId → isUnexpired now row = false

/-- Only the sessions and tickets before the hand-over matter. -/
theorem HandedOver.of_same {before other after : AppsDb} {conversationId departedId newOwnerId : Uuid}
    {now : Instant} (sessions : other.sessions = before.sessions)
    (tickets : other.tickets = before.tickets)
    (handedOver : HandedOver before after conversationId departedId newOwnerId now) :
    HandedOver other after conversationId departedId newOwnerId now := by
  intro app appMem
  have handed := handedOver app appMem
  refine { handed with sessions := ?_, tickets := ?_ }
  · intro later isLater
    rw [handed.sessions later isLater, usableSessions, usableSessions, sessions]
  · intro later isLater
    rw [handed.tickets later isLater, usableTickets, usableTickets, tickets]

/-! ## Sessions and tickets -/

section

variable {newOwnerId departedId : Uuid} {prior : List Uuid} {now later : Instant}

/-- A session that cannot be used now cannot be used later. -/
theorem isValid_of_later (isLater : now ≤ later) {row : GeneratedAppSession}
    (valid : row.isValid later = true) : row.isValid now = true := by
  simp only [GeneratedAppSession.isValid, Bool.and_eq_true, decide_eq_true_eq] at valid ⊢
  exact ⟨valid.1, lt_of_le_of_lt isLater valid.2⟩

/-- What a departure does to a session. -/
theorem transferredSession_departing (row : GeneratedAppSession) :
    transferredSession newOwnerId (some departedId) now row =
      if row.userId = some departedId ∨ row.role = .owner ∧ row.userId ≠ some newOwnerId then
        { row with revokedAt := some now }
      else row := by
  by_cases isDeparted : row.userId = some departedId
  · simp [transferredSession, isDeparted]
  · by_cases isStale : row.role = .owner ∧ row.userId ≠ some newOwnerId
    · simp [transferredSession, isStale]
    · by_cases isOwner : row.role = .owner
      · simp_all [transferredSession]
      · simp [transferredSession, isDeparted, isOwner]

/-- What a departure does to the terms of a ticket. -/
theorem terms_transferredTicket_departing (row : GeneratedAppAccessTicket) :
    (transferredTicket newOwnerId prior (some departedId) now row).principalUserId =
        row.principalUserId ∧
      (transferredTicket newOwnerId prior (some departedId) now row).role = row.role ∧
      (transferredTicket newOwnerId prior (some departedId) now row).tokenHash = row.tokenHash ∧
      (transferredTicket newOwnerId prior (some departedId) now row).redemptionCount =
        row.redemptionCount ∧
      (transferredTicket newOwnerId prior (some departedId) now row).expiresAt =
        if row.principalUserId = some departedId ∨
            row.role = .owner ∧ row.principalUserId ≠ some newOwnerId then now
        else row.expiresAt := by
  by_cases isDeparted : row.principalUserId = some departedId
  · simp [transferredTicket, isDeparted]
  · by_cases isStale : row.role = .owner ∧ row.principalUserId ≠ some newOwnerId
    · simp [transferredTicket, isStale]
    · by_cases isOwner : row.role = .owner
      · simp_all [transferredTicket]
      · simp [transferredTicket, isDeparted, isOwner]

/-- Neither departed nor stale: the sessions of the new owner and of anonymous members. -/
theorem not_revoked_of_isLeftTo {userId : Option Uuid} {role : GeneratedAppRole}
    (isOther : departedId ≠ newOwnerId) (isLeft : isLeftTo newOwnerId userId role = true) :
    ¬ (userId = some departedId ∨ role = .owner ∧ userId ≠ some newOwnerId) := by
  simp only [isLeftTo, Bool.or_eq_true, Bool.and_eq_true, decide_eq_true_eq] at isLeft
  rintro (isDeparted | ⟨isOwner, notNew⟩)
  · rcases isLeft with isNew | ⟨isNone, _⟩
    · rw [isNew] at isDeparted
      exact isOther (Option.some.inj isDeparted).symm
    · rw [isNone] at isDeparted
      cases isDeparted
  · rcases isLeft with isNew | ⟨_, isMember⟩
    · exact notNew isNew
    · rw [isMember] at isOwner
      cases isOwner

end

/-! ## What a departure leaves -/

section

variable {db : AppsDb} {conversation : Conversation} {successorId newOwnerId departedId : Uuid}
  {now : Instant}

/-- The writes of the transfer after an owner was removed. -/
def writeDeparture (db : AppsDb) (conversation : Conversation)
    (successorId newOwnerId departedId : Uuid) (now : Instant) : AppsDb :=
  writeTransfer db conversation successorId newOwnerId .transferred (some departedId) now

theorem session_of_departure {row : GeneratedAppSession}
    (rowMem : row ∈
      (writeDeparture db conversation successorId newOwnerId departedId now).sessions)
    (isOfGroup : row.appId ∈ (appsOf db conversation.id).map (·.id)) :
    ∃ old ∈ db.sessions, row = transferredSession newOwnerId (some departedId) now old := by
  rw [writeDeparture, sessions_writeTransfer] at rowMem
  rcases Table.mem_update_cases rowMem with ⟨old, oldMem, _, same⟩ | ⟨_, notOfGroup⟩
  · exact ⟨old, oldMem, same⟩
  · exact absurd isOfGroup (of_decide_eq_false notOfGroup)

theorem ticket_of_departure {row : GeneratedAppAccessTicket}
    (rowMem : row ∈
      (writeDeparture db conversation successorId newOwnerId departedId now).tickets)
    (isOfGroup : row.appId ∈ (appsOf db conversation.id).map (·.id)) :
    ∃ old ∈ db.tickets, row = transferredTicket newOwnerId
      (priorOwnerIds db conversation newOwnerId) (some departedId) now old := by
  rw [writeDeparture, tickets_writeTransfer] at rowMem
  rcases Table.mem_update_cases rowMem with ⟨old, oldMem, _, same⟩ | ⟨_, notOfGroup⟩
  · exact ⟨old, oldMem, same⟩
  · exact absurd isOfGroup (of_decide_eq_false notOfGroup)

/-- A session that is written could not be used before, or is not one that is left. -/
theorem not_usable_of_written {holder : Option Uuid} {role : GeneratedAppRole} {valid : Bool}
    (free : departedId ≠ newOwnerId ∨ (holder = some newOwnerId → valid = false))
    (isWritten : holder = some departedId ∨ role = .owner ∧ holder ≠ some newOwnerId) :
    (isLeftTo newOwnerId holder role && valid) = false := by
  by_cases isOther : departedId ≠ newOwnerId
  · cases isLeft : isLeftTo newOwnerId holder role with
    | false => rfl
    | true => exact absurd isWritten (not_revoked_of_isLeftTo isOther isLeft)
  · rw [ne_eq, not_not] at isOther
    subst isOther
    rcases free with isOther | notValid
    · exact absurd rfl isOther
    · rcases isWritten with isDeparted | ⟨isOwner, notNew⟩
      · rw [notValid isDeparted, Bool.and_false]
      · simp [isLeftTo, isOwner, notNew]

/-- The sessions that are left can be used as before. -/
theorem usableSessions_departure {appId : Uuid} {later : Instant} (isLater : now ≤ later)
    (free : departedId ≠ newOwnerId ∨ ∀ row ∈ db.sessions, row.appId = appId →
      row.userId = some newOwnerId → row.isValid now = false) :
    usableSessions (writeDeparture db conversation successorId newOwnerId departedId now) appId
      newOwnerId later = usableSessions db appId newOwnerId later := by
  rw [usableSessions, usableSessions, writeDeparture, sessions_writeTransfer,
    ← List.map_id (List.filter _ _), ← List.map_id (List.filter _ db.sessions)]
  apply Table.map_filter_update
  intro row rowMem _
  rw [transferredSession_departing]
  split
  · rename_i isWritten
    have notUsable : (row.appId = appId && isLeftTo newOwnerId row.userId row.role &&
        row.isValid later) = false := by
      by_cases isOfApp : row.appId = appId
      · rw [decide_eq_true isOfApp, Bool.true_and]
        apply not_usable_of_written _ isWritten
        apply free.imp_right
        intro noneValid isNew
        have notNow := noneValid row rowMem isOfApp isNew
        by_contra valid
        rw [isValid_of_later isLater (Bool.not_eq_false _ |>.mp valid)] at notNow
        cases notNow
      · rw [decide_eq_false isOfApp, Bool.false_and, Bool.false_and]
    rw [notUsable]
    refine ⟨?_, fun isUsable => absurd isUsable Bool.false_ne_true⟩
    simp [GeneratedAppSession.isValid]
  · exact ⟨rfl, fun _ => rfl⟩

/-- The tickets that are left can be used as before. -/
theorem usableTickets_departure {appId : Uuid} {later : Instant} (isLater : now ≤ later)
    (free : departedId ≠ newOwnerId ∨ ∀ row ∈ db.tickets, row.appId = appId →
      row.principalUserId = some newOwnerId →
        isUnexpired now row = false) :
    usableTickets (writeDeparture db conversation successorId newOwnerId departedId now) appId
      newOwnerId later = usableTickets db appId newOwnerId later := by
  rw [usableTickets, usableTickets, writeDeparture, tickets_writeTransfer]
  apply Table.map_filter_update
  intro row rowMem _
  obtain ⟨principal, role, token, count, expires⟩ := @terms_transferredTicket_departing newOwnerId
    departedId (priorOwnerIds db conversation newOwnerId) now row
  rw [ticketTerms, isUnexpired, principal, role, token,
    count, expires, transferredTicket_appId]
  split
  · rename_i isWritten
    have notUsable : (row.appId = appId && isLeftTo newOwnerId row.principalUserId row.role &&
        isUnexpired later row) = false := by
      by_cases isOfApp : row.appId = appId
      · rw [decide_eq_true isOfApp, Bool.true_and]
        apply not_usable_of_written _ isWritten
        apply free.imp_right
        intro noneValid isNew
        have notNow := noneValid row rowMem isOfApp isNew
        simp only [isUnexpired, decide_eq_false_iff_not, not_lt] at notNow ⊢
        exact notNow.trans isLater
      · rw [decide_eq_false isOfApp, Bool.false_and, Bool.false_and]
    rw [notUsable]
    refine ⟨?_, fun isUsable => absurd isUsable Bool.false_ne_true⟩
    rw [decide_eq_false (not_lt.mpr isLater), Bool.and_false]
  · exact ⟨rfl, fun _ => rfl⟩

/-- A departure hands the apps over, provided that the user who departs is not the one who
becomes owner, or that user holds nothing. -/
theorem handedOver_departure
    (free : departedId ≠ newOwnerId ∨ HoldsNothing db conversation.id newOwnerId now) :
    HandedOver db (writeDeparture db conversation successorId newOwnerId departedId now)
      conversation.id departedId newOwnerId now := by
  intro app appMem
  obtain ⟨old, oldMem, sameId, user⟩ := mem_appsOf_writeTransfer appMem
  have isOfGroup : app.id ∈ (appsOf db conversation.id).map (·.id) := by
    rw [← sameId]
    exact List.mem_map_of_mem oldMem
  have memberships : ∀ row ∈ (writeDeparture db conversation successorId newOwnerId departedId
      now).memberships, row.appId = app.id →
        TransferredFrom newOwnerId (some departedId) db.memberships row := by
    intro row rowMem isOfApp
    rcases mem_memberships_writeTransfer rowMem with ⟨notOfGroup, _⟩ | ⟨_, transferred⟩
    · rw [isOfApp] at notOfGroup
      exact absurd isOfGroup notOfGroup
    · exact transferred
  have sessions : ∀ row ∈ (writeDeparture db conversation successorId newOwnerId departedId
      now).sessions, row.appId = app.id →
        ∃ old ∈ db.sessions, row = transferredSession newOwnerId (some departedId) now old := by
    intro row rowMem isOfApp
    rw [← isOfApp] at isOfGroup
    exact session_of_departure rowMem isOfGroup
  have tickets : ∀ row ∈ (writeDeparture db conversation successorId newOwnerId departedId
      now).tickets, row.appId = app.id → ∃ old ∈ db.tickets, row = transferredTicket newOwnerId
        (priorOwnerIds db conversation newOwnerId) (some departedId) now old := by
    intro row rowMem isOfApp
    rw [← isOfApp] at isOfGroup
    exact ticket_of_departure rowMem isOfGroup
  constructor
  case user => rw [user, if_pos rfl]
  case owns => exact owner_mem_writeTransfer isOfGroup
  case only =>
    intro row rowMem isOfApp isOwner
    rcases memberships row rowMem isOfApp with isNew | ⟨_, notOwner, _⟩
    · rw [isNew]
    · exact absurd isOwner notOwner
  case departedMembership =>
    intro isOther row rowMem isOfApp
    rcases memberships row rowMem isOfApp with isNew | ⟨_, _, notDeparted, _⟩
    · rw [isNew]
      exact isOther.symm
    · exact fun isDeparted => notDeparted (by rw [isDeparted])
  case departedSession =>
    intro _ row rowMem isOfApp isDeparted
    obtain ⟨old, _, rfl⟩ := sessions row rowMem isOfApp
    rw [transferredSession_departing] at isDeparted ⊢
    split at isDeparted
    · rename_i isWritten
      rw [if_pos isWritten]
      rfl
    · rename_i notWritten
      exact absurd (Or.inl isDeparted) notWritten
  case departedTicket =>
    intro _ row rowMem isOfApp isDeparted
    obtain ⟨old, _, rfl⟩ := tickets row rowMem isOfApp
    obtain ⟨principal, _, _, _, expires⟩ := @terms_transferredTicket_departing newOwnerId
      departedId (priorOwnerIds db conversation newOwnerId) now old
    rw [principal] at isDeparted
    rw [expires, if_pos (Or.inl isDeparted)]
  case ownerSession =>
    intro row rowMem isOfApp isOwner notRevoked
    obtain ⟨old, _, rfl⟩ := sessions row rowMem isOfApp
    rw [transferredSession_departing] at isOwner notRevoked ⊢
    split at notRevoked
    · cases notRevoked
    · rename_i notWritten
      rw [if_neg notWritten] at isOwner ⊢
      by_contra notNew
      exact notWritten (Or.inr ⟨isOwner, notNew⟩)
  case ownerTicket =>
    intro row rowMem isOfApp isOwner notExpired
    obtain ⟨old, _, rfl⟩ := tickets row rowMem isOfApp
    obtain ⟨principal, role, _, _, expires⟩ := @terms_transferredTicket_departing newOwnerId
      departedId (priorOwnerIds db conversation newOwnerId) now old
    rw [principal]
    rw [role] at isOwner
    rw [expires] at notExpired
    by_contra notNew
    rw [if_pos (Or.inr ⟨isOwner, notNew⟩)] at notExpired
    exact lt_irrefl now notExpired
  case sessions =>
    intro later isLater
    apply usableSessions_departure isLater
    apply free.imp_right
    intro holdsNothing row rowMem isOfApp
    exact holdsNothing.session old oldMem row rowMem (isOfApp.trans sameId.symm)
  case tickets =>
    intro later isLater
    apply usableTickets_departure isLater
    apply free.imp_right
    intro holdsNothing row rowMem isOfApp
    exact holdsNothing.ticket old oldMem row rowMem (isOfApp.trans sameId.symm)

/-- A departure of the user who becomes owner takes what that user holds. -/
theorem holdsNothing_of_handedOver
    (handedOver : HandedOver db
      (writeDeparture db conversation successorId newOwnerId newOwnerId now)
      conversation.id newOwnerId newOwnerId now) :
    HoldsNothing db conversation.id newOwnerId now := by
  have handed : ∀ app ∈ appsOf db conversation.id, ∃ after ∈ appsOf
      (writeDeparture db conversation successorId newOwnerId newOwnerId now) conversation.id,
        after.id = app.id := by
    intro app appMem
    have idMem := List.mem_map_of_mem (f := (·.id)) appMem
    rw [← map_id_appsOf_writeTransfer] at idMem
    exact List.mem_map.mp idMem
  constructor
  · intro app appMem row rowMem isOfApp isNew
    obtain ⟨after, afterMem, sameId⟩ := handed app appMem
    have same := (handedOver after afterMem).sessions now le_rfl
    by_contra valid
    have wasUsable : row ∈ usableSessions db after.id newOwnerId now := by
      apply List.mem_filter.mpr
      refine ⟨rowMem, ?_⟩
      simp [isOfApp, sameId, isLeftTo, isNew, Bool.not_eq_false _ |>.mp valid]
    rw [← same] at wasUsable
    obtain ⟨stored, isUsable⟩ := List.mem_filter.mp wasUsable
    have isOfGroup : row.appId ∈ (appsOf db conversation.id).map (·.id) := by
      rw [isOfApp]
      exact List.mem_map_of_mem appMem
    obtain ⟨old, _, rfl⟩ := session_of_departure stored isOfGroup
    rw [transferredSession_departing] at isUsable isNew
    split at isNew
    · rename_i isWritten
      rw [if_pos isWritten] at isUsable
      simp [GeneratedAppSession.isValid] at isUsable
    · rename_i notWritten
      exact notWritten (Or.inl isNew)
  · intro app appMem row rowMem isOfApp isNew
    obtain ⟨after, afterMem, sameId⟩ := handed app appMem
    have same := (handedOver after afterMem).tickets now le_rfl
    by_contra valid
    have wasUsable : ticketTerms row ∈ usableTickets db after.id newOwnerId now := by
      apply List.mem_map_of_mem
      apply List.mem_filter.mpr
      refine ⟨rowMem, ?_⟩
      simp [isOfApp, sameId, isLeftTo, isNew, Bool.not_eq_false _ |>.mp valid]
    rw [← same] at wasUsable
    obtain ⟨stored, storedMem, sameTerms⟩ := List.mem_map.mp wasUsable
    obtain ⟨storedMem, isUsable⟩ := List.mem_filter.mp storedMem
    simp only [Bool.and_eq_true, decide_eq_true_eq] at isUsable
    have isOfGroup : stored.appId ∈ (appsOf db conversation.id).map (·.id) := by
      rw [isUsable.1.1, sameId]
      exact List.mem_map_of_mem appMem
    obtain ⟨old, _, rfl⟩ := ticket_of_departure storedMem isOfGroup
    obtain ⟨principal, _, _, _, expires⟩ := @terms_transferredTicket_departing newOwnerId
      newOwnerId (priorOwnerIds db conversation newOwnerId) now old
    have isDeparted : old.principalUserId = some newOwnerId := by
      rw [← principal]
      exact (congrArg Prod.fst sameTerms).trans isNew
    have notExpired := isUsable.2
    rw [isUnexpired, expires, if_pos (Or.inl isDeparted),
      decide_eq_true_eq] at notExpired
    exact lt_irrefl now notExpired

end

/-! ## The removal of an owner -/

/-- An event that removes the owner of a group while another member is linked and active:
the group of its chat, its handle, the row of the owner, which the database lets the event
write, and the member who joined first. -/
structure RemovesOwner (directory : Directory) (db : AppsDb) (data : Fields)
    (conversation : Conversation) (handle : String) (owner replacement : ConversationMember) :
    Prop where
  chat : ∃ channel, (eventChatId data).bind (linqGroup db) = some (channel, conversation)
  notDot : Json.lookup (participantDetails data) "is_me" ≠ some (.bool true)
  readsHandle : textOf (orElse (Json.lookup (participantDetails data) "handle")
    (Json.lookup data "handle")) = some handle
  found : db.members.find?
    ((eventParticipant directory true data handle).isRowOf conversation.id) = some owner
  isOwner : owner.role = .owner
  valid : MembersValid (Table.update (fun row => row.id == owner.id)
    (fun _ => (eventParticipant directory true data handle).writtenRow owner) db.members)
  replaced : replacementOwner db conversation.id owner.id = some replacement

/-- The user whom the owner was: the one of the handle, the one that the row is linked to, or
the user of the conversation. -/
def departedUser (directory : Directory) (data : Fields) (conversation : Conversation)
    (handle : String) (owner : ConversationMember) : Uuid :=
  departingOwner conversation ((eventParticipant directory true data handle).writtenRow owner)

theorem linqGroup_eq_some {db : AppsDb} {chatId : String} {channel : ConversationChannel}
    {conversation : Conversation} (found : linqGroup db chatId = some (channel, conversation)) :
    db.conversation? conversation.id = some conversation ∧ conversation.kind = .group := by
  simp only [linqGroup, Option.bind_eq_bind, Option.bind_eq_some_iff] at found
  obtain ⟨stored, _, row, isStored, isGroup⟩ := found
  split at isGroup
  · rename_i kind
    cases isGroup
    have sameId := List.find?_some isStored
    rw [decide_eq_true_eq] at sameId
    rw [sameId]
    exact ⟨isStored, kind⟩
  · cases isGroup

/-- When the owner of a group is removed and another member is linked and active, the event
succeeds, and it hands the apps of the group over if and only if the user who departs is not
the one who becomes owner, or that user has neither a session nor a ticket to lose. -/
theorem removal_hands_over_iff {directory : Directory} {db : AppsDb} {data : Fields}
    {conversation : Conversation} {handle : String} {owner replacement : ConversationMember}
    {newOwnerId : Uuid}
    (removes : RemovesOwner directory db data conversation handle owner replacement)
    (linked : replacement.userId = some newOwnerId) (now : Instant) :
    ∃ after, applyLinqGroupEvent directory db "participant.removed" data now = .ok (true, after) ∧
      (HandedOver db after conversation.id (departedUser directory data conversation handle owner)
          newOwnerId now ↔
        departedUser directory data conversation handle owner ≠ newOwnerId ∨
          HoldsNothing db conversation.id newOwnerId now) := by
  obtain ⟨channel, chat⟩ := removes.chat
  obtain ⟨chatId, _, isGroup⟩ := Option.bind_eq_some_iff.mp chat
  obtain ⟨stored, kind⟩ := linqGroup_eq_some isGroup
  let participant := eventParticipant directory true data handle
  let joined : AppsDb := { db with
    members := Table.update (fun row => row.id == owner.id)
      (fun _ => participant.writtenRow owner) db.members }
  have upserts : upsertGroupMember db conversation.id participant now =
      .ok (participant.writtenRow owner, joined) := by
    simp only [upsertGroupMember, participant, removes.found]
    rw [decide_eq_true removes.valid]
    rfl
  have replaced : replacementOwner joined conversation.id (participant.writtenRow owner).id =
      some replacement := (replacementOwner_written rfl).trans removes.replaced
  obtain ⟨isMember, isActive, _, _⟩ := mem_of_replacementOwner replaced
  have locked : lockedSuccessor joined conversation replacement = .ok newOwnerId :=
    lockedSuccessor_of_mem kind (Option.isSome_of_eq_some stored) removes.valid.id isMember linked
      isActive
  have isOwner : (participant.writtenRow owner).role = .owner := removes.isOwner
  have sessions : db.sessions = joined.sessions := rfl
  have tickets : db.tickets = joined.tickets := rfl
  refine ⟨writeDeparture joined conversation replacement.id newOwnerId
    (departedUser directory data conversation handle owner) now, ?_, ?_⟩
  · have applies : applyParticipant directory db conversation true data handle now =
        .ok (writeDeparture joined conversation replacement.id newOwnerId
          (departedUser directory data conversation handle owner) now) := by
      rw [applyParticipant, upserts]
      simp only [Except.bind, isOwner, removeOwner, replaced, transferGroupOwnership, locked]
      rfl
    simp only [applyLinqGroupEvent, chat, removes.notDot, removes.readsHandle]
    simp [applies, Except.map]
  · constructor
    · intro handedOver
      by_cases isOther : departedUser directory data conversation handle owner = newOwnerId
      · rw [isOther] at handedOver
        have inJoined : HandedOver joined
            (writeDeparture joined conversation replacement.id newOwnerId newOwnerId now)
            conversation.id newOwnerId newOwnerId now := handedOver.of_same sessions.symm tickets.symm
        have holdsNothing := holdsNothing_of_handedOver inJoined
        exact Or.inr ⟨holdsNothing.session, holdsNothing.ticket⟩
      · exact Or.inl isOther
    · intro free
      have holds : departedUser directory data conversation handle owner ≠ newOwnerId ∨
          HoldsNothing joined conversation.id newOwnerId now :=
        free.imp_right fun holdsNothing => ⟨holdsNothing.session, holdsNothing.ticket⟩
      exact HandedOver.of_same sessions tickets (handedOver_departure holds)

/-! ## Two removals -/

/-- A group whose owner may be linked to a user, and an app that belongs to user 7. -/
def tripGroup (ownerUserId : Option Uuid) (userId : Uuid) : AppsDb :=
  { AppsDb.empty with
    conversations := [⟨1, userId, .group, some "Trip", .auto, some .firstInvoker, true⟩]
    members := [
      ⟨10, 1, ownerUserId, "+14155552680", none, some "Bob", none, .owner, .active, 1, none, 1⟩,
      ⟨11, 1, some 7, "+14155552681", none, some "Alice", none, .member, .active, 2, none, 2⟩]
    channels := [⟨2, 1, "linq", "trip-chat", none, true⟩]
    apps := [⟨20, userId, 1, "trip-split", "Trip split", "", .collaborativeLink, .active, .code, 1⟩]
    memberships := [⟨20, userId, .owner⟩]
    sessions := [⟨30, 20, some 7, .member, "session", 1000, none⟩]
    nextId := 40 }

/-- The owner is removed from the chat. -/
def ownerRemoved : Fields :=
  [("chat_id", .str "trip-chat"), ("participant", .obj [("handle", .str "+14155552680")])]

theorem removesOwner_tripGroup :
    RemovesOwner tripDirectory (tripGroup (some 8) 8) ownerRemoved
      ⟨1, 8, .group, some "Trip", .auto, some .firstInvoker, true⟩ "+14155552680"
      ⟨10, 1, some 8, "+14155552680", none, some "Bob", none, .owner, .active, 1, none, 1⟩
      ⟨11, 1, some 7, "+14155552681", none, some "Alice", none, .member, .active, 2, none, 2⟩ where
  chat := ⟨⟨2, 1, "linq", "trip-chat", none, true⟩, by decide⟩
  notDot := by decide
  readsHandle := by decide
  found := by decide
  isOwner := rfl
  valid := by decide
  replaced := by decide

/-- The apps of an owner who is linked to a user are handed over. -/
theorem linked_owner_hands_over :
    ∃ after, applyLinqGroupEvent tripDirectory (tripGroup (some 8) 8) "participant.removed"
        ownerRemoved 5 = .ok (true, after) ∧
      HandedOver (tripGroup (some 8) 8) after 1 8 7 5 := by
  obtain ⟨after, applied, handsOver⟩ := removal_hands_over_iff removesOwner_tripGroup rfl 5
  exact ⟨after, applied, handsOver.mpr (Or.inl (by decide))⟩

/-- An owner who is not linked to a user is removed while the group still belongs to the member
who replaces the owner: the new owner's session of the app is revoked. -/
theorem unlinked_owner_takes_session :
    RemovesOwner tripDirectory (tripGroup none 7) ownerRemoved
      ⟨1, 7, .group, some "Trip", .auto, some .firstInvoker, true⟩ "+14155552680"
      ⟨10, 1, none, "+14155552680", none, some "Bob", none, .owner, .active, 1, none, 1⟩
      ⟨11, 1, some 7, "+14155552681", none, some "Alice", none, .member, .active, 2, none, 2⟩ ∧
    ∃ after, applyLinqGroupEvent tripDirectory (tripGroup none 7) "participant.removed"
        ownerRemoved 5 = .ok (true, after) ∧
      after.sessions = [⟨30, 20, some 7, .member, "session", 1000, some 5⟩] ∧
      ¬ HandedOver (tripGroup none 7) after 1 7 7 5 := by
  refine ⟨⟨⟨⟨2, 1, "linq", "trip-chat", none, true⟩, by decide⟩, by decide,
    by decide, by decide, rfl, by decide, by decide⟩, ?_⟩
  have applied : ((applyLinqGroupEvent tripDirectory (tripGroup none 7) "participant.removed"
      ownerRemoved 5).toOption.any fun result => result.1 &&
        (result.2.sessions = [⟨30, 20, some 7, .member, "session", 1000, some 5⟩]) &&
        (appsOf result.2 1 = [⟨20, 7, 1, "trip-split", "Trip split", "", .collaborativeLink,
          .active, .code, 1⟩])) = true := by
    decide
  simp only [Option.any_eq_true, Bool.and_eq_true, decide_eq_true_eq] at applied
  rcases applied with ⟨⟨handled, after⟩, isOk, ⟨rfl, sessions⟩, apps⟩
  refine ⟨after, ok_of_toOption isOk, sessions, ?_⟩
  intro handedOver
  have handed := handedOver _ (apps ▸ List.mem_singleton_self _)
  have same := handed.sessions 5 le_rfl
  rw [usableSessions, sessions] at same
  revert same
  decide

end DotBackend.Groups
