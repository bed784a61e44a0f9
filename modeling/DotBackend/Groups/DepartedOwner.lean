import DotBackend.Apps.OwnedApps
import DotBackend.Groups.OtherGroups
import DotBackend.Groups.OwnerHandover

/-!
# An owner who departed

The owner of a group is removed, and nobody is left to replace the owner. The apps of the group
still point at the user who departed; only the flag of the conversation says that they have no
owner. Meanwhile members come and go, tickets are issued and redeemed, and builds complete.
-/

namespace DotBackend.Groups

open Data Channel Apps Transition

variable {memberId appId issuerUserId : Uuid} {ttlSeconds : Int}

/-! ## The calls -/

/-- `create_custom_app_link`: it issues a ticket for an owned app, a member's without a principal
for a shared app. -/
def issueAppLink (db : AppsDb) (appId userId : Uuid) (raw : String) (now : Instant) :
    Except CodeAppError AppsDb := do
  let owned ← getOwnedCodeApp db appId userId
  if owned.app.accessMode = .collaborativeLink then
    issueAccessTicket db owned.app.id userId none .member maxAccessTicketTtlSeconds raw now
  else
    issueAccessTicket db owned.app.id userId (some userId) .owner maxAccessTicketTtlSeconds raw now

inductive AccessCall
  | group (directory : Directory) (call : GroupCall)
  | issueAppLink (appId userId : Uuid) (raw : String)
  | redeemAccessTicket (publicId token : String) (ttlSeconds : Int) (raw : String)
  | completeBuild (result : BuildResult) (raw : String)

/-- A call at a time. -/
structure AccessStep where
  now : Instant
  call : AccessCall

/-- The tables, and the time of the last call. -/
structure AccessState where
  db : AppsDb
  clock : Instant

/-- A call whose transaction commits. -/
def AccessCall.run (unicode : Unicode) (db : AppsDb) (now : Instant) : AccessCall → Option AppsDb
  | .group directory call => groupStep db ⟨directory, now, call⟩
  | .issueAppLink appId userId raw => (Groups.issueAppLink db appId userId raw now).toOption
  | .redeemAccessTicket publicId token ttlSeconds raw =>
      ((Apps.redeemAccessTicket db publicId token ttlSeconds raw now).map Prod.snd).toOption
  | .completeBuild result raw => (Apps.completeBuild unicode db result raw now).toOption

/-- One committed call, no earlier than the one before it. -/
def accessStep (unicode : Unicode) (state : AccessState) (step : AccessStep) : Option AccessState :=
  if state.clock ≤ step.now then
    (step.call.run unicode state.db step.now).map fun after => ⟨after, step.now⟩
  else none

/-! ## The property and the condition -/

/-- A user has no owner's access to the apps of a group, and no ticket or session of an owner or
of this user is usable. -/
structure HasNoAuthority (conversationId userId : Uuid) (state : AccessState) : Prop where
  user : ∀ app ∈ appsOf state.db conversationId, ∀ actor,
    authorizeUserForLockedApp state.db app userId = .ok actor → actor.role ≠ .owner
  tickets : ∀ app ∈ appsOf state.db conversationId, ∀ ticket ∈ state.db.tickets,
    ticket.appId = app.id → state.clock < ticket.expiresAt →
      ticket.role ≠ .owner ∧ ticket.principalUserId ≠ some userId
  sessions : ∀ app ∈ appsOf state.db conversationId, ∀ session ∈ state.db.sessions,
    session.appId = app.id → session.revokedAt = none →
      session.role ≠ .owner ∧ session.userId ≠ some userId

/-- The user does not become the owner of the group again, and nobody who is not linked to a
user claims it while an app still points at the user. -/
def keepsDeparted (conversationId userId : Uuid) (db : AppsDb) : GroupWrite → Bool
  | .transfer conversation successor _ _ =>
      conversation.id ≠ conversationId ||
        (lockedSuccessor db conversation successor).toOption ≠ some userId
  | .removal conversation participant =>
      conversation.id ≠ conversationId ||
        (db.members.find? (participant.isRowOf conversationId)).any fun owner =>
          (replacementOwner db conversationId owner.id).all fun replacement =>
            replacement.userId ≠ some userId
  | .claim conversation _ source =>
      conversation.id ≠ conversationId || source = .unclaimed ||
        (appsOf db conversationId).all fun app => app.userId ≠ userId
  | .upsert _ _ | .join _ _ _ | .leave _ _ => true

/-- The same for the calls of a run. -/
def staysDeparted (conversationId userId : Uuid) (state : AccessState) (step : AccessStep) : Bool :=
  match step.call with
  | .group directory call =>
      everyWrite (keepsDeparted conversationId userId) state.db ⟨directory, step.now, call⟩
  | _ => true

/-! ## The invariant -/

/-- A conversation is a group without an owner. -/
def isUnclaimed (db : AppsDb) (conversationId : Uuid) : Bool :=
  (db.conversation? conversationId).any fun conversation =>
    conversation.kind = .group && conversation.groupOwnerSource = some .unclaimed

/-- A ticket of an owner or of the user has expired. -/
def TicketEnded (userId : Uuid) (clock : Instant) (ticket : GeneratedAppAccessTicket) : Prop :=
  ticket.role = .owner ∨ ticket.principalUserId = some userId → ticket.expiresAt ≤ clock

/-- A session of an owner or of the user was revoked. -/
def SessionEnded (userId : Uuid) (session : GeneratedAppSession) : Prop :=
  session.role = .owner ∨ session.userId = some userId → session.revokedAt ≠ none

/-- The identifiers of the apps of a conversation. -/
def appIdsOf (db : AppsDb) (conversationId : Uuid) : List Uuid :=
  (appsOf db conversationId).map (·.id)

/-- The access to the apps of a group after its owner departed. -/
structure Departed (conversationId userId : Uuid) (clock : Instant) (db : AppsDb) : Prop where
  keys : GroupKeys db
  shared : ∀ app ∈ appsOf db conversationId, app.accessMode = .collaborativeLink
  hidden : (∃ app ∈ appsOf db conversationId, app.userId = userId) →
    isUnclaimed db conversationId = true
  memberships : ∀ row ∈ db.memberships, row.appId ∈ appIdsOf db conversationId →
    row.userId = userId → row.role ≠ .owner
  tickets : ∀ ticket ∈ db.tickets, ticket.appId ∈ appIdsOf db conversationId →
    TicketEnded userId clock ticket
  sessions : ∀ session ∈ db.sessions, session.appId ∈ appIdsOf db conversationId →
    SessionEnded userId session

section

variable {conversationId userId : Uuid} {clock now : Instant} {db after : AppsDb}

theorem Departed.hasNoAuthority (departed : Departed conversationId userId clock db) :
    HasNoAuthority conversationId userId ⟨db, clock⟩ where
  user := by
    intro app appMem actor authorized
    have ofGroup : app.conversationId = conversationId :=
      of_decide_eq_true (List.mem_filter.mp appMem).2
    simp only [authorizeUserForLockedApp] at authorized
    split at authorized
    · rename_i isOwner
      have unclaimed := departed.hidden ⟨app, appMem, isOwner.1⟩
      rw [← ofGroup] at unclaimed
      exact absurd (isOwner.2.symm.trans unclaimed) Bool.false_ne_true
    · split at authorized
      · cases authorized
      · rename_i row found
        have matched := List.find?_some found
        rw [decide_eq_true_eq] at matched
        split at authorized
        · cases authorized
        · cases authorized
          apply departed.memberships row (List.mem_of_find?_eq_some found) _ matched.2
          rw [matched.1]
          exact List.mem_map_of_mem appMem
  tickets := by
    intro app appMem ticket ticketMem isOfApp unexpired
    have ended := departed.tickets ticket ticketMem (isOfApp ▸ List.mem_map_of_mem appMem)
    constructor
    · intro isOwner
      exact absurd (ended (Or.inl isOwner)) (not_le_of_gt unexpired)
    · intro isPrincipal
      exact absurd (ended (Or.inr isPrincipal)) (not_le_of_gt unexpired)
  sessions := by
    intro app appMem session sessionMem isOfApp unrevoked
    have ended := departed.sessions session sessionMem (isOfApp ▸ List.mem_map_of_mem appMem)
    exact ⟨fun isOwner => ended (Or.inl isOwner) unrevoked,
      fun isUser => ended (Or.inr isUser) unrevoked⟩

theorem Departed.later (departed : Departed conversationId userId clock db) (isLater : clock ≤ now) :
    Departed conversationId userId now db :=
  { departed with
    tickets := fun ticket ticketMem isOfApp ended =>
      le_trans (departed.tickets ticket ticketMem isOfApp ended) isLater }

/-! ## Frames -/

theorem isUnclaimed_eq_true : isUnclaimed db conversationId = true ↔
    ∃ row, db.conversation? conversationId = some row ∧ row.kind = .group ∧
      row.groupOwnerSource = some .unclaimed := by
  simp [isUnclaimed, Option.any_eq_true]

/-- Whether a group has an owner is read from the columns that say who owns it. -/
theorem isUnclaimed_of_ownership
    (same : after.conversations.map ownership = db.conversations.map ownership) :
    isUnclaimed after conversationId = isUnclaimed db conversationId := by
  have byOwnership : ∀ tables : AppsDb, isUnclaimed tables conversationId =
      ((tables.conversations.map ownership).find? fun row => row.1 = conversationId).any fun row =>
        row.2.2.1 = .group && row.2.2.2 = some .unclaimed := by
    intro tables
    rw [List.find?_map, Option.any_map]
    rfl
  rw [byOwnership, byOwnership, same]

/-- An edit of one conversation that keeps it without an owner, if it is this group. -/
theorem isUnclaimed_of_update {changedId : Uuid} {change : Conversation → Conversation}
    (conversations : after.conversations = Table.update (fun row => row.id == changedId) change
      db.conversations)
    (keepsId : ∀ row, (change row).id = row.id)
    (keeps : changedId = conversationId → ∀ row : Conversation, row.kind = .group →
      row.groupOwnerSource = some .unclaimed →
        (change row).kind = .group ∧ (change row).groupOwnerSource = some .unclaimed)
    (unclaimed : isUnclaimed db conversationId = true) : isUnclaimed after conversationId = true := by
  rw [isUnclaimed_eq_true] at unclaimed ⊢
  obtain ⟨row, found, isGroup, hasNoOwner⟩ := unclaimed
  have foundAfter : after.conversation? conversationId =
      if conversationId = changedId then (db.conversation? conversationId).map change
      else db.conversation? conversationId := by
    rw [AppsDb.conversation?, conversations]
    exact Table.find?_update_key (fun row : Conversation => row.id) change keepsId _ _ _
  rw [foundAfter, found]
  by_cases isChanged : conversationId = changedId
  · rw [if_pos isChanged]
    obtain ⟨stillGroup, stillUnclaimed⟩ := keeps isChanged.symm row isGroup hasNoOwner
    exact ⟨change row, rfl, stillGroup, stillUnclaimed⟩
  · rw [if_neg isChanged]
    exact ⟨row, rfl, isGroup, hasNoOwner⟩

theorem appIdsOf_of_access (same : (appsOf after conversationId).map GeneratedApp.access =
    (appsOf db conversationId).map GeneratedApp.access) :
    appIdsOf after conversationId = appIdsOf db conversationId := by
  have first := congrArg (List.map Prod.fst) same
  rw [List.map_map, List.map_map] at first
  exact first

/-- A step that keeps who may use the apps, and adds no memberships. -/
theorem Departed.of_access (departed : Departed conversationId userId clock db)
    (keys : GroupKeys after)
    (apps : (appsOf after conversationId).map GeneratedApp.access =
      (appsOf db conversationId).map GeneratedApp.access)
    (unclaimed : isUnclaimed db conversationId = true → isUnclaimed after conversationId = true)
    (memberships : ∀ row ∈ after.memberships, row ∈ db.memberships)
    (tickets : ∀ ticket ∈ after.tickets, ticket.appId ∈ appIdsOf db conversationId →
      TicketEnded userId now ticket)
    (sessions : ∀ session ∈ after.sessions, session.appId ∈ appIdsOf db conversationId →
      SessionEnded userId session) : Departed conversationId userId now after := by
  have wasApp : ∀ app ∈ appsOf after conversationId, ∃ old ∈ appsOf db conversationId,
      old.userId = app.userId ∧ old.accessMode = app.accessMode := by
    intro app appMem
    have accessMem := List.mem_map_of_mem (f := GeneratedApp.access) appMem
    rw [apps] at accessMem
    obtain ⟨old, oldMem, same⟩ := List.mem_map.mp accessMem
    simp only [GeneratedApp.access, Prod.mk.injEq] at same
    exact ⟨old, oldMem, same.2.1, same.2.2.2.1⟩
  have ids := appIdsOf_of_access apps
  constructor
  · exact keys
  · intro app appMem
    obtain ⟨old, oldMem, _, sameMode⟩ := wasApp app appMem
    rw [← sameMode]
    exact departed.shared old oldMem
  · rintro ⟨app, appMem, isUser⟩
    obtain ⟨old, oldMem, sameUser, _⟩ := wasApp app appMem
    exact unclaimed (departed.hidden ⟨old, oldMem, sameUser.trans isUser⟩)
  · rw [ids]
    intro row rowMem
    exact departed.memberships row (memberships row rowMem)
  · rw [ids]
    exact tickets
  · rw [ids]
    exact sessions

/-! ## Writes about members and owners -/

theorem Departed.memberChange (departed : Departed conversationId userId clock db)
    {change : Option ConversationMember} {new : ConversationMember}
    (changed : MemberChange db change new after) : Departed conversationId userId clock after := by
  apply departed.of_access (departed.keys.memberChange changed)
  · rw [changed.eq]
    rfl
  · rw [changed.eq]
    exact id
  · rw [changed.eq]
    exact fun _ rowMem => rowMem
  · rw [changed.eq]
    exact departed.tickets
  · rw [changed.eq]
    exact departed.sessions

theorem Departed.prepares (departed : Departed conversationId userId clock db)
    (prepared : Prepares db after) : Departed conversationId userId clock after := by
  have keys := departed.keys.prepares prepared
  have unclaimed : isUnclaimed db conversationId = true → isUnclaimed after conversationId = true := by
    have appended : ∀ added, (db.conversation? conversationId).isSome →
        (db.conversations ++ [added]).find? (fun row => row.id = conversationId) =
          db.conversation? conversationId := by
      intro added found
      obtain ⟨row, isFound⟩ := Option.isSome_iff_exists.mp found
      rw [List.find?_append, AppsDb.conversation?] at *
      rw [isFound]
      rfl
    intro wasUnclaimed
    have found : (db.conversation? conversationId).isSome := by
      obtain ⟨row, isFound, _⟩ := isUnclaimed_eq_true.mp wasUnclaimed
      rw [isFound]
      rfl
    cases prepared with
    | describe same =>
        rw [isUnclaimed_of_ownership same]
        exact wasUnclaimed
    | openGroup _ _ =>
        rw [isUnclaimed, AppsDb.conversation?, appended _ found]
        exact wasUnclaimed
    | createGroup _ _ _ _ _ _ =>
        rw [isUnclaimed, AppsDb.conversation?, appended _ found]
        exact wasUnclaimed
  have apps : after.apps = db.apps := by cases prepared <;> rfl
  have memberships : after.memberships = db.memberships := by cases prepared <;> rfl
  have tickets : after.tickets = db.tickets := by cases prepared <;> rfl
  have sessions : after.sessions = db.sessions := by cases prepared <;> rfl
  apply departed.of_access keys _ unclaimed
  · rw [memberships]
    exact fun _ rowMem => rowMem
  · rw [tickets]
    exact departed.tickets
  · rw [sessions]
    exact departed.sessions
  · rw [appsOf, apps]
    rfl

/-- A claim that keeps the group without an owner, or finds no app that points at the user. -/
theorem Departed.writeUnlinkedClaim (departed : Departed conversationId userId clock db)
    {conversation : Conversation} {source : GroupOwnerSource}
    (allowed : keepsDeparted conversationId userId db (.claim conversation memberId source) = true) :
    Departed conversationId userId clock (writeUnlinkedClaim db conversation memberId source) := by
  have noApp : source ≠ .unclaimed → conversation.id = conversationId →
      ∀ app ∈ appsOf db conversationId, app.userId ≠ userId := by
    intro isClaimed isOwn
    simpa [keepsDeparted, isOwn, isClaimed] using allowed
  constructor
  · exact departed.keys.unlinkedClaim
  · exact departed.shared
  · rintro ⟨app, appMem, isUser⟩
    have conversations : (Groups.writeUnlinkedClaim db conversation memberId source).conversations =
        Table.update (fun row => row.id == conversation.id)
          (fun row => { row with groupOwnerSource := some source }) db.conversations := rfl
    apply isUnclaimed_of_update conversations (fun _ => rfl) _
      (departed.hidden ⟨app, appMem, isUser⟩)
    intro isOwn row isGroup _
    refine ⟨isGroup, ?_⟩
    by_contra isClaimed
    exact noApp (fun same => isClaimed (congrArg some same)) isOwn app appMem isUser
  · exact departed.memberships
  · exact departed.tickets
  · exact departed.sessions

end

/-! ## Transfers and revocations -/

section

variable {conversationId userId newOwnerId : Uuid} {clock now : Instant} {db : AppsDb}
  {prior : List Uuid} {departing : Option Uuid}

/-- A transfer writes no ticket that is valid for longer. -/
theorem TicketEnded.transferred {ticket : GeneratedAppAccessTicket}
    (ended : TicketEnded userId now ticket) :
    TicketEnded userId now (transferredTicket newOwnerId prior departing now ticket) := by
  intro isUsers
  unfold transferredTicket at isUsers ⊢
  dsimp only at isUsers ⊢
  split at isUsers
  · rw [if_pos ‹_›]
  · rw [if_neg ‹_›]
    split at isUsers
    · rw [if_pos ‹_›]
      rename_i isStale
      apply ended
      rcases isUsers with isOwner | isPrincipal
      · cases isOwner
      · exact Or.inr isPrincipal
    · rw [if_neg ‹_›]
      exact ended isUsers

theorem SessionEnded.transferred {session : GeneratedAppSession}
    (ended : SessionEnded userId session) :
    SessionEnded userId (transferredSession newOwnerId departing now session) := by
  intro isUsers
  unfold transferredSession at isUsers ⊢
  dsimp only at isUsers ⊢
  split at isUsers
  · rw [if_pos ‹_›]
    exact Option.some_ne_none now
  · rw [if_neg ‹_›]
    split at isUsers
    · rw [if_pos ‹_›]
      apply ended
      rcases isUsers with isOwner | isUser
      · cases isOwner
      · exact Or.inr isUser
    · rw [if_neg ‹_›]
      exact ended isUsers

theorem TicketEnded.revoked {ticket : GeneratedAppAccessTicket} {departed : Uuid}
    (ended : TicketEnded userId now ticket) :
    TicketEnded userId now (revokedTicket departed now ticket) := by
  unfold revokedTicket
  split
  · exact fun _ => le_refl now
  · exact ended

theorem SessionEnded.revoked {session : GeneratedAppSession} {departed : Uuid}
    (ended : SessionEnded userId session) :
    SessionEnded userId (revokedSession departed now session) := by
  unfold revokedSession
  split
  · exact fun _ => Option.some_ne_none now
  · exact ended

end

section

variable {conversationId userId : Uuid} {now : Instant} {db after : AppsDb}
  {conversation : Conversation}

/-- The apps of a group go to somebody else than the user. -/
theorem Departed.writeTransfer (departed : Departed conversationId userId now db)
    {successorId newOwnerId : Uuid} {source : GroupOwnerSource} {departing : Option Uuid}
    (isOther : conversation.id = conversationId → newOwnerId ≠ userId) :
    Departed conversationId userId now
      (writeTransfer db conversation successorId newOwnerId source departing now) := by
  have ids : appIdsOf (Groups.writeTransfer db conversation successorId newOwnerId source departing
      now) conversationId = appIdsOf db conversationId := map_id_appsOf_writeTransfer conversationId
  constructor
  · exact departed.keys.transfer
  · intro app appMem
    obtain ⟨stored, isOf⟩ := List.mem_filter.mp appMem
    rw [apps_writeTransfer] at stored
    rcases Table.mem_update_cases stored with ⟨old, oldMem, _, rfl⟩ | ⟨oldMem, _⟩
    · exact departed.shared old (List.mem_filter.mpr ⟨oldMem, isOf⟩)
    · exact departed.shared app (List.mem_filter.mpr ⟨oldMem, isOf⟩)
  · rintro ⟨app, appMem, isUser⟩
    obtain ⟨old, oldMem, _, appUser⟩ := mem_appsOf_writeTransfer appMem
    by_cases isOwn : conversationId = conversation.id
    · rw [if_pos isOwn] at appUser
      exact absurd (appUser.symm.trans isUser) (isOther isOwn.symm)
    · rw [if_neg isOwn] at appUser
      apply isUnclaimed_of_update conversations_writeTransfer (fun _ => rfl) _
        (departed.hidden ⟨old, oldMem, appUser.symm.trans isUser⟩)
      intro same
      exact absurd same.symm isOwn
  · rw [ids]
    intro row rowMem isOfApp isUser
    rcases mem_memberships_writeTransfer rowMem with ⟨_, wasMem⟩ | ⟨isOfGroup, transferred⟩
    · exact departed.memberships row wasMem isOfApp isUser
    · rcases transferred with isNew | ⟨_, notOwner, _⟩
      · by_cases isOwn : conversation.id = conversationId
        · rw [isNew] at isUser
          exact absurd isUser (isOther isOwn)
        · obtain ⟨app, appMem, sameId⟩ := List.mem_map.mp isOfApp
          rw [← sameId] at isOfGroup
          exact absurd isOfGroup (departed.keys.not_app_of_other isOwn appMem)
      · exact notOwner
  · rw [ids, tickets_writeTransfer]
    intro ticket ticketMem isOfApp
    rcases Table.mem_update_cases ticketMem with ⟨old, oldMem, _, rfl⟩ | ⟨oldMem, _⟩
    · rw [transferredTicket_appId] at isOfApp
      exact (departed.tickets old oldMem isOfApp).transferred
    · exact departed.tickets ticket oldMem isOfApp
  · rw [ids, sessions_writeTransfer]
    intro session sessionMem isOfApp
    rcases Table.mem_update_cases sessionMem with ⟨old, oldMem, _, rfl⟩ | ⟨oldMem, _⟩
    · rw [transferredSession_appId] at isOfApp
      exact (departed.sessions old oldMem isOfApp).transferred
    · exact departed.sessions session oldMem isOfApp

/-- Another owner departs, or the owner of another group. -/
theorem Departed.unclaimed (departed : Departed conversationId userId now db)
    {departedId : Uuid} :
    Departed conversationId userId now
      (revokeUnclaimedGroupAppOwner (writeUnclaimed db conversation.id memberId) conversation.id
        departedId now) := by
  apply departed.of_access departed.keys.unclaimed
  · rw [appsOf, revoke_keeps AppsDb.apps fun _ _ => rfl]
    rfl
  · have conversations : (revokeUnclaimedGroupAppOwner (writeUnclaimed db conversation.id memberId)
        conversation.id departedId now).conversations =
          Table.update (fun row => row.id == conversation.id)
            (fun row => { row with groupOwnerSource := some .unclaimed }) db.conversations :=
      revoke_keeps AppsDb.conversations (fun _ _ => rfl) _ _
    apply isUnclaimed_of_update conversations (fun _ => rfl)
    intro _ row isGroup _
    exact ⟨isGroup, rfl⟩
  · intro row rowMem
    exact (mem_memberships_revoke.mp rowMem).1
  · rw [tickets_revoke]
    intro ticket ticketMem isOfApp
    rcases Table.mem_update_cases ticketMem with ⟨old, oldMem, _, rfl⟩ | ⟨oldMem, _⟩
    · have sameApp : (revokedTicket departedId now old).appId = old.appId := by
        unfold revokedTicket
        split <;> rfl
      rw [sameApp] at isOfApp
      exact (departed.tickets old oldMem isOfApp).revoked
    · exact departed.tickets ticket oldMem isOfApp
  · rw [sessions_revoke]
    intro session sessionMem isOfApp
    rcases Table.mem_update_cases sessionMem with ⟨old, oldMem, _, rfl⟩ | ⟨oldMem, _⟩
    · have sameApp : (revokedSession departedId now old).appId = old.appId := by
        unfold revokedSession
        split <;> rfl
      rw [sameApp] at isOfApp
      exact (departed.sessions old oldMem isOfApp).revoked
    · exact departed.sessions session oldMem isOfApp

/-- Whoever replaces an owner is found before the owner's row is written. -/
theorem replacementOwner_joined {owner member : ConversationMember}
    (changed : MemberChange db (some owner) member after) :
    replacementOwner after conversationId member.id =
      replacementOwner db conversationId owner.id := by
  cases changed with
  | rewrite _ sameId _ _ _ =>
      rw [sameId]
      exact replacementOwner_written sameId

theorem Departed.removal (departed : Departed conversationId userId now db)
    {participant : Participant} (isMember : participant.role = .member)
    (allowed : keepsDeparted conversationId userId db (.removal conversation participant) = true)
    (removes : (GroupWrite.removal conversation participant).apply now db = .ok after) :
    Departed conversationId userId now after := by
  obtain ⟨member, joined, changed, _, _, replaced⟩ := removal_eq_ok isMember removes
  have keys := departed.keys.memberChange changed
  rcases replaced with ⟨successor, newOwnerId, replacement, locked, rfl⟩ | ⟨_, rfl⟩
  · apply (departed.memberChange changed).writeTransfer
    intro isOwn isUser
    rw [isOwn] at changed replacement
    simp only [keepsDeparted, isOwn, ne_eq, not_true_eq_false, decide_false, Bool.false_or,
      Option.any_eq_true] at allowed
    obtain ⟨owner, found, notUser⟩ := allowed
    rw [found] at changed
    have successorMem : successor ∈ joined.members :=
      (List.mem_filter.mp (mem_of_replacementOwner replacement).1).1
    rw [replacementOwner_joined changed] at replacement
    rw [replacement, Option.all_some, decide_eq_true_eq] at notUser
    obtain ⟨_, lockedMember, lockedMem, sameId, linked, _⟩ := lockedSuccessor_eq_ok locked
    have same := keys.member_eq (List.mem_filter.mp lockedMem).1 successorMem sameId
    rw [← same, linked, isUser] at notUser
    exact notUser rfl
  · exact (departed.memberChange changed).unclaimed

/-- A write that is allowed. -/
theorem Departed.write {write : GroupWrite} (departed : Departed conversationId userId now db)
    (asMember : write.AsMember) (allowed : keepsDeparted conversationId userId db write = true)
    (applies : write.apply now db = .ok after) : Departed conversationId userId now after := by
  cases write with
  | upsert conversationId participant =>
      obtain ⟨member, upserts⟩ := map_snd_eq_ok applies
      exact departed.memberChange (memberChange_of_upserted asMember (upsertGroupMember_eq_ok upserts))
  | removal conversation participant => exact departed.removal asMember allowed applies
  | transfer conversation successor source departing =>
      obtain ⟨newOwnerId, locked, rfl⟩ := transferGroupOwnership_eq_ok applies
      apply departed.writeTransfer
      intro isOwn isUser
      rw [isUser] at locked
      simp [keepsDeparted, isOwn, locked, Except.toOption] at allowed
  | claim conversation memberId source =>
      cases applies
      exact departed.writeUnlinkedClaim allowed
  | join invite user handle =>
      obtain ⟨new, changed, _⟩ := memberChange_of_writeJoin applies
      exact departed.memberChange changed
  | leave conversationId leaverId =>
      obtain ⟨old, _, _, _, _, changed⟩ :=
        memberChange_of_leaveWebGroup departed.keys.members applies
      exact departed.memberChange changed

end

/-! ## Tickets -/

section

variable {conversationId userId : Uuid} {clock now : Instant} {db after : AppsDb} {raw : String}

/-- An app by its identifier, if it is one of the group. -/
theorem Departed.shared_of_id (departed : Departed conversationId userId clock db)
    {app : GeneratedApp} (appMem : app ∈ db.apps)
    (isOfGroup : app.id ∈ appIdsOf db conversationId) : app.accessMode = .collaborativeLink := by
  obtain ⟨other, otherMem, sameId⟩ := List.mem_map.mp isOfGroup
  rw [← departed.keys.app_eq (List.mem_filter.mp otherMem).1 appMem sameId]
  exact departed.shared other otherMem

/-- A ticket is issued that is nobody's and no owner's, if it is for an app of the group. -/
theorem Departed.persistAccessTicket (departed : Departed conversationId userId clock db)
    {principal : Option Uuid} {role : GeneratedAppRole}
    (harmless : appId ∈ appIdsOf db conversationId → principal = none ∧ role = .member) :
    Departed conversationId userId clock
      (persistAccessTicket db appId issuerUserId principal role ttlSeconds raw now) := by
  apply departed.of_access
  · exact departed.keys.of_maps departed.keys.members rfl rfl rfl (le_refl _)
  · rfl
  · exact id
  · exact fun _ rowMem => rowMem
  · intro ticket ticketMem isOfApp
    rcases List.mem_append.mp ticketMem with isOld | isNew
    · exact departed.tickets ticket isOld isOfApp
    · rw [List.mem_singleton.mp isNew] at isOfApp ⊢
      obtain ⟨rfl, rfl⟩ := harmless isOfApp
      rintro (isOwner | isPrincipal)
      · cases isOwner
      · cases isPrincipal
  · exact departed.sessions

theorem issueAccessTicket_eq_ok {principal : Option Uuid}
    {role : GeneratedAppRole}
    (issued : issueAccessTicket db appId issuerUserId principal role ttlSeconds raw now = .ok after) :
    after = persistAccessTicket db appId issuerUserId principal role ttlSeconds raw now := by
  simp only [issueAccessTicket, bind_eq_ok, pure_eq_ok] at issued
  rcases issued with ⟨_, _, _, _, _, _, rfl⟩
  rfl

theorem Departed.issueAppLink (departed : Departed conversationId userId clock db)
    (issued : issueAppLink db appId issuerUserId raw now = .ok after) :
    Departed conversationId userId clock after := by
  simp only [Groups.issueAppLink, bind_eq_ok] at issued
  obtain ⟨owned, owns, issued⟩ := issued
  have stored : owned.app ∈ db.apps := by
    simp only [getOwnedCodeApp, bind_eq_ok, pure_eq_ok] at owns
    rcases owns with ⟨app, locked, _, _, _, _, rfl⟩
    exact List.mem_of_find?_eq_some (lockedCodeApp_eq_ok locked)
  split at issued
  · rw [issueAccessTicket_eq_ok issued]
    exact departed.persistAccessTicket fun _ => ⟨rfl, rfl⟩
  · rename_i notShared
    rw [issueAccessTicket_eq_ok issued]
    apply departed.persistAccessTicket
    intro isOfGroup
    exact absurd (departed.shared_of_id stored isOfGroup) notShared

/-- A ticket that has not expired makes a session of a member who is nobody. -/
theorem Departed.redeemAccessTicket (departed : Departed conversationId userId clock db)
    (isLater : clock ≤ now) {publicId token : String} {session : GeneratedAppSession}
    (redeems : redeemAccessTicket db publicId token ttlSeconds raw now = .ok (session, after)) :
    Departed conversationId userId clock after := by
  unfold Apps.redeemAccessTicket at redeems
  split at redeems
  · cases redeems
  · rename_i app found
    simp only [bind_eq_ok] at redeems
    obtain ⟨_, _, redeems⟩ := redeems
    split at redeems
    · cases redeems
    · rename_i ticket isTicket
      simp only [bind_eq_ok, pure_eq_ok] at redeems
      rcases redeems with ⟨_, _, same⟩
      cases same
      have matched := List.find?_some isTicket
      rw [decide_eq_true_eq] at matched
      have ticketMem := List.mem_of_find?_eq_some isTicket
      apply departed.of_access
      · exact departed.keys.of_maps departed.keys.members rfl rfl rfl (Nat.le_succ _)
      · rfl
      · exact id
      · exact fun _ rowMem => rowMem
      · intro other otherMem isOfApp
        rcases Table.mem_update_cases otherMem with ⟨old, oldMem, _, rfl⟩ | ⟨oldMem, _⟩
        · exact departed.tickets old oldMem isOfApp
        · exact departed.tickets other oldMem isOfApp
      · intro other otherMem isOfApp
        rcases List.mem_append.mp otherMem with isOld | isNew
        · exact departed.sessions other isOld isOfApp
        · rw [List.mem_singleton.mp isNew] at isOfApp ⊢
          intro isUsers
          have expired := departed.tickets ticket ticketMem (matched.1.symm ▸ isOfApp) isUsers
          exact absurd (le_trans expired isLater) (not_le_of_gt matched.2.2)

/-- The handoff of a build is a member's who is nobody, if the app is of the group. -/
theorem Departed.issueHandoff (departed : Departed conversationId userId clock db)
    {app : GeneratedApp} (shared : app.id ∈ appIdsOf db conversationId →
      app.accessMode = .collaborativeLink) {baseUrl : Option String}
    (issued : issueHandoff db app baseUrl raw now = .ok after) :
    Departed conversationId userId clock after := by
  unfold Apps.issueHandoff at issued
  split at issued
  · cases issued
    exact departed
  · simp only [bind_eq_ok, pure_eq_ok] at issued
    obtain ⟨handed, issued, _, _, rfl⟩ := issued
    unfold issueHandoffTicket at issued
    split at issued
    · unfold issueTrustedGroupHandoffTicket at issued
      split at issued
      · cases issued
      · cases issued
        exact departed.persistAccessTicket fun _ => ⟨rfl, rfl⟩
    · split at issued
      · rw [issueAccessTicket_eq_ok issued]
        exact departed.persistAccessTicket fun _ => ⟨rfl, rfl⟩
      · rename_i notShared
        rw [issueAccessTicket_eq_ok issued]
        apply departed.persistAccessTicket
        intro isOfGroup
        exact absurd (shared isOfGroup) notShared

/-- A promotion keeps the apps of a group, apart from what describes them. -/
theorem access_appsOf_promotes (promotes : Promotes db after) :
    (appsOf after conversationId).map GeneratedApp.access =
      (appsOf db conversationId).map GeneratedApp.access := by
  have byAccess : ∀ tables : AppsDb, (appsOf tables conversationId).map GeneratedApp.access =
      (tables.apps.map GeneratedApp.access).filter fun row => row.2.2.1 = conversationId := by
    intro tables
    rw [List.filter_map]
    rfl
  rw [byAccess, byAccess, promotes.access]

theorem Departed.promotes (departed : Departed conversationId userId clock db)
    (promotes : Promotes db after) : Departed conversationId userId clock after := by
  apply departed.of_access _ (access_appsOf_promotes promotes)
  · rw [isUnclaimed_of_ownership (congrArg (List.map ownership) promotes.conversations)]
    exact id
  · rw [promotes.memberships]
    exact fun _ rowMem => rowMem
  · rw [promotes.tickets]
    exact departed.tickets
  · rw [promotes.sessions]
    exact departed.sessions
  · apply departed.keys.of_maps
    · rw [promotes.members]
      exact departed.keys.members
    · rw [promotes.conversations]
    · rw [promotes.members]
    · have pairs := congrArg (List.map fun row => (row.1, row.2.2.1)) promotes.access
      rw [List.map_map, List.map_map] at pairs
      exact pairs
    · exact promotes.supply

/-- Builds and events of users are of no account. -/
theorem Departed.of_builds (departed : Departed conversationId userId clock db)
    {jobs : List GeneratedAppBuildJob} {userEvents : List UserEvent} :
    Departed conversationId userId clock { db with jobs := jobs, userEvents := userEvents } :=
  departed.of_access (departed.keys.of_maps departed.keys.members rfl rfl rfl (le_refl _)) rfl id
    (fun _ rowMem => rowMem) departed.tickets departed.sessions

theorem Departed.completeBuild (departed : Departed conversationId userId clock db)
    {unicode : Unicode} {result : BuildResult}
    (completes : completeBuild unicode db result raw now = .ok after) :
    Departed conversationId userId clock after := by
  simp only [Apps.completeBuild, bind_eq_ok] at completes
  obtain ⟨job, _, _, _, finished⟩ := completes
  obtain ⟨app, revision, promoted, issued, locked, _, _, promoted_eq, issues, rfl⟩ :=
    finishBuild_eq_ok finished
  have promotes : Promotes db promoted :=
    (promotes_insertRevision revision).trans (promotes_promoteRevision promoted_eq)
  have settled : Departed conversationId userId clock (promoted.updateJob job.id
      (GeneratedAppBuildJob.succeededWith revision.id now)) := (departed.promotes promotes).of_builds
  have handed : Departed conversationId userId clock issued := by
    apply settled.issueHandoff _ issues
    intro isOfGroup
    apply departed.shared_of_id (List.mem_of_find?_eq_some (lockedCodeApp_eq_ok locked))
    rw [← appIdsOf_of_access (access_appsOf_promotes promotes)]
    exact isOfGroup
  unfold enqueueUserEvent
  split
  · exact handed
  · exact handed.of_builds

end

/-! ## Runs -/

/-- A call that is allowed. -/
theorem Departed.step {unicode : Unicode} {conversationId userId : Uuid} {state after : AccessState}
    {step : AccessStep} (departed : Departed conversationId userId state.clock state.db)
    (allowed : staysDeparted conversationId userId state step = true)
    (stepped : accessStep unicode state step = some after) :
    Departed conversationId userId after.clock after.db := by
  unfold accessStep at stepped
  split at stepped
  · rename_i isLater
    rw [Option.map_eq_some_iff] at stepped
    obtain ⟨db, ran, rfl⟩ := stepped
    obtain ⟨now, call⟩ := step
    have later := departed.later isLater
    cases call with
    | group directory call =>
        apply invariant_of_step (Departed conversationId userId now) _ _ later allowed ran
        · intro db after departed prepared
          exact departed.prepares prepared
        · intro db write after departed asMember allowed applies
          exact departed.write asMember allowed applies
    | issueAppLink appId issuerUserId raw => exact later.issueAppLink (ok_of_toOption ran)
    | redeemAccessTicket publicId token ttlSeconds raw =>
        obtain ⟨session, redeems⟩ := map_snd_eq_ok (ok_of_toOption ran)
        exact later.redeemAccessTicket (le_refl now) redeems
    | completeBuild result raw => exact later.completeBuild (ok_of_toOption ran)
  · cases stepped

/-- An event that removes the owner of a group, whom nobody replaces. -/
structure RemovesLastOwner (directory : Directory) (db : AppsDb) (data : Fields)
    (conversation : Conversation) (handle : String) (owner : ConversationMember) : Prop where
  chat : ∃ channel, (eventChatId data).bind (linqGroup db) = some (channel, conversation)
  notDot : Json.lookup (participantDetails data) "is_me" ≠ some (.bool true)
  readsHandle : textOf (orElse (Json.lookup (participantDetails data) "handle")
    (Json.lookup data "handle")) = some handle
  found : db.members.find?
    ((eventParticipant directory true data handle).isRowOf conversation.id) = some owner
  isOwner : owner.role = .owner
  alone : replacementOwner db conversation.id owner.id = none

section

variable {directory : Directory} {db after : AppsDb} {data : Fields} {conversation : Conversation}
  {handle : String} {owner : ConversationMember} {now : Instant}

/-- The event is the removal of the owner's row. -/
theorem RemovesLastOwner.removal
    (removes : RemovesLastOwner directory db data conversation handle owner)
    (applies : applyLinqGroupEvent directory db "participant.removed" data now = .ok (true, after)) :
    (GroupWrite.removal conversation (eventParticipant directory true data handle)).apply now db =
      .ok after := by
  obtain ⟨channel, chat⟩ := removes.chat
  have mapped : (applyParticipant directory db conversation true data handle now).map
      (fun after => (true, after)) = .ok (true, after) := by
    simpa [applyLinqGroupEvent, chat, removes.notDot, removes.readsHandle] using applies
  have applied : applyParticipant directory db conversation true data handle now = .ok after := by
    cases result : applyParticipant directory db conversation true data handle now with
    | error error =>
        rw [result] at mapped
        cases mapped
    | ok joined =>
        rw [result] at mapped
        cases mapped
        rfl
  have writes := performs_applyParticipant applied
  have isOwner : isOwnerRow db conversation.id (eventParticipant directory true data handle) =
      true := by
    rw [isOwnerRow, removes.found, Option.any_some]
    exact decide_eq_true removes.isOwner
  rw [participantWrite, isOwner] at writes
  exact writes

/-- The group has no owner afterwards. -/
theorem isUnclaimed_unclaimed {departedId : Uuid}
    (stored : db.conversation? conversation.id = some conversation)
    (isGroup : conversation.kind = .group) :
    isUnclaimed (revokeUnclaimedGroupAppOwner (writeUnclaimed db conversation.id memberId)
      conversation.id departedId now) conversation.id = true := by
  have found : (revokeUnclaimedGroupAppOwner (writeUnclaimed db conversation.id memberId)
      conversation.id departedId now).conversation? conversation.id =
        some { conversation with groupOwnerSource := some .unclaimed } := by
    rw [AppsDb.conversation?, revoke_keeps AppsDb.conversations fun _ _ => rfl]
    have updated := Table.find?_update_key (fun row : Conversation => row.id)
      (fun row => { row with groupOwnerSource := some .unclaimed }) (fun _ => rfl) conversation.id
      conversation.id db.conversations
    rw [if_pos rfl] at updated
    exact updated.trans (congrArg (Option.map _) stored)
  exact isUnclaimed_eq_true.mpr ⟨_, found, isGroup, rfl⟩

/-- Nobody has an owner's access when the last owner departs. -/
theorem departed_of_unclaimed (keys : GroupKeys db)
    (shared : ∀ app ∈ appsOf db conversation.id, app.accessMode = .collaborativeLink)
    (stored : db.conversation? conversation.id = some conversation)
    (isGroup : conversation.kind = .group) (memberId departedId : Uuid) :
    Departed conversation.id departedId now
      (revokeUnclaimedGroupAppOwner (writeUnclaimed db conversation.id memberId) conversation.id
        departedId now) := by
  have apps : appsOf (revokeUnclaimedGroupAppOwner (writeUnclaimed db conversation.id memberId)
      conversation.id departedId now) conversation.id = appsOf db conversation.id := by
    rw [appsOf, revoke_keeps AppsDb.apps fun _ _ => rfl]
    rfl
  constructor
  · exact keys.unclaimed
  · rw [apps]
    exact shared
  · exact fun _ => isUnclaimed_unclaimed stored isGroup
  · rw [appIdsOf, apps]
    intro row rowMem isOfApp _ isOwner
    have kept := (mem_memberships_revoke.mp rowMem).2 isOfApp
    simp [revokedMembership, isOwner] at kept
  · rw [appIdsOf, apps, tickets_revoke]
    intro ticket ticketMem isOfApp
    rcases Table.mem_update_cases ticketMem with ⟨old, _, _, rfl⟩ | ⟨_, notSelected⟩
    · unfold revokedTicket
      split
      · exact fun _ => le_refl now
      · rename_i isOther
        exact fun isUsers => absurd isUsers.symm isOther
    · exact absurd (decide_eq_true isOfApp) (Bool.eq_false_iff.mp notSelected)
  · rw [appIdsOf, apps, sessions_revoke]
    intro session sessionMem isOfApp
    rcases Table.mem_update_cases sessionMem with ⟨old, _, _, rfl⟩ | ⟨_, notSelected⟩
    · unfold revokedSession
      split
      · exact fun _ => Option.some_ne_none now
      · rename_i isOther
        exact fun isUsers => absurd isUsers.symm isOther
    · exact absurd (decide_eq_true isOfApp) (Bool.eq_false_iff.mp notSelected)

theorem RemovesLastOwner.departed
    (removes : RemovesLastOwner directory db data conversation handle owner) (keys : GroupKeys db)
    (shared : ∀ app ∈ appsOf db conversation.id, app.accessMode = .collaborativeLink)
    (applies : applyLinqGroupEvent directory db "participant.removed" data now = .ok (true, after)) :
    Departed conversation.id (departedUser directory data conversation handle owner) now after := by
  obtain ⟨member, joined, changed, written, _, replaced⟩ :=
    removal_eq_ok (role_eventParticipant directory true data handle) (removes.removal applies)
  obtain ⟨channel, chat⟩ := removes.chat
  obtain ⟨chatId, _, isChat⟩ := Option.bind_eq_some_iff.mp chat
  obtain ⟨stored, isGroup⟩ := linqGroup_eq_some isChat
  have user : departedUser directory data conversation handle owner =
      departingOwner conversation member := by
    rw [departedUser, written owner removes.found]
  rw [removes.found] at changed
  rcases replaced with ⟨successor, newOwnerId, replacement, _, _⟩ | ⟨_, rfl⟩
  · rw [replacementOwner_joined changed, removes.alone] at replacement
    cases replacement
  · rw [user]
    apply departed_of_unclaimed (keys.memberChange changed) _ _ isGroup
    · rw [changed.eq]
      exact shared
    · rw [changed.eq]
      exact stored

/-- After the owner of a group was removed and nobody replaced the owner: in a run in which this
user does not become the owner again, and nobody who is not linked to a user claims the group while
an app of it points at this user, the user has no owner's access to the apps, and no ticket or
session of an owner or of this user is usable. -/
theorem departed_owner_has_no_authority {unicode : Unicode} (keys : GroupKeys db)
    (shared : ∀ app ∈ appsOf db conversation.id, app.accessMode = .collaborativeLink)
    (removes : RemovesLastOwner directory db data conversation handle owner)
    (applies : applyLinqGroupEvent directory db "participant.removed" data now = .ok (true, after))
    {state : AccessState}
    (run : Run (accessStep unicode)
      (fun state step => staysDeparted conversation.id
        (departedUser directory data conversation handle owner) state step = true)
      ⟨after, now⟩ state) :
    HasNoAuthority conversation.id (departedUser directory data conversation handle owner) state := by
  have departed : Departed conversation.id (departedUser directory data conversation handle owner)
      state.clock state.db := by
    apply run.invariant (fun state => Departed conversation.id
      (departedUser directory data conversation handle owner) state.clock state.db)
    · intro before step after departed allowed stepped
      exact departed.step allowed stepped
    · exact removes.departed keys shared applies
  exact departed.hasNoAuthority

end

/-! ## Two claims after a departure -/

/-- The group of user 8 and of somebody who is not linked to a user, and an app of user 8. -/
def lonelyGroup : AppsDb :=
  { AppsDb.empty with
    conversations := [⟨1, 8, .group, some "Trip", .auto, some .firstInvoker, true⟩]
    members := [
      ⟨10, 1, some 8, "+14155552680", none, some "Bob", none, .owner, .active, 1, none, 1⟩,
      ⟨11, 1, none, "+14155552689", none, some "Zoe", none, .member, .active, 2, none, 2⟩]
    channels := [⟨2, 1, "linq", "trip-chat", none, true⟩]
    apps := [⟨20, 8, 1, "trip-split", "Trip split", "", .collaborativeLink, .active, .code, 1⟩]
    memberships := [⟨20, 8, .owner⟩]
    sessions := [⟨30, 20, some 8, .owner, "session", 1000000, none⟩]
    nextId := 40 }

theorem groupKeys_lonelyGroup : GroupKeys lonelyGroup where
  members := by decide
  conversations := by decide
  apps := by decide
  conversation_lt := by decide
  member_lt := by decide
  app_lt := by decide

theorem removesLastOwner_lonelyGroup :
    RemovesLastOwner tripDirectory lonelyGroup ownerRemoved
      ⟨1, 8, .group, some "Trip", .auto, some .firstInvoker, true⟩ "+14155552680"
      ⟨10, 1, some 8, "+14155552680", none, some "Bob", none, .owner, .active, 1, none, 1⟩ where
  chat := ⟨⟨2, 1, "linq", "trip-chat", none, true⟩, by decide⟩
  notDot := by decide
  readsHandle := by decide
  found := by decide
  isOwner := rfl
  alone := by decide

/-- A member claims the group. -/
def claimedBy (memberId : Uuid) : AccessStep :=
  ⟨6, .group tripDirectory (.claimGroupOwner 1 memberId .firstInvoker)⟩

/-- A member joins the chat who is linked to a user. -/
def aliceAdded : AccessStep :=
  ⟨5, .group tripDirectory (.applyLinqGroupEvent "participant.added"
    [("chat_id", .str "trip-chat"), ("participant", .obj [("handle", .str "+14155552681")])])⟩

/-- Somebody who is not linked to a user claims the group: the owner who departed is authorized as
the owner of the app again. -/
theorem unlinked_claim_restores_owner :
    ∃ after, applyLinqGroupEvent tripDirectory lonelyGroup "participant.removed" ownerRemoved 5 =
        .ok (true, after) ∧ isUnclaimed after 1 = true ∧
      ∃ state : AccessState, accessStep Unicode.ascii ⟨after, 5⟩ (claimedBy 11) = some state ∧
        (∀ app ∈ appsOf state.db 1, authorizeUserForLockedApp state.db app 8 =
          .ok ⟨.owner, some 8, none, true⟩) ∧
        ¬ HasNoAuthority 1 8 state := by
  have runs : ((applyLinqGroupEvent tripDirectory lonelyGroup "participant.removed" ownerRemoved
      5).toOption.any fun removed => removed.1 && (isUnclaimed removed.2 1 = true) &&
        (accessStep Unicode.ascii ⟨removed.2, 5⟩ (claimedBy 11)).any fun state =>
          (appsOf state.db 1 = lonelyGroup.apps) && lonelyGroup.apps.all fun app =>
            (authorizeUserForLockedApp state.db app 8).toOption =
              some ⟨.owner, some 8, none, true⟩) = true := by
    decide
  simp only [Option.any_eq_true, Bool.and_eq_true, List.all_eq_true, decide_eq_true_eq] at runs
  rcases runs with ⟨⟨handled, after⟩, applied, ⟨rfl, unclaimed⟩, state, stepped, apps, authorized⟩
  have isOwner : ∀ app ∈ appsOf state.db 1, authorizeUserForLockedApp state.db app 8 =
      .ok ⟨.owner, some 8, none, true⟩ := by
    rw [apps]
    exact fun app appMem => ok_of_toOption (authorized app appMem)
  refine ⟨after, ok_of_toOption applied, unclaimed, state, stepped, isOwner, ?_⟩
  intro hasNone
  have appMem : (⟨20, 8, 1, "trip-split", "Trip split", "", .collaborativeLink, .active, .code, 1⟩ :
      GeneratedApp) ∈ appsOf state.db 1 := apps ▸ List.mem_singleton_self _
  exact hasNone.user _ appMem _ (isOwner _ appMem) rfl

/-- A member who is linked to a user joins and claims the group. -/
theorem linked_claim_keeps_departed :
    ∃ state : AccessState, state.db.memberships = [⟨20, 7, .owner⟩] ∧ HasNoAuthority 1 8 state := by
  have runs : ((applyLinqGroupEvent tripDirectory lonelyGroup "participant.removed" ownerRemoved
      5).toOption.any fun removed => removed.1 &&
        (execute (accessStep Unicode.ascii) (staysDeparted 1 8) ⟨removed.2, 5⟩
          [aliceAdded, claimedBy 40]).any fun state =>
            state.db.memberships = [⟨20, 7, .owner⟩]) = true := by
    decide
  simp only [Option.any_eq_true, Bool.and_eq_true, decide_eq_true_eq] at runs
  rcases runs with ⟨⟨handled, after⟩, applied, rfl, state, executed, memberships⟩
  exact ⟨state, memberships,
    departed_owner_has_no_authority groupKeys_lonelyGroup (by decide) removesLastOwner_lonelyGroup
      (ok_of_toOption applied) (run_of_execute executed)⟩

end DotBackend.Groups
