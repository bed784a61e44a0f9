import DotBackend.Apps.Authority

/-!
# Owners of groups

The owner of a group owns its generated apps. Ownership is stored in the roles of the
members, in the conversation, in the apps, and in the memberships, sessions and tickets of
the apps; a transfer rewrites all of them in one transaction.
-/

namespace DotBackend.Groups

open Data Channel Apps

variable {db : AppsDb} {appId : Uuid} {appIds : List Uuid} {conversation : Conversation}
  {successor : ConversationMember}

inductive GroupError
  | notFound (message : String)
  | permission (message : String)
  | invite (message : String)
  | value (message : String)
  /-- A unique constraint of the database. -/
  | integrity
  deriving DecidableEq

/-- The members of a conversation. -/
def membersOf (db : AppsDb) (conversationId : Uuid) : List ConversationMember :=
  db.members.filter fun member => member.conversationId = conversationId

/-- The apps of a conversation. -/
def appsOf (db : AppsDb) (conversationId : Uuid) : List GeneratedApp :=
  db.apps.filter fun app => app.conversationId = conversationId

/-! ## The access to one app -/

/-- What a transfer leaves of a membership. -/
def transferredMembership (newOwnerId : Uuid) (departing : Option Uuid)
    (row : GeneratedAppMembership) : Option GeneratedAppMembership :=
  if row.userId = newOwnerId then some { row with role := .owner }
  else if departing = some row.userId then none
  else if row.role = .owner then some { row with role := .member }
  else some row

def transferredSession (newOwnerId : Uuid) (departing : Option Uuid) (now : Instant)
    (row : GeneratedAppSession) : GeneratedAppSession :=
  let belongsToDepartedOwner := departing.isSome && row.userId = departing
  let hasStaleOwnerAccess := row.role = .owner && row.userId ≠ some newOwnerId
  if belongsToDepartedOwner || (departing.isSome && hasStaleOwnerAccess) then
    { row with revokedAt := some now }
  else if hasStaleOwnerAccess then { row with role := .member }
  else row

def transferredTicket (newOwnerId : Uuid) (priorOwnerIds : List Uuid) (departing : Option Uuid)
    (now : Instant) (row : GeneratedAppAccessTicket) : GeneratedAppAccessTicket :=
  let belongsToDepartedOwner := departing.isSome && row.principalUserId = departing
  let hasStaleOwnerAccess := row.role = .owner && row.principalUserId ≠ some newOwnerId
  let limited :=
    if belongsToDepartedOwner || (departing.isSome && hasStaleOwnerAccess) then
      { row with expiresAt := now }
    else if hasStaleOwnerAccess then { row with role := .member }
    else row
  { limited with
    issuedByUserId := if row.issuedByUserId ∈ priorOwnerIds then newOwnerId
      else row.issuedByUserId }

/-- `_transfer_generated_app_access`. -/
def transferGeneratedAppAccess (newOwnerId : Uuid) (priorOwnerIds : List Uuid)
    (departing : Option Uuid) (now : Instant) (db : AppsDb) (appId : Uuid) : AppsDb :=
  { db with
    memberships := (db.memberships.flatMap fun row =>
        if row.appId = appId then (transferredMembership newOwnerId departing row).toList
        else [row]) ++
      if db.memberships.any fun row => row.appId = appId ∧ row.userId = newOwnerId then []
      else [⟨appId, newOwnerId, .owner⟩]
    sessions := Table.update (fun row => row.appId == appId)
      (transferredSession newOwnerId departing now) db.sessions
    tickets := Table.update (fun row => row.appId == appId)
      (transferredTicket newOwnerId priorOwnerIds departing now) db.tickets }

/-! ## Transfers -/

/-- The role of a member after a transfer to a successor. -/
def promoted (successorId : Uuid) (member : ConversationMember) : ConversationMember :=
  { member with
    role := if member.id = successorId then .owner
      else if member.role = .owner then .member
      else member.role }

/-- `prior_owner_ids`. -/
def priorOwnerIds (db : AppsDb) (conversation : Conversation) (newOwnerId : Uuid) : List Uuid :=
  (conversation.userId ::
    (((membersOf db conversation.id).filter fun member => member.role = .owner).filterMap
      (·.userId) ++ (appsOf db conversation.id).map (·.userId))).filter (· ≠ newOwnerId)

/-- The writes of `transfer_group_ownership`. -/
def writeTransfer (db : AppsDb) (conversation : Conversation) (successorId newOwnerId : Uuid)
    (source : GroupOwnerSource) (departing : Option Uuid) (now : Instant) : AppsDb :=
  ((appsOf db conversation.id).map (·.id)).foldl
    (transferGeneratedAppAccess newOwnerId (priorOwnerIds db conversation newOwnerId) departing now)
    { db with
      members := Table.update (fun member => member.conversationId == conversation.id)
        (promoted successorId) db.members
      conversations := Table.update (fun row => row.id == conversation.id)
        (fun row => { row with userId := newOwnerId, groupOwnerSource := some source })
        db.conversations
      apps := Table.update (fun app => app.conversationId == conversation.id)
        (fun app => { app with userId := newOwnerId }) db.apps }

/-- The successor of a transfer, under the locks on the group and its members. -/
def lockedSuccessor (db : AppsDb) (conversation : Conversation) (successor : ConversationMember) :
    Except GroupError Uuid :=
  if conversation.kind ≠ .group then
    .error (.permission "Only group conversations can transfer ownership")
  else if successor.userId = none then
    .error (.permission "A group owner must have a linked Dot account")
  else if (db.conversation? conversation.id).isNone then
    .error (.notFound "Group conversation was not found")
  else
    match (membersOf db conversation.id).find? fun member => member.id = successor.id with
    | none => .error (.permission "The new owner must be an active group member")
    | some locked =>
        match locked.userId with
        | none => .error (.permission "The new owner must be an active group member")
        | some newOwnerId =>
            if locked.status = .active then .ok newOwnerId
            else .error (.permission "The new owner must be an active group member")

/-- `transfer_group_ownership`, with the conversation as it was loaded. -/
def transferGroupOwnership (db : AppsDb) (conversation : Conversation)
    (successor : ConversationMember) (source : GroupOwnerSource) (departing : Option Uuid)
    (now : Instant) : Except GroupError AppsDb := do
  let newOwnerId ← lockedSuccessor db conversation successor
  pure (writeTransfer db conversation successor.id newOwnerId source departing now)

/-! ## Claims -/

/-- The sources of ownership that a claim may replace. -/
def claimable (source : Option GroupOwnerSource) : Bool :=
  source = none || source = some .unclaimed || source = some .legacyInferred

/-- A speaker who is not linked to a user becomes owner without any of the apps. -/
def writeUnlinkedClaim (db : AppsDb) (conversation : Conversation) (memberId : Uuid)
    (source : GroupOwnerSource) : AppsDb :=
  { db with
    members := Table.update (fun member => member.conversationId == conversation.id)
      (promoted memberId) db.members
    conversations := Table.update (fun row => row.id == conversation.id)
      (fun row => { row with groupOwnerSource := some source }) db.conversations }

/-- `claim_group_owner`; it returns whether the member is the owner now. -/
def claimGroupOwner (db : AppsDb) (conversation : Conversation) (member : ConversationMember)
    (source : GroupOwnerSource) (now : Instant) : Except GroupError (Bool × AppsDb) :=
  if claimable conversation.groupOwnerSource then
    if member.userId.isSome then do
      let after ← transferGroupOwnership db conversation member source none now
      pure (true, after)
    else pure (true, writeUnlinkedClaim db conversation member.id source)
  else pure (false, db)

/-! ## Groups without an owner -/

def revokedMembership (departing : Uuid) (row : GeneratedAppMembership) : Bool :=
  row.userId = departing || row.role = .owner

def revokedSession (departing : Uuid) (now : Instant) (row : GeneratedAppSession) :
    GeneratedAppSession :=
  if row.userId = some departing ∨ row.role = .owner then { row with revokedAt := some now }
  else row

def revokedTicket (departing : Uuid) (now : Instant) (row : GeneratedAppAccessTicket) :
    GeneratedAppAccessTicket :=
  if row.principalUserId = some departing ∨ row.role = .owner then { row with expiresAt := now }
  else row

/-- `_revoke_unclaimed_group_app_owner` on one app. -/
def revokeAppOwner (departing : Uuid) (now : Instant) (db : AppsDb) (appId : Uuid) : AppsDb :=
  { db with
    memberships := db.memberships.filter fun row =>
      !(row.appId = appId && revokedMembership departing row)
    sessions := Table.update (fun row => row.appId == appId) (revokedSession departing now)
      db.sessions
    tickets := Table.update (fun row => row.appId == appId) (revokedTicket departing now)
      db.tickets }

/-- `_revoke_unclaimed_group_app_owner`. -/
def revokeUnclaimedGroupAppOwner (db : AppsDb) (conversationId departing : Uuid) (now : Instant) :
    AppsDb :=
  ((appsOf db conversationId).map (·.id)).foldl (revokeAppOwner departing now) db

/-! ## What the rewrites leave -/

section

variable {newOwnerId : Uuid} {prior : List Uuid} {departing : Option Uuid} {now : Instant}

theorem transferredSession_again (row : GeneratedAppSession) :
    transferredSession newOwnerId departing now (transferredSession newOwnerId departing now row) =
      transferredSession newOwnerId departing now row := by
  by_cases isOwner : row.role = .owner
  · by_cases isNew : row.userId = some newOwnerId
    · by_cases isDeparted : departing = some newOwnerId
      · simp [transferredSession, isOwner, isNew, isDeparted]
      · simp [transferredSession, isOwner, isNew, Ne.symm isDeparted]
    · cases departing <;> simp [transferredSession, isOwner, isNew]
  · by_cases isDeparted : row.userId = departing
    · cases departing <;> simp [transferredSession, isOwner, isDeparted]
    · simp [transferredSession, isOwner, isDeparted]

theorem transferredSession_appId (row : GeneratedAppSession) :
    (transferredSession newOwnerId departing now row).appId = row.appId := by
  unfold transferredSession
  dsimp only
  split
  · rfl
  · split <;> rfl

theorem transferredTicket_appId (row : GeneratedAppAccessTicket) :
    (transferredTicket newOwnerId prior departing now row).appId = row.appId := by
  unfold transferredTicket
  dsimp only
  split
  · rfl
  · split <;> rfl

theorem transferredTicket_again (notPrior : newOwnerId ∉ prior) (row : GeneratedAppAccessTicket) :
    transferredTicket newOwnerId prior departing now
        (transferredTicket newOwnerId prior departing now row) =
      transferredTicket newOwnerId prior departing now row := by
  have issuer : (if (if row.issuedByUserId ∈ prior then newOwnerId else row.issuedByUserId) ∈ prior
      then newOwnerId else if row.issuedByUserId ∈ prior then newOwnerId
        else row.issuedByUserId) =
      if row.issuedByUserId ∈ prior then newOwnerId else row.issuedByUserId := by
    by_cases isPrior : row.issuedByUserId ∈ prior
    · simp [isPrior, notPrior]
    · simp [isPrior]
  by_cases isOwner : row.role = .owner
  · by_cases isNew : row.principalUserId = some newOwnerId
    · by_cases isDeparted : departing = some newOwnerId
      · simp [transferredTicket, isOwner, isNew, isDeparted, issuer]
      · simp [transferredTicket, isOwner, isNew, Ne.symm isDeparted, issuer]
    · cases departing <;> simp [transferredTicket, isOwner, isNew, issuer]
  · by_cases isDeparted : row.principalUserId = departing
    · cases departing <;> simp [transferredTicket, isOwner, isDeparted, issuer]
    · simp [transferredTicket, isOwner, isDeparted, issuer]

theorem newOwner_not_prior (db : AppsDb) (conversation : Conversation) :
    newOwnerId ∉ priorOwnerIds db conversation newOwnerId := by
  simp [priorOwnerIds]

/-- The access to the apps of some keys is transferred. -/
def transferAccess (newOwnerId : Uuid) (prior : List Uuid) (departing : Option Uuid)
    (now : Instant) (appIds : List Uuid) (db : AppsDb) : AppsDb :=
  appIds.foldl (transferGeneratedAppAccess newOwnerId prior departing now) db

theorem sessions_transferAccess (appIds : List Uuid) (db : AppsDb) :
    (transferAccess newOwnerId prior departing now appIds db).sessions =
      Table.update (fun row => decide (row.appId ∈ appIds))
        (transferredSession newOwnerId departing now) db.sessions := by
  rw [← Table.foldl_update GeneratedAppSession.appId transferredSession_appId
    transferredSession_again]
  exact (List.foldl_hom AppsDb.sessions fun _ _ => rfl).symm

theorem tickets_transferAccess (notPrior : newOwnerId ∉ prior) (appIds : List Uuid) (db : AppsDb) :
    (transferAccess newOwnerId prior departing now appIds db).tickets =
      Table.update (fun row => decide (row.appId ∈ appIds))
        (transferredTicket newOwnerId prior departing now) db.tickets := by
  rw [← Table.foldl_update GeneratedAppAccessTicket.appId transferredTicket_appId
    (transferredTicket_again notPrior)]
  exact (List.foldl_hom AppsDb.tickets fun _ _ => rfl).symm

/-- A table that transferring access does not touch. -/
theorem transferAccess_keeps {α : Type} (project : AppsDb → α)
    (keeps : ∀ db appId, project (transferGeneratedAppAccess newOwnerId prior departing now db appId) =
      project db) (appIds : List Uuid) (db : AppsDb) :
    project (transferAccess newOwnerId prior departing now appIds db) = project db := by
  unfold transferAccess
  induction appIds generalizing db with
  | nil => rfl
  | cons appId appIds ih =>
      rw [List.foldl_cons, ih, keeps]

/-- A membership of the new owner, or one that a transfer left to somebody else. -/
def TransferredFrom (newOwnerId : Uuid) (departing : Option Uuid)
    (rows : List GeneratedAppMembership) (row : GeneratedAppMembership) : Prop :=
  row = ⟨row.appId, newOwnerId, .owner⟩ ∨
    row.userId ≠ newOwnerId ∧ row.role ≠ .owner ∧ departing ≠ some row.userId ∧
      ∃ old ∈ rows, old.appId = row.appId ∧ old.userId = row.userId

theorem transferredMembership_eq_some {old row : GeneratedAppMembership}
    (left : transferredMembership newOwnerId departing old = some row) :
    row.appId = old.appId ∧ row.userId = old.userId ∧
      (row = ⟨row.appId, newOwnerId, .owner⟩ ∨
        row.userId ≠ newOwnerId ∧ row.role ≠ .owner ∧ departing ≠ some row.userId) := by
  unfold transferredMembership at left
  split at left
  · rename_i isNew
    cases left
    exact ⟨rfl, rfl, Or.inl (by rw [← isNew])⟩
  · rename_i notNew
    split at left
    · cases left
    · rename_i notDeparting
      split at left
      · cases left
        exact ⟨rfl, rfl, Or.inr ⟨notNew, GeneratedAppRole.noConfusion, notDeparting⟩⟩
      · rename_i notOwner
        cases left
        exact ⟨rfl, rfl, Or.inr ⟨notNew, notOwner, notDeparting⟩⟩

/-- The memberships after the access to one app is transferred. -/
theorem mem_transferGeneratedAppAccess {row : GeneratedAppMembership}
    (rowMem : row ∈
      (transferGeneratedAppAccess newOwnerId prior departing now db appId).memberships) :
    (row.appId ≠ appId ∧ row ∈ db.memberships) ∨
      (row.appId = appId ∧ TransferredFrom newOwnerId departing db.memberships row) := by
  rcases List.mem_append.mp rowMem with leftMem | newMem
  · obtain ⟨old, oldMem, isLeft⟩ := List.mem_flatMap.mp leftMem
    split at isLeft
    · rename_i isOfApp
      obtain ⟨sameApp, sameUser, isNew | ⟨notNew, notOwner, notDeparting⟩⟩ :=
        transferredMembership_eq_some (Option.mem_toList.mp isLeft)
      · exact Or.inr ⟨sameApp.trans isOfApp, Or.inl isNew⟩
      · exact Or.inr ⟨sameApp.trans isOfApp, Or.inr ⟨notNew, notOwner, notDeparting,
          old, oldMem, sameApp.symm, sameUser.symm⟩⟩
    · rename_i notOfApp
      rw [List.mem_singleton.mp isLeft]
      exact Or.inl ⟨notOfApp, oldMem⟩
  · split at newMem
    · exact absurd newMem List.not_mem_nil
    · rw [List.mem_singleton.mp newMem]
      exact Or.inr ⟨rfl, Or.inl rfl⟩

/-- The new owner has a membership of the app. -/
theorem owner_mem_transferGeneratedAppAccess :
    (⟨appId, newOwnerId, .owner⟩ : GeneratedAppMembership) ∈
      (transferGeneratedAppAccess newOwnerId prior departing now db appId).memberships := by
  apply List.mem_append.mpr
  split
  · rename_i isMember
    obtain ⟨old, oldMem, isOld⟩ := List.any_eq_true.mp isMember
    obtain ⟨sameApp, sameUser⟩ := of_decide_eq_true isOld
    apply Or.inl
    apply List.mem_flatMap.mpr
    refine ⟨old, oldMem, ?_⟩
    rw [if_pos sameApp, transferredMembership, if_pos sameUser]
    simp [← sameApp, ← sameUser]
  · exact Or.inr (List.mem_singleton_self _)

/-- Memberships of other apps stay. -/
theorem other_mem_transferGeneratedAppAccess {row : GeneratedAppMembership}
    (isOther : row.appId ≠ appId) (rowMem : row ∈ db.memberships) :
    row ∈ (transferGeneratedAppAccess newOwnerId prior departing now db appId).memberships := by
  apply List.mem_append_left
  apply List.mem_flatMap.mpr
  refine ⟨row, rowMem, ?_⟩
  rw [if_neg isOther]
  exact List.mem_singleton_self row

theorem TransferredFrom.trans {first second : List GeneratedAppMembership}
    {row : GeneratedAppMembership} (later : TransferredFrom newOwnerId departing second row)
    (earlier : ∀ old ∈ second, old.userId ≠ newOwnerId →
      ∃ oldest ∈ first, oldest.appId = old.appId ∧ oldest.userId = old.userId) :
    TransferredFrom newOwnerId departing first row := by
  rcases later with isNew | ⟨notNew, notOwner, notDeparting, old, oldMem, sameApp, sameUser⟩
  · exact Or.inl isNew
  · rw [← sameUser] at notNew
    obtain ⟨oldest, oldestMem, oldApp, oldUser⟩ := earlier old oldMem notNew
    rw [sameUser] at notNew
    exact Or.inr ⟨notNew, notOwner, notDeparting, oldest, oldestMem, oldApp.trans sameApp,
      oldUser.trans sameUser⟩

theorem mem_transferAccess {row : GeneratedAppMembership}
    (rowMem : row ∈ (transferAccess newOwnerId prior departing now appIds db).memberships) :
    (row.appId ∉ appIds ∧ row ∈ db.memberships) ∨
      (row.appId ∈ appIds ∧ TransferredFrom newOwnerId departing db.memberships row) := by
  induction appIds generalizing db with
  | nil => exact Or.inl ⟨List.not_mem_nil, rowMem⟩
  | cons appId appIds ih =>
      have fromFirst : ∀ old ∈
          (transferGeneratedAppAccess newOwnerId prior departing now db appId).memberships,
          old.userId ≠ newOwnerId →
            ∃ oldest ∈ db.memberships, oldest.appId = old.appId ∧ oldest.userId = old.userId := by
        intro old oldMem notNew
        rcases mem_transferGeneratedAppAccess oldMem with ⟨_, wasMem⟩ | ⟨_, isNew | transferred⟩
        · exact ⟨old, wasMem, rfl, rfl⟩
        · rw [isNew] at notNew
          exact absurd rfl notNew
        · exact transferred.2.2.2
      rcases ih rowMem with ⟨notLater, firstMem⟩ | ⟨isLater, transferred⟩
      · rcases mem_transferGeneratedAppAccess firstMem with ⟨notFirst, wasMem⟩ | ⟨isFirst, transferred⟩
        · apply Or.inl
          exact ⟨by simp [notFirst, notLater], wasMem⟩
        · apply Or.inr
          exact ⟨by simp [isFirst], transferred⟩
      · apply Or.inr
        exact ⟨List.mem_cons_of_mem appId isLater, transferred.trans fromFirst⟩

theorem other_mem_transferAccess {row : GeneratedAppMembership} (isOther : row.appId ∉ appIds)
    (rowMem : row ∈ db.memberships) :
    row ∈ (transferAccess newOwnerId prior departing now appIds db).memberships := by
  induction appIds generalizing db with
  | nil => exact rowMem
  | cons appId appIds ih =>
      rw [List.mem_cons, not_or] at isOther
      exact ih isOther.2 (other_mem_transferGeneratedAppAccess isOther.1 rowMem)

theorem owner_mem_transferAccess (isOne : appId ∈ appIds) :
    (⟨appId, newOwnerId, .owner⟩ : GeneratedAppMembership) ∈
      (transferAccess newOwnerId prior departing now appIds db).memberships := by
  induction appIds generalizing db with
  | nil => exact absurd isOne List.not_mem_nil
  | cons first appIds ih =>
      by_cases isLater : appId ∈ appIds
      · exact ih isLater
      · rcases List.mem_cons.mp isOne with isFirst | isLater'
        · subst isFirst
          change _ ∈ (transferAccess newOwnerId prior departing now appIds
            (transferGeneratedAppAccess newOwnerId prior departing now db appId)).memberships
          apply other_mem_transferAccess
          · exact isLater
          · exact owner_mem_transferGeneratedAppAccess
        · exact absurd isLater' isLater

end

/-! ## What a transfer writes -/

section

variable {db : AppsDb} {conversation : Conversation} {successorId newOwnerId : Uuid}
  {source : GroupOwnerSource} {departing : Option Uuid} {now : Instant}

theorem writeTransfer_eq :
    writeTransfer db conversation successorId newOwnerId source departing now =
      transferAccess newOwnerId (priorOwnerIds db conversation newOwnerId) departing now
        ((appsOf db conversation.id).map (·.id))
        { db with
          members := Table.update (fun member => member.conversationId == conversation.id)
            (promoted successorId) db.members
          conversations := Table.update (fun row => row.id == conversation.id)
            (fun row => { row with userId := newOwnerId, groupOwnerSource := some source })
            db.conversations
          apps := Table.update (fun app => app.conversationId == conversation.id)
            (fun app => { app with userId := newOwnerId }) db.apps } :=
  rfl

theorem members_writeTransfer :
    (writeTransfer db conversation successorId newOwnerId source departing now).members =
      Table.update (fun member => member.conversationId == conversation.id)
        (promoted successorId) db.members :=
  transferAccess_keeps AppsDb.members (fun _ _ => rfl) _ _

theorem conversations_writeTransfer :
    (writeTransfer db conversation successorId newOwnerId source departing now).conversations =
      Table.update (fun row => row.id == conversation.id)
        (fun row => { row with userId := newOwnerId, groupOwnerSource := some source })
        db.conversations :=
  transferAccess_keeps AppsDb.conversations (fun _ _ => rfl) _ _

theorem apps_writeTransfer :
    (writeTransfer db conversation successorId newOwnerId source departing now).apps =
      Table.update (fun app => app.conversationId == conversation.id)
        (fun app => { app with userId := newOwnerId }) db.apps :=
  transferAccess_keeps AppsDb.apps (fun _ _ => rfl) _ _

theorem sessions_writeTransfer :
    (writeTransfer db conversation successorId newOwnerId source departing now).sessions =
      Table.update (fun row => decide (row.appId ∈ (appsOf db conversation.id).map (·.id)))
        (transferredSession newOwnerId departing now) db.sessions :=
  sessions_transferAccess _ _

theorem tickets_writeTransfer :
    (writeTransfer db conversation successorId newOwnerId source departing now).tickets =
      Table.update (fun row => decide (row.appId ∈ (appsOf db conversation.id).map (·.id)))
        (transferredTicket newOwnerId (priorOwnerIds db conversation newOwnerId) departing now)
        db.tickets :=
  tickets_transferAccess (newOwner_not_prior db conversation) _ _

theorem mem_memberships_writeTransfer {row : GeneratedAppMembership}
    (rowMem : row ∈
      (writeTransfer db conversation successorId newOwnerId source departing now).memberships) :
    (row.appId ∉ (appsOf db conversation.id).map (·.id) ∧ row ∈ db.memberships) ∨
      (row.appId ∈ (appsOf db conversation.id).map (·.id) ∧
        TransferredFrom newOwnerId departing db.memberships row) := by
  rw [writeTransfer_eq] at rowMem
  have left := mem_transferAccess rowMem
  exact left

theorem owner_mem_writeTransfer (isOne : appId ∈ (appsOf db conversation.id).map (·.id)) :
    (⟨appId, newOwnerId, .owner⟩ : GeneratedAppMembership) ∈
      (writeTransfer db conversation successorId newOwnerId source departing now).memberships := by
  rw [writeTransfer_eq]
  exact owner_mem_transferAccess isOne

theorem other_mem_writeTransfer {row : GeneratedAppMembership}
    (isOther : row.appId ∉ (appsOf db conversation.id).map (·.id)) (rowMem : row ∈ db.memberships) :
    row ∈
      (writeTransfer db conversation successorId newOwnerId source departing now).memberships := by
  rw [writeTransfer_eq]
  exact other_mem_transferAccess isOther rowMem

/-- A transfer keeps the apps of a group apart from their users. -/
theorem mem_appsOf_writeTransfer {conversationId : Uuid} {app : GeneratedApp}
    (appMem : app ∈ appsOf
      (writeTransfer db conversation successorId newOwnerId source departing now)
      conversationId) :
    ∃ old ∈ appsOf db conversationId, old.id = app.id ∧
      app.userId = if conversationId = conversation.id then newOwnerId else old.userId := by
  obtain ⟨stored, isOf⟩ := List.mem_filter.mp appMem
  rw [decide_eq_true_eq] at isOf
  rw [apps_writeTransfer] at stored
  rcases Table.mem_update_cases stored with ⟨old, oldMem, selected, rfl⟩ | ⟨oldMem, notSelected⟩
  · have sameGroup : old.conversationId = conversation.id := beq_iff_eq.mp selected
    refine ⟨old, List.mem_filter.mpr ⟨oldMem, decide_eq_true isOf⟩, rfl, ?_⟩
    rw [if_pos (isOf.symm.trans sameGroup)]
  · refine ⟨app, List.mem_filter.mpr ⟨oldMem, decide_eq_true isOf⟩, rfl, ?_⟩
    rw [if_neg]
    rintro rfl
    rw [isOf, beq_self_eq_true] at notSelected
    cases notSelected

/-- The apps of a group before and after a transfer. -/
theorem map_id_appsOf_writeTransfer (conversationId : Uuid) :
    (appsOf (writeTransfer db conversation successorId newOwnerId source departing now)
      conversationId).map (·.id) = (appsOf db conversationId).map (·.id) := by
  rw [appsOf, apps_writeTransfer, appsOf]
  apply Table.map_filter_update
  intro app _ _
  exact ⟨rfl, fun _ => rfl⟩

end

theorem lockedSuccessor_eq_ok {newOwnerId : Uuid}
    (locked : lockedSuccessor db conversation successor = .ok newOwnerId) :
    (db.conversation? conversation.id).isSome ∧ ∃ member ∈ membersOf db conversation.id,
      member.id = successor.id ∧ member.userId = some newOwnerId ∧ member.status = .active := by
  unfold lockedSuccessor at locked
  split at locked
  · cases locked
  · split at locked
    · cases locked
    · split at locked
      · cases locked
      · rename_i isStored
        split at locked
        · cases locked
        · rename_i member found
          split at locked
          · cases locked
          · rename_i linked
            split at locked
            · rename_i isActive
              cases locked
              refine ⟨?_, member, List.mem_of_find?_eq_some found, ?_, linked, isActive⟩
              · rw [← Option.not_isNone]
                exact Bool.not_eq_true _ |>.mp isStored ▸ rfl
              · have matched := List.find?_some found
                exact of_decide_eq_true matched
            · cases locked

/-- A transfer makes an active linked member the owner. -/
theorem transferGroupOwnership_eq_ok {after : AppsDb} {source : GroupOwnerSource}
    {departing : Option Uuid}
    {now : Instant}
    (transfers : transferGroupOwnership db conversation successor source departing now =
      .ok after) :
    ∃ newOwnerId, lockedSuccessor db conversation successor = .ok newOwnerId ∧
      after = writeTransfer db conversation successor.id newOwnerId source departing now := by
  simp only [transferGroupOwnership, bind_eq_ok, pure_eq_ok] at transfers
  rcases transfers with ⟨newOwnerId, locked, rfl⟩
  exact ⟨newOwnerId, locked, rfl⟩

/-- A transfer succeeds when the successor is stored as an active linked member. -/
theorem lockedSuccessor_of_mem {newOwnerId : Uuid} (isGroup : conversation.kind = .group)
    (stored : (db.conversation? conversation.id).isSome)
    (unique : Table.UniqueOn (fun member => some member.id) db.members)
    (successorMem : successor ∈ membersOf db conversation.id)
    (linked : successor.userId = some newOwnerId) (isActive : successor.status = .active) :
    lockedSuccessor db conversation successor = .ok newOwnerId := by
  have found : ((membersOf db conversation.id).find? fun member => member.id = successor.id) =
      some successor :=
    Table.UniqueOn.find?_eq_some (unique.filter _) successorMem
  have isStored : (db.conversation? conversation.id).isNone = false := by
    rw [← Option.not_isSome, stored]
    rfl
  simp [lockedSuccessor, isGroup, linked, isStored, found, isActive]

/-! ## What a revocation leaves -/

section

variable {departing : Uuid} {now : Instant} {conversationId : Uuid}

/-- A table that revoking the access of an owner does not touch. -/
theorem revoke_keeps {α : Type} (project : AppsDb → α)
    (keeps : ∀ db appId, project (revokeAppOwner departing now db appId) = project db)
    (conversationId : Uuid) (db : AppsDb) :
    project (revokeUnclaimedGroupAppOwner db conversationId departing now) = project db := by
  unfold revokeUnclaimedGroupAppOwner
  generalize (appsOf db conversationId).map (·.id) = appIds
  induction appIds generalizing db with
  | nil => rfl
  | cons appId appIds ih =>
      rw [List.foldl_cons, ih, keeps]

/-- The memberships that a revocation leaves. -/
theorem mem_memberships_revoke {row : GeneratedAppMembership} :
    row ∈ (revokeUnclaimedGroupAppOwner db conversationId departing now).memberships ↔
      row ∈ db.memberships ∧ (row.appId ∈ (appsOf db conversationId).map (·.id) →
        revokedMembership departing row = false) := by
  unfold revokeUnclaimedGroupAppOwner
  generalize (appsOf db conversationId).map (·.id) = appIds
  induction appIds generalizing db with
  | nil => simp
  | cons appId appIds ih =>
      rw [List.foldl_cons, ih]
      simp only [revokeAppOwner, List.mem_filter, List.mem_cons]
      by_cases isFirst : row.appId = appId
      · simp [isFirst]
        tauto
      · simp [isFirst]

theorem sessions_revoke (db : AppsDb) :
    (revokeUnclaimedGroupAppOwner db conversationId departing now).sessions =
      Table.update (fun row => decide (row.appId ∈ (appsOf db conversationId).map (·.id)))
        (revokedSession departing now) db.sessions := by
  rw [← Table.foldl_update GeneratedAppSession.appId]
  · exact (List.foldl_hom AppsDb.sessions fun _ _ => rfl).symm
  · intro row
    unfold revokedSession
    split <;> rfl
  · intro row
    by_cases isRevoked : row.userId = some departing ∨ row.role = .owner
    · simp [revokedSession, isRevoked]
    · simp [revokedSession, isRevoked]

theorem tickets_revoke (db : AppsDb) :
    (revokeUnclaimedGroupAppOwner db conversationId departing now).tickets =
      Table.update (fun row => decide (row.appId ∈ (appsOf db conversationId).map (·.id)))
        (revokedTicket departing now) db.tickets := by
  rw [← Table.foldl_update GeneratedAppAccessTicket.appId]
  · exact (List.foldl_hom AppsDb.tickets fun _ _ => rfl).symm
  · intro row
    unfold revokedTicket
    split <;> rfl
  · intro row
    by_cases isRevoked : row.principalUserId = some departing ∨ row.role = .owner
    · simp [revokedTicket, isRevoked]
    · simp [revokedTicket, isRevoked]

end

end DotBackend.Groups
