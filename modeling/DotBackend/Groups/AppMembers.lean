import DotBackend.Groups.OtherGroups
import DotBackend.Groups.OwnerHandover

/-!
# Members of groups and users of apps

Whoever has access to an app of a group by their identity, as its user or by a membership,
has to be an active member of the group. Ownership and membership of the group change the
access to the app only on some of their paths.
-/

namespace DotBackend.Groups

open Data Channel Apps Transition

variable {new : ConversationMember} {source : GroupOwnerSource}

/-- A user is an active member of a conversation. -/
def isActiveIn (db : AppsDb) (conversationId userId : Uuid) : Bool :=
  (membersOf db conversationId).any fun member =>
    member.userId = some userId && member.status = .active

/-- Whoever is authorized for an app of a group is an active member of the group. -/
def OnlyMembersAuthorized (db : AppsDb) : Prop :=
  ∀ app ∈ db.apps, ∀ conversation, db.conversation? app.conversationId = some conversation →
    conversation.kind = .group → ∀ userId actor,
      authorizeUserForLockedApp db app userId = .ok actor →
        isActiveIn db conversation.id userId = true

/-- The memberships of the apps of a group belong to active members, and so do the apps, unless
the group has no owner. -/
structure AccessOfMembers (db : AppsDb) (conversation : Conversation) : Prop where
  memberships : ∀ app ∈ appsOf db conversation.id, ∀ row ∈ db.memberships, row.appId = app.id →
    isActiveIn db conversation.id row.userId = true
  apps : conversation.groupOwnerSource ≠ some .unclaimed →
    ∀ app ∈ appsOf db conversation.id, isActiveIn db conversation.id app.userId = true

/-- In every group, only active members have access. -/
def GroupsAccess (db : AppsDb) : Prop :=
  ∀ conversation ∈ db.conversations, conversation.kind = .group → AccessOfMembers db conversation

/-! ## The condition -/

/-- A user has a membership of an app of a conversation. -/
def hasMembership (db : AppsDb) (conversationId userId : Uuid) : Bool :=
  (appsOf db conversationId).any fun app =>
    db.memberships.any fun row => row.appId = app.id && row.userId = userId

/-- A user owns an app of a conversation that has an owner. -/
def ownsApp (db : AppsDb) (conversation : Conversation) (userId : Uuid) : Bool :=
  conversation.groupOwnerSource ≠ some .unclaimed &&
    (appsOf db conversation.id).any fun app => app.userId = userId

/-- A user has access to an app of a group. -/
def hasAccess (db : AppsDb) (conversationId userId : Uuid) : Bool :=
  (db.conversation? conversationId).any fun conversation => conversation.kind = .group &&
    (hasMembership db conversationId userId || ownsApp db conversation userId)

/-- A row that is written over stays the one of an active member, or its user has no access to
an app of the group. -/
def keepsAccess (db : AppsDb) (old new : ConversationMember) : Bool :=
  (new.status = .active && new.userId = old.userId) ||
    !(old.userId.any fun userId => hasAccess db old.conversationId userId)

/-- The members who leave, or whose rows are written over, have no access to the apps; the row
of an owner who is removed stays theirs; nobody who is not linked to a user claims a group
whose apps belong to somebody who is not active in it. -/
def keepsAppMembers (db : AppsDb) : GroupWrite → Bool
  | .upsert conversationId participant =>
      (db.members.find? (participant.isRowOf conversationId)).all fun old =>
        keepsAccess db old (participant.writtenRow old)
  | .removal conversation participant =>
      (db.members.find? (participant.isRowOf conversation.id)).all fun old =>
        (participant.writtenRow old).userId = old.userId ||
          !(old.userId.any fun userId => hasMembership db conversation.id userId)
  | .transfer _ _ _ _ => true
  | .claim conversation _ source =>
      source = .unclaimed ||
        (appsOf db conversation.id).all fun app => isActiveIn db conversation.id app.userId
  | .join invite user handle =>
      (db.members.find? (isJoining invite.conversationId user.id handle)).all fun old =>
        keepsAccess db old (rejoinedRow user old)
  | .leave conversationId userId => !hasAccess db conversationId userId

/-! ## Access -/

section

variable {db after : AppsDb} {conversation stored : Conversation} {conversationId userId : Uuid}

theorem isActiveIn_eq_true : isActiveIn db conversationId userId = true ↔
    ∃ member ∈ membersOf db conversationId, member.userId = some userId ∧
      member.status = .active := by
  simp [isActiveIn]

theorem hasMembership_of_mem {app : GeneratedApp} {row : GeneratedAppMembership}
    (appMem : app ∈ appsOf db conversationId) (rowMem : row ∈ db.memberships)
    (isOfApp : row.appId = app.id) : hasMembership db conversationId row.userId = true := by
  apply List.any_eq_true.mpr
  refine ⟨app, appMem, ?_⟩
  apply List.any_eq_true.mpr
  exact ⟨row, rowMem, by simp [isOfApp]⟩

theorem hasAccess_of_membership (found : db.conversation? conversationId = some conversation)
    (isGroup : conversation.kind = .group)
    (isAppMember : hasMembership db conversationId userId = true) :
    hasAccess db conversationId userId = true := by
  simp [hasAccess, found, isGroup, isAppMember]

theorem hasAccess_of_app (found : db.conversation? conversation.id = some conversation)
    (isGroup : conversation.kind = .group)
    (claimed : conversation.groupOwnerSource ≠ some .unclaimed) {app : GeneratedApp}
    (appMem : app ∈ appsOf db conversation.id) : hasAccess db conversation.id app.userId = true := by
  have owns : ownsApp db conversation app.userId = true := by
    simp only [ownsApp, decide_eq_true claimed, Bool.true_and, List.any_eq_true]
    exact ⟨app, appMem, decide_eq_true rfl⟩
  simp [hasAccess, found, isGroup, owns]

/-- Whoever is authorized has a membership, or owns the app of a claimed group. -/
theorem onlyMembersAuthorized (access : GroupsAccess db) : OnlyMembersAuthorized db := by
  intro app appMem conversation found isGroup userId actor authorized
  obtain ⟨conversationMem, sameId⟩ := mem_of_conversation? found
  have groupAccess := access conversation conversationMem isGroup
  have isOf : app ∈ appsOf db conversation.id := by
    apply List.mem_filter.mpr
    exact ⟨appMem, decide_eq_true sameId.symm⟩
  simp only [authorizeUserForLockedApp] at authorized
  split at authorized
  · rename_i isOwner
    rw [← isOwner.1]
    apply groupAccess.apps _ app isOf
    intro unclaimed
    simp [unclaimedGroup, found, isGroup, unclaimed] at isOwner
  · split at authorized
    · cases authorized
    · rename_i row isRow
      have matched := List.find?_some isRow
      rw [decide_eq_true_eq] at matched
      rw [← matched.2]
      exact groupAccess.memberships app isOf row (List.mem_of_find?_eq_some isRow) matched.1

theorem AccessOfMembers.of_same (same : SameGroup db after conversation.id)
    (sameOwnership : ownership conversation = ownership stored)
    (access : AccessOfMembers db stored) : AccessOfMembers after conversation := by
  simp only [ownership, Prod.mk.injEq] at sameOwnership
  obtain ⟨sameId, _, _, sameSource⟩ := sameOwnership
  have active : ∀ userId, isActiveIn after conversation.id userId =
      isActiveIn db stored.id userId := by
    intro userId
    rw [isActiveIn, same.members, sameId]
    rfl
  constructor
  · intro app appMem row rowMem isOfApp
    rw [same.apps] at appMem
    rw [same.memberships app appMem row isOfApp] at rowMem
    rw [sameId] at appMem
    rw [active]
    exact access.memberships app appMem row rowMem isOfApp
  · intro claimed app appMem
    rw [same.apps, sameId] at appMem
    rw [sameSource] at claimed
    rw [active]
    exact access.apps claimed app appMem

/-! ## Active members -/

/-- A user whose row is not written over, or stays active, is still active. -/
theorem MemberChange.stays_active {change : Option ConversationMember} (keys : GroupKeys db)
    (changed : MemberChange db change new after)
    (keeps : ∀ old, change = some old → old.userId = some userId →
      old.conversationId = conversationId → new.status = .active ∧ new.userId = some userId)
    (active : isActiveIn db conversationId userId = true) :
    isActiveIn after conversationId userId = true := by
  rw [isActiveIn_eq_true] at active ⊢
  obtain ⟨member, memberMem, linked, isActive⟩ := active
  obtain ⟨memberStored, isOf⟩ := List.mem_filter.mp memberMem
  by_cases isChanged : change = some member
  · obtain ⟨_, sameConversation, _, _⟩ := changed.same_conversation isChanged
    obtain ⟨newActive, newLinked⟩ := keeps member isChanged linked (of_decide_eq_true isOf)
    refine ⟨new, List.mem_filter.mpr ⟨changed.new_mem, ?_⟩, newLinked, newActive⟩
    rw [sameConversation]
    exact isOf
  · refine ⟨member, List.mem_filter.mpr ⟨?_, isOf⟩, linked, isActive⟩
    apply changed.keeps memberStored
    intro old isOld sameId
    obtain ⟨_, _, _, oldMem⟩ := changed.same_conversation isOld
    rw [keys.member_eq memberStored oldMem sameId] at isChanged
    exact isChanged isOld

/-- Nobody becomes active, or stops to be, when only roles are written. -/
theorem isActiveIn_of_update {condition : ConversationMember → Bool}
    {change : ConversationMember → ConversationMember}
    (members : after.members = Table.update condition change db.members)
    (keeps : ∀ member, (change member).conversationId = member.conversationId ∧
      (change member).userId = member.userId ∧ (change member).status = member.status)
    (active : isActiveIn db conversationId userId = true) :
    isActiveIn after conversationId userId = true := by
  rw [isActiveIn_eq_true] at active ⊢
  obtain ⟨member, memberMem, linked, isActive⟩ := active
  obtain ⟨stored, isOf⟩ := List.mem_filter.mp memberMem
  obtain ⟨sameConversation, sameUser, sameStatus⟩ := keeps member
  by_cases selected : condition member = true
  · refine ⟨change member, List.mem_filter.mpr ⟨?_, ?_⟩, sameUser.trans linked,
      sameStatus.trans isActive⟩
    · rw [members]
      apply Table.mem_update.mpr
      exact ⟨member, stored, if_pos selected⟩
    · rw [sameConversation]
      exact isOf
  · refine ⟨member, List.mem_filter.mpr ⟨?_, isOf⟩, linked, isActive⟩
    rw [members]
    apply Table.mem_update.mpr
    exact ⟨member, stored, if_neg selected⟩

end

/-! ## Writes -/

section

variable {db after : AppsDb} {conversation : Conversation} {now : Instant}

/-- A change of a member who has no access, or who stays active. -/
theorem AccessOfMembers.memberChange {change : Option ConversationMember}
    (keys : GroupKeys db) (changed : MemberChange db change new after)
    (allowed : ∀ old, change = some old → keepsAccess db old new = true)
    (stored : conversation ∈ db.conversations) (isGroup : conversation.kind = .group)
    (access : AccessOfMembers db conversation) : AccessOfMembers after conversation := by
  have found := keys.conversation?_eq stored
  have memberships : after.memberships = db.memberships := by rw [changed.eq]
  have apps : appsOf after conversation.id = appsOf db conversation.id := by
    rw [changed.eq]
    rfl
  have keeps : ∀ userId, hasAccess db conversation.id userId = true →
      isActiveIn db conversation.id userId = true →
        isActiveIn after conversation.id userId = true := by
    intro userId accesses active
    apply changed.stays_active keys _ active
    intro old isOld linked ofGroup
    have kept := allowed old isOld
    rw [keepsAccess, linked, ofGroup] at kept
    simpa [accesses] using kept
  constructor
  · intro app appMem row rowMem isOfApp
    rw [apps] at appMem
    rw [memberships] at rowMem
    apply keeps _ _ (access.memberships app appMem row rowMem isOfApp)
    exact hasAccess_of_membership found isGroup (hasMembership_of_mem appMem rowMem isOfApp)
  · intro claimed app appMem
    rw [apps] at appMem
    exact keeps _ (hasAccess_of_app found isGroup claimed appMem) (access.apps claimed app appMem)

/-- A transfer leaves access to the successor, and to members who had it and do not depart. -/
theorem accessOfMembers_writeTransfer {successor : ConversationMember} {newOwnerId : Uuid}
    {departing : Option Uuid}
    (locked : lockedSuccessor db conversation successor = .ok newOwnerId)
    (active : ∀ app ∈ appsOf db conversation.id, ∀ row ∈ db.memberships, row.appId = app.id →
      departing ≠ some row.userId → isActiveIn db conversation.id row.userId = true)
    {row : Conversation} (isItself : row.id = conversation.id) :
    AccessOfMembers (writeTransfer db conversation successor.id newOwnerId source departing now)
      row := by
  have keeps : ∀ userId, isActiveIn db conversation.id userId = true → isActiveIn
      (writeTransfer db conversation successor.id newOwnerId source departing now)
      conversation.id userId = true := fun _ isActive =>
    isActiveIn_of_update members_writeTransfer (fun _ => ⟨rfl, rfl, rfl⟩) isActive
  have successorActive : isActiveIn db conversation.id newOwnerId = true := by
    obtain ⟨_, member, memberMem, _, linked, isActive⟩ := lockedSuccessor_eq_ok locked
    exact isActiveIn_eq_true.mpr ⟨member, memberMem, linked, isActive⟩
  constructor
  · rw [isItself]
    intro app appMem membership membershipMem isOfApp
    have idMem := List.mem_map_of_mem (f := (·.id)) appMem
    rw [map_id_appsOf_writeTransfer, ← isOfApp] at idMem
    apply keeps
    rcases mem_memberships_writeTransfer membershipMem with
      ⟨notOf, _⟩ | ⟨_, isNew | ⟨_, _, notDeparting, old, oldMem, sameApp, sameUser⟩⟩
    · exact absurd idMem notOf
    · rw [isNew]
      exact successorActive
    · obtain ⟨app, appMem, sameId⟩ := List.mem_map.mp idMem
      rw [← sameUser] at notDeparting ⊢
      exact active app appMem old oldMem (sameApp.trans sameId.symm) notDeparting
  · rw [isItself]
    intro _ app appMem
    obtain ⟨_, _, _, appUser⟩ := mem_appsOf_writeTransfer appMem
    rw [appUser, if_pos rfl]
    exact keeps _ successorActive

/-- A revocation leaves access to members who had it and do not depart. -/
theorem accessOfMembers_unclaimed {memberId departing : Uuid}
    (active : ∀ app ∈ appsOf db conversation.id, ∀ row ∈ db.memberships, row.appId = app.id →
      some departing ≠ some row.userId → isActiveIn db conversation.id row.userId = true)
    {row : Conversation} (rowMem : row ∈ (revokeUnclaimedGroupAppOwner
      (writeUnclaimed db conversation.id memberId) conversation.id departing now).conversations)
    (isItself : row.id = conversation.id) :
    AccessOfMembers (revokeUnclaimedGroupAppOwner (writeUnclaimed db conversation.id memberId)
      conversation.id departing now) row := by
  have apps : appsOf (revokeUnclaimedGroupAppOwner (writeUnclaimed db conversation.id memberId)
      conversation.id departing now) conversation.id = appsOf db conversation.id := by
    rw [appsOf, revoke_keeps AppsDb.apps fun _ _ => rfl]
    rfl
  have members : (revokeUnclaimedGroupAppOwner (writeUnclaimed db conversation.id memberId)
      conversation.id departing now).members =
        Table.update (fun member => member.id == memberId)
          (fun member => { member with role := .member }) db.members :=
    revoke_keeps AppsDb.members (fun _ _ => rfl) _ _
  constructor
  · rw [isItself, apps]
    intro app appMem membership membershipMem isOfApp
    rw [mem_memberships_revoke] at membershipMem
    have kept : revokedMembership departing membership = false := by
      apply membershipMem.2
      rw [isOfApp]
      exact List.mem_map_of_mem (f := (·.id)) appMem
    have notDeparting : some departing ≠ some membership.userId := by
      rintro ⟨⟩
      simp [revokedMembership] at kept
    apply isActiveIn_of_update members (fun _ => ⟨rfl, rfl, rfl⟩)
    exact active app appMem membership membershipMem.1 isOfApp notDeparting
  · intro claimed
    rw [revoke_keeps AppsDb.conversations fun _ _ => rfl] at rowMem
    rcases Table.mem_update_cases rowMem with ⟨old, _, _, rfl⟩ | ⟨_, notSelected⟩
    · exact absurd rfl claimed
    · rw [isItself, beq_self_eq_true] at notSelected
      cases notSelected

/-- A claim that shows the users of the apps shows active members. -/
theorem accessOfMembers_writeUnlinkedClaim {memberId : Uuid} (access : GroupsAccess db)
    (allowed : source = .unclaimed ∨ ∀ app ∈ appsOf db conversation.id,
      isActiveIn db conversation.id app.userId = true) {row : Conversation}
    (rowMem : row ∈ (writeUnlinkedClaim db conversation memberId source).conversations)
    (isItself : row.id = conversation.id) (isGroup : row.kind = .group) :
    AccessOfMembers (writeUnlinkedClaim db conversation memberId source) row := by
  have keeps : ∀ userId, isActiveIn db conversation.id userId = true → isActiveIn
      (writeUnlinkedClaim db conversation memberId source) conversation.id userId = true :=
    fun _ isActive => isActiveIn_of_update rfl (fun _ => ⟨rfl, rfl, rfl⟩) isActive
  rcases Table.mem_update_cases rowMem with ⟨stored, storedMem, _, rfl⟩ | ⟨_, notSelected⟩
  · have sameId : stored.id = conversation.id := isItself
    have before := access stored storedMem isGroup
    constructor
    · intro app appMem membership membershipMem isOfApp
      have active := before.memberships app appMem membership membershipMem isOfApp
      rw [sameId] at active
      rw [isItself]
      exact keeps _ active
    · intro claimed app appMem
      rw [isItself] at appMem ⊢
      rcases allowed with rfl | active
      · exact absurd rfl claimed
      · exact keeps _ (active app appMem)
  · rw [isItself, beq_self_eq_true] at notSelected
    cases notSelected

/-- The keys of the tables hold, and only active members have access to the apps of groups. -/
structure AccessSound (db : AppsDb) : Prop where
  keys : GroupKeys db
  access : GroupsAccess db

/-- A write about one group. -/
theorem AccessSound.of_sameGroup (sound : AccessSound db) (keys : GroupKeys after)
    (about : WriteAbout db after conversation.id)
    (itself : ∀ row ∈ after.conversations, row.id = conversation.id → row.kind = .group →
      AccessOfMembers after row) : AccessSound after :=
  ⟨keys, about.each (fun _ _ => AccessOfMembers.of_same) sound.access itself⟩

theorem AccessSound.memberChange (sound : AccessSound db) {change : Option ConversationMember}
    (changed : MemberChange db change new after)
    (allowed : ∀ old, change = some old → keepsAccess db old new = true) : AccessSound after := by
  refine ⟨sound.keys.memberChange changed, ?_⟩
  intro row rowMem isGroup
  rw [changed.eq] at rowMem
  exact (sound.access row rowMem isGroup).memberChange sound.keys changed allowed rowMem isGroup

theorem AccessSound.transfer (sound : AccessSound db) {successor : ConversationMember}
    {departing : Option Uuid}
    (transfers : transferGroupOwnership db conversation successor source departing now =
      .ok after) : AccessSound after := by
  obtain ⟨newOwnerId, locked, rfl⟩ := transferGroupOwnership_eq_ok transfers
  apply sound.of_sameGroup sound.keys.transfer (writeAbout_transfer sound.keys)
  intro row rowMem isItself isGroup
  apply accessOfMembers_writeTransfer locked _ isItself
  intro app appMem membership membershipMem isOfApp _
  obtain ⟨stored, storedMem, sameId, sameKind⟩ := stored_of_writeTransfer rowMem
  have access := sound.access stored storedMem (sameKind.trans isGroup)
  rw [← isItself, ← sameId] at appMem ⊢
  exact access.memberships app appMem membership membershipMem isOfApp

/-- Whoever has a membership when the owner is removed, and is not the owner, is active. -/
theorem active_of_removed {stored : Conversation} {participant : Participant}
    {member : ConversationMember} (keys : GroupKeys db) (access : AccessOfMembers db stored)
    (changed : MemberChange db (db.members.find? (participant.isRowOf stored.id)) member after)
    (written : ∀ old, db.members.find? (participant.isRowOf stored.id) = some old →
      member = participant.writtenRow old)
    (allowed : (db.members.find? (participant.isRowOf stored.id)).all (fun old =>
      (participant.writtenRow old).userId = old.userId ||
        !(old.userId.any fun userId => hasMembership db stored.id userId)) = true) :
    ∀ app ∈ appsOf after stored.id, ∀ row ∈ after.memberships, row.appId = app.id →
      some (departingOwner conversation member) ≠ some row.userId →
        isActiveIn after stored.id row.userId = true := by
  have memberships : after.memberships = db.memberships := by rw [changed.eq]
  have apps : appsOf after stored.id = appsOf db stored.id := by
    rw [changed.eq]
    rfl
  rw [memberships, apps]
  intro app appMem row rowMem isOfApp notDeparting
  apply changed.stays_active keys _ (access.memberships app appMem row rowMem isOfApp)
  intro old isOld linked _
  exfalso
  rw [isOld] at allowed
  rcases Bool.or_eq_true_iff.mp allowed with sameUser | noMembership
  · apply notDeparting
    rw [departingOwner, written old isOld, of_decide_eq_true sameUser, linked]
    rfl
  · rw [linked] at noMembership
    simp [hasMembership_of_mem appMem rowMem isOfApp] at noMembership

theorem AccessSound.removal (sound : AccessSound db) {participant : Participant}
    (isMember : participant.role = .member)
    (allowed : keepsAppMembers db (.removal conversation participant) = true)
    (removes : (GroupWrite.removal conversation participant).apply now db = .ok after) :
    AccessSound after := by
  obtain ⟨member, joined, changed, written, memberMem, replaced⟩ := removal_eq_ok isMember removes
  have keys := sound.keys.memberChange changed
  have conversations : joined.conversations = db.conversations := by rw [changed.eq]
  have ofGroup : member.conversationId = conversation.id :=
    of_decide_eq_true (List.mem_filter.mp memberMem).2
  have active : ∀ stored ∈ db.conversations, stored.id = conversation.id → stored.kind = .group →
      ∀ app ∈ appsOf joined conversation.id, ∀ row ∈ joined.memberships, row.appId = app.id →
        some (departingOwner conversation member) ≠ some row.userId →
          isActiveIn joined conversation.id row.userId = true := by
    intro stored storedMem sameId isGroup
    rw [keepsAppMembers, ← sameId] at allowed
    rw [← sameId] at changed written ⊢
    exact active_of_removed sound.keys (sound.access stored storedMem isGroup) changed written allowed
  rcases replaced with ⟨successor, newOwnerId, _, locked, rfl⟩ | ⟨_, rfl⟩
  · apply sound.of_sameGroup keys.transfer
      ((writeAbout_transfer keys).after_memberChange sound.keys changed ofGroup)
    intro row rowMem isItself isGroup
    obtain ⟨stored, storedMem, sameId, sameKind⟩ := stored_of_writeTransfer rowMem
    rw [conversations] at storedMem
    exact accessOfMembers_writeTransfer locked
      (active stored storedMem (sameId.trans isItself) (sameKind.trans isGroup)) isItself
  · apply sound.of_sameGroup keys.unclaimed
      ((writeAbout_unclaimed keys memberMem).after_memberChange sound.keys changed ofGroup)
    intro row rowMem isItself isGroup
    obtain ⟨stored, storedMem, sameId, sameKind⟩ := stored_of_unclaimed rowMem
    rw [conversations] at storedMem
    exact accessOfMembers_unclaimed
      (active stored storedMem (sameId.trans isItself) (sameKind.trans isGroup)) rowMem isItself

/-- A write that is allowed leaves access to active members. -/
theorem AccessSound.write {write : GroupWrite} (sound : AccessSound db) (asMember : write.AsMember)
    (allowed : keepsAppMembers db write = true) (applies : write.apply now db = .ok after) :
    AccessSound after := by
  cases write with
  | upsert conversationId participant =>
      obtain ⟨member, upserts⟩ := map_snd_eq_ok applies
      have upserted := upsertGroupMember_eq_ok upserts
      apply sound.memberChange (memberChange_of_upserted asMember upserted)
      intro old found
      rw [upserted.eq_writtenRow found]
      rw [keepsAppMembers, found] at allowed
      exact allowed
  | removal conversation participant => exact sound.removal asMember allowed applies
  | transfer conversation successor source departing => exact sound.transfer applies
  | claim conversation memberId source =>
      cases applies
      apply sound.of_sameGroup sound.keys.unlinkedClaim writeAbout_unlinkedClaim
      intro row rowMem isItself isGroup
      apply accessOfMembers_writeUnlinkedClaim sound.access _ rowMem isItself isGroup
      simpa [keepsAppMembers] using allowed
  | join invite user handle =>
      obtain ⟨new, changed, _, _, rejoined⟩ := memberChange_of_writeJoin applies
      apply sound.memberChange changed
      intro old found
      rw [rejoined old found]
      rw [keepsAppMembers, found] at allowed
      exact allowed
  | leave conversationId userId =>
      obtain ⟨old, _, ofGroup, linked, _, changed⟩ :=
        memberChange_of_leaveWebGroup sound.keys.members applies
      apply sound.memberChange changed
      intro same isOld
      cases isOld
      rw [keepsAppMembers] at allowed
      rw [keepsAccess, linked, ofGroup, Option.any_some, allowed, Bool.or_true]

/-- A group that is new has no apps. -/
theorem accessOfMembers_of_new (keys : GroupKeys db) (apps : after.apps = db.apps)
    (isNew : conversation.id = db.nextId) : AccessOfMembers after conversation := by
  have noApps : ∀ app, app ∉ appsOf after conversation.id := by
    intro app appMem
    obtain ⟨stored, isOf⟩ := List.mem_filter.mp appMem
    rw [apps] at stored
    have lower := keys.app_lt app stored
    rw [of_decide_eq_true isOf, isNew] at lower
    exact Nat.lt_irrefl _ lower
  constructor
  · intro app appMem
    exact absurd appMem (noApps app)
  · intro _ app appMem
    exact absurd appMem (noApps app)

theorem AccessSound.prepares (sound : AccessSound db) (prepared : Prepares db after) :
    AccessSound after := by
  refine ⟨sound.keys.prepares prepared, ?_⟩
  apply prepared.each (fun _ _ => AccessOfMembers.of_same) sound.access
  intro row _ isNew
  apply accessOfMembers_of_new sound.keys _ isNew
  cases prepared <;> rfl

end

/-- In a run in which nobody stops to be an active member of a group while they have access to
its apps, and no claim shows an app of somebody who is not one, only active members of groups
are authorized for their apps. -/
theorem only_members_authorized {db after : AppsDb} (keys : GroupKeys db)
    (access : GroupsAccess db)
    (run : Run groupStep (fun db step => everyWrite keepsAppMembers db step = true) db after) :
    OnlyMembersAuthorized after := by
  have sound : AccessSound after := by
    apply invariant_of_run AccessSound _ _ run ⟨keys, access⟩
    · intro db after sound prepared
      exact sound.prepares prepared
    · intro now db write after sound asMember allowed applies
      exact sound.write asMember allowed applies
  exact onlyMembersAuthorized sound.access

/-! ## Two departures -/

theorem groupKeys_tripGroup : GroupKeys (tripGroup (some 8) 8) where
  members := by decide
  conversations := by decide
  apps := by decide
  conversation_lt := by decide
  member_lt := by decide
  app_lt := by decide

theorem groupsAccess_tripGroup : GroupsAccess (tripGroup (some 8) 8) := by
  intro conversation conversationMem _
  rw [List.mem_singleton.mp conversationMem]
  constructor
  · decide
  · intro _
    decide

/-- The provider removes the owner, whose row stays the owner's. -/
theorem removed_owner_loses_access :
    ∃ after : AppsDb, after.memberships = [⟨20, 7, .owner⟩] ∧ OnlyMembersAuthorized after := by
  have runs : (execute groupStep (everyWrite keepsAppMembers) (tripGroup (some 8) 8)
      [⟨tripDirectory, 5, .applyLinqGroupEvent "participant.removed" ownerRemoved⟩]).any
        (fun after => after.memberships = [⟨20, 7, .owner⟩]) = true := by
    decide
  simp only [Option.any_eq_true, decide_eq_true_eq] at runs
  rcases runs with ⟨after, executed, memberships⟩
  exact ⟨after, memberships,
    only_members_authorized groupKeys_tripGroup groupsAccess_tripGroup (run_of_execute executed)⟩

/-- The owner gives a group to another member, and leaves it: the apps stay open to the owner
who left. -/
theorem former_owner_keeps_access :
    ∃ after : AppsDb, Run groupStep (fun _ _ => True) (tripGroup (some 8) 8) after ∧
      isActiveIn after 1 8 = false ∧ ¬ OnlyMembersAuthorized after := by
  have runs : (execute groupStep (fun _ _ => true) (tripGroup (some 8) 8)
      [⟨tripDirectory, 5, .transferGroupOwnership 1 11 .explicit none⟩,
        ⟨tripDirectory, 6, .leaveWebGroup 1 8⟩]).any (fun after =>
          isActiveIn after 1 8 = false &&
            ((after.conversation? 1 = some ⟨1, 7, .group, some "Trip", .auto, some .explicit, true⟩) &&
              after.apps.any fun app => app.conversationId = 1 &&
                (authorizeUserForLockedApp after app 8).toOption =
                  some ⟨.member, some 8, none, true⟩)) = true := by
    decide
  simp only [Option.any_eq_true, Bool.and_eq_true, List.any_eq_true, decide_eq_true_eq] at runs
  rcases runs with ⟨after, executed, notActive, found, app, appMem, ofGroup, authorized⟩
  refine ⟨after, (run_of_execute executed).mono fun _ _ _ => True.intro, notActive, ?_⟩
  intro onlyMembers
  have stored : after.conversation? app.conversationId =
      some ⟨1, 7, .group, some "Trip", .auto, some .explicit, true⟩ := by
    rw [ofGroup]
    exact found
  have active := onlyMembers app appMem _ stored rfl 8 _ (ok_of_toOption authorized)
  exact absurd active (Bool.eq_false_iff.mp notActive)

end DotBackend.Groups
