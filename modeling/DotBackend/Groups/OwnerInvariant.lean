import DotBackend.Groups.OtherGroups

/-!
# The owner of a group

A group has at most one owner. When it is known who owns it, the owner is an active member
who is linked to the user of the conversation, and this user alone owns the apps of the
group.
-/

namespace DotBackend.Groups

open Data Channel Apps Transition

variable {new : ConversationMember} {source : GroupOwnerSource} {conversation : Conversation}

/-- The sources that tell who owns a group. -/
def isEstablished (source : Option GroupOwnerSource) : Bool :=
  source = some .explicit || source = some .firstInvoker || source = some .transferred

/-- A member is the owner of a group and of its apps. -/
structure OwnedBy (db : AppsDb) (conversation : Conversation) (owner : ConversationMember) :
    Prop where
  isMember : owner ∈ membersOf db conversation.id
  isOwner : owner.role = .owner
  isActive : owner.status = .active
  linked : owner.userId = some conversation.userId
  apps : ∀ app ∈ appsOf db conversation.id, app.userId = conversation.userId
  owns : ∀ app ∈ appsOf db conversation.id,
    (⟨app.id, conversation.userId, .owner⟩ : GeneratedAppMembership) ∈ db.memberships
  alone : ∀ app ∈ appsOf db conversation.id, ∀ row ∈ db.memberships, row.appId = app.id →
    row.role = .owner → row.userId = conversation.userId

/-- At most one member of a conversation is its owner. -/
def AtMostOneOwner (db : AppsDb) (conversationId : Uuid) : Prop :=
  ∀ a ∈ membersOf db conversationId, ∀ b ∈ membersOf db conversationId,
    a.role = .owner → b.role = .owner → a = b

structure GroupOwned (db : AppsDb) (conversation : Conversation) : Prop where
  atMostOne : AtMostOneOwner db conversation.id
  established : isEstablished conversation.groupOwnerSource = true →
    ∃ owner, OwnedBy db conversation owner

/-- Every group is owned as its source tells. -/
def GroupsOwned (db : AppsDb) : Prop :=
  ∀ conversation ∈ db.conversations, conversation.kind = .group → GroupOwned db conversation

/-! ## The condition -/

/-- A row that is written over stays the one of an active owner, if the group of the row has
an owner. -/
def keepsOwnerRow (db : AppsDb) (old new : ConversationMember) : Bool :=
  old.role ≠ .owner ||
    !((db.conversation? old.conversationId).any fun conversation =>
      conversation.kind = .group && isEstablished conversation.groupOwnerSource) ||
    (new.status = .active && new.userId = old.userId)

/-- The owner's row is written over with another status or user only when the owner is
removed, and nobody who is not linked to a user claims the group. -/
def keepsOwner (db : AppsDb) : GroupWrite → Bool
  | .upsert conversationId participant =>
      (db.members.find? (participant.isRowOf conversationId)).all fun old =>
        keepsOwnerRow db old (participant.writtenRow old)
  | .join invite user handle =>
      (db.members.find? (isJoining invite.conversationId user.id handle)).all fun old =>
        keepsOwnerRow db old (rejoinedRow user old)
  | .claim _ _ source => !isEstablished (some source)
  | .removal _ _ | .transfer _ _ _ _ | .leave _ _ => true

/-! ## The group that a write is about -/

section

variable {db after : AppsDb} {conversation stored : Conversation} {conversationId : Uuid}

theorem GroupOwned.of_same (same : SameGroup db after conversation.id)
    (sameOwnership : ownership conversation = ownership stored) (owned : GroupOwned db stored) :
    GroupOwned after conversation := by
  simp only [ownership, Prod.mk.injEq] at sameOwnership
  obtain ⟨sameId, sameUser, _, sameSource⟩ := sameOwnership
  constructor
  · rw [AtMostOneOwner, same.members, sameId]
    exact owned.atMostOne
  · intro isKnown
    rw [sameSource] at isKnown
    obtain ⟨owner, ownedBy⟩ := owned.established isKnown
    refine ⟨owner, ?_, ownedBy.isOwner, ownedBy.isActive, ?_, ?_, ?_, ?_⟩
    · rw [same.members, sameId]
      exact ownedBy.isMember
    · rw [sameUser]
      exact ownedBy.linked
    · rw [same.apps, sameId, sameUser]
      exact ownedBy.apps
    · rw [same.apps, sameUser]
      intro app appMem
      rw [same.memberships app appMem _ rfl]
      rw [sameId] at appMem
      exact ownedBy.owns app appMem
    · rw [same.apps, sameUser]
      intro app appMem row rowMem isOfApp
      rw [same.memberships app appMem row isOfApp] at rowMem
      rw [sameId] at appMem
      exact ownedBy.alone app appMem row rowMem isOfApp

/-- An owner after a change of a member was the owner before. -/
theorem MemberChange.owner_before {change : Option ConversationMember}
    (changed : MemberChange db change new after) {member : ConversationMember}
    (memberMem : member ∈ membersOf after conversationId) (isOwner : member.role = .owner) :
    ∃ old ∈ membersOf db conversationId, old.id = member.id ∧ old.role = .owner := by
  obtain ⟨stored, isOf⟩ := List.mem_filter.mp memberMem
  rcases changed.mem_cases stored with isNew | ⟨wasMem, _⟩
  · subst isNew
    cases change with
    | none =>
        rw [changed.not_owner] at isOwner
        cases isOwner
    | some old =>
        obtain ⟨sameId, sameConversation, sameRole, oldMem⟩ := changed.same_conversation rfl
        refine ⟨old, List.mem_filter.mpr ⟨oldMem, ?_⟩, sameId.symm, sameRole ▸ isOwner⟩
        rw [← sameConversation]
        exact isOf
  · exact ⟨member, List.mem_filter.mpr ⟨wasMem, isOf⟩, rfl, isOwner⟩

theorem AtMostOneOwner.memberChange {change : Option ConversationMember} (keys : GroupKeys db)
    (changed : MemberChange db change new after)
    (atMostOne : AtMostOneOwner db conversationId) : AtMostOneOwner after conversationId := by
  intro a aMem b bMem aOwner bOwner
  obtain ⟨aOld, aOldMem, aSame, aWas⟩ := changed.owner_before aMem aOwner
  obtain ⟨bOld, bOldMem, bSame, bWas⟩ := changed.owner_before bMem bOwner
  have same := atMostOne aOld aOldMem bOld bOldMem aWas bWas
  apply (keys.memberChange changed).member_eq (List.mem_filter.mp aMem).1 (List.mem_filter.mp bMem).1
  rw [← aSame, ← bSame, same]

/-- A group keeps its owner when the owner's row stays the one of an active owner. -/
theorem GroupOwned.memberChange {change : Option ConversationMember} (keys : GroupKeys db)
    (changed : MemberChange db change new after)
    (allowed : ∀ old, change = some old → keepsOwnerRow db old new = true)
    (stored : conversation ∈ db.conversations) (isGroup : conversation.kind = .group)
    (owned : GroupOwned db conversation) : GroupOwned after conversation := by
  refine ⟨owned.atMostOne.memberChange keys changed, ?_⟩
  intro isKnown
  obtain ⟨owner, ownedBy⟩ := owned.established isKnown
  obtain ⟨ownerStored, isOf⟩ := List.mem_filter.mp ownedBy.isMember
  have memberships : after.memberships = db.memberships := by rw [changed.eq]
  have apps : appsOf after conversation.id = appsOf db conversation.id := by
    rw [changed.eq]
    rfl
  have stays : ∃ stays ∈ membersOf after conversation.id, stays.role = .owner ∧
      stays.status = .active ∧ stays.userId = some conversation.userId := by
    by_cases isChanged : change = some owner
    · obtain ⟨sameId, sameConversation, sameRole, _⟩ := changed.same_conversation isChanged
      have keeps := allowed owner isChanged
      have isFound : db.conversation? owner.conversationId = some conversation := by
        have ofGroup : owner.conversationId = conversation.id := of_decide_eq_true isOf
        rw [ofGroup, keys.conversation?_eq stored]
      simp [keepsOwnerRow, ownedBy.isOwner, isFound, isGroup, isKnown] at keeps
      refine ⟨new, List.mem_filter.mpr ⟨changed.new_mem, ?_⟩, sameRole.trans ownedBy.isOwner,
        keeps.1, keeps.2.trans ownedBy.linked⟩
      rw [sameConversation]
      exact isOf
    · refine ⟨owner, List.mem_filter.mpr ⟨?_, isOf⟩, ownedBy.isOwner, ownedBy.isActive,
        ownedBy.linked⟩
      apply changed.keeps ownerStored
      intro old isOld sameId
      obtain ⟨_, _, _, oldMem⟩ := changed.same_conversation isOld
      rw [keys.member_eq ownerStored oldMem sameId] at isChanged
      exact isChanged isOld
  obtain ⟨newOwner, isMember, isOwner, isActive, linked⟩ := stays
  refine ⟨newOwner, isMember, isOwner, isActive, linked, ?_, ?_, ?_⟩
  · rw [apps]
    exact ownedBy.apps
  · rw [apps, memberships]
    exact ownedBy.owns
  · rw [apps, memberships]
    exact ownedBy.alone

/-- Only the successor is an owner after a promotion. -/
theorem id_of_promoted {successorId : Uuid} {members : List ConversationMember}
    {member : ConversationMember}
    (memberMem : member ∈ Table.update (fun row => row.conversationId == conversationId)
      (promoted successorId) members)
    (isOf : member.conversationId = conversationId) (isOwner : member.role = .owner) :
    member.id = successorId := by
  rcases Table.mem_update_cases memberMem with ⟨old, _, _, rfl⟩ | ⟨_, notSelected⟩
  · by_contra notSuccessor
    change old.id ≠ successorId at notSuccessor
    simp only [promoted, if_neg notSuccessor] at isOwner
    split at isOwner
    · cases isOwner
    · contradiction
  · rw [isOf, beq_self_eq_true] at notSelected
    cases notSelected

theorem AtMostOneOwner.promoted {successorId : Uuid} (keys : GroupKeys after)
    (members : after.members = Table.update (fun row => row.conversationId == conversationId)
      (Groups.promoted successorId) db.members) : AtMostOneOwner after conversationId := by
  intro a aMem b bMem aOwner bOwner
  obtain ⟨aStored, aOf⟩ := List.mem_filter.mp aMem
  obtain ⟨bStored, bOf⟩ := List.mem_filter.mp bMem
  apply keys.member_eq aStored bStored
  rw [members] at aStored bStored
  rw [id_of_promoted aStored (of_decide_eq_true aOf) aOwner,
    id_of_promoted bStored (of_decide_eq_true bOf) bOwner]

/-- A transfer makes the successor the owner. -/
theorem groupOwned_writeTransfer (keys : GroupKeys db) {successor : ConversationMember}
    {newOwnerId : Uuid} {departing : Option Uuid} {now : Instant}
    (locked : lockedSuccessor db conversation successor = .ok newOwnerId) {row : Conversation}
    (rowMem : row ∈ (writeTransfer db conversation successor.id newOwnerId source departing
      now).conversations)
    (isGroup : row.id = conversation.id) :
    GroupOwned (writeTransfer db conversation successor.id newOwnerId source departing now) row := by
  have user : row.userId = newOwnerId := by
    rw [conversations_writeTransfer] at rowMem
    rcases Table.mem_update_cases rowMem with ⟨old, _, _, rfl⟩ | ⟨_, notSelected⟩
    · rfl
    · rw [isGroup, beq_self_eq_true] at notSelected
      cases notSelected
  constructor
  · rw [isGroup]
    exact AtMostOneOwner.promoted keys.transfer members_writeTransfer
  · intro _
    obtain ⟨_, member, memberMem, sameId, linked, isActive⟩ := lockedSuccessor_eq_ok locked
    obtain ⟨stored, isOf⟩ := List.mem_filter.mp memberMem
    refine ⟨promoted successor.id member, ?_, ?_, isActive, ?_, ?_, ?_, ?_⟩
    · rw [isGroup]
      apply List.mem_filter.mpr
      refine ⟨?_, isOf⟩
      rw [members_writeTransfer]
      apply Table.mem_update.mpr
      refine ⟨member, stored, if_pos ?_⟩
      rw [beq_iff_eq]
      exact of_decide_eq_true isOf
    · simp [promoted, sameId]
    · rw [user]
      exact linked
    · intro app appMem
      rw [isGroup] at appMem
      obtain ⟨_, _, _, appUser⟩ := mem_appsOf_writeTransfer appMem
      rw [appUser, if_pos rfl, user]
    · intro app appMem
      rw [isGroup] at appMem
      have idMem := List.mem_map_of_mem (f := (·.id)) appMem
      rw [map_id_appsOf_writeTransfer] at idMem
      rw [user]
      exact owner_mem_writeTransfer idMem
    · intro app appMem membership membershipMem isOfApp isOwner
      rw [isGroup] at appMem
      have idMem := List.mem_map_of_mem (f := (·.id)) appMem
      rw [map_id_appsOf_writeTransfer, ← isOfApp] at idMem
      rcases mem_memberships_writeTransfer membershipMem with
        ⟨notOf, _⟩ | ⟨_, isNew | ⟨_, notOwner, _⟩⟩
      · exact absurd idMem notOf
      · rw [isNew, user]
      · exact absurd isOwner notOwner

/-- A group without an owner has none after a claim that does not say who owns it. -/
theorem groupOwned_writeUnlinkedClaim (keys : GroupKeys db) {memberId : Uuid}
    (notKnown : isEstablished (some source) = false)
    {row : Conversation}
    (rowMem : row ∈ (writeUnlinkedClaim db conversation memberId source).conversations)
    (isGroup : row.id = conversation.id) :
    GroupOwned (writeUnlinkedClaim db conversation memberId source) row := by
  constructor
  · rw [isGroup]
    exact AtMostOneOwner.promoted keys.unlinkedClaim rfl
  · intro isKnown
    rcases Table.mem_update_cases rowMem with ⟨old, _, _, rfl⟩ | ⟨_, notSelected⟩
    · rw [notKnown] at isKnown
      cases isKnown
    · rw [isGroup, beq_self_eq_true] at notSelected
      cases notSelected

/-- Nobody owns a group that nobody replaces the owner of. -/
theorem groupOwned_unclaimed {memberId departing : Uuid} {now : Instant}
    (atMostOne : AtMostOneOwner db conversation.id) {row : Conversation}
    (rowMem : row ∈ (revokeUnclaimedGroupAppOwner (writeUnclaimed db conversation.id memberId)
      conversation.id departing now).conversations)
    (isGroup : row.id = conversation.id) :
    GroupOwned (revokeUnclaimedGroupAppOwner (writeUnclaimed db conversation.id memberId)
      conversation.id departing now) row := by
  constructor
  · rw [isGroup, AtMostOneOwner, membersOf, revoke_keeps AppsDb.members fun _ _ => rfl]
    have isOld : ∀ member ∈ (writeUnclaimed db conversation.id memberId).members.filter
        (fun member => member.conversationId = conversation.id), member.role = .owner →
          member ∈ membersOf db conversation.id := by
      intro member memberMem isOwner
      obtain ⟨stored, isOf⟩ := List.mem_filter.mp memberMem
      rcases Table.mem_update_cases stored with ⟨_, _, _, rfl⟩ | ⟨wasMem, _⟩
      · cases isOwner
      · exact List.mem_filter.mpr ⟨wasMem, isOf⟩
    intro a aMem b bMem aOwner bOwner
    exact atMostOne a (isOld a aMem aOwner) b (isOld b bMem bOwner) aOwner bOwner
  · intro isKnown
    rw [revoke_keeps AppsDb.conversations fun _ _ => rfl] at rowMem
    rcases Table.mem_update_cases rowMem with ⟨old, _, _, rfl⟩ | ⟨_, notSelected⟩
    · cases isKnown
    · rw [isGroup, beq_self_eq_true] at notSelected
      cases notSelected

end

/-! ## Writes -/

section

variable {db after : AppsDb} {now : Instant}

/-- The keys of the tables hold, and every group is owned as its source tells. -/
structure OwnersSound (db : AppsDb) : Prop where
  keys : GroupKeys db
  owned : GroupsOwned db

/-- A write about one group. -/
theorem OwnersSound.of_sameGroup (sound : OwnersSound db) (keys : GroupKeys after)
    (about : WriteAbout db after conversation.id)
    (itself : ∀ row ∈ after.conversations, row.id = conversation.id → row.kind = .group →
      GroupOwned after row) : OwnersSound after :=
  ⟨keys, about.each (fun _ _ => GroupOwned.of_same) sound.owned itself⟩

theorem OwnersSound.memberChange (sound : OwnersSound db) {change : Option ConversationMember}
    (changed : MemberChange db change new after)
    (allowed : ∀ old, change = some old → keepsOwnerRow db old new = true) :
    OwnersSound after := by
  refine ⟨sound.keys.memberChange changed, ?_⟩
  intro conversation conversationMem isGroup
  have stored : conversation ∈ db.conversations := by
    rw [changed.eq] at conversationMem
    exact conversationMem
  exact (sound.owned conversation stored isGroup).memberChange sound.keys changed allowed stored
    isGroup

theorem OwnersSound.transfer (sound : OwnersSound db) {successor : ConversationMember}
    {departing : Option Uuid}
    (transfers : transferGroupOwnership db conversation successor source departing now =
      .ok after) : OwnersSound after := by
  obtain ⟨newOwnerId, locked, rfl⟩ := transferGroupOwnership_eq_ok transfers
  apply sound.of_sameGroup sound.keys.transfer (writeAbout_transfer sound.keys)
  intro row rowMem isItself _
  exact groupOwned_writeTransfer sound.keys locked rowMem isItself

/-- The owner who is removed leaves the group to somebody else, or to nobody. -/
theorem OwnersSound.removal (sound : OwnersSound db) {participant : Participant}
    (isMember : participant.role = .member)
    (removes : (GroupWrite.removal conversation participant).apply now db = .ok after) :
    OwnersSound after := by
  obtain ⟨member, joined, changed, _, memberMem, replaced⟩ := removal_eq_ok isMember removes
  have keys := sound.keys.memberChange changed
  have ofGroup : member.conversationId = conversation.id :=
    of_decide_eq_true (List.mem_filter.mp memberMem).2
  rcases replaced with ⟨successor, newOwnerId, _, locked, rfl⟩ | ⟨_, rfl⟩
  · apply sound.of_sameGroup keys.transfer
      ((writeAbout_transfer keys).after_memberChange sound.keys changed ofGroup)
    intro row rowMem isItself _
    exact groupOwned_writeTransfer keys locked rowMem isItself
  · apply sound.of_sameGroup keys.unclaimed
      ((writeAbout_unclaimed keys memberMem).after_memberChange sound.keys changed ofGroup)
    intro row rowMem isItself isGroup
    apply groupOwned_unclaimed _ rowMem isItself
    obtain ⟨stored, storedMem, sameId, sameKind⟩ := stored_of_unclaimed rowMem
    have conversations : joined.conversations = db.conversations := by rw [changed.eq]
    rw [conversations] at storedMem
    rw [← isItself, ← sameId]
    exact (sound.owned stored storedMem (sameKind.trans isGroup)).atMostOne.memberChange
      sound.keys changed

/-- A write that is allowed keeps every group owned. -/
theorem OwnersSound.write {write : GroupWrite} (sound : OwnersSound db) (asMember : write.AsMember)
    (allowed : keepsOwner db write = true) (applies : write.apply now db = .ok after) :
    OwnersSound after := by
  cases write with
  | upsert conversationId participant =>
      obtain ⟨member, upserts⟩ := map_snd_eq_ok applies
      have upserted := upsertGroupMember_eq_ok upserts
      apply sound.memberChange (memberChange_of_upserted asMember upserted)
      intro old found
      rw [upserted.eq_writtenRow found]
      rw [keepsOwner, found] at allowed
      exact allowed
  | removal conversation participant => exact sound.removal asMember applies
  | transfer conversation successor source departing => exact sound.transfer applies
  | claim conversation memberId source =>
      cases applies
      have notKnown : isEstablished (some source) = false := by
        simpa [keepsOwner] using allowed
      apply sound.of_sameGroup sound.keys.unlinkedClaim writeAbout_unlinkedClaim
      intro row rowMem isItself _
      exact groupOwned_writeUnlinkedClaim sound.keys notKnown rowMem isItself
  | join invite user handle =>
      obtain ⟨new, changed, _, _, rejoined⟩ := memberChange_of_writeJoin applies
      apply sound.memberChange changed
      intro old found
      rw [rejoined old found]
      rw [keepsOwner, found] at allowed
      exact allowed
  | leave conversationId userId =>
      obtain ⟨old, _, _, _, isMember, changed⟩ :=
        memberChange_of_leaveWebGroup sound.keys.members applies
      apply sound.memberChange changed
      intro same isOld
      cases isOld
      simp [keepsOwnerRow, isMember]

/-- Whoever creates a group owns it. -/
theorem groupOwned_created (keys : GroupKeys db) {member : ConversationMember}
    {channel : ConversationChannel}
    (isNew : conversation.id = db.nextId) (ofGroup : member.conversationId = db.nextId)
    (isOwner : member.role = .owner) (isActive : member.status = .active)
    (linked : member.userId = some conversation.userId) :
    GroupOwned { db with
      conversations := db.conversations ++ [conversation]
      members := db.members ++ [member]
      channels := db.channels ++ [channel]
      nextId := db.nextId + 3 } conversation := by
  have only : membersOf { db with
      conversations := db.conversations ++ [conversation]
      members := db.members ++ [member]
      channels := db.channels ++ [channel]
      nextId := db.nextId + 3 } conversation.id = [member] := by
    rw [membersOf, List.filter_append]
    have noneOld : db.members.filter (fun row => row.conversationId = conversation.id) = [] := by
      apply List.filter_eq_nil_iff.mpr
      intro row rowMem
      have lower := keys.member_lt row rowMem
      rw [isNew, decide_eq_true_eq]
      exact Nat.ne_of_lt lower
    rw [noneOld, List.nil_append]
    simp [ofGroup, isNew]
  have noApps : ∀ app ∈ db.apps, app.conversationId ≠ conversation.id := by
    intro app appMem
    rw [isNew]
    exact Nat.ne_of_lt (keys.app_lt app appMem)
  constructor
  · intro a aMem b bMem _ _
    rw [only, List.mem_singleton] at aMem bMem
    rw [aMem, bMem]
  · intro _
    refine ⟨member, ?_, isOwner, isActive, linked, ?_, ?_, ?_⟩
    · rw [only]
      exact List.mem_singleton_self member
    · intro app appMem
      obtain ⟨stored, isOf⟩ := List.mem_filter.mp appMem
      exact absurd (of_decide_eq_true isOf) (noApps app stored)
    · intro app appMem
      obtain ⟨stored, isOf⟩ := List.mem_filter.mp appMem
      exact absurd (of_decide_eq_true isOf) (noApps app stored)
    · intro app appMem
      obtain ⟨stored, isOf⟩ := List.mem_filter.mp appMem
      exact absurd (of_decide_eq_true isOf) (noApps app stored)

/-- A group that is new to the service has no owner. -/
theorem groupOwned_opened (keys : GroupKeys db) {channel : ConversationChannel}
    (isNew : conversation.id = db.nextId)
    (unclaimed : conversation.groupOwnerSource = some .unclaimed) :
    GroupOwned { db with
      conversations := db.conversations ++ [conversation]
      channels := db.channels ++ [channel]
      nextId := db.nextId + 2 } conversation := by
  constructor
  · intro a aMem
    obtain ⟨stored, isOf⟩ := List.mem_filter.mp aMem
    have lower := keys.member_lt a stored
    rw [of_decide_eq_true isOf, isNew] at lower
    exact absurd lower (Nat.lt_irrefl _)
  · intro isKnown
    rw [unclaimed] at isKnown
    cases isKnown

theorem OwnersSound.prepares (sound : OwnersSound db) (prepared : Prepares db after) :
    OwnersSound after := by
  refine ⟨sound.keys.prepares prepared, ?_⟩
  apply prepared.each (fun _ _ => GroupOwned.of_same) sound.owned
  intro row rowMem isNew
  have notOld : row ∉ db.conversations := fun isOld =>
    Nat.lt_irrefl _ (isNew ▸ sound.keys.conversation_lt row isOld)
  cases prepared with
  | describe same =>
      have idMem := List.mem_map_of_mem (f := (·.id)) rowMem
      rw [map_id_of_ownership same] at idMem
      obtain ⟨old, oldMem, sameId⟩ := List.mem_map.mp idMem
      have lower := sound.keys.conversation_lt old oldMem
      rw [sameId, isNew] at lower
      exact absurd lower (Nat.lt_irrefl _)
  | openGroup newId unclaimed =>
      rcases List.mem_append.mp rowMem with isOld | isAdded
      · exact absurd isOld notOld
      · rw [List.mem_singleton.mp isAdded]
        exact groupOwned_opened sound.keys newId unclaimed
  | createGroup newId ofGroup isOwner isActive linked _ =>
      rcases List.mem_append.mp rowMem with isOld | isAdded
      · exact absurd isOld notOld
      · rw [List.mem_singleton.mp isAdded]
        exact groupOwned_created sound.keys newId ofGroup isOwner isActive linked

end

/-- In a run in which the owner's row is written over with another status or user only when
the owner is removed, and in which nobody who is not linked to a user claims a group, every
group has at most one owner, and exactly the one that its source tells of. -/
theorem groups_stay_owned {db after : AppsDb} (keys : GroupKeys db) (owned : GroupsOwned db)
    (run : Run groupStep (fun db step => everyWrite keepsOwner db step = true) db after) :
    GroupsOwned after := by
  have sound : OwnersSound after := by
    apply invariant_of_run OwnersSound _ _ run ⟨keys, owned⟩
    · intro db after sound prepared
      exact sound.prepares prepared
    · intro now db write after sound asMember allowed applies
      exact sound.write asMember allowed applies
  exact sound.owned

/-! ## Two runs -/

/-- Alice writes to a new chat and claims its group. -/
def groupClaimed : GroupStep :=
  ⟨tripDirectory, 1, .resolveLinqGroupConversation "trip-chat" ⟨7, some "Alice", true⟩
    (some "iMessage") (some "+14155552681") none true⟩

/-- The participants of the chat, with the status of Alice. -/
def participantsListed (status : String) : GroupStep :=
  ⟨tripDirectory, 2, .syncLinqGroupParticipants 0 [("handles", .arr [
    .obj [("handle", .str "+14155552681"), ("status", .str status)],
    .obj [("handle", .str "+14155552682"), ("status", .str "active")]])]⟩

/-- Alice is removed from the chat. -/
def aliceRemoved : GroupStep :=
  ⟨tripDirectory, 3, .applyLinqGroupEvent "participant.removed"
    [("chat_id", .str "trip-chat"), ("participant", .obj [("handle", .str "+14155552681")])]⟩

theorem groupKeys_empty : GroupKeys AppsDb.empty where
  members := by decide
  conversations := List.nodup_nil
  apps := List.nodup_nil
  conversation_lt := fun _ isNone => absurd isNone List.not_mem_nil
  member_lt := fun _ isNone => absurd isNone List.not_mem_nil
  app_lt := fun _ isNone => absurd isNone List.not_mem_nil

theorem groupsOwned_empty : GroupsOwned AppsDb.empty :=
  fun _ isNone => absurd isNone List.not_mem_nil

/-- The group of an owner who is removed goes to the member who is left. -/
theorem group_stays_owned_by_bob :
    ∃ after : AppsDb, after.conversations.map (·.userId) = [8] ∧ GroupsOwned after := by
  have runs : (execute groupStep (everyWrite keepsOwner) AppsDb.empty
      [groupClaimed, participantsListed "active", aliceRemoved]).any (fun after =>
        after.conversations.map (·.userId) = [8]) = true := by
    decide
  simp only [Option.any_eq_true, decide_eq_true_eq] at runs
  rcases runs with ⟨after, executed, users⟩
  exact ⟨after, users,
    groups_stay_owned groupKeys_empty groupsOwned_empty (run_of_execute executed)⟩

/-- A list of participants says that the owner has left: the group still has this owner. -/
theorem listed_departure_leaves_owner :
    ∃ after : AppsDb, Run groupStep (fun _ _ => True) AppsDb.empty after ∧
      after.conversations.map (·.groupOwnerSource) = [some .firstInvoker] ∧
      (after.members.all fun member => member.role ≠ .owner || member.status = .left) = true ∧
      ¬ GroupsOwned after := by
  have runs : (execute groupStep (fun _ _ => true) AppsDb.empty
      [groupClaimed, participantsListed "left"]).any (fun after =>
        (after.conversations = [⟨0, 7, .group, some "group with dot", .auto, some .firstInvoker,
          true⟩]) &&
        after.members.all fun member => member.role ≠ .owner || member.status = .left) = true := by
    decide
  simp only [Option.any_eq_true, Bool.and_eq_true, decide_eq_true_eq] at runs
  rcases runs with ⟨after, executed, conversations, left⟩
  refine ⟨after, (run_of_execute executed).mono fun _ _ _ => True.intro, by rw [conversations]; rfl,
    left, ?_⟩
  intro owned
  have ownedGroup := owned _ (conversations ▸ List.mem_singleton_self _) rfl
  obtain ⟨owner, ownedBy⟩ := ownedGroup.established rfl
  have isLeft := List.all_eq_true.mp left owner (List.mem_filter.mp ownedBy.isMember).1
  simp [ownedBy.isOwner, ownedBy.isActive] at isLeft

end DotBackend.Groups
