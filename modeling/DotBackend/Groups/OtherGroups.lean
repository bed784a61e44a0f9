import DotBackend.Groups.MemberChanges

/-!
# Writes about one group

A write changes the members, the apps and the memberships of one group; what holds of the
other groups holds of them after the write.
-/

namespace DotBackend.Groups

open Data Channel Apps

variable {successorId newOwnerId memberId : Uuid} {source : GroupOwnerSource}
  {departing : Option Uuid} {now : Instant} {conversation : Conversation}

/-- The members and apps of a conversation are as before. -/
structure SameGroup (db after : AppsDb) (conversationId : Uuid) : Prop where
  members : membersOf after conversationId = membersOf db conversationId
  apps : appsOf after conversationId = appsOf db conversationId
  memberships : ∀ app ∈ appsOf db conversationId, ∀ row : GeneratedAppMembership,
    row.appId = app.id → (row ∈ after.memberships ↔ row ∈ db.memberships)

section

variable {db middle after : AppsDb} {conversation stored : Conversation} {conversationId : Uuid}

theorem SameGroup.trans (first : SameGroup db middle conversationId)
    (second : SameGroup middle after conversationId) : SameGroup db after conversationId where
  members := second.members.trans first.members
  apps := second.apps.trans first.apps
  memberships := by
    intro app appMem row isOfApp
    have appMem' := appMem
    rw [← first.apps] at appMem'
    exact (second.memberships app appMem' row isOfApp).trans
      (first.memberships app appMem row isOfApp)

/-- A change of a member leaves other groups alone. -/
theorem MemberChange.sameGroup {change : Option ConversationMember} {new : ConversationMember}
    (keys : GroupKeys db) (changed : MemberChange db change new after)
    (isOther : new.conversationId ≠ conversationId) : SameGroup db after conversationId := by
  have memberships : after.memberships = db.memberships := by rw [changed.eq]
  have apps : after.apps = db.apps := by rw [changed.eq]
  refine ⟨?_, by rw [appsOf, appsOf, apps], fun _ _ _ _ => by rw [memberships]⟩
  cases changed with
  | insert _ _ =>
      rw [membersOf, List.filter_append, membersOf]
      simp [isOther]
  | @rewrite old _ oldMem _ sameConversation _ _ =>
      apply Table.filter_update_of_dropped
      intro row rowMem selected
      have isOld : row = old := keys.member_eq rowMem oldMem (beq_iff_eq.mp selected)
      rw [isOld, ← sameConversation]
      exact ⟨decide_eq_false isOther, decide_eq_false isOther⟩

/-- A transfer leaves other groups alone. -/
theorem sameGroup_writeTransfer (keys : GroupKeys db) (isOther : conversation.id ≠ conversationId) :
    SameGroup db (writeTransfer db conversation successorId newOwnerId source departing now)
      conversationId := by
  constructor
  · rw [membersOf, members_writeTransfer]
    apply Table.filter_update_of_dropped
    intro member _ selected
    have notOf : member.conversationId ≠ conversationId := beq_iff_eq.mp selected ▸ isOther
    exact ⟨decide_eq_false notOf, decide_eq_false notOf⟩
  · rw [appsOf, apps_writeTransfer]
    apply Table.filter_update_of_dropped
    intro app _ selected
    have notOf : app.conversationId ≠ conversationId := beq_iff_eq.mp selected ▸ isOther
    exact ⟨decide_eq_false notOf, decide_eq_false notOf⟩
  · intro app appMem row isOfApp
    have notOfGroup := keys.not_app_of_other isOther appMem
    rw [← isOfApp] at notOfGroup
    constructor
    · intro rowMem
      rcases mem_memberships_writeTransfer rowMem with ⟨_, wasMem⟩ | ⟨isOfGroup, _⟩
      · exact wasMem
      · exact absurd isOfGroup notOfGroup
    · exact other_mem_writeTransfer notOfGroup

/-- A revocation leaves other groups alone. -/
theorem sameGroup_unclaimed (keys : GroupKeys db) {departing : Uuid} {member : ConversationMember}
    (memberMem : member ∈ membersOf db conversation.id)
    (isOther : conversation.id ≠ conversationId) :
    SameGroup db (revokeUnclaimedGroupAppOwner (writeUnclaimed db conversation.id member.id)
      conversation.id departing now) conversationId := by
  obtain ⟨stored, isOf⟩ := List.mem_filter.mp memberMem
  constructor
  · rw [membersOf, revoke_keeps AppsDb.members fun _ _ => rfl]
    apply Table.filter_update_of_dropped
    intro row rowMem selected
    rw [keys.member_eq rowMem stored (beq_iff_eq.mp selected)]
    have notOf : member.conversationId ≠ conversationId := by
      rw [of_decide_eq_true isOf]
      exact isOther
    exact ⟨decide_eq_false notOf, decide_eq_false notOf⟩
  · rw [appsOf, revoke_keeps AppsDb.apps fun _ _ => rfl]
    rfl
  · intro app appMem row isOfApp
    have notOfGroup := keys.not_app_of_other isOther appMem
    rw [← isOfApp] at notOfGroup
    rw [mem_memberships_revoke]
    exact and_iff_left fun isOfGroup => absurd isOfGroup notOfGroup

/-- A claim of somebody who is not linked leaves other groups alone. -/
theorem sameGroup_writeUnlinkedClaim (isOther : conversation.id ≠ conversationId) :
    SameGroup db (writeUnlinkedClaim db conversation memberId source) conversationId := by
  refine ⟨?_, rfl, fun _ _ _ _ => Iff.rfl⟩
  apply Table.filter_update_of_dropped
  intro member _ selected
  have notOf : member.conversationId ≠ conversationId := beq_iff_eq.mp selected ▸ isOther
  exact ⟨decide_eq_false notOf, decide_eq_false notOf⟩

/-- A group is stored under its identifier before it is transferred. -/
theorem stored_of_writeTransfer {row : Conversation}
    (rowMem : row ∈ (writeTransfer db conversation successorId newOwnerId source departing
      now).conversations) :
    ∃ stored ∈ db.conversations, stored.id = row.id ∧ stored.kind = row.kind := by
  rw [conversations_writeTransfer] at rowMem
  rcases Table.mem_update_cases rowMem with ⟨old, oldMem, _, rfl⟩ | ⟨wasMem, _⟩
  · exact ⟨old, oldMem, rfl, rfl⟩
  · exact ⟨row, wasMem, rfl, rfl⟩

/-- A group is stored under its identifier before nobody owns it. -/
theorem stored_of_unclaimed {departing : Uuid} {row : Conversation}
    (rowMem : row ∈ (revokeUnclaimedGroupAppOwner (writeUnclaimed db conversationId memberId)
      conversationId departing now).conversations) :
    ∃ stored ∈ db.conversations, stored.id = row.id ∧ stored.kind = row.kind := by
  rw [revoke_keeps AppsDb.conversations fun _ _ => rfl] at rowMem
  rcases Table.mem_update_cases rowMem with ⟨old, oldMem, _, rfl⟩ | ⟨wasMem, _⟩
  · exact ⟨old, oldMem, rfl, rfl⟩
  · exact ⟨row, wasMem, rfl, rfl⟩

end

/-! ## What holds of every group -/

/-- A write leaves the other groups alone, and their conversations as they are. -/
structure WriteAbout (db after : AppsDb) (conversationId : Uuid) : Prop where
  others : ∀ other, conversationId ≠ other → SameGroup db after other
  conversations : ∀ row ∈ after.conversations, row.id ≠ conversationId →
    ∃ stored ∈ db.conversations, ownership row = ownership stored

section

variable {db middle after : AppsDb} {conversationId : Uuid} {now : Instant}

/-- What holds of every group, and of the group that is written. -/
theorem WriteAbout.each {Holds : AppsDb → Conversation → Prop}
    (about : WriteAbout db after conversationId)
    (frame : ∀ row stored, SameGroup db after row.id → ownership row = ownership stored →
      Holds db stored → Holds after row)
    (before : ∀ row ∈ db.conversations, row.kind = .group → Holds db row)
    (itself : ∀ row ∈ after.conversations, row.id = conversationId → row.kind = .group →
      Holds after row) : ∀ row ∈ after.conversations, row.kind = .group → Holds after row := by
  intro row rowMem isGroup
  by_cases isItself : row.id = conversationId
  · exact itself row rowMem isItself isGroup
  · obtain ⟨stored, storedMem, sameOwnership⟩ := about.conversations row rowMem isItself
    apply frame row stored (about.others row.id (Ne.symm isItself)) sameOwnership
    apply before stored storedMem
    simp only [ownership, Prod.mk.injEq] at sameOwnership
    rw [← sameOwnership.2.2.1]
    exact isGroup

/-- A change of a member, and a write about the same group. -/
theorem WriteAbout.after_memberChange {change : Option ConversationMember}
    {new : ConversationMember} (keys : GroupKeys db) (changed : MemberChange db change new middle)
    (ofGroup : new.conversationId = conversationId)
    (about : WriteAbout middle after conversationId) : WriteAbout db after conversationId where
  others := by
    intro other isOther
    exact (changed.sameGroup keys (ofGroup ▸ isOther)).trans (about.others other isOther)
  conversations := by
    have conversations : middle.conversations = db.conversations := by rw [changed.eq]
    rw [← conversations]
    exact about.conversations

/-- What holds of every group that exists, and of the one that is new. -/
theorem Prepares.each {Holds : AppsDb → Conversation → Prop} (prepared : Prepares db after)
    (frame : ∀ row stored, SameGroup db after row.id → ownership row = ownership stored →
      Holds db stored → Holds after row)
    (before : ∀ row ∈ db.conversations, row.kind = .group → Holds db row)
    (added : ∀ row ∈ after.conversations, row.id = db.nextId → Holds after row) :
    ∀ row ∈ after.conversations, row.kind = .group → Holds after row := by
  intro row rowMem isGroup
  by_cases isNew : row.id = db.nextId
  · exact added row rowMem isNew
  have same : SameGroup db after row.id := by
    cases prepared with
    | describe _ => exact ⟨rfl, rfl, fun _ _ _ _ => Iff.rfl⟩
    | openGroup _ _ => exact ⟨rfl, rfl, fun _ _ _ _ => Iff.rfl⟩
    | createGroup _ ofGroup _ _ _ _ =>
        refine ⟨?_, rfl, fun _ _ _ _ => Iff.rfl⟩
        rw [membersOf, List.filter_append, membersOf]
        simp [ofGroup, Ne.symm isNew]
  have old : ∃ stored ∈ db.conversations, ownership row = ownership stored := by
    cases prepared with
    | describe sameOwnerships =>
        have ownershipMem := List.mem_map_of_mem (f := ownership) rowMem
        rw [sameOwnerships] at ownershipMem
        obtain ⟨stored, storedMem, sameOwnership⟩ := List.mem_map.mp ownershipMem
        exact ⟨stored, storedMem, sameOwnership.symm⟩
    | openGroup newId _ =>
        rcases List.mem_append.mp rowMem with isOld | isAdded
        · exact ⟨row, isOld, rfl⟩
        · rw [List.mem_singleton.mp isAdded] at isNew
          exact absurd newId isNew
    | createGroup newId _ _ _ _ _ =>
        rcases List.mem_append.mp rowMem with isOld | isAdded
        · exact ⟨row, isOld, rfl⟩
        · rw [List.mem_singleton.mp isAdded] at isNew
          exact absurd newId isNew
  obtain ⟨stored, storedMem, sameOwnership⟩ := old
  apply frame row stored same sameOwnership
  apply before stored storedMem
  simp only [ownership, Prod.mk.injEq] at sameOwnership
  rw [← sameOwnership.2.2.1]
  exact isGroup

theorem writeAbout_transfer (keys : GroupKeys db)  :
    WriteAbout db (writeTransfer db conversation successorId newOwnerId source departing now)
      conversation.id where
  others := fun _ isOther => sameGroup_writeTransfer keys isOther
  conversations := by
    intro row rowMem isOther
    rw [conversations_writeTransfer] at rowMem
    exact ⟨row, stored_of_update rowMem (fun _ => rfl) isOther, rfl⟩

theorem writeAbout_unclaimed (keys : GroupKeys db) {member : ConversationMember} {departing : Uuid}
    (memberMem : member ∈ membersOf db conversation.id) :
    WriteAbout db (revokeUnclaimedGroupAppOwner (writeUnclaimed db conversation.id member.id)
      conversation.id departing now) conversation.id where
  others := fun _ isOther => sameGroup_unclaimed keys memberMem isOther
  conversations := by
    intro row rowMem isOther
    rw [revoke_keeps AppsDb.conversations fun _ _ => rfl] at rowMem
    exact ⟨row, stored_of_update rowMem (fun _ => rfl) isOther, rfl⟩

theorem writeAbout_unlinkedClaim :
    WriteAbout db (writeUnlinkedClaim db conversation memberId source) conversation.id where
  others := fun _ isOther => sameGroup_writeUnlinkedClaim isOther
  conversations := fun row rowMem isOther =>
    ⟨row, stored_of_update rowMem (fun _ => rfl) isOther, rfl⟩

/-- The removal of an owner is a change of the owner's row, and then a transfer or a
revocation. -/
theorem removal_eq_ok {participant : Participant}
    (isMember : participant.role = .member)
    (removes : (GroupWrite.removal conversation participant).apply now db = .ok after) :
    ∃ member joined,
      MemberChange db (db.members.find? (participant.isRowOf conversation.id)) member joined ∧
      (∀ old, db.members.find? (participant.isRowOf conversation.id) = some old →
        member = participant.writtenRow old) ∧
      member ∈ membersOf joined conversation.id ∧
      ((∃ successor newOwnerId, replacementOwner joined conversation.id member.id = some successor ∧
          lockedSuccessor joined conversation successor = .ok newOwnerId ∧
          after = writeTransfer joined conversation successor.id newOwnerId .transferred
            (some (departingOwner conversation member)) now) ∨
        replacementOwner joined conversation.id member.id = none ∧
          after = revokeUnclaimedGroupAppOwner (writeUnclaimed joined conversation.id member.id)
            conversation.id (departingOwner conversation member) now) := by
  simp only [GroupWrite.apply] at removes
  cases upserts : upsertGroupMember db conversation.id participant now with
  | error error =>
      rw [upserts] at removes
      cases removes
  | ok result =>
      obtain ⟨member, joined⟩ := result
      rw [upserts] at removes
      change removeOwner joined conversation member now = .ok after at removes
      have upserted := upsertGroupMember_eq_ok upserts
      refine ⟨member, joined, memberChange_of_upserted isMember upserted,
        fun old found => upserted.eq_writtenRow found, upserted.mem, ?_⟩
      unfold removeOwner at removes
      split at removes
      · rename_i replacement replaced
        obtain ⟨newOwnerId, locked, rfl⟩ := transferGroupOwnership_eq_ok removes
        exact Or.inl ⟨replacement, newOwnerId, replaced, locked, rfl⟩
      · rename_i notReplaced
        cases removes
        exact Or.inr ⟨notReplaced, rfl⟩

end

end DotBackend.Groups
