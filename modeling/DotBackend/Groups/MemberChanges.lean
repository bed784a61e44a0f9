import DotBackend.Groups.Calls

/-!
# Changes of one member

A participant of a chat, somebody who joins and somebody who leaves change the row of one
member. The keys of the tables hold after every write.
-/

namespace DotBackend.Groups

open Data Channel Apps

variable {old : ConversationMember} {conversationId : Uuid} {now : Instant} {db : AppsDb}
  {conversation : Conversation}

/-- The row of one member is inserted, or written over. -/
inductive MemberChange (db : AppsDb) :
    Option ConversationMember → ConversationMember → AppsDb → Prop
  | insert {member : ConversationMember} {invites : List ConversationInvite} :
      member.role = .member → acceptsMember db member = true →
      MemberChange db none member { db with
        members := db.members ++ [member]
        invites := invites
        nextId := db.nextId + 1 }
  | rewrite {old new : ConversationMember} : old ∈ db.members → new.id = old.id →
      new.conversationId = old.conversationId → new.role = old.role →
      MembersValid (Table.update (fun row => row.id == old.id) (fun _ => new) db.members) →
      MemberChange db (some old) new { db with
        members := Table.update (fun row => row.id == old.id) (fun _ => new) db.members }

namespace MemberChange

variable {db after : AppsDb} {change : Option ConversationMember} {new : ConversationMember}

theorem valid (changed : MemberChange db change new after) : MembersValid after.members := by
  cases changed with
  | insert _ accepted => exact of_decide_eq_true (Bool.and_eq_true_iff.mp accepted).2
  | rewrite _ _ _ _ valid => exact valid

/-- Only members, invites and the supply of identifiers change. -/
theorem eq (changed : MemberChange db change new after) :
    after = { db with
      members := after.members
      invites := after.invites
      nextId := after.nextId } := by
  cases changed <;> rfl

theorem new_mem (changed : MemberChange db change new after) : new ∈ after.members := by
  cases changed with
  | insert _ _ => exact List.mem_append_right _ (List.mem_singleton_self new)
  | @rewrite old _ oldMem _ _ _ _ =>
      apply Table.mem_update.mpr
      exact ⟨old, oldMem, if_pos (beq_self_eq_true old.id)⟩

/-- A row after the change is the new one or another one. -/
theorem mem_cases (changed : MemberChange db change new after) {member : ConversationMember}
    (memberMem : member ∈ after.members) :
    member = new ∨ member ∈ db.members ∧ ∀ old, change = some old → member.id ≠ old.id := by
  cases changed with
  | insert _ _ =>
      rcases List.mem_append.mp memberMem with isOld | isNew
      · apply Or.inr
        exact ⟨isOld, fun old isSome => absurd isSome.symm (Option.some_ne_none old)⟩
      · exact Or.inl (List.mem_singleton.mp isNew)
  | rewrite _ _ _ _ _ =>
      rcases Table.mem_update_cases memberMem with ⟨_, _, _, isNew⟩ | ⟨isOld, notSelected⟩
      · exact Or.inl isNew
      · apply Or.inr
        refine ⟨isOld, ?_⟩
        intro old isSome
        cases isSome
        exact of_decide_eq_false notSelected

/-- The other rows stay. -/
theorem keeps (changed : MemberChange db change new after) {member : ConversationMember}
    (memberMem : member ∈ db.members) (isOther : ∀ old, change = some old → member.id ≠ old.id) :
    member ∈ after.members := by
  cases changed with
  | insert _ _ => exact List.mem_append_left _ memberMem
  | @rewrite old _ _ _ _ _ _ =>
      apply Table.mem_update.mpr
      refine ⟨member, memberMem, if_neg ?_⟩
      rw [beq_iff_eq]
      exact isOther old rfl

/-- The new row is of the conversation of the old one. -/
theorem same_conversation (changed : MemberChange db change new after) (isOld : change = some old) :
    new.id = old.id ∧ new.conversationId = old.conversationId ∧
      new.role = old.role ∧ old ∈ db.members := by
  cases changed with
  | insert _ _ => cases isOld
  | rewrite oldMem sameId sameConversation sameRole _ =>
      cases isOld
      exact ⟨sameId, sameConversation, sameRole, oldMem⟩

/-- An inserted row is no owner. -/
theorem not_owner (changed : MemberChange db none new after) : new.role = .member := by
  cases changed with
  | insert isMember _ => exact isMember

end MemberChange

/-- Every participant of a chat is a member, and not the owner. -/
theorem role_eventParticipant (directory : Directory) (removed : Bool) (data : Fields)
    (handle : String) : (eventParticipant directory removed data handle).role = .member :=
  rfl

theorem memberChange_of_upserted {participant : Participant} {after : AppsDb}
    {member : ConversationMember} (isMember : participant.role = .member)
    (upserted : Upserted conversationId participant now db member after) :
    MemberChange db (db.members.find? (participant.isRowOf conversationId)) member after := by
  cases upserted with
  | inserted notFound accepted =>
      rw [notFound]
      exact MemberChange.insert isMember accepted
  | @written old found valid =>
      rw [found]
      have sameRole : (participant.writtenRow old).role = old.role := by
        simp [Participant.writtenRow, isMember]
      exact MemberChange.rewrite (List.mem_of_find?_eq_some found) rfl rfl sameRole valid

/-- The row that a participant had is written over. -/
theorem Upserted.eq_writtenRow {participant : Participant} {after : AppsDb}
    {member : ConversationMember}
    (upserted : Upserted conversationId participant now db member after)
    (found : db.members.find? (participant.isRowOf conversationId) = some old) :
    member = participant.writtenRow old := by
  cases upserted with
  | inserted notFound _ => cases notFound.symm.trans found
  | written foundToo _ =>
      cases foundToo.symm.trans found
      rfl

theorem memberChange_of_writeJoin {invite : ConversationInvite} {user : User} {handle : String}
    {after : AppsDb} (joins : writeJoin db invite user handle now = .ok after) :
    ∃ new, MemberChange db (db.members.find? (isJoining invite.conversationId user.id handle)) new
      after ∧ new.status = .active ∧ new.userId = some user.id ∧
        ∀ old, db.members.find? (isJoining invite.conversationId user.id handle) = some old →
          new = rejoinedRow user old := by
  unfold writeJoin at joins
  split at joins
  · rename_i notFound
    simp only [bind_eq_ok, require_eq_ok, pure_eq_ok] at joins
    rcases joins with ⟨_, accepted, rfl⟩
    rw [notFound]
    exact ⟨_, MemberChange.insert rfl accepted, rfl, rfl, by rintro old ⟨⟩⟩
  · rename_i old found
    simp only [bind_eq_ok, require_eq_ok, decide_eq_true_eq, pure_eq_ok] at joins
    rcases joins with ⟨_, valid, rfl⟩
    rw [found]
    exact ⟨rejoinedRow user old,
      MemberChange.rewrite (List.mem_of_find?_eq_some found) rfl rfl rfl valid, rfl, rfl,
      fun other same => by rw [Option.some.inj same]⟩

/-- A row is written over without a change of its keys. -/
theorem membersValid_update {members : List ConversationMember} {new : ConversationMember}
    (valid : MembersValid members) (oldMem : old ∈ members) (sameId : new.id = old.id)
    (sameConversation : new.conversationId = old.conversationId)
    (sameHandle : new.externalHandle = old.externalHandle) (sameUser : new.userId = old.userId) :
    MembersValid (Table.update (fun row => row.id == old.id) (fun _ => new) members) := by
  have isOld : ∀ row ∈ members, (row.id == old.id) = true → row = old := by
    intro row rowMem selected
    apply valid.id.eq_of_mem rowMem oldMem rfl
    rw [beq_iff_eq.mp selected]
  constructor
  · apply valid.id.rewrite
    intro row rowMem selected
    rw [isOld row rowMem selected, sameId]
  · apply valid.handle.rewrite
    intro row rowMem selected
    rw [isOld row rowMem selected, sameConversation, sameHandle]
  · apply valid.user.rewrite
    intro row rowMem selected
    rw [isOld row rowMem selected, sameConversation, sameUser]

/-- Whoever leaves is not the owner. -/
theorem memberChange_of_leaveWebGroup {userId : Uuid} {after : AppsDb}
    (valid : MembersValid db.members)
    (leaves : leaveWebGroup db conversationId userId now = .ok after) :
    ∃ old, old ∈ db.members ∧ old.conversationId = conversationId ∧ old.userId = some userId ∧
      old.role = .member ∧ MemberChange db (some old) (leftRow now old) after := by
  simp only [leaveWebGroup, bind_eq_ok, require_eq_ok] at leaves
  rcases leaves with ⟨_, _, _, _, leaves⟩
  split at leaves
  · cases leaves
  · rename_i old found
    simp only [bind_eq_ok, require_eq_ok, pure_eq_ok, decide_eq_true_eq] at leaves
    rcases leaves with ⟨_, notOwner, rfl⟩
    obtain ⟨oldMem, isOf⟩ := List.mem_filter.mp (List.mem_of_find?_eq_some found)
    have isUser := List.find?_some found
    rw [decide_eq_true_eq] at isOf isUser
    refine ⟨old, oldMem, isOf, isUser, ?_, ?_⟩
    · cases isRole : old.role with
      | owner => exact absurd isRole notOwner
      | member => rfl
    · exact MemberChange.rewrite oldMem rfl rfl rfl
        (membersValid_update valid oldMem rfl rfl rfl rfl)

/-! ## Keys -/

/-- The keys of groups, their members and their apps; identifiers that are drawn are new. -/
structure GroupKeys (db : AppsDb) : Prop where
  members : MembersValid db.members
  conversations : (db.conversations.map (·.id)).Nodup
  apps : (db.apps.map (·.id)).Nodup
  conversation_lt : ∀ conversation ∈ db.conversations, conversation.id < db.nextId
  member_lt : ∀ member ∈ db.members, member.conversationId < db.nextId
  app_lt : ∀ app ∈ db.apps, app.conversationId < db.nextId

theorem mem_of_conversation? {id : Uuid} (found : db.conversation? id = some conversation) :
    conversation ∈ db.conversations ∧ conversation.id = id := by
  have sameId := List.find?_some found
  rw [decide_eq_true_eq] at sameId
  exact ⟨List.mem_of_find?_eq_some found, sameId⟩

namespace GroupKeys

variable {db after : AppsDb}

theorem conversation_eq (keys : GroupKeys db) {a b : Conversation} (aMem : a ∈ db.conversations)
    (bMem : b ∈ db.conversations) (sameId : a.id = b.id) : a = b :=
  List.inj_on_of_nodup_map keys.conversations aMem bMem sameId

theorem conversation?_eq (keys : GroupKeys db) (stored : conversation ∈ db.conversations) :
    db.conversation? conversation.id = some conversation := by
  cases found : db.conversation? conversation.id with
  | none =>
      have notFound := List.find?_eq_none.mp found conversation stored
      exact absurd (decide_eq_true rfl) notFound
  | some other =>
      obtain ⟨otherMem, sameId⟩ := mem_of_conversation? found
      rw [keys.conversation_eq otherMem stored sameId]

theorem member_eq (keys : GroupKeys db) {a b : ConversationMember} (aMem : a ∈ db.members)
    (bMem : b ∈ db.members) (sameId : a.id = b.id) : a = b :=
  keys.members.id.eq_of_mem aMem bMem rfl (by rw [sameId])

theorem app_eq (keys : GroupKeys db) {a b : GeneratedApp} (aMem : a ∈ db.apps) (bMem : b ∈ db.apps)
    (sameId : a.id = b.id) : a = b :=
  List.inj_on_of_nodup_map keys.apps aMem bMem sameId

/-- An app belongs to one group. -/
theorem not_app_of_other (keys : GroupKeys db) {other : Uuid} {app : GeneratedApp}
    (isOther : conversationId ≠ other) (appMem : app ∈ appsOf db other) :
    app.id ∉ (appsOf db conversationId).map (·.id) := by
  intro idMem
  obtain ⟨same, sameMem, sameId⟩ := List.mem_map.mp idMem
  obtain ⟨sameStored, isOf⟩ := List.mem_filter.mp sameMem
  obtain ⟨stored, isOfOther⟩ := List.mem_filter.mp appMem
  rw [keys.app_eq sameStored stored sameId, decide_eq_true_eq] at isOf
  exact isOther (isOf.symm.trans (of_decide_eq_true isOfOther))

theorem memberChange (keys : GroupKeys db) {change : Option ConversationMember}
    {new : ConversationMember} (changed : MemberChange db change new after) :
    GroupKeys after := by
  have valid := changed.valid
  cases changed with
  | insert _ accepted =>
      have stored := (Bool.and_eq_true_iff.mp accepted).1
      obtain ⟨conversation, found⟩ := Option.isSome_iff_exists.mp stored
      obtain ⟨conversationMem, sameId⟩ := mem_of_conversation? found
      refine ⟨valid, keys.conversations, keys.apps, ?_, ?_, ?_⟩
      · intro row rowMem
        exact Nat.lt_succ_of_lt (keys.conversation_lt row rowMem)
      · intro member memberMem
        apply Nat.lt_succ_of_lt
        rcases List.mem_append.mp memberMem with isOld | isNew
        · exact keys.member_lt member isOld
        · rw [List.mem_singleton.mp isNew, ← sameId]
          exact keys.conversation_lt conversation conversationMem
      · intro app appMem
        exact Nat.lt_succ_of_lt (keys.app_lt app appMem)
  | @rewrite old new oldMem _ sameConversation _ _ =>
      refine ⟨valid, keys.conversations, keys.apps, keys.conversation_lt, ?_, keys.app_lt⟩
      intro member memberMem
      rcases Table.mem_update_cases memberMem with ⟨_, _, _, isNew⟩ | ⟨isOld, _⟩
      · rw [isNew]
        rw [sameConversation]
        exact keys.member_lt old oldMem
      · exact keys.member_lt member isOld

/-- A change that keeps the keys of all rows. -/
theorem of_maps (keys : GroupKeys db) (valid : MembersValid after.members)
    (conversations : after.conversations.map (·.id) = db.conversations.map (·.id))
    (members : after.members.map (·.conversationId) = db.members.map (·.conversationId))
    (apps : after.apps.map (fun app => (app.id, app.conversationId)) =
      db.apps.map fun app => (app.id, app.conversationId))
    (supply : db.nextId ≤ after.nextId) : GroupKeys after where
  members := valid
  conversations := by
    rw [conversations]
    exact keys.conversations
  apps := by
    have same := congrArg (List.map Prod.fst) apps
    rw [List.map_map, List.map_map] at same
    exact Eq.mpr (congrArg List.Nodup same) keys.apps
  conversation_lt := by
    intro conversation conversationMem
    have idMem := List.mem_map_of_mem (f := (·.id)) conversationMem
    rw [conversations] at idMem
    obtain ⟨old, oldMem, sameId⟩ := List.mem_map.mp idMem
    rw [← sameId]
    exact lt_of_lt_of_le (keys.conversation_lt old oldMem) supply
  member_lt := by
    intro member memberMem
    have idMem := List.mem_map_of_mem (f := (·.conversationId)) memberMem
    rw [members] at idMem
    obtain ⟨old, oldMem, sameId⟩ := List.mem_map.mp idMem
    rw [← sameId]
    exact lt_of_lt_of_le (keys.member_lt old oldMem) supply
  app_lt := by
    intro app appMem
    have idMem := List.mem_map_of_mem (f := fun app => (app.id, app.conversationId)) appMem
    rw [apps] at idMem
    obtain ⟨old, oldMem, sameId⟩ := List.mem_map.mp idMem
    rw [← (Prod.mk.inj sameId).2]
    exact lt_of_lt_of_le (keys.app_lt old oldMem) supply

end GroupKeys

/-- A row with another identifier than the one that is updated. -/
theorem stored_of_update {conversations : List Conversation} {row : Conversation} {id : Uuid}
    {change : Conversation → Conversation}
    (rowMem : row ∈ Table.update (fun other => other.id == id) change conversations)
    (keeps : ∀ other, (change other).id = other.id) (isOther : row.id ≠ id) :
    row ∈ conversations := by
  rcases Table.mem_update_cases rowMem with ⟨old, _, selected, rfl⟩ | ⟨wasMem, _⟩
  · rw [keeps] at isOther
    exact absurd (beq_iff_eq.mp selected) isOther
  · exact wasMem

theorem map_id_of_ownership {before after : List Conversation}
    (same : after.map ownership = before.map ownership) :
    after.map (·.id) = before.map (·.id) := by
  have ids := congrArg (List.map Prod.fst) same
  rw [List.map_map, List.map_map] at ids
  exact ids

/-- A role or another column that is not a key is written. -/
theorem membersValid_of_keeps {members : List ConversationMember}
    {condition : ConversationMember → Bool} {change : ConversationMember → ConversationMember}
    (valid : MembersValid members)
    (keeps : ∀ member, (change member).id = member.id ∧
      (change member).conversationId = member.conversationId ∧
      (change member).externalHandle = member.externalHandle ∧
      (change member).userId = member.userId) :
    MembersValid (Table.update condition change members) := by
  constructor
  · apply valid.id.rewrite
    intro row _ _
    rw [(keeps row).1]
  · apply valid.handle.rewrite
    intro row _ _
    rw [(keeps row).2.1, (keeps row).2.2.1]
  · apply valid.user.rewrite
    intro row _ _
    rw [(keeps row).2.1, (keeps row).2.2.2]

namespace GroupKeys

variable {db after : AppsDb} {now : Instant}

theorem transfer (keys : GroupKeys db) {successorId newOwnerId : Uuid}
    {source : GroupOwnerSource} {departing : Option Uuid} :
    GroupKeys (writeTransfer db conversation successorId newOwnerId source departing now) := by
  apply keys.of_maps
  · rw [members_writeTransfer]
    exact membersValid_of_keeps keys.members fun _ => ⟨rfl, rfl, rfl, rfl⟩
  · rw [conversations_writeTransfer]
    apply Table.map_update_of_keeps
    intro row
    rfl
  · rw [members_writeTransfer]
    apply Table.map_update_of_keeps
    intro row
    rfl
  · rw [apps_writeTransfer]
    apply Table.map_update_of_keeps
    intro row
    rfl
  · have supply : (writeTransfer db conversation successorId newOwnerId source departing now).nextId =
        db.nextId := transferAccess_keeps AppsDb.nextId (fun _ _ => rfl) _ _
    rw [supply]

theorem unlinkedClaim (keys : GroupKeys db) {memberId : Uuid}
    {source : GroupOwnerSource} : GroupKeys (writeUnlinkedClaim db conversation memberId source) := by
  unfold writeUnlinkedClaim
  apply keys.of_maps
  · exact membersValid_of_keeps keys.members fun _ => ⟨rfl, rfl, rfl, rfl⟩
  · apply Table.map_update_of_keeps
    intro row
    rfl
  · apply Table.map_update_of_keeps
    intro row
    rfl
  · rfl
  · exact le_refl _

theorem unclaimed (keys : GroupKeys db) {memberId departing : Uuid} :
    GroupKeys (revokeUnclaimedGroupAppOwner (writeUnclaimed db conversationId memberId)
      conversationId departing now) := by
  have kept {α : Type} (project : AppsDb → α)
      (keeps : ∀ db appId, project (revokeAppOwner departing now db appId) = project db)
      (db : AppsDb) : project (revokeUnclaimedGroupAppOwner db conversationId departing now) =
        project db := revoke_keeps project keeps _ db
  apply keys.of_maps
  · rw [kept AppsDb.members fun _ _ => rfl]
    exact membersValid_of_keeps keys.members fun _ => ⟨rfl, rfl, rfl, rfl⟩
  · rw [kept AppsDb.conversations fun _ _ => rfl]
    apply Table.map_update_of_keeps
    intro row
    rfl
  · rw [kept AppsDb.members fun _ _ => rfl]
    apply Table.map_update_of_keeps
    intro row
    rfl
  · rw [kept AppsDb.apps fun _ _ => rfl]
    rfl
  · rw [kept AppsDb.nextId fun _ _ => rfl]
    exact le_refl _

/-- An identifier that was drawn is new. -/
theorem nodup_conversations_append (keys : GroupKeys db) (isNew : conversation.id = db.nextId) :
    ((db.conversations ++ [conversation]).map (·.id)).Nodup := by
  rw [List.map_append, List.nodup_append]
  refine ⟨keys.conversations, List.nodup_singleton _, ?_⟩
  intro id idMem other otherMem
  obtain ⟨old, oldMem, rfl⟩ := List.mem_map.mp idMem
  rw [List.mem_singleton.mp otherMem]
  change old.id ≠ conversation.id
  rw [isNew]
  exact Nat.ne_of_lt (keys.conversation_lt old oldMem)

theorem prepares (keys : GroupKeys db) (prepared : Prepares db after) : GroupKeys after := by
  cases prepared with
  | describe same =>
      exact keys.of_maps keys.members (map_id_of_ownership same) rfl rfl (le_refl _)
  | openGroup isNew _ =>
      refine ⟨keys.members, keys.nodup_conversations_append isNew, keys.apps, ?_, ?_, ?_⟩
      · intro row rowMem
        rcases List.mem_append.mp rowMem with isOld | isAdded
        · exact Nat.lt_add_right 2 (keys.conversation_lt row isOld)
        · rw [List.mem_singleton.mp isAdded, isNew]
          exact Nat.lt_add_of_pos_right Nat.two_pos
      · intro member memberMem
        exact Nat.lt_add_right 2 (keys.member_lt member memberMem)
      · intro app appMem
        exact Nat.lt_add_right 2 (keys.app_lt app appMem)
  | createGroup isNew ofGroup _ _ _ valid =>
      refine ⟨valid, keys.nodup_conversations_append isNew, keys.apps, ?_, ?_, ?_⟩
      · intro row rowMem
        rcases List.mem_append.mp rowMem with isOld | isAdded
        · exact Nat.lt_add_right 3 (keys.conversation_lt row isOld)
        · rw [List.mem_singleton.mp isAdded, isNew]
          exact Nat.lt_add_of_pos_right (Nat.succ_pos 2)
      · intro member memberMem
        rcases List.mem_append.mp memberMem with isOld | isAdded
        · exact Nat.lt_add_right 3 (keys.member_lt member isOld)
        · rw [List.mem_singleton.mp isAdded, ofGroup]
          exact Nat.lt_add_of_pos_right (Nat.succ_pos 2)
      · intro app appMem
        exact Nat.lt_add_right 3 (keys.app_lt app appMem)

end GroupKeys

end DotBackend.Groups
