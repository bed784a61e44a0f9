import DotBackend.Groups.Participants
import DotBackend.Transition.Run

/-!
# Calls on groups

The calls that change the members and owners of groups. Each is a sequence of a few kinds of
writes; what every write keeps, every call keeps.
-/

namespace DotBackend.Groups

open Data Channel Apps Transition

variable {chatData : Fields} {conversation : Conversation} {db : AppsDb} {directory : Directory}
  {conversationId : Uuid}

inductive GroupCall
  | createWebGroup (owner : User) (title : String)
  | resolveLinqGroupConversation (externalChatId : String) (sender : User)
      (service senderHandle : Option String) (chatData : Option Fields) (claimOwner : Bool)
  | syncLinqGroupParticipants (conversationId : Uuid) (chatData : Fields)
  | applyLinqGroupEvent (eventType : String) (data : Fields)
  | claimGroupOwner (conversationId memberId : Uuid) (source : GroupOwnerSource)
  | transferGroupOwnership (conversationId memberId : Uuid) (source : GroupOwnerSource)
      (departing : Option Uuid)
  | joinGroupFromInvite (token : String) (user : User)
  | leaveWebGroup (conversationId userId : Uuid)

/-- A call, with what it reads from outside the tables of groups. -/
structure GroupStep where
  directory : Directory
  now : Instant
  call : GroupCall

/-- A member takes a group over, as both are stored. -/
def transferStored (db : AppsDb) (conversationId memberId : Uuid) (source : GroupOwnerSource)
    (departing : Option Uuid) (now : Instant) : Except GroupError AppsDb :=
  match db.conversation? conversationId,
    (membersOf db conversationId).find? fun member => member.id = memberId with
  | some conversation, some member =>
      transferGroupOwnership db conversation member source departing now
  | _, _ => .error (.notFound "Group conversation was not found")

/-- The participants of a chat are listed for a conversation that is stored. -/
def syncStored (directory : Directory) (db : AppsDb) (conversationId : Uuid) (chatData : Fields)
    (now : Instant) : Except GroupError AppsDb :=
  if (db.conversation? conversationId).isSome then
    syncLinqGroupParticipants directory db conversationId chatData now
  else .error (.notFound "Group conversation was not found")

/-- A call whose transaction commits. -/
def perform (db : AppsDb) (step : GroupStep) : Except GroupError AppsDb :=
  match step.call with
  | .createWebGroup owner title =>
      (createWebGroup step.directory db owner title step.now).map Prod.snd
  | .resolveLinqGroupConversation chatId sender service senderHandle chatData claimOwner =>
      (resolveLinqGroupConversation step.directory db chatId sender service senderHandle chatData
        claimOwner step.now).map fun result => result.2.2.2
  | .syncLinqGroupParticipants conversationId chatData =>
      syncStored step.directory db conversationId chatData step.now
  | .applyLinqGroupEvent eventType data =>
      (applyLinqGroupEvent step.directory db eventType data step.now).map Prod.snd
  | .claimGroupOwner conversationId memberId source =>
      (claimStored db conversationId memberId source step.now).map Prod.snd
  | .transferGroupOwnership conversationId memberId source departing =>
      transferStored db conversationId memberId source departing step.now
  | .joinGroupFromInvite token user =>
      (joinGroupFromInvite step.directory db token user step.now).map Prod.snd
  | .leaveWebGroup conversationId userId => leaveWebGroup db conversationId userId step.now

/-- One committed call. -/
def groupStep (db : AppsDb) (step : GroupStep) : Option AppsDb :=
  (perform db step).toOption

/-! ## Writes -/

inductive GroupWrite
  /-- A participant who is in a group. -/
  | upsert (conversationId : Uuid) (participant : Participant)
  /-- The owner who is removed from a group. -/
  | removal (conversation : Conversation) (participant : Participant)
  /-- A linked member who becomes owner. -/
  | transfer (conversation : Conversation) (successor : ConversationMember)
      (source : GroupOwnerSource) (departing : Option Uuid)
  /-- A member without a user who becomes owner. -/
  | claim (conversation : Conversation) (memberId : Uuid) (source : GroupOwnerSource)
  | join (invite : ConversationInvite) (user : User) (handle : String)
  | leave (conversationId userId : Uuid)

/-- What a write does. -/
def GroupWrite.apply (now : Instant) (db : AppsDb) : GroupWrite → Except GroupError AppsDb
  | .upsert conversationId participant =>
      (upsertGroupMember db conversationId participant now).map Prod.snd
  | .removal conversation participant =>
      (upsertGroupMember db conversation.id participant now).bind fun (member, after) =>
        removeOwner after conversation member now
  | .transfer conversation successor source departing =>
      transferGroupOwnership db conversation successor source departing now
  | .claim conversation memberId source => .ok (writeUnlinkedClaim db conversation memberId source)
  | .join invite user handle => writeJoin db invite user handle now
  | .leave conversationId userId => leaveWebGroup db conversationId userId now

/-- The participant's row is the one of an owner. -/
def isOwnerRow (db : AppsDb) (conversationId : Uuid) (participant : Participant) : Bool :=
  (db.members.find? (participant.isRowOf conversationId)).any fun member => member.role = .owner

/-- The write of an event about a participant. -/
def participantWrite (db : AppsDb) (conversation : Conversation) (removed : Bool)
    (participant : Participant) : GroupWrite :=
  if removed && isOwnerRow db conversation.id participant then .removal conversation participant
  else .upsert conversation.id participant

/-- The writes of a list of participants, each with the state it finds. -/
def syncWrites (conversationId : Uuid) (now : Instant) :
    List Participant → AppsDb → List (AppsDb × GroupWrite)
  | [], _ => []
  | participant :: rest, db =>
      (db, .upsert conversationId participant) ::
        match upsertGroupMember db conversationId participant now with
        | .ok (_, after) => syncWrites conversationId now rest after
        | .error _ => []

/-- The write of a claim. -/
def claimWrites (db : AppsDb) (conversationId memberId : Uuid) (source : GroupOwnerSource) :
    List (AppsDb × GroupWrite) :=
  match db.conversation? conversationId,
    (membersOf db conversationId).find? fun member => member.id = memberId with
  | some conversation, some member =>
      if claimable conversation.groupOwnerSource then
        if member.userId.isSome then [(db, .transfer conversation member source none)]
        else [(db, .claim conversation member.id source)]
      else []
  | _, _ => []

/-- The writes of `resolve_linq_group_conversation` after its group is opened. -/
def resolveWrites (directory : Directory) (opened : AppsDb) (conversationId : Uuid)
    (sender : Participant) (chatData : Fields) (claimOwner : Bool) (now : Instant) :
    List (AppsDb × GroupWrite) :=
  (opened, .upsert conversationId sender) ::
    match upsertGroupMember opened conversationId sender now with
    | .error _ => []
    | .ok (member, joined) =>
        (if chatData.isEmpty then []
          else syncWrites conversationId now (listedParticipants directory chatData) joined) ++
        match syncChatData directory joined conversationId chatData now with
        | .error _ => []
        | .ok synced =>
            if claimOwner then claimWrites synced conversationId member.id .firstInvoker else []

/-- The writes of a call, each with the state it finds. -/
def writesOf (db : AppsDb) (step : GroupStep) : List (AppsDb × GroupWrite) :=
  match step.call with
  | .createWebGroup _ _ => []
  | .resolveLinqGroupConversation chatId sender service senderHandle chatData claimOwner =>
      match openLinqGroup db chatId sender service chatData with
      | .error _ => []
      | .ok (conversation, _, _, opened) =>
          resolveWrites step.directory opened conversation.id
            (senderParticipant step.directory sender service senderHandle) (chatData.getD [])
            claimOwner step.now
  | .syncLinqGroupParticipants conversationId chatData =>
      syncWrites conversationId step.now (listedParticipants step.directory chatData) db
  | .applyLinqGroupEvent eventType data =>
      if eventType ≠ "participant.added" ∧ eventType ≠ "participant.removed" ∨
          Json.lookup (participantDetails data) "is_me" = some (.bool true) then []
      else
        match (eventChatId data).bind (linqGroup db),
          textOf (orElse (Json.lookup (participantDetails data) "handle")
            (Json.lookup data "handle")) with
        | some (_, conversation), some handle =>
            [(db, participantWrite db conversation (eventType = "participant.removed")
              (eventParticipant step.directory (eventType = "participant.removed") data handle))]
        | _, _ => []
  | .claimGroupOwner conversationId memberId source =>
      claimWrites db conversationId memberId source
  | .transferGroupOwnership conversationId memberId source departing =>
      match db.conversation? conversationId,
        (membersOf db conversationId).find? fun member => member.id = memberId with
      | some conversation, some member => [(db, .transfer conversation member source departing)]
      | _, _ => []
  | .joinGroupFromInvite token user =>
      match (db.invites.find? fun invite => invite.tokenHash = sha256 token.toList) with
      | none => []
      | some invite => [(db, .join invite user (step.directory.primaryHandle user))]
  | .leaveWebGroup conversationId userId => [(db, .leave conversationId userId)]

/-- Every write of a call satisfies a condition on the state that it finds. -/
def everyWrite (allowed : AppsDb → GroupWrite → Bool) (db : AppsDb) (step : GroupStep) : Bool :=
  (writesOf db step).all fun entry => allowed entry.1 entry.2

/-! ## Calls as sequences of writes -/

/-- The columns of a conversation that say who owns it. -/
def ownership (conversation : Conversation) :
    Uuid × Uuid × ConversationKind × Option GroupOwnerSource :=
  (conversation.id, conversation.userId, conversation.kind, conversation.groupOwnerSource)

/-- The writes that do not touch the members and owners of a group that exists. -/
inductive Prepares (db : AppsDb) : AppsDb → Prop
  | describe {conversations : List Conversation} {channels : List ConversationChannel} :
      conversations.map ownership = db.conversations.map ownership →
      Prepares db { db with conversations := conversations, channels := channels }
  | openGroup {conversation : Conversation} {channel : ConversationChannel} :
      conversation.id = db.nextId → conversation.groupOwnerSource = some .unclaimed →
      Prepares db { db with
        conversations := db.conversations ++ [conversation]
        channels := db.channels ++ [channel]
        nextId := db.nextId + 2 }
  | createGroup {conversation : Conversation} {channel : ConversationChannel}
      {member : ConversationMember} :
      conversation.id = db.nextId → member.conversationId = db.nextId → member.role = .owner →
      member.status = .active → member.userId = some conversation.userId →
      MembersValid (db.members ++ [member]) →
      Prepares db { db with
        conversations := db.conversations ++ [conversation]
        members := db.members ++ [member]
        channels := db.channels ++ [channel]
        nextId := db.nextId + 3 }

/-- A sequence of writes, each of which satisfies a condition on the state that it finds. -/
inductive Performs (now : Instant) (allowed : AppsDb → GroupWrite → Prop) : AppsDb → AppsDb → Prop
  | done {db : AppsDb} : Performs now allowed db db
  | prepare {db middle after : AppsDb} : Prepares db middle → Performs now allowed middle after →
      Performs now allowed db after
  | write {db middle after : AppsDb} {write : GroupWrite} : allowed db write →
      write.apply now db = .ok middle → Performs now allowed middle after →
      Performs now allowed db after

namespace Performs

variable {now : Instant} {allowed weaker : AppsDb → GroupWrite → Prop} {db middle after : AppsDb}

theorem mono (weakens : ∀ found write, allowed found write → weaker found write)
    (performs : Performs now allowed db after) : Performs now weaker db after := by
  induction performs with
  | done => exact Performs.done
  | prepare prepares _ ih => exact Performs.prepare prepares ih
  | write isAllowed applies _ ih =>
      exact Performs.write (weakens _ _ isAllowed) applies ih

theorem trans (first : Performs now allowed db middle) (second : Performs now allowed middle after) :
    Performs now allowed db after := by
  induction first with
  | done => exact second
  | prepare prepares _ ih =>
      exact Performs.prepare prepares (ih second)
  | write isAllowed applies _ ih =>
      exact Performs.write isAllowed applies (ih second)

/-- What every write keeps. -/
theorem invariant (Invariant : AppsDb → Prop)
    (prepared : ∀ db after, Invariant db → Prepares db after → Invariant after)
    (written : ∀ db write after, Invariant db → allowed db write → write.apply now db = .ok after →
      Invariant after)
    (performs : Performs now allowed db after) (initially : Invariant db) : Invariant after := by
  induction performs with
  | done => exact initially
  | prepare prepares _ ih =>
      exact ih (prepared _ _ initially prepares)
  | write isAllowed applies _ ih =>
      exact ih (written _ _ _ initially isAllowed applies)

/-- A write that is listed first. -/
theorem cons {write : GroupWrite} {later : List (AppsDb × GroupWrite)}
    (applies : write.apply now db = .ok middle)
    (performs : Performs now (fun found write => (found, write) ∈ later) middle after) :
    Performs now (fun found write' => (found, write') ∈ (db, write) :: later) db after := by
  apply Performs.write _ applies
  · exact performs.mono fun found write isLater => List.mem_cons_of_mem _ isLater
  · exact List.mem_cons_self

end Performs

section

variable {directory : Directory} {now : Instant} {db after : AppsDb} {conversationId : Uuid}

theorem map_snd_eq_ok {α β ε : Type} {result : Except ε (α × β)} {value : β}
    (isOk : result.map Prod.snd = .ok value) : ∃ first, result = .ok (first, value) := by
  cases result with
  | error error => cases isOk
  | ok pair =>
      obtain ⟨first, second⟩ := pair
      cases isOk
      exact ⟨first, rfl⟩

/-- An edit of conversations that keeps who owns them. -/
theorem map_ownership_update {condition : Conversation → Bool} {change : Conversation → Conversation}
    {conversations : List Conversation}
    (keeps : ∀ conversation, ownership (change conversation) = ownership conversation) :
    (Table.update condition change conversations).map ownership = conversations.map ownership :=
  Table.map_update_of_keeps ownership keeps conversations

theorem performs_syncParticipants {participants : List Participant}
    (synced : syncParticipants conversationId now participants db = .ok after) :
    Performs now (fun found write => (found, write) ∈ syncWrites conversationId now participants db)
      db after := by
  induction participants generalizing db with
  | nil =>
      cases synced
      exact Performs.done
  | cons participant rest ih =>
      simp only [syncParticipants, bind_eq_ok] at synced
      rcases synced with ⟨⟨member, middle⟩, upserts, later⟩
      rw [syncWrites, upserts]
      apply Performs.cons _ (ih later)
      rw [GroupWrite.apply, upserts]
      rfl

theorem performs_syncChatData
    (synced : syncChatData directory db conversationId chatData now = .ok after) :
    Performs now (fun found write => (found, write) ∈ if chatData.isEmpty then []
      else syncWrites conversationId now (listedParticipants directory chatData) db) db after := by
  unfold syncChatData at synced
  split at synced
  · cases synced
    exact Performs.done
  · rename_i notEmpty
    rw [if_neg notEmpty]
    simp only [bind_eq_ok] at synced
    rcases synced with ⟨middle, listed, described⟩
    apply (performs_syncParticipants listed).trans
    split at described
    · cases described
      exact Performs.done
    · cases described
      apply Performs.prepare _ Performs.done
      exact Prepares.describe (map_ownership_update fun _ => rfl)

theorem performs_claimStored {memberId : Uuid} {source : GroupOwnerSource} {claimed : Bool}
    (claims : claimStored db conversationId memberId source now = .ok (claimed, after)) :
    Performs now (fun found write => (found, write) ∈ claimWrites db conversationId memberId source)
      db after := by
  unfold claimStored at claims
  split at claims
  · rename_i conversation member stored found
    rw [claimWrites, stored, found]
    unfold claimGroupOwner at claims
    dsimp only
    split at claims
    · rename_i isClaimable
      rw [if_pos isClaimable]
      split at claims
      · rename_i linked
        rw [if_pos linked]
        simp only [bind_eq_ok, pure_eq_ok] at claims
        rcases claims with ⟨transferred, transfers, same⟩
        cases same
        exact Performs.cons transfers Performs.done
      · rename_i notLinked
        rw [if_neg notLinked]
        cases claims
        exact Performs.cons rfl Performs.done
    · cases claims
      exact Performs.done
  · cases claims

theorem openLinqGroup_eq_ok {chatId : String} {sender : User} {service : Option String}
    {chatData : Option Fields} {channel : ConversationChannel}
    {created : Bool}
    (opens : openLinqGroup db chatId sender service chatData =
      .ok (conversation, channel, created, after)) : Prepares db after := by
  unfold openLinqGroup at opens
  split at opens
  · cases opens
    exact Prepares.openGroup rfl rfl
  · split at opens
    · cases opens
    · split at opens
      · cases opens
      · cases opens
        exact Prepares.describe rfl

theorem createWebGroup_eq_ok {owner : User} {title : String}
    (creates : createWebGroup directory db owner title now = .ok (conversation, after)) :
    Prepares db after := by
  simp only [createWebGroup, bind_eq_ok, require_eq_ok, decide_eq_true_eq, pure_eq_ok] at creates
  rcases creates with ⟨_, _, _, valid, same⟩
  cases same
  exact Prepares.createGroup rfl rfl rfl rfl rfl valid

theorem performs_resolve {chatId : String} {sender : User} {service senderHandle : Option String}
    {chatData : Option Fields} {claimOwner : Bool}
    {result : Conversation × ConversationChannel × Bool × AppsDb}
    (resolves : resolveLinqGroupConversation directory db chatId sender service senderHandle chatData
      claimOwner now = .ok result) :
    Performs now (fun found write => (found, write) ∈ writesOf db ⟨directory, now,
      .resolveLinqGroupConversation chatId sender service senderHandle chatData claimOwner⟩)
      db result.2.2.2 := by
  simp only [resolveLinqGroupConversation, bind_eq_ok, pure_eq_ok] at resolves
  rcases resolves with ⟨⟨conversation, channel, created, opened⟩, opens, ⟨member, joined⟩, upserts,
    synced, syncs, after, claims, rfl⟩
  apply Performs.prepare (openLinqGroup_eq_ok opens)
  simp only [writesOf, opens, resolveWrites, upserts, syncs]
  apply Performs.cons
  · rw [GroupWrite.apply, upserts]
    rfl
  · apply Performs.trans
    · apply (performs_syncChatData syncs).mono
      intro found write isListed
      exact List.mem_append_left _ isListed
    · unfold claimForSender at claims
      split at claims
      · rename_i isClaimed
        obtain ⟨claimed, stored⟩ := map_snd_eq_ok claims
        apply (performs_claimStored stored).mono
        intro found write isListed
        apply List.mem_append_right
        rw [if_pos isClaimed]
        exact isListed
      · cases claims
        exact Performs.done

theorem performs_applyParticipant {removed : Bool} {data : Fields}
    {handle : String}
    (applies : applyParticipant directory db conversation removed data handle now = .ok after) :
    (participantWrite db conversation removed
      (eventParticipant directory removed data handle)).apply now db = .ok after := by
  unfold applyParticipant at applies
  cases upserts : upsertGroupMember db conversation.id (eventParticipant directory removed data
      handle) now with
  | error error =>
      rw [upserts] at applies
      cases applies
  | ok result =>
      obtain ⟨member, joined⟩ := result
      rw [upserts] at applies
      have sameRole : isOwnerRow db conversation.id (eventParticipant directory removed data handle) =
          decide (member.role = .owner) := by
        cases upsertGroupMember_eq_ok upserts with
        | inserted notFound _ =>
            rw [isOwnerRow, notFound]
            rfl
        | written found _ =>
            rw [isOwnerRow, found]
            rfl
      rw [participantWrite, sameRole]
      dsimp only [Except.bind] at applies
      split at applies
      · rename_i isRemoval
        rw [if_pos isRemoval, GroupWrite.apply, upserts]
        exact applies
      · rename_i notRemoval
        rw [if_neg notRemoval, GroupWrite.apply, upserts]
        exact applies

theorem performs_applyLinqGroupEvent {eventType : String} {data : Fields} {handled : Bool}
    (applies : applyLinqGroupEvent directory db eventType data now = .ok (handled, after)) :
    Performs now (fun found write => (found, write) ∈ writesOf db ⟨directory, now,
      .applyLinqGroupEvent eventType data⟩) db after := by
  unfold applyLinqGroupEvent at applies
  split at applies
  · cases applies
    exact Performs.done
  · rename_i channel conversation chat
    split at applies
    · cases applies
      apply Performs.prepare _ Performs.done
      exact Prepares.describe (map_ownership_update fun _ => rfl)
    · split at applies
      · cases applies
        exact Performs.done
      · split at applies
        · cases applies
          exact Performs.done
        · rename_i isParticipant
          split at applies
          · cases applies
            apply Performs.prepare _ Performs.done
            exact Prepares.describe (map_ownership_update fun _ => rfl)
          · rename_i notDot
            split at applies
            · cases applies
              exact Performs.done
            · rename_i handle readsHandle
              simp only [writesOf, chat, readsHandle]
              rw [if_neg (not_or.mpr ⟨isParticipant, notDot⟩)]
              apply Performs.cons _ Performs.done
              apply performs_applyParticipant
              cases applied : applyParticipant directory db conversation
                  (eventType = "participant.removed") data handle now with
              | error error =>
                  rw [applied] at applies
                  cases applies
              | ok result =>
                  rw [applied] at applies
                  cases applies
                  rfl

end

/-- A call performs its writes. -/
theorem performs_of_perform {after : AppsDb} {step : GroupStep}
    (performed : perform db step = .ok after) :
    Performs step.now (fun found write => (found, write) ∈ writesOf db step) db after := by
  obtain ⟨directory, now, call⟩ := step
  cases call with
  | createWebGroup owner title =>
      obtain ⟨conversation, creates⟩ := map_snd_eq_ok performed
      exact Performs.prepare (createWebGroup_eq_ok creates) Performs.done
  | resolveLinqGroupConversation chatId sender service senderHandle chatData claimOwner =>
      unfold perform at performed
      dsimp only at performed
      cases resolves : resolveLinqGroupConversation directory db chatId sender service senderHandle
          chatData claimOwner now with
      | error error =>
          rw [resolves] at performed
          cases performed
      | ok result =>
          rw [resolves] at performed
          cases performed
          exact performs_resolve resolves
  | syncLinqGroupParticipants conversationId chatData =>
      simp only [perform, syncStored] at performed
      split at performed
      · exact performs_syncParticipants performed
      · cases performed
  | applyLinqGroupEvent eventType data =>
      obtain ⟨handled, applies⟩ := map_snd_eq_ok performed
      exact performs_applyLinqGroupEvent applies
  | claimGroupOwner conversationId memberId source =>
      obtain ⟨claimed, claims⟩ := map_snd_eq_ok performed
      exact performs_claimStored claims
  | transferGroupOwnership conversationId memberId source departing =>
      simp only [perform, transferStored] at performed
      split at performed
      · rename_i conversation member stored found
        simp only [writesOf, stored, found]
        exact Performs.cons performed Performs.done
      · cases performed
  | joinGroupFromInvite token user =>
      obtain ⟨conversation, joins⟩ := map_snd_eq_ok performed
      unfold joinGroupFromInvite at joins
      split at joins
      · cases joins
      · rename_i invite isOpen
        split at joins
        · cases joins
        · simp only [bind_eq_ok, pure_eq_ok] at joins
          rcases joins with ⟨joined, writes, same⟩
          cases same
          simp only [writesOf, (Option.filter_eq_some_iff.mp isOpen).1]
          exact Performs.cons writes Performs.done
  | leaveWebGroup conversationId userId => exact Performs.cons performed Performs.done

/-! ## Participants become members -/

/-- No participant is made the owner. -/
def GroupWrite.AsMember : GroupWrite → Prop
  | .upsert _ participant | .removal _ participant => participant.role = .member
  | .transfer _ _ _ _ | .claim _ _ _ | .join _ _ _ | .leave _ _ => True

theorem role_listedParticipant {raw : Json} {participant : Participant}
    (listed : listedParticipant directory raw = some participant) : participant.role = .member := by
  unfold listedParticipant at listed
  split at listed
  · split at listed
    · cases listed
    · split at listed
      · cases listed
      · split at listed
        · cases listed
        · cases listed
          rfl
  · cases listed

theorem role_of_mem_listedParticipants {participant : Participant}
    (isListed : participant ∈ listedParticipants directory chatData) :
    participant.role = .member := by
  unfold listedParticipants at isListed
  split at isListed
  · obtain ⟨raw, _, listed⟩ := List.mem_filterMap.mp isListed
    exact role_listedParticipant listed
  · exact absurd isListed List.not_mem_nil

theorem asMember_syncWrites {now : Instant} {participants : List Participant}
    (areMembers : ∀ participant ∈ participants, participant.role = .member)  :
    ∀ entry ∈ syncWrites conversationId now participants db, entry.2.AsMember := by
  induction participants generalizing db with
  | nil =>
      intro entry isListed
      exact absurd isListed List.not_mem_nil
  | cons participant rest ih =>
      intro entry isListed
      rcases List.mem_cons.mp isListed with rfl | isLater
      · exact areMembers participant List.mem_cons_self
      · split at isLater
        · apply ih _ _ isLater
          intro other otherMem
          exact areMembers other (List.mem_cons_of_mem participant otherMem)
        · exact absurd isLater List.not_mem_nil

theorem asMember_claimWrites {memberId : Uuid}
    {source : GroupOwnerSource} :
    ∀ entry ∈ claimWrites db conversationId memberId source, entry.2.AsMember := by
  intro entry isListed
  unfold claimWrites at isListed
  split at isListed
  · split at isListed
    · split at isListed
      · rw [List.mem_singleton.mp isListed]
        exact True.intro
      · rw [List.mem_singleton.mp isListed]
        exact True.intro
    · exact absurd isListed List.not_mem_nil
  · exact absurd isListed List.not_mem_nil

theorem asMember_resolveWrites {opened : AppsDb} {sender : Participant} {claimOwner : Bool}
    {now : Instant}
    (isMember : sender.role = .member) :
    ∀ entry ∈ resolveWrites directory opened conversationId sender chatData claimOwner now,
      entry.2.AsMember := by
  intro entry isListed
  rcases List.mem_cons.mp isListed with rfl | isLater
  · exact isMember
  · split at isLater
    · exact absurd isLater List.not_mem_nil
    · rcases List.mem_append.mp isLater with isSynced | isClaim
      · split at isSynced
        · exact absurd isSynced List.not_mem_nil
        · exact asMember_syncWrites (fun _ => role_of_mem_listedParticipants) entry isSynced
      · split at isClaim
        · exact absurd isClaim List.not_mem_nil
        · split at isClaim
          · exact asMember_claimWrites entry isClaim
          · exact absurd isClaim List.not_mem_nil

theorem asMember_writesOf {step : GroupStep} :
    ∀ entry ∈ writesOf db step, entry.2.AsMember := by
  intro entry isListed
  unfold writesOf at isListed
  split at isListed
  · exact absurd isListed List.not_mem_nil
  · split at isListed
    · exact absurd isListed List.not_mem_nil
    · exact asMember_resolveWrites rfl entry isListed
  · exact asMember_syncWrites (fun _ => role_of_mem_listedParticipants) entry isListed
  · split at isListed
    · exact absurd isListed List.not_mem_nil
    · split at isListed
      · rw [List.mem_singleton.mp isListed]
        dsimp only [participantWrite]
        split <;> rfl
      · exact absurd isListed List.not_mem_nil
  · exact asMember_claimWrites entry isListed
  · split at isListed
    · rw [List.mem_singleton.mp isListed]
      exact True.intro
    · exact absurd isListed List.not_mem_nil
  · split at isListed
    · exact absurd isListed List.not_mem_nil
    · rw [List.mem_singleton.mp isListed]
      exact True.intro
  · rw [List.mem_singleton.mp isListed]
    exact True.intro

/-! ## Invariants -/

/-- What every write that is allowed keeps, every call whose writes are all allowed keeps. -/
theorem invariant_of_step {allowed : AppsDb → GroupWrite → Bool} {step : GroupStep}
    (Invariant : AppsDb → Prop)
    (prepared : ∀ db after, Invariant db → Prepares db after → Invariant after)
    (written : ∀ db write after, Invariant db → GroupWrite.AsMember write →
      allowed db write = true → write.apply step.now db = .ok after → Invariant after)
    {after : AppsDb} (initially : Invariant db)
    (isAllowed : everyWrite allowed db step = true) (stepped : groupStep db step = some after) :
    Invariant after := by
  apply (performs_of_perform (ok_of_toOption stepped)).invariant Invariant prepared _ initially
  intro found write middle invariant isListed applies
  exact written _ _ _ invariant (asMember_writesOf (found, write) isListed)
    (List.all_eq_true.mp isAllowed (found, write) isListed) applies

/-- The same for runs of calls. -/
theorem invariant_of_run {allowed : AppsDb → GroupWrite → Bool} (Invariant : AppsDb → Prop)
    (prepared : ∀ db after, Invariant db → Prepares db after → Invariant after)
    (written : ∀ now db write after, Invariant db → GroupWrite.AsMember write →
      allowed db write = true → write.apply now db = .ok after → Invariant after)
    {after : AppsDb}
    (run : Run groupStep (fun db step => everyWrite allowed db step = true) db after)
    (initially : Invariant db) : Invariant after := by
  apply run.invariant Invariant _ initially
  intro before step middle invariant isAllowed stepped
  exact invariant_of_step Invariant prepared (written step.now) invariant isAllowed stepped

end DotBackend.Groups
