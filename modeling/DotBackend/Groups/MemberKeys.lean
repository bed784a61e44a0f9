import DotBackend.Groups.MemberChanges

/-!
# The keys of members

A participant is looked up by two keys at once, their handle and their user. A row that is
found by one key is written with the other; the keys hold after every write if no two rows
stand for the participant.
-/

namespace DotBackend.Groups

open Data Channel Apps

/-- The keys of members hold, and an identifier that is drawn is new. -/
structure MembersKeyed (db : AppsDb) : Prop where
  valid : MembersValid db.members
  drawn : ∀ member ∈ db.members, member.id < db.nextId

/-- Whichever row the database returns first, the keys hold after the write and one row stands
for the participant. -/
def UpsertKeepsKeys (db : AppsDb) (conversationId : Uuid) (participant : Participant)
    (now : Instant) : Prop :=
  ∀ rows, rows.Perm db.members → ∃ member after,
    upsertGroupMember { db with members := rows } conversationId participant now =
      .ok (member, after) ∧ MembersValid after.members ∧
        ∃! row, row ∈ after.members ∧ participant.isRowOf conversationId row = true

/-- The member with the handle of a participant, and the member with their user, are one. -/
def MatchesOne (db : AppsDb) (conversationId : Uuid) (participant : Participant) : Prop :=
  ∀ first ∈ membersOf db conversationId, ∀ second ∈ membersOf db conversationId,
    first.externalHandle = participant.handle →
      (∃ user, participant.user = some user ∧ second.userId = some user.id) → first = second

variable {db after : AppsDb} {conversationId : Uuid} {participant : Participant} {now : Instant}
  {member : ConversationMember}

/-! ## Rows of a participant -/

namespace Participant

theorem isRowOf_iff : participant.isRowOf conversationId member = true ↔
    member.conversationId = conversationId ∧ (member.externalHandle = participant.handle ∨
      ∃ user, participant.user = some user ∧ member.userId = some user.id) := by
  simp [isRowOf, Option.any_eq_true]

theorem isRowOf_newRow (id : Uuid) :
    participant.isRowOf conversationId (participant.newRow id conversationId now) = true :=
  isRowOf_iff.mpr ⟨rfl, Or.inl rfl⟩

/-- A row that is written still stands for the participant. -/
theorem isRowOf_writtenRow (isRow : participant.isRowOf conversationId member = true) :
    participant.isRowOf conversationId (participant.writtenRow member) = true := by
  rcases isRowOf_iff.mp isRow with ⟨isOf, hasHandle | ⟨user, isUser, _⟩⟩
  · exact isRowOf_iff.mpr ⟨isOf, Or.inl hasHandle⟩
  · apply isRowOf_iff.mpr
    refine ⟨isOf, Or.inr ⟨user, isUser, ?_⟩⟩
    simp [writtenRow, isUser]

end Participant

namespace MatchesOne

/-- Two rows of a participant are the same row. -/
theorem eq (one : MatchesOne db conversationId participant) (valid : MembersValid db.members)
    {first second : ConversationMember} (firstMem : first ∈ db.members)
    (secondMem : second ∈ db.members)
    (isFirst : participant.isRowOf conversationId first = true)
    (isSecond : participant.isRowOf conversationId second = true) : first = second := by
  rcases Participant.isRowOf_iff.mp isFirst with ⟨firstOf, firstKey⟩
  rcases Participant.isRowOf_iff.mp isSecond with ⟨secondOf, secondKey⟩
  have firstHere : first ∈ membersOf db conversationId :=
    List.mem_filter.mpr ⟨firstMem, decide_eq_true firstOf⟩
  have secondHere : second ∈ membersOf db conversationId :=
    List.mem_filter.mpr ⟨secondMem, decide_eq_true secondOf⟩
  rcases firstKey with firstHandle | firstUser
  · rcases secondKey with secondHandle | secondUser
    · apply valid.handle.eq_of_mem firstMem secondMem rfl
      rw [firstOf, firstHandle, secondOf, secondHandle]
    · exact one first firstHere second secondHere firstHandle secondUser
  · rcases secondKey with secondHandle | secondUser
    · exact (one second secondHere first firstHere secondHandle firstUser).symm
    · rcases firstUser with ⟨user, isUser, firstId⟩
      rcases secondUser with ⟨other, isOther, secondId⟩
      rw [isUser] at isOther
      cases isOther
      apply valid.user.eq_of_mem firstMem secondMem
      · rw [firstId]
        rfl
      · rw [secondId, firstOf, secondOf]
        rfl

theorem perm (one : MatchesOne db conversationId participant)
    {rows : List ConversationMember} (order : rows.Perm db.members) :
    MatchesOne { db with members := rows } conversationId participant := by
  intro first firstMem second secondMem
  have same := order.filter fun member => decide (member.conversationId = conversationId)
  exact one first (same.mem_iff.mp firstMem) second (same.mem_iff.mp secondMem)

end MatchesOne

theorem membersValid_perm {first second : List ConversationMember}
    (valid : MembersValid first) (order : second.Perm first) : MembersValid second := by
  constructor
  · exact (order.filterMap _).nodup_iff.mpr valid.id
  · exact (order.filterMap _).nodup_iff.mpr valid.handle
  · exact (order.filterMap _).nodup_iff.mpr valid.user

/-! ## Writes -/

/-- A participant without a row gets one. -/
theorem membersValid_insert (now : Instant) (keyed : MembersKeyed db)
    (isNew : ∀ row ∈ db.members, participant.isRowOf conversationId row ≠ true) :
    MembersValid (db.members ++ [participant.newRow db.nextId conversationId now]) := by
  constructor
  · apply keyed.valid.id.append_of_new
    rintro _ ⟨⟩ other otherMem sameId
    exact Nat.ne_of_lt (keyed.drawn other otherMem) (Option.some.inj sameId)
  · apply keyed.valid.handle.append_of_new
    rintro _ ⟨⟩ other otherMem sameHandle
    rcases Prod.mk.inj (Option.some.inj sameHandle) with ⟨isOf, hasHandle⟩
    exact isNew other otherMem (Participant.isRowOf_iff.mpr ⟨isOf, Or.inl hasHandle⟩)
  · apply keyed.valid.user.append_of_new
    intro value hasUser other otherMem sameUser
    rcases Option.map_eq_some_iff.mp hasUser with ⟨id, isId, rfl⟩
    rcases Option.map_eq_some_iff.mp isId with ⟨user, isUser, rfl⟩
    rcases Option.map_eq_some_iff.mp sameUser with ⟨otherId, isOther, sameKey⟩
    rcases Prod.mk.inj sameKey with ⟨isOf, rfl⟩
    exact isNew other otherMem (Participant.isRowOf_iff.mpr ⟨isOf, Or.inr ⟨user, isUser, isOther⟩⟩)

/-- The only row of a participant is written over. -/
theorem membersValid_write (valid : MembersValid db.members) (memberMem : member ∈ db.members)
    (isRow : participant.isRowOf conversationId member = true)
    (only : ∀ row ∈ db.members, participant.isRowOf conversationId row = true → row = member) :
    MembersValid (Table.update (fun row => row.id == member.id)
      (fun _ => participant.writtenRow member) db.members) := by
  have isMember : ∀ row ∈ db.members, row.id = member.id → row = member := by
    intro row rowMem sameId
    apply valid.id.eq_of_mem rowMem memberMem rfl
    rw [sameId]
  constructor
  · apply valid.id.rewrite
    intro row rowMem selected
    rw [isMember row rowMem (beq_iff_eq.mp selected)]
    rfl
  · apply valid.handle.rewrite
    intro row rowMem selected
    rw [isMember row rowMem (beq_iff_eq.mp selected)]
    rfl
  · apply valid.user.update_one valid.id
    intro row _ _ other otherMem isOther value written sameUser
    rcases Option.map_eq_some_iff.mp sameUser with ⟨id, otherId, rfl⟩
    rcases Option.map_eq_some_iff.mp written with ⟨writtenId, isWritten, sameKey⟩
    rcases Prod.mk.inj sameKey with ⟨isOf, rfl⟩
    -- The user of the row is the user of the participant, or the user that the row had.
    rcases isUser : participant.user with _ | user
    · have kept : member.userId = some writtenId := by
        simpa [Participant.writtenRow, isUser] using isWritten
      apply isOther
      rw [valid.user.eq_of_mem otherMem memberMem]
      · rw [otherId]
        rfl
      · rw [kept, ← isOf]
        rfl
    · have sameId : user.id = writtenId := by
        simpa [Participant.writtenRow, isUser] using isWritten
      apply isOther
      rw [only other otherMem]
      apply Participant.isRowOf_iff.mpr
      refine ⟨?_, Or.inr ⟨user, isUser, by rw [otherId, sameId]⟩⟩
      exact isOf.symm.trans (Participant.isRowOf_iff.mp isRow).1

/-- Where the handle and the user stand for one row, the keys hold after the upsert. -/
theorem MatchesOne.upsert (one : MatchesOne db conversationId participant)
    (keyed : MembersKeyed db) (stored : (db.conversation? conversationId).isSome = true) :
    ∃ member after, upsertGroupMember db conversationId participant now = .ok (member, after) ∧
      MembersValid after.members ∧
        ∃! row, row ∈ after.members ∧ participant.isRowOf conversationId row = true := by
  cases found : db.members.find? (participant.isRowOf conversationId) with
  | none =>
      have isNew := List.find?_eq_none.mp found
      have valid := membersValid_insert now keyed isNew
      have accepted : acceptsMember db (participant.newRow db.nextId conversationId now) = true :=
        Bool.and_eq_true_iff.mpr ⟨stored, decide_eq_true valid⟩
      refine ⟨_, _, by rw [upsertGroupMember, found]; simp [require, accepted]; exact ⟨rfl, rfl⟩,
        valid, participant.newRow db.nextId conversationId now, ?_, ?_⟩
      · exact ⟨List.mem_append_right _ List.mem_cons_self, Participant.isRowOf_newRow _⟩
      · rintro row ⟨rowMem, isRow⟩
        rcases List.mem_append.mp rowMem with isOld | isLast
        · exact absurd isRow (isNew row isOld)
        · exact List.mem_singleton.mp isLast
  | some member =>
      have memberMem := List.mem_of_find?_eq_some found
      have isRow := List.find?_some found
      have only : ∀ row ∈ db.members, participant.isRowOf conversationId row = true →
          row = member := fun row rowMem isAlso => one.eq keyed.valid rowMem memberMem isAlso isRow
      have valid := membersValid_write keyed.valid memberMem isRow only
      refine ⟨_, _, by rw [upsertGroupMember, found]; simp [require, valid]; exact ⟨rfl, rfl⟩,
        valid, participant.writtenRow member, ?_, ?_⟩
      · refine ⟨?_, Participant.isRowOf_writtenRow isRow⟩
        exact Table.mem_update.mpr ⟨member, memberMem, if_pos (beq_self_eq_true member.id)⟩
      · rintro row ⟨rowMem, isAlso⟩
        rcases Table.mem_update_cases rowMem with ⟨_, _, _, isWritten⟩ | ⟨isOld, notSelected⟩
        · exact isWritten
        · rw [only row isOld isAlso, beq_self_eq_true] at notSelected
          cases notSelected

/-- After an upsert that leaves one row of a participant, the handle and the user stood for one
row before. -/
theorem UpsertKeepsKeys.matchesOne (keeps : UpsertKeepsKeys db conversationId participant now)
    (valid : MembersValid db.members) : MatchesOne db conversationId participant := by
  rcases keeps db.members (List.Perm.refl _) with ⟨member, after, upserts, _, kept, _, isKept⟩
  intro first firstHere second secondHere hasHandle hasUser
  rcases List.mem_filter.mp firstHere with ⟨firstMem, firstOf⟩
  rcases List.mem_filter.mp secondHere with ⟨secondMem, secondOf⟩
  have isFirst : participant.isRowOf conversationId first = true :=
    Participant.isRowOf_iff.mpr ⟨of_decide_eq_true firstOf, Or.inl hasHandle⟩
  have isSecond : participant.isRowOf conversationId second = true :=
    Participant.isRowOf_iff.mpr ⟨of_decide_eq_true secondOf, Or.inr hasUser⟩
  cases upsertGroupMember_eq_ok upserts with
  | inserted isNew _ => exact absurd isFirst (List.find?_eq_none.mp isNew first firstMem)
  | @written old found _ =>
      -- Both rows are there after the write, with their identifiers.
      have remains : ∀ row ∈ db.members, participant.isRowOf conversationId row = true →
          kept.id = row.id := by
        intro row rowMem isRow
        by_cases selected : (row.id == old.id) = true
        · have isWritten := isKept (participant.writtenRow old)
            ⟨Table.mem_update.mpr ⟨row, rowMem, if_pos selected⟩,
              Participant.isRowOf_writtenRow (List.find?_some found)⟩
          rw [← isWritten]
          exact (beq_iff_eq.mp selected).symm
        · rw [← isKept row ⟨Table.mem_update.mpr ⟨row, rowMem, if_neg selected⟩, isRow⟩]
      apply valid.id.eq_of_mem firstMem secondMem rfl
      rw [← remains first firstMem isFirst, remains second secondMem isSecond]

/-! ## Runs of upserts -/

/-- An upsert keeps the keys, whichever row comes first, if and only if the handle and the user
of the participant stand for one row. -/
theorem upsertKeepsKeys_iff (keyed : MembersKeyed db)
    (stored : (db.conversation? conversationId).isSome = true) :
    UpsertKeepsKeys db conversationId participant now ↔
      MatchesOne db conversationId participant := by
  constructor
  · intro keeps
    exact keeps.matchesOne keyed.valid
  · intro one rows order
    apply (one.perm order).upsert ?_ stored
    constructor
    · exact membersValid_perm keyed.valid order
    · intro member memberMem
      exact keyed.drawn member (order.mem_iff.mp memberMem)

/-- A participant of a chat, as a list of participants tells. -/
def listedAs (handle : String) (user : Option User) : Participant :=
  ⟨handle, user, .member, some "iMessage", none, none, .active, none, none⟩

/-- A group of which no members are known yet. -/
def unseenGroup : AppsDb :=
  { AppsDb.empty with
    conversations := [⟨1, 7, .group, some "Trip", .auto, some .explicit, true⟩]
    nextId := 10 }

theorem membersKeyed_unseenGroup : MembersKeyed unseenGroup where
  valid := by decide
  drawn := by simp [unseenGroup, AppsDb.empty]

theorem alice_keeps_keys :
    UpsertKeepsKeys unseenGroup 1 (listedAs "+14155552681" (some ⟨7, some "Alice", true⟩)) 5 := by
  apply (upsertKeepsKeys_iff membersKeyed_unseenGroup rfl).mpr
  intro first firstHere
  cases firstHere

/-- The group with a handle that belonged to nobody, and with a user under another handle. -/
def groupBeforeLink : AppsDb :=
  { unseenGroup with
    members := [(listedAs "alice@example.com" none).newRow 10 1 5,
      (listedAs "+14155552681" (some ⟨7, some "Alice", true⟩)).newRow 11 1 5]
    nextId := 12 }

/-- The handle is linked to the user who is in the group already: the upsert is refused if the
row of the handle comes first, and leaves two rows if the row of the user does. -/
theorem linked_handle_breaks_upsert :
    let linked := listedAs "alice@example.com" (some ⟨7, some "Alice", true⟩)
    syncParticipants 1 5 [listedAs "alice@example.com" none,
      listedAs "+14155552681" (some ⟨7, some "Alice", true⟩)] unseenGroup = .ok groupBeforeLink ∧
      upsertGroupMember groupBeforeLink 1 linked 6 = .error .integrity ∧
      (upsertGroupMember { groupBeforeLink with members := groupBeforeLink.members.reverse } 1
        linked 6).toOption.map (fun result =>
          (result.2.members.filter (linked.isRowOf 1)).length) = some 2 ∧
      ¬ UpsertKeepsKeys groupBeforeLink 1 linked 6 := by
  have refused : upsertGroupMember groupBeforeLink 1
      (listedAs "alice@example.com" (some ⟨7, some "Alice", true⟩)) 6 = .error .integrity := by
    decide
  refine ⟨by decide, refused, by decide, ?_⟩
  intro keeps
  rcases keeps groupBeforeLink.members (List.Perm.refl _) with ⟨_, _, upserts, _⟩
  cases refused.symm.trans upserts

end DotBackend.Groups
