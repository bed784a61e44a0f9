import DotBackend.Groups.OwnerInvariant
import DotBackend.Transaction.ReadCommitted

/-!
# Claiming a group

A transaction that claims a group for a linked member decides on the conversation and the
members as it loaded them, and locks them later. What is loaded is not refreshed by the locks.
The column of claims records the claims that were committed, in their order; the service does
not read it.
-/

namespace DotBackend.Groups

open Data Channel Apps Transition
open Transaction

/-- A claim that was committed. -/
structure CommittedClaim where
  conversationId : Uuid
  memberId : Uuid
  userId : Uuid
  deriving DecidableEq

structure ClaimDb where
  tables : AppsDb
  claims : List CommittedClaim
  deriving DecidableEq

/-- The rows that transactions lock. -/
inductive ClaimRow
  | conversation (id : Uuid)
  | member (id : Uuid)
  | app (id : Uuid)
  deriving DecidableEq

/-- The claims of a conversation. -/
def ClaimDb.claimsOn (db : ClaimDb) (conversationId : Uuid) : List CommittedClaim :=
  db.claims.filter fun claim => claim.conversationId = conversationId

/-! ## The transactions -/

/-- What a transaction has loaded: the conversation, its active members, and the member who
claims it, with their user. -/
structure Claim where
  conversation : Conversation
  members : List ConversationMember
  member : ConversationMember
  newOwnerId : Uuid
  deriving DecidableEq

inductive ClaimPoint
  | readConversation (conversationId memberId : Uuid)
  | readMembers (conversation : Conversation) (memberId : Uuid)
  | lockConversation (claim : Claim)
  | lockMembers (claim : Claim)
  | lockApps (claim : Claim)
  | commit (claim : Claim)
  | finished
  deriving DecidableEq

namespace Claim

/-- The member as the session sees it: one that it has loaded is not refreshed. -/
def seen (claim : Claim) (stored : ConversationMember) : ConversationMember :=
  (claim.members.find? fun row => row.id = stored.id).getD stored

/-- `prior_owner_ids`. -/
def priorOwnerIds (db : AppsDb) (claim : Claim) : List Uuid :=
  (claim.conversation.userId ::
    ((((membersOf db claim.conversation.id).map claim.seen).filter fun member =>
        member.role = .owner).filterMap (·.userId) ++
      (appsOf db claim.conversation.id).map (·.userId))).filter (· ≠ claim.newOwnerId)

/-- The column of a member that the transfer assigns. -/
def writtenMember (claim : Claim) (stored : ConversationMember) : ConversationMember :=
  { stored with
    role := mergeColumn (claim.seen stored).role (promoted claim.member.id (claim.seen stored)).role
      stored.role }

/-- The columns of the conversation that the transfer assigns. -/
def writtenConversation (claim : Claim) (stored : Conversation) : Conversation :=
  { stored with
    userId := mergeColumn claim.conversation.userId claim.newOwnerId stored.userId
    groupOwnerSource := mergeColumn claim.conversation.groupOwnerSource (some .firstInvoker)
      stored.groupOwnerSource }

/-- The writes of `transfer_group_ownership`, from what was loaded. -/
def write (now : Instant) (db : AppsDb) (claim : Claim) : AppsDb :=
  transferAccess claim.newOwnerId (claim.priorOwnerIds db) none now
    ((appsOf db claim.conversation.id).map (·.id))
    { db with
      members := Table.update (fun member => member.conversationId == claim.conversation.id)
        claim.writtenMember db.members
      conversations := Table.update (fun row => row.id == claim.conversation.id)
        claim.writtenConversation db.conversations
      apps := Table.update (fun app => app.conversationId == claim.conversation.id)
        (fun app => { app with userId := claim.newOwnerId }) db.apps }

/-- The rows of the group. -/
def memberRows (db : ClaimDb) (claim : Claim) : List ClaimRow :=
  (membersOf db.tables claim.conversation.id).map (.member ·.id)

def appRows (db : ClaimDb) (claim : Claim) : List ClaimRow :=
  (appsOf db.tables claim.conversation.id).map (.app ·.id)

end Claim

def writeClaim (claim : Claim) (now : Instant) (db : ClaimDb) : ClaimDb where
  tables := claim.write now db.tables
  claims := db.claims ++ [⟨claim.conversation.id, claim.member.id, claim.newOwnerId⟩]

/-- The claim of a linked member, if the group may be claimed. -/
def claimOf (conversation : Conversation) (members : List ConversationMember) (memberId : Uuid) :
    Option Claim :=
  if claimable conversation.groupOwnerSource && conversation.kind = .group then do
    let member ← members.find? fun member => member.id = memberId
    let newOwnerId ← member.userId
    pure ⟨conversation, members, member, newOwnerId⟩
  else none

/-- `claim_group_owner` for a linked member, the loading of its arguments, and the commit of its
caller. -/
def claimRequest : ClaimPoint → Instant → Request ClaimDb ClaimRow ClaimPoint
  | .readConversation conversationId memberId, _ =>
      .read fun db =>
        (db.tables.conversation? conversationId).elim .finished fun conversation =>
          .readMembers conversation memberId
  | .readMembers conversation memberId, _ =>
      .read fun db =>
        (claimOf conversation
          ((membersOf db.tables conversation.id).filter fun member => member.status = .active)
          memberId).elim .finished .lockConversation
  | .lockConversation claim, _ =>
      .lock (fun _ => [.conversation claim.conversation.id]) fun db =>
        if (db.tables.conversation? claim.conversation.id).isSome then .lockMembers claim
        else .finished
  | .lockMembers claim, _ =>
      .lock claim.memberRows fun db =>
        if (membersOf db.tables claim.conversation.id).any fun member => member.id = claim.member.id
        then .lockApps claim
        else .finished
  | .lockApps claim, _ => .lock claim.appRows fun _ => .commit claim
  | .commit claim, now =>
      .commit (fun db => .conversation claim.conversation.id ::
          (claim.memberRows db ++ claim.appRows db))
        (fun db => (db.tables.conversation? claim.conversation.id).isSome)
        (writeClaim claim now) (fun _ => none) none
  | .finished, _ => .rollback none

def ClaimPoint.isEntry : ClaimPoint → Bool
  | .readConversation _ _ => true
  | _ => false

def claimProtocol : Protocol ClaimDb ClaimRow ClaimPoint Instant where
  starts := ClaimPoint.isEntry
  request := claimRequest

/-! ## The property and the condition -/

/-- The member of a claim is the owner of the group, and their user of its apps. -/
structure WonBy (db : AppsDb) (claim : CommittedClaim) : Prop where
  isMember : ∃ member ∈ membersOf db claim.conversationId, member.id = claim.memberId ∧
    member.userId = some claim.userId
  owner : ∀ member ∈ membersOf db claim.conversationId,
    (member.role = .owner ↔ member.id = claim.memberId)
  conversation : ∀ row ∈ db.conversations, row.id = claim.conversationId →
    row.userId = claim.userId
  apps : ∀ app ∈ appsOf db claim.conversationId, app.userId = claim.userId

/-- The first claim of every group wins. -/
def FirstClaimsWin (db : ClaimDb) : Prop :=
  ∀ conversationId first rest, db.claimsOn conversationId = first :: rest → WonBy db.tables first

/-- A claim is committed while the group may still be claimed. -/
def claimsUnclaimed (system : System ClaimDb ClaimRow ClaimPoint) :
    Event ClaimPoint Instant → Bool
  | .advance session _ =>
      match system.points session with
      | some (.commit claim) =>
          (system.database.tables.conversation? claim.conversation.id).all fun row =>
            claimable row.groupOwnerSource
      | _ => true
  | _ => true

/-! ## What a claim writes -/

namespace Claim

variable {db : AppsDb} {claim : Claim} {now : Instant}

theorem members_write : (claim.write now db).members =
    Table.update (fun member => member.conversationId == claim.conversation.id)
      claim.writtenMember db.members :=
  transferAccess_keeps AppsDb.members (fun _ _ => rfl) _ _

theorem conversations_write : (claim.write now db).conversations =
    Table.update (fun row => row.id == claim.conversation.id) claim.writtenConversation
      db.conversations :=
  transferAccess_keeps AppsDb.conversations (fun _ _ => rfl) _ _

theorem apps_write : (claim.write now db).apps =
    Table.update (fun app => app.conversationId == claim.conversation.id)
      (fun app => { app with userId := claim.newOwnerId }) db.apps :=
  transferAccess_keeps AppsDb.apps (fun _ _ => rfl) _ _

/-- From what is stored, a claim writes what `transfer_group_ownership` writes. -/
theorem write_eq_writeTransfer
    (sees : ∀ stored ∈ db.members, stored.conversationId = claim.conversation.id →
      claim.seen stored = stored)
    (isStored : ∀ stored ∈ db.conversations, stored.id = claim.conversation.id →
      stored = claim.conversation) :
    claim.write now db = writeTransfer db claim.conversation claim.member.id claim.newOwnerId
      .firstInvoker none now := by
  have members : Table.update (fun member => member.conversationId == claim.conversation.id)
      claim.writtenMember db.members =
        Table.update (fun member => member.conversationId == claim.conversation.id)
          (promoted claim.member.id) db.members := by
    apply List.map_congr_left
    intro stored storedMem
    by_cases isOf : stored.conversationId = claim.conversation.id
    · simp [isOf, writtenMember, sees stored storedMem isOf, promoted]
    · simp [isOf]
  have conversations : Table.update (fun row => row.id == claim.conversation.id)
      claim.writtenConversation db.conversations =
        Table.update (fun row => row.id == claim.conversation.id)
          (fun row => { row with userId := claim.newOwnerId, groupOwnerSource := some .firstInvoker })
          db.conversations := by
    apply List.map_congr_left
    intro stored storedMem
    by_cases isItself : stored.id = claim.conversation.id
    · rw [isStored stored storedMem isItself]
      simp [writtenConversation]
    · simp [isItself]
  have prior : claim.priorOwnerIds db = Groups.priorOwnerIds db claim.conversation
      claim.newOwnerId := by
    have seenMembers : (membersOf db claim.conversation.id).map claim.seen =
        membersOf db claim.conversation.id := by
      have unchanged : ∀ stored ∈ membersOf db claim.conversation.id, claim.seen stored = stored := by
        intro stored storedMem
        obtain ⟨inTable, isOf⟩ := List.mem_filter.mp storedMem
        exact sees stored inTable (of_decide_eq_true isOf)
      rw [List.map_congr_left unchanged]
      exact List.map_id' _
    rw [priorOwnerIds, seenMembers]
    rfl
  rw [write, members, conversations, prior, writeTransfer_eq]

/-- A claim leaves the members and apps of other groups alone. -/
theorem membersOf_write {conversationId : Uuid} (isOther : claim.conversation.id ≠ conversationId) :
    membersOf (claim.write now db) conversationId = membersOf db conversationId := by
  rw [membersOf, members_write]
  apply Table.filter_update_of_dropped
  intro member _ selected
  have notOf : member.conversationId ≠ conversationId := beq_iff_eq.mp selected ▸ isOther
  exact ⟨decide_eq_false notOf, decide_eq_false notOf⟩

theorem appsOf_write {conversationId : Uuid} (isOther : claim.conversation.id ≠ conversationId) :
    appsOf (claim.write now db) conversationId = appsOf db conversationId := by
  rw [appsOf, apps_write]
  apply Table.filter_update_of_dropped
  intro app _ selected
  have notOf : app.conversationId ≠ conversationId := beq_iff_eq.mp selected ▸ isOther
  exact ⟨decide_eq_false notOf, decide_eq_false notOf⟩

theorem mem_conversations_write {row : Conversation} (isOther : claim.conversation.id ≠ row.id) :
    row ∈ (claim.write now db).conversations ↔ row ∈ db.conversations := by
  rw [conversations_write]
  constructor
  · intro rowMem
    exact stored_of_update rowMem (fun _ => rfl) (Ne.symm isOther)
  · intro rowMem
    apply Table.mem_update.mpr
    exact ⟨row, rowMem, if_neg fun selected => isOther (beq_iff_eq.mp selected).symm⟩

end Claim

/-! ## Groups -/

section

variable {db : ClaimDb} {claim : Claim} {now : Instant} {conversationId : Uuid}

/-- The keys of the tables hold; the first claim of a group wins, and closes it. -/
structure ClaimsSound (db : ClaimDb) : Prop where
  conversations : Table.UniqueOn (fun row => some row.id) db.tables.conversations
  members : Table.UniqueOn (fun row => some row.id) db.tables.members
  wins : FirstClaimsWin db
  closed : ∀ row ∈ db.tables.conversations, db.claimsOn row.id ≠ [] →
    claimable row.groupOwnerSource = false

/-- What a transaction has loaded is stored, as long as nobody has claimed the group. -/
structure ClaimFresh (db : ClaimDb) (claim : Claim) : Prop where
  linked : claim.member.userId = some claim.newOwnerId
  isLoaded : claim.member ∈ claim.members
  isStored : db.claimsOn claim.conversation.id = [] →
    claim.conversation ∈ db.tables.conversations ∧
      ∀ row ∈ claim.members, row ∈ membersOf db.tables claim.conversation.id

theorem claimsOn_writeClaim : (writeClaim claim now db).claimsOn conversationId =
    db.claimsOn conversationId ++ if claim.conversation.id = conversationId
      then [⟨claim.conversation.id, claim.member.id, claim.newOwnerId⟩] else [] := by
  rw [ClaimDb.claimsOn, writeClaim, List.filter_append]
  by_cases isOwn : claim.conversation.id = conversationId
  · simp [ClaimDb.claimsOn, isOwn]
  · simp [ClaimDb.claimsOn, isOwn]

/-- A group that is claimed was not claimed before its claim. -/
theorem claimsOn_of_writeClaim (unclaimed : (writeClaim claim now db).claimsOn conversationId = []) :
    db.claimsOn conversationId = [] ∧ claim.conversation.id ≠ conversationId := by
  rw [claimsOn_writeClaim, List.append_eq_nil_iff] at unclaimed
  refine ⟨unclaimed.1, ?_⟩
  intro isOwn
  rw [if_pos isOwn] at unclaimed
  cases unclaimed.2

theorem WonBy.of_other {committed : CommittedClaim} (won : WonBy db.tables committed)
    (isOther : claim.conversation.id ≠ committed.conversationId) :
    WonBy (claim.write now db.tables) committed where
  isMember := by
    rw [Claim.membersOf_write isOther]
    exact won.isMember
  owner := by
    rw [Claim.membersOf_write isOther]
    exact won.owner
  conversation := by
    intro row rowMem ofGroup
    rw [Claim.mem_conversations_write (ofGroup ▸ isOther)] at rowMem
    exact won.conversation row rowMem ofGroup
  apps := by
    rw [Claim.appsOf_write isOther]
    exact won.apps

/-- The first claim of a group sees what is stored. -/
theorem ClaimFresh.write_eq (fresh : ClaimFresh db claim) (sound : ClaimsSound db)
    (unclaimed : db.claimsOn claim.conversation.id = []) :
    claim.write now db.tables = writeTransfer db.tables claim.conversation claim.member.id
      claim.newOwnerId .firstInvoker none now := by
  obtain ⟨conversationMem, membersMem⟩ := fresh.isStored unclaimed
  apply Claim.write_eq_writeTransfer
  · intro stored storedMem _
    rw [Claim.seen]
    cases found : claim.members.find? fun row => row.id = stored.id with
    | none => rfl
    | some row =>
        have sameId := List.find?_some found
        rw [decide_eq_true_eq] at sameId
        have rowMem := (List.mem_filter.mp (membersMem row (List.mem_of_find?_eq_some found))).1
        exact sound.members.eq_of_mem rowMem storedMem rfl (congrArg some sameId.symm)
  · intro stored storedMem sameId
    exact sound.conversations.eq_of_mem storedMem conversationMem rfl (by rw [sameId])

theorem ClaimFresh.wonBy (fresh : ClaimFresh db claim) (sound : ClaimsSound db)
    (unclaimed : db.claimsOn claim.conversation.id = []) :
    WonBy (claim.write now db.tables)
      ⟨claim.conversation.id, claim.member.id, claim.newOwnerId⟩ := by
  rw [fresh.write_eq sound unclaimed]
  obtain ⟨inTable, isOf⟩ := List.mem_filter.mp
    ((fresh.isStored unclaimed).2 claim.member fresh.isLoaded)
  constructor
  · refine ⟨promoted claim.member.id claim.member, List.mem_filter.mpr ⟨?_, isOf⟩, rfl, fresh.linked⟩
    rw [members_writeTransfer]
    apply Table.mem_update.mpr
    exact ⟨claim.member, inTable, if_pos (beq_iff_eq.mpr (of_decide_eq_true isOf))⟩
  · intro member memberMem
    obtain ⟨stored, ofGroup⟩ := List.mem_filter.mp memberMem
    constructor
    · rw [members_writeTransfer] at stored
      exact id_of_promoted stored (of_decide_eq_true ofGroup)
    · intro isSuccessor
      rw [members_writeTransfer] at stored
      rcases Table.mem_update_cases stored with ⟨old, _, _, rfl⟩ | ⟨_, notSelected⟩
      · exact if_pos isSuccessor
      · rw [of_decide_eq_true ofGroup, beq_self_eq_true] at notSelected
        cases notSelected
  · intro row rowMem isItself
    rw [conversations_writeTransfer] at rowMem
    rcases Table.mem_update_cases rowMem with ⟨_, _, _, rfl⟩ | ⟨_, notSelected⟩
    · rfl
    · rw [isItself, beq_self_eq_true] at notSelected
      cases notSelected
  · intro app appMem
    obtain ⟨_, _, _, appUser⟩ := mem_appsOf_writeTransfer appMem
    rw [appUser, if_pos rfl]

/-- A claim that finds a group that may be claimed is the first one. -/
theorem ClaimsSound.writeClaim (sound : ClaimsSound db) (fresh : ClaimFresh db claim)
    {stored : Conversation} (found : db.tables.conversation? claim.conversation.id = some stored)
    (isClaimable : claimable stored.groupOwnerSource = true) :
    ClaimsSound (writeClaim claim now db) := by
  obtain ⟨storedMem, sameId⟩ := mem_of_conversation? found
  have unclaimed : db.claimsOn claim.conversation.id = [] := by
    by_contra isClaimed
    rw [← sameId] at isClaimed
    rw [sound.closed stored storedMem isClaimed] at isClaimable
    cases isClaimable
  constructor
  · rw [Groups.writeClaim, Claim.conversations_write]
    apply sound.conversations.update
    intro row
    rfl
  · rw [Groups.writeClaim, Claim.members_write]
    apply sound.members.update
    intro row
    rfl
  · intro conversationId first rest isFirst
    rw [claimsOn_writeClaim] at isFirst
    by_cases isOwn : claim.conversation.id = conversationId
    · rw [if_pos isOwn, ← isOwn, unclaimed] at isFirst
      cases isFirst
      exact fresh.wonBy sound unclaimed
    · rw [if_neg isOwn, List.append_nil] at isFirst
      apply (sound.wins conversationId first rest isFirst).of_other
      have firstMem : first ∈ db.claimsOn conversationId := isFirst ▸ List.mem_cons_self
      rw [of_decide_eq_true (List.mem_filter.mp firstMem).2]
      exact isOwn
  · intro row rowMem isClaimed
    by_cases isOwn : claim.conversation.id = row.id
    · change row ∈ (claim.write now db.tables).conversations at rowMem
      rw [fresh.write_eq sound unclaimed, conversations_writeTransfer] at rowMem
      rcases Table.mem_update_cases rowMem with ⟨_, _, _, rfl⟩ | ⟨_, notSelected⟩
      · rfl
      · rw [isOwn, beq_self_eq_true] at notSelected
        cases notSelected
    · rw [claimsOn_writeClaim, if_neg isOwn, List.append_nil] at isClaimed
      exact sound.closed row ((Claim.mem_conversations_write isOwn).mp rowMem) isClaimed

/-- Another claim leaves what was loaded stored, until it is one of the same group. -/
theorem ClaimFresh.of_writeClaim {other : Claim} (fresh : ClaimFresh db other) :
    ClaimFresh (writeClaim claim now db) other where
  linked := fresh.linked
  isLoaded := fresh.isLoaded
  isStored := by
    intro unclaimed
    obtain ⟨wasUnclaimed, isOther⟩ := claimsOn_of_writeClaim unclaimed
    obtain ⟨conversationMem, membersMem⟩ := fresh.isStored wasUnclaimed
    refine ⟨(Claim.mem_conversations_write isOther).mpr conversationMem, ?_⟩
    change ∀ row ∈ other.members,
      row ∈ membersOf (claim.write now db.tables) other.conversation.id
    rw [Claim.membersOf_write isOther]
    exact membersMem

end

/-! ## Runs -/

/-- What a session relies on at a point. -/
def ClaimStage (db : ClaimDb) : ClaimPoint → Prop
  | .readMembers conversation _ =>
      db.claimsOn conversation.id = [] → conversation ∈ db.tables.conversations
  | .lockConversation claim | .lockMembers claim | .lockApps claim | .commit claim =>
      ClaimFresh db claim
  | _ => True

theorem claimOf_eq_some {conversation : Conversation} {members : List ConversationMember}
    {memberId : Uuid} {claim : Claim} (claims : claimOf conversation members memberId = some claim) :
    claim.conversation = conversation ∧ claim.members = members ∧ claim.member ∈ members ∧
      claim.member.userId = some claim.newOwnerId := by
  unfold claimOf at claims
  split at claims
  · simp only [bind, Option.bind_eq_some_iff, pure, Option.some.injEq] at claims
    rcases claims with ⟨member, found, newOwnerId, linked, rfl⟩
    exact ⟨rfl, rfl, List.mem_of_find?_eq_some found, linked⟩
  · cases claims

/-- What a request of the protocol is. -/
inductive ClaimRequests (db : ClaimDb) (point : ClaimPoint) (now : Instant) :
    Request ClaimDb ClaimRow ClaimPoint → Prop
  | read {next : ClaimDb → ClaimPoint} : (ClaimStage db point → ClaimStage db (next db)) →
      ClaimRequests db point now (.read next)
  | lock {rows : ClaimDb → List ClaimRow} {next : ClaimDb → ClaimPoint} :
      (ClaimStage db point → ClaimStage db (next db)) → ClaimRequests db point now (.lock rows next)
  | commit {claim : Claim} {rows : ClaimDb → List ClaimRow} : point = .commit claim →
      ClaimRequests db point now (.commit rows
        (fun db => (db.tables.conversation? claim.conversation.id).isSome) (writeClaim claim now)
        (fun _ => none) none)
  | finished : ClaimRequests db point now (.rollback none)

theorem claimRequests (db : ClaimDb) (point : ClaimPoint) (now : Instant) :
    ClaimRequests db point now (claimRequest point now) := by
  cases point with
  | readConversation conversationId memberId =>
      apply ClaimRequests.read
      intro _
      cases found : db.tables.conversation? conversationId with
      | none => exact True.intro
      | some conversation => exact fun _ => (mem_of_conversation? found).1
  | readMembers conversation memberId =>
      apply ClaimRequests.read
      intro stage
      cases claims : claimOf conversation ((membersOf db.tables conversation.id).filter fun member =>
          member.status = .active) memberId with
      | none => exact True.intro
      | some claim =>
          obtain ⟨sameConversation, sameMembers, isLoaded, linked⟩ := claimOf_eq_some claims
          refine ⟨linked, sameMembers ▸ isLoaded, ?_⟩
          rw [sameConversation, sameMembers]
          intro unclaimed
          exact ⟨stage unclaimed, fun row rowMem => (List.mem_filter.mp rowMem).1⟩
  | lockConversation claim =>
      apply ClaimRequests.lock
      intro stage
      split
      · exact stage
      · exact True.intro
  | lockMembers claim =>
      apply ClaimRequests.lock
      intro stage
      split
      · exact stage
      · exact True.intro
  | lockApps claim => exact ClaimRequests.lock fun stage => stage
  | commit claim => exact ClaimRequests.commit rfl
  | finished => exact ClaimRequests.finished

theorem claimRequests_of_eq (db : ClaimDb) {point : ClaimPoint} {now : Instant}
    {request : Request ClaimDb ClaimRow ClaimPoint}
    (requested : claimProtocol.request point now = request) :
    ClaimRequests db point now request := by
  rw [← requested]
  exact claimRequests db point now

/-- A claim keeps the assertions at the points of other sessions. -/
theorem ClaimStage.of_writeClaim {db : ClaimDb} {claim : Claim} {now : Instant} {point : ClaimPoint}
    (stage : ClaimStage db point) : ClaimStage (writeClaim claim now db) point := by
  cases point with
  | readMembers conversation memberId =>
      intro unclaimed
      obtain ⟨wasUnclaimed, isOther⟩ := claimsOn_of_writeClaim unclaimed
      exact (Claim.mem_conversations_write isOther).mpr (stage wasUnclaimed)
  | lockConversation other | lockMembers other | lockApps other | commit other =>
      exact ClaimFresh.of_writeClaim stage
  | readConversation | finished => exact True.intro

/-- The proof outline. -/
def claimOutline :
    Outline claimProtocol fun system event => claimsUnclaimed system event = true where
  Global := ClaimsSound
  Local db point _ := ClaimStage db point
  start := by
    intro database point mayStart _
    cases point <;> first | exact True.intro | cases mayStart
  read := by
    intro database point now next held requested _ stage
    cases claimRequests_of_eq database requested with
    | read arrives => exact arrives stage
  lock := by
    intro database point now rows next held requested _ stage
    cases claimRequests_of_eq database requested with
    | lock arrives => exact arrives stage
  skipLocked := by
    intro database point now candidates next held chosen requested
    cases claimRequests_of_eq database requested
  rollback := by
    intro database point now next target held requested target_eq _ _
    cases claimRequests_of_eq database requested with
    | finished => cases target_eq
  refused := by
    intro database point now rows permitted write next refused target held requested target_eq _ _
    cases claimRequests_of_eq database requested with
    | commit _ => cases target_eq
  commit := by
    intro system session point now rows permitted write next refused commits allowed sound stage
    have isPermitted := commits.permitted
    cases claimRequests_of_eq system.database commits.requested with
    | @commit claim _ isCommit =>
        subst isCommit
        obtain ⟨stored, found⟩ := Option.isSome_iff_exists.mp isPermitted
        simp only [claimsUnclaimed, commits.at_point, found, Option.all_some] at allowed
        refine ⟨sound.writeClaim stage found allowed, ?_⟩
        intro target target_eq
        cases target_eq
  interference := by
    intro system session point now rows permitted write next refused commits _ _ _ other held
      otherStage _
    cases claimRequests_of_eq system.database commits.requested with
    | commit _ => exact otherStage.of_writeClaim

/-- In a run in which every claim is committed while its group may still be claimed, the member
whose claim of a group was committed first is its owner. -/
theorem unclaimed_claims_win {db : ClaimDb} {system : System ClaimDb ClaimRow ClaimPoint}
    (keys : GroupKeys db.tables) (noClaims : db.claims = [])
    (run : Run (System.step claimProtocol) (fun system event => claimsUnclaimed system event = true)
      (System.idle db) system) : FirstClaimsWin system.database := by
  have notClaimed : ∀ conversationId, db.claimsOn conversationId = [] := by
    intro conversationId
    rw [ClaimDb.claimsOn, noClaims]
    rfl
  have initially : ClaimsSound db := by
    constructor
    · rw [Table.UniqueOn, ← Function.comp_def some Conversation.id, List.filterMap_eq_map]
      exact keys.conversations
    · exact keys.members.id
    · intro conversationId first rest isFirst
      rw [notClaimed] at isFirst
      cases isFirst
    · intro row _ isClaimed
      exact absurd (notClaimed row.id) isClaimed
  have idle : claimOutline.Sound (System.idle db) := Outline.sound_idle initially
  have sound : ClaimsSound system.database := (idle.run run).global
  exact sound.wins

/-! ## Two claims -/

/-- A group without an owner, of two members, and an app of a user who left. -/
def unclaimedGroupDb : ClaimDb where
  tables := { AppsDb.empty with
    conversations := [⟨1, 6, .group, some "Trip", .auto, some .unclaimed, true⟩]
    members := [
      ⟨11, 1, some 7, "+14155552681", none, some "Alice", none, .member, .active, 1, none, 1⟩,
      ⟨12, 1, some 8, "+14155552682", none, some "Bob", none, .member, .active, 2, none, 2⟩]
    apps := [⟨20, 6, 1, "trip-split", "Trip split", "", .collaborativeLink, .active, .code, 1⟩]
    nextId := 40 }
  claims := []

theorem groupKeys_unclaimedGroupDb : GroupKeys unclaimedGroupDb.tables where
  members := by decide
  conversations := by decide
  apps := by decide
  conversation_lt := by decide
  member_lt := by decide
  app_lt := by decide

/-- A session loads a group and its members. -/
def claimUpToLock (session : Nat) (memberId : Uuid) : List (Event ClaimPoint Instant) :=
  .start session (.readConversation 1 memberId) :: List.replicate 2 (.advance session 5)

/-- A session locks the rows of a group and commits its claim. -/
def claimFromLock (session : Nat) : List (Event ClaimPoint Instant) :=
  List.replicate 4 (.advance session 6)

/-- Both sessions load the group before either claims it: the second claim takes the group from
the first. -/
theorem simultaneous_claims_overwrite :
    ∃ system : System ClaimDb ClaimRow ClaimPoint,
      Run (System.step claimProtocol) (fun _ _ => True) (System.idle unclaimedGroupDb) system ∧
      system.database.claims = [⟨1, 11, 7⟩, ⟨1, 12, 8⟩] ∧
      system.database.tables.conversations.map (·.userId) = [8] ∧
      system.database.tables.members.map (·.role) = [.owner, .owner] ∧
      ¬ FirstClaimsWin system.database := by
  have runs : (execute (System.step claimProtocol) (fun _ _ => true)
      (System.idle unclaimedGroupDb) (claimUpToLock 1 11 ++ claimUpToLock 2 12 ++ claimFromLock 1 ++
        claimFromLock 2)).any (fun system =>
      (system.database.claims = [⟨1, 11, 7⟩, ⟨1, 12, 8⟩]) &&
        ((system.database.tables.conversations =
          [⟨1, 8, .group, some "Trip", .auto, some .firstInvoker, true⟩]) &&
          system.database.tables.members.map (·.role) = [.owner, .owner])) = true := by
    decide
  simp only [Option.any_eq_true, Bool.and_eq_true, decide_eq_true_eq] at runs
  rcases runs with ⟨system, executed, claims, conversations, roles⟩
  refine ⟨system, (run_of_execute executed).mono fun _ _ _ => True.intro, claims,
    by rw [conversations]; rfl, roles, ?_⟩
  intro wins
  have won := wins 1 ⟨1, 11, 7⟩ [⟨1, 12, 8⟩] (by rw [ClaimDb.claimsOn, claims]; rfl)
  have sameUser := won.conversation _ (conversations ▸ List.mem_singleton_self _) rfl
  cases sameUser

/-- The second session loads the group after it was claimed. -/
theorem successive_claims_keep_first :
    ∃ system : System ClaimDb ClaimRow ClaimPoint,
      system.database.claims = [⟨1, 11, 7⟩] ∧ system.points 2 = some .finished ∧
      FirstClaimsWin system.database := by
  have runs : (execute (System.step claimProtocol) claimsUnclaimed
      (System.idle unclaimedGroupDb) (claimUpToLock 1 11 ++ claimFromLock 1 ++
        claimUpToLock 2 12)).any (fun system =>
      (system.database.claims = [⟨1, 11, 7⟩]) && system.points 2 = some .finished) = true := by
    decide
  simp only [Option.any_eq_true, Bool.and_eq_true, decide_eq_true_eq] at runs
  rcases runs with ⟨system, executed, claims, refused⟩
  exact ⟨system, claims, refused,
    unclaimed_claims_win groupKeys_unclaimedGroupDb rfl (run_of_execute executed)⟩

end DotBackend.Groups
