import DotBackend.Groups.MemberChanges
import DotBackend.Transaction.ReadCommitted

/-!
# Joining a group from an invite

A transaction that joins a group reads the invite, the group and the member, and then inserts
the member and stores the count of the invite that it read, plus one. The column of
admissions records the members who were inserted; the service does not read it.
-/

namespace DotBackend.Groups

open Data Channel Apps Transition
open Transaction

/-- A member who was inserted, and the invite that they came with. -/
structure Admission where
  inviteId : Uuid
  memberId : Uuid
  deriving DecidableEq

structure InviteDb where
  tables : AppsDb
  admissions : List Admission
  deriving DecidableEq

/-- The rows that transactions lock. -/
inductive JoinRow
  | invite (id : Uuid)
  | conversation (id : Uuid)
  | member (id : Uuid)
  deriving DecidableEq

/-- The members who were admitted through an invite. -/
def InviteDb.admitted (db : InviteDb) (inviteId : Uuid) : Nat :=
  db.admissions.countP fun admission => admission.inviteId = inviteId

/-! ## The transactions -/

inductive JoinPoint
  | readInvite (token : String) (user : User)
  | readConversation (invite : ConversationInvite) (user : User)
  | readMember (invite : ConversationInvite) (user : User)
  /-- No row stood for the user. -/
  | insert (invite : ConversationInvite) (user : User)
  /-- The row stood for the user. -/
  | rejoin (member : ConversationMember) (user : User)
  | finished
  deriving DecidableEq

/-- The member is inserted, and the count that was read is stored, plus one. -/
def insertMember (handle : String) (invite : ConversationInvite) (user : User) (now : Instant)
    (db : InviteDb) : InviteDb where
  tables := { db.tables with
    members := db.tables.members ++
      [joinedRow db.tables.nextId invite.conversationId user handle now]
    invites := Table.update (fun row => row.id == invite.id)
      (fun row => { row with useCount := invite.useCount + 1 }) db.tables.invites
    nextId := db.tables.nextId + 1 }
  admissions := ⟨invite.id, db.tables.nextId⟩ :: db.admissions

/-- The columns that rejoining assigns, over the row that is stored. -/
def rejoinedStored (user : User) (loaded stored : ConversationMember) : ConversationMember :=
  let assigned := rejoinedRow user loaded
  { stored with
    userId := mergeColumn loaded.userId assigned.userId stored.userId
    displayName := mergeColumn loaded.displayName assigned.displayName stored.displayName
    status := mergeColumn loaded.status assigned.status stored.status
    leftAt := mergeColumn loaded.leftAt assigned.leftAt stored.leftAt }

def rejoinMember (member : ConversationMember) (user : User) (db : InviteDb) : InviteDb where
  tables := { db.tables with
    members := Table.update (fun row => row.id == member.id) (rejoinedStored user member)
      db.tables.members }
  admissions := db.admissions

/-- `join_group_from_invite`. -/
def joinRequest (directory : Directory) : JoinPoint → Instant → Request InviteDb JoinRow JoinPoint
  | .readInvite token user, now =>
      .read fun db =>
        ((db.tables.invites.find? fun invite => invite.tokenHash = sha256 token.toList).filter
          (ConversationInvite.isOpen now)).elim .finished fun invite =>
            .readConversation invite user
  | .readConversation invite user, _ =>
      .read fun db =>
        if (db.tables.conversation? invite.conversationId).any fun row => row.kind = .group then
          .readMember invite user
        else .finished
  | .readMember invite user, _ =>
      .read fun db =>
        (db.tables.members.find?
          (isJoining invite.conversationId user.id (directory.primaryHandle user))).elim
            (.insert invite user) fun member => .rejoin member user
  | .insert invite user, now =>
      .commit (fun _ => [.invite invite.id, .conversation invite.conversationId])
        (fun db => (db.tables.invites.any fun row => row.id = invite.id) &&
          acceptsMember db.tables (joinedRow db.tables.nextId invite.conversationId user
            (directory.primaryHandle user) now))
        (insertMember (directory.primaryHandle user) invite user now) (fun _ => none) none
  | .rejoin member user, _ =>
      .commit (fun _ => [.member member.id, .conversation member.conversationId])
        (fun db => (db.tables.members.any fun row => row.id = member.id) &&
          MembersValid (rejoinMember member user db).tables.members)
        (rejoinMember member user) (fun _ => none) none
  | .finished, _ => .rollback none

def JoinPoint.isEntry : JoinPoint → Bool
  | .readInvite _ _ => true
  | _ => false

def joinProtocol (directory : Directory) : Protocol InviteDb JoinRow JoinPoint Instant where
  starts := JoinPoint.isEntry
  request := joinRequest directory

/-! ## The property and the condition -/

/-- An invite counts the members who were admitted through it, up to its limit. -/
def Counts (db : InviteDb) (invite : ConversationInvite) : Prop :=
  (db.admitted invite.id : Int) = invite.useCount ∧ invite.useCount ≤ invite.maxUses

/-- The keys of the invites hold, and every invite counts. -/
structure InvitesCounted (db : InviteDb) : Prop where
  keys : Table.UniqueOn (fun invite => some invite.id) db.tables.invites
  counts : ∀ invite ∈ db.tables.invites, Counts db invite

/-- A member is inserted while the count of the invite is the one that was read. -/
def countsLoaded (system : System InviteDb JoinRow JoinPoint) :
    Event JoinPoint Instant → Bool
  | .advance session _ =>
      match system.points session with
      | some (.insert invite _) => system.database.tables.invites.all fun row =>
          row.id ≠ invite.id || row.useCount = invite.useCount
      | _ => true
  | _ => true

/-! ## One transaction -/

section

variable {db : InviteDb} {invite : ConversationInvite} {user : User} {handle : String}
  {now : Instant}

/-- Rejoining writes over a row that is as it was read. -/
theorem rejoinedStored_loaded (member : ConversationMember) :
    rejoinedStored user member member = rejoinedRow user member := by
  simp [rejoinedStored, rejoinedRow]

/-- On the state that was read, an insertion is what `join_group_from_invite` writes. -/
theorem writeJoin_eq_insertMember
    (isStored : ∀ row ∈ db.tables.invites, row.id = invite.id → row = invite)
    (notFound : db.tables.members.find? (isJoining invite.conversationId user.id handle) = none)
    (accepted : acceptsMember db.tables
      (joinedRow db.tables.nextId invite.conversationId user handle now) = true) :
    writeJoin db.tables invite user handle now =
      .ok (insertMember handle invite user now db).tables := by
  have invites : Table.update (fun row => row.id == invite.id)
      (fun row => { row with useCount := row.useCount + 1 }) db.tables.invites =
        Table.update (fun row => row.id == invite.id)
          (fun row => { row with useCount := invite.useCount + 1 }) db.tables.invites := by
    apply List.map_congr_left
    intro row rowMem
    by_cases isInvite : row.id = invite.id
    · rw [isStored row rowMem isInvite]
    · simp [isInvite]
  simp only [writeJoin, notFound, accepted, invites, insertMember]
  rfl

/-- So is rejoining. -/
theorem writeJoin_eq_rejoinMember {member : ConversationMember}
    (isStored : ∀ row ∈ db.tables.members, row.id = member.id → row = member)
    (found : db.tables.members.find? (isJoining invite.conversationId user.id handle) = some member)
    (valid : MembersValid (rejoinMember member user db).tables.members) :
    writeJoin db.tables invite user handle now = .ok (rejoinMember member user db).tables := by
  have members : Table.update (fun row => row.id == member.id) (rejoinedStored user member)
      db.tables.members = Table.update (fun row => row.id == member.id)
        (fun _ => rejoinedRow user member) db.tables.members := by
    apply List.map_congr_left
    intro row rowMem
    by_cases isMember : row.id = member.id
    · rw [isStored row rowMem isMember, rejoinedStored_loaded]
    · simp [isMember]
  rw [rejoinMember, members] at valid
  simp only [writeJoin, found, rejoinMember, members, decide_eq_true valid]
  rfl

/-- Every admission is counted, if the invite was stored as it was read. -/
theorem InvitesCounted.insertMember (counted : InvitesCounted db)
    (isOpen : invite.useCount < invite.maxUses)
    (limit : ∀ row ∈ db.tables.invites, row.id = invite.id → row.maxUses = invite.maxUses)
    (fresh : ∀ row ∈ db.tables.invites, row.id = invite.id → row.useCount = invite.useCount) :
    InvitesCounted (insertMember handle invite user now db) := by
  constructor
  · apply counted.keys.update
    intro row
    rfl
  · intro row rowMem
    rcases Table.mem_update_cases rowMem with ⟨old, oldMem, selected, rfl⟩ | ⟨oldMem, notSelected⟩
    · have isInvite : old.id = invite.id := beq_iff_eq.mp selected
      obtain ⟨admitted, _⟩ := counted.counts old oldMem
      constructor
      · rw [fresh old oldMem isInvite] at admitted
        have grows : (Groups.insertMember handle invite user now db).admitted old.id =
            db.admitted old.id + 1 := List.countP_cons_of_pos (decide_eq_true isInvite.symm)
        rw [grows, Int.natCast_add, admitted]
        rfl
      · change invite.useCount + 1 ≤ old.maxUses
        rw [limit old oldMem isInvite]
        exact isOpen
    · have isOther : invite.id ≠ row.id := fun same => by
        rw [same, beq_self_eq_true] at notSelected
        cases notSelected
      obtain ⟨admitted, limited⟩ := counted.counts row oldMem
      refine ⟨?_, limited⟩
      have stays : (Groups.insertMember handle invite user now db).admitted row.id =
          db.admitted row.id :=
        List.countP_cons_of_neg fun isRow => isOther (of_decide_eq_true isRow)
      rw [stays, admitted]

end

/-! ## Runs -/

/-- What a session knows of the invite that it read. -/
structure InviteRead (db : InviteDb) (invite : ConversationInvite) : Prop where
  isOpen : invite.useCount < invite.maxUses
  limit : ∀ row ∈ db.tables.invites, row.id = invite.id → row.maxUses = invite.maxUses

/-- What a session relies on at a point. -/
def JoinStage (db : InviteDb) : JoinPoint → Prop
  | .readConversation invite _ | .readMember invite _ | .insert invite _ => InviteRead db invite
  | _ => True

/-- The commits of the protocol. -/
inductive JoinWriting : JoinPoint → (InviteDb → InviteDb) → Prop
  | insert {invite : ConversationInvite} {user : User} {handle : String} {now : Instant} :
      JoinWriting (.insert invite user) (insertMember handle invite user now)
  | rejoin {member : ConversationMember} {user : User} :
      JoinWriting (.rejoin member user) (rejoinMember member user)

/-- What a request of the protocol is. -/
inductive JoinRequests (db : InviteDb) (point : JoinPoint) :
    Request InviteDb JoinRow JoinPoint → Prop
  | read {next : InviteDb → JoinPoint} :
      (InvitesCounted db → JoinStage db point → JoinStage db (next db)) →
      JoinRequests db point (.read next)
  | commit {rows : InviteDb → List JoinRow} {permitted : InviteDb → Bool}
      {write : InviteDb → InviteDb} : JoinWriting point write →
      JoinRequests db point (.commit rows permitted write (fun _ => none) none)
  | finished : JoinRequests db point (.rollback none)

theorem joinRequests (directory : Directory) (db : InviteDb) (point : JoinPoint) (now : Instant) :
    JoinRequests db point (joinRequest directory point now) := by
  cases point with
  | readInvite token user =>
      apply JoinRequests.read
      intro counted _
      cases found : (db.tables.invites.find? fun invite =>
          invite.tokenHash = sha256 token.toList).filter (ConversationInvite.isOpen now) with
      | none => exact True.intro
      | some invite =>
          obtain ⟨matched, isOpen⟩ := Option.filter_eq_some_iff.mp found
          simp only [ConversationInvite.isOpen, Bool.and_eq_true, decide_eq_true_eq] at isOpen
          refine ⟨isOpen.2, ?_⟩
          intro row rowMem sameId
          rw [counted.keys.eq_of_mem rowMem (List.mem_of_find?_eq_some matched) rfl (by rw [sameId])]
  | readConversation invite user =>
      apply JoinRequests.read
      intro _ stage
      split
      · exact stage
      · exact True.intro
  | readMember invite user =>
      apply JoinRequests.read
      intro _ stage
      cases db.tables.members.find?
          (isJoining invite.conversationId user.id (directory.primaryHandle user)) with
      | none => exact stage
      | some member => exact True.intro
  | insert invite user => exact JoinRequests.commit JoinWriting.insert
  | rejoin member user => exact JoinRequests.commit JoinWriting.rejoin
  | finished => exact JoinRequests.finished

theorem joinRequests_of_eq {directory : Directory} (db : InviteDb) {point : JoinPoint}
    {now : Instant} {request : Request InviteDb JoinRow JoinPoint}
    (requested : (joinProtocol directory).request point now = request) :
    JoinRequests db point request := by
  rw [← requested]
  exact joinRequests directory db point now

/-- No commit changes the limit of an invite. -/
theorem JoinWriting.keeps_limit {point : JoinPoint} {write : InviteDb → InviteDb}
    (writing : JoinWriting point write) {db : InviteDb} {row : ConversationInvite}
    (rowMem : row ∈ (write db).tables.invites) :
    ∃ old ∈ db.tables.invites, old.id = row.id ∧ old.maxUses = row.maxUses := by
  cases writing with
  | insert =>
      rcases Table.mem_update_cases rowMem with ⟨old, oldMem, _, rfl⟩ | ⟨oldMem, _⟩
      · exact ⟨old, oldMem, rfl, rfl⟩
      · exact ⟨row, oldMem, rfl, rfl⟩
  | rejoin => exact ⟨row, rowMem, rfl, rfl⟩

theorem JoinStage.keeps {point other : JoinPoint} {write : InviteDb → InviteDb} {db : InviteDb}
    (writing : JoinWriting point write) (stage : JoinStage db other) :
    JoinStage (write db) other := by
  have keeps : ∀ invite, InviteRead db invite → InviteRead (write db) invite := by
    intro invite inviteRead
    refine ⟨inviteRead.isOpen, ?_⟩
    intro row rowMem sameId
    obtain ⟨old, oldMem, oldId, sameLimit⟩ := writing.keeps_limit rowMem
    rw [← sameLimit]
    exact inviteRead.limit old oldMem (oldId.trans sameId)
  cases other with
  | readConversation invite user | readMember invite user | insert invite user =>
      exact keeps invite stage
  | readInvite | rejoin | finished => exact True.intro

/-- A commit under the condition keeps every invite counted. -/
theorem JoinWriting.keeps_counted {system : System InviteDb JoinRow JoinPoint} {session : Nat}
    {point : JoinPoint} {now : Instant} {write : InviteDb → InviteDb}
    (writing : JoinWriting point write) (atPoint : system.points session = some point)
    (allowed : countsLoaded system (.advance session now) = true)
    (counted : InvitesCounted system.database) (stage : JoinStage system.database point) :
    InvitesCounted (write system.database) := by
  cases writing with
  | insert =>
      apply counted.insertMember stage.isOpen stage.limit
      intro row rowMem sameId
      simp only [countsLoaded, atPoint, List.all_eq_true] at allowed
      simpa [sameId] using allowed row rowMem
  | rejoin => exact ⟨counted.keys, counted.counts⟩

/-- The proof outline. -/
def joinOutline (directory : Directory) :
    Outline (joinProtocol directory) fun system event => countsLoaded system event = true where
  Global := InvitesCounted
  Local db point _ := JoinStage db point
  start := by
    intro database point mayStart _
    cases point <;> first | exact True.intro | cases mayStart
  read := by
    intro database point now next held requested counted stage
    cases joinRequests_of_eq database requested with
    | read arrives => exact arrives counted stage
  lock := by
    intro database point now rows next held requested
    cases joinRequests_of_eq database requested
  skipLocked := by
    intro database point now candidates next held chosen requested
    cases joinRequests_of_eq database requested
  rollback := by
    intro database point now next target held requested target_eq _ _
    cases joinRequests_of_eq database requested with
    | finished => cases target_eq
  refused := by
    intro database point now rows permitted write next refused target held requested target_eq _ _
    cases joinRequests_of_eq database requested with
    | commit _ => cases target_eq
  commit := by
    intro system session point now rows permitted write next refused commits allowed counted stage
    cases joinRequests_of_eq system.database commits.requested with
    | commit writing =>
        refine ⟨writing.keeps_counted commits.at_point allowed counted stage, ?_⟩
        intro target target_eq
        cases target_eq
  interference := by
    intro system session point now rows permitted write next refused commits _ _ _ other held
      otherStage _
    cases joinRequests_of_eq system.database commits.requested with
    | commit writing => exact otherStage.keeps writing

/-- In a run in which every member is inserted while the count of the invite is the one that was
read, no invite admits more members than its limit, and its count is their number. -/
theorem fresh_joins_stay_limited {directory : Directory} {db : InviteDb}
    {system : System InviteDb JoinRow JoinPoint} (counted : InvitesCounted db)
    (run : Run (System.step (joinProtocol directory))
      (fun system event => countsLoaded system event = true) (System.idle db) system) :
    ∀ invite ∈ system.database.tables.invites, Counts system.database invite := by
  have idle : (joinOutline directory).Sound (System.idle db) := Outline.sound_idle counted
  have sound : InvitesCounted system.database := (idle.run run).global
  exact sound.counts

/-! ## Two users -/

/-- A group and an invite for one more member. -/
def invitedGroup : InviteDb where
  tables := { AppsDb.empty with
    conversations := [⟨1, 7, .group, some "Trip", .auto, some .explicit, true⟩]
    members := [⟨10, 1, some 7, "+14155552681", none, some "Alice", some "web", .owner, .active, 1,
      none, 1⟩]
    invites := [⟨20, 1, sha256 "join-the-trip".toList, 1, 0, 1000, none⟩]
    nextId := 30 }
  admissions := []

/-- The handles of users who join. -/
def joinerDirectory : Directory :=
  { tripDirectory with primaryHandle := fun user => if user.id = 8 then "bob" else "carol" }

/-- A user joins, up to the insertion of the member. -/
def joinUpToInsert (session : Nat) (userId : Uuid) : List (Event JoinPoint Instant) :=
  .start session (.readInvite "join-the-trip" ⟨userId, none, true⟩) ::
    List.replicate 3 (.advance session 5)

theorem invitesCounted_invitedGroup : InvitesCounted invitedGroup where
  keys := by decide
  counts := by
    intro invite inviteMem
    rw [List.mem_singleton.mp inviteMem]
    exact ⟨rfl, by decide⟩

/-- Both read the invite before either inserts: two members are admitted through an invite for
one, which counts one. -/
theorem simultaneous_joins_exceed_limit :
    ∃ system : System InviteDb JoinRow JoinPoint,
      Run (System.step (joinProtocol joinerDirectory)) (fun _ _ => True)
        (System.idle invitedGroup) system ∧
      system.database.admitted 20 = 2 ∧
      system.database.tables.invites.map (fun invite => (invite.maxUses, invite.useCount)) =
        [(1, 1)] ∧
      ¬ ∀ invite ∈ system.database.tables.invites, Counts system.database invite := by
  have runs : (execute (System.step (joinProtocol joinerDirectory)) (fun _ _ => true)
      (System.idle invitedGroup)
      (joinUpToInsert 1 8 ++ joinUpToInsert 2 9 ++ [.advance 1 5, .advance 2 5])).any (fun system =>
        system.database.admitted 20 = 2 && system.database.tables.invites =
          [⟨20, 1, sha256 "join-the-trip".toList, 1, 1, 1000, none⟩]) = true := by
    decide +kernel
  simp only [Option.any_eq_true, Bool.and_eq_true, decide_eq_true_eq] at runs
  rcases runs with ⟨system, executed, admitted, invites⟩
  refine ⟨system, (run_of_execute executed).mono fun _ _ _ => True.intro, admitted,
    by rw [invites]; rfl, ?_⟩
  intro counts
  obtain ⟨counted, _⟩ := counts _ (invites ▸ List.mem_singleton_self _)
  rw [admitted] at counted
  cases counted

/-- The second user reads the invite after the first has joined. -/
theorem successive_joins_stay_limited :
    ∃ system : System InviteDb JoinRow JoinPoint,
      system.database.admitted 20 = 1 ∧ system.points 2 = some .finished ∧
      ∀ invite ∈ system.database.tables.invites, Counts system.database invite := by
  have runs : (execute (System.step (joinProtocol joinerDirectory)) countsLoaded
      (System.idle invitedGroup)
      (joinUpToInsert 1 8 ++ [.advance 1 5, .start 2 (.readInvite "join-the-trip" ⟨9, none, true⟩),
        .advance 2 5])).any (fun system =>
          system.database.admitted 20 = 1 && system.points 2 = some .finished) = true := by
    decide +kernel
  simp only [Option.any_eq_true, Bool.and_eq_true, decide_eq_true_eq] at runs
  rcases runs with ⟨system, executed, admitted, refused⟩
  exact ⟨system, admitted, refused,
    fresh_joins_stay_limited invitesCounted_invitedGroup (run_of_execute executed)⟩

end DotBackend.Groups
