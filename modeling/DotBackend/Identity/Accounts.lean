import DotBackend.Identity.Ownership

/-!
# Accounts keep their handles

Resolving handles and authenticating tokens, one transaction after the other, keep a
consistent store consistent: users with identifiers have one primary identifier,
identifiers keep their owners, and a phone resolves to the account that it first
belonged to.
-/

namespace DotBackend.Identity

open Data Transaction Transition Program

variable {userId : Uuid} {user : User} {numbering : Numbering}

/-- What a transaction that succeeds ensures. -/
abbrev Alone {α : Type} (program : IdentityProgram α) (store : IdentityStore)
    (post : α → IdentityStore → Prop) : Prop :=
  program.Ensures IdentityError.integrityError store post

/-- The row of a loaded user, as far as it matters here. -/
def Loaded (store : IdentityStore) (user : User) : Prop :=
  ∃ row ∈ store.users, row.id = user.id ∧ row.phoneNumber = user.phoneNumber

/-! ## Copying the phone -/

/-- Users other than the given one are as before. -/
def OthersKept (userId : Uuid) (before after : IdentityStore) : Prop :=
  ∀ later ∈ after.users, later.id = userId ∨
    ∃ old ∈ before.users, later.id = old.id ∧ later.phoneNumber = old.phoneNumber

theorem OthersKept.of_users_eq {before after : IdentityStore}
    (same : after.users = before.users) : OthersKept userId before after := by
  intro later laterMem
  exact Or.inr ⟨later, same ▸ laterMem, rfl, rfl⟩

theorem OthersKept.trans {first second third : IdentityStore}
    (earlier : OthersKept userId first second) (later : OthersKept userId second third) :
    OthersKept userId first third := by
  intro user userMem
  rcases later user userMem with isUser | ⟨middle, middleMem, sameId, samePhone⟩
  · exact Or.inl isUser
  · rcases earlier middle middleMem with isUser | ⟨old, oldMem, oldId, oldPhone⟩
    · exact Or.inl (sameId.trans isUser)
    · exact Or.inr ⟨old, oldMem, sameId.trans oldId, samePhone.trans oldPhone⟩

/-- What copying a phone leaves. -/
structure Synced (store : IdentityStore) (user synced : User) (final : IdentityStore) : Prop where
  advances : Advances store final
  loaded : Loaded final synced
  sameUser : synced.id = user.id
  sameIdentifiers : final.identifiers = store.identifiers
  others : OthersKept user.id store final

theorem syncLegacyPhone_alone {store : IdentityStore} (consistent : Consistent store)
    {identifier : UserIdentifier} (loaded : Loaded store user)
    (stored : ∃ row ∈ store.identifiers, row.key = identifier.key ∧ row.userId = user.id ∧
      row.isPrimary = identifier.isPrimary) :
    Alone (syncLegacyPhone user identifier) store (Synced store user) := by
  have unchanged : Synced store user user store :=
    ⟨consistent.advances, loaded, rfl, rfl, OthersKept.of_users_eq rfl⟩
  rw [syncLegacyPhone]
  split
  · exact ensures_pure unchanged
  · rename_i isPhone
    split
    · rename_i allowed
      apply Ensures.execute
      intro notRefused
      obtain ⟨stored, storedMem, sameKey, isOwner, samePrimary⟩ := stored
      obtain ⟨row, rowMem, rowId, rowPhone⟩ := loaded
      have sameKind : stored.kind = identifier.kind := congrArg IdentifierKey.kind sameKey
      have sameValue : stored.normalizedValue = identifier.normalizedValue :=
        congrArg IdentifierKey.normalizedValue sameKey
      have storedPhone : stored.kind = .phone := by
        rw [sameKind]
        exact not_not.mp isPhone
      have mayCopy : row.phoneNumber = none ∨ stored.isPrimary = true := by
        rw [rowPhone, samePrimary]
        exact allowed
      rw [← rowId] at isOwner notRefused ⊢
      rw [← sameValue] at notRefused ⊢
      have advances := consistent.setPhone rowMem storedMem storedPhone isOwner mayCopy notRefused
      apply ensures_pure
      refine ⟨advances, ?_, rowId, rfl, ?_⟩
      · refine ⟨_, Table.mem_update.mpr ⟨row, rowMem, rfl⟩, ?_⟩
        rw [if_pos (beq_self_eq_true row.id)]
        exact ⟨rfl, rfl⟩
      · intro later laterMem
        rcases Table.mem_update_cases laterMem with ⟨old, _, selected, rfl⟩ | ⟨laterMem, _⟩
        · exact Or.inl (rowId ▸ beq_iff_eq.mp selected)
        · exact Or.inr ⟨later, laterMem, rfl, rfl⟩
    · exact ensures_pure unchanged

/-! ## Linking -/

/-- A handle that no identifier holds may be linked to the user: no other user has the phone,
and the user has it or has an active identifier. -/
def Linkable (store : IdentityStore) (userId : Uuid) (key : IdentifierKey) : Prop :=
  (∀ row ∈ store.identifiers, row.key ≠ key) → ∀ value, key = ⟨.phone, value⟩ →
    (∀ user ∈ store.users, user.phoneNumber = some value → user.id = userId) ∧
      ((∃ row ∈ store.identifiers, row.userId = userId ∧ row.status = .active) ∨
        ∃ user ∈ store.users, user.id = userId ∧ user.phoneNumber = some value)

/-- What linking a handle leaves. -/
structure Links (store : IdentityStore) (user : User) (key : IdentifierKey)
    (linked : UserIdentifier × User) (final : IdentityStore) : Prop where
  advances : Advances store final
  loaded : Loaded final linked.2
  sameUser : linked.2.id = user.id
  others : OthersKept user.id store final
  active : ∃ row ∈ final.identifiers, row.userId = user.id ∧ row.status = .active
  owned : ∃ row ∈ final.identifiers, row.key = key ∧ row.userId = user.id

/-- Linking a handle keeps the others linkable. -/
theorem Linkable.of_links {store final : IdentityStore} {key other : IdentifierKey}
    {linked : UserIdentifier × User} (linkable : Linkable store user.id other)
    (links : Links store user key linked final) : Linkable final linked.2.id other := by
  intro absent value isPhone
  have wasAbsent : ∀ row ∈ store.identifiers, row.key ≠ other := by
    intro row rowMem sameKey
    obtain ⟨later, laterMem, _, laterKey, _⟩ := links.advances.evolves.owners row rowMem
    exact absent later laterMem (laterKey.trans sameKey)
  rw [links.sameUser]
  refine ⟨?_, Or.inl links.active⟩
  intro later laterMem phone
  rcases links.others later laterMem with isUser | ⟨old, oldMem, sameId, samePhone⟩
  · exact isUser
  · rw [sameId]
    exact (linkable wasAbsent value isPhone).1 old oldMem (samePhone.symm.trans phone)

/-- An identifier that has been stored, and the copy of its phone. -/
theorem links_of_stored {store middle : IdentityStore} {identifier : UserIdentifier}
    (advances : Advances store middle)
    (sameUsers : middle.users = store.users) (loaded : Loaded store user)
    (stored : identifier ∈ middle.identifiers) (isOwner : identifier.userId = user.id)
    (isActive : identifier.status = .active) :
    Alone (do
      let user ← syncLegacyPhone user identifier
      pure (identifier, user)) middle (Links store user identifier.key) := by
  have loadedToo : Loaded middle user := by
    rw [Loaded, sameUsers]
    exact loaded
  refine Ensures.bind (syncLegacyPhone_alone advances.consistent loadedToo
    ⟨identifier, stored, rfl, isOwner, rfl⟩) ?_
  intro synced final sync
  apply ensures_pure
  have stays : identifier ∈ final.identifiers := sync.sameIdentifiers ▸ stored
  exact ⟨advances.trans sync.advances, sync.loaded, sync.sameUser,
    (OthersKept.of_users_eq sameUsers).trans sync.others, ⟨identifier, stays, isOwner, isActive⟩,
    ⟨identifier, stays, rfl, isOwner⟩⟩

theorem linkExisting_alone {store : IdentityStore} (consistent : Consistent store)
    {existing : UserIdentifier} (loaded : Loaded store user)
    (existingMem : existing ∈ store.identifiers) (source : String) (verifiedAt : Option Instant) :
    Alone (linkExisting user existing source verifiedAt false) store
      (Links store user existing.key) := by
  rw [linkExisting]
  split
  · exact ensures_raise
  · rename_i sameUser
    apply Ensures.lift
    intro clean _
    apply Ensures.execute
    intro _
    have advances := consistent.setLinked existing.id clean (verifiedAt <|> existing.verifiedAt)
    apply links_of_stored advances rfl loaded
    · apply Table.mem_update.mpr
      refine ⟨existing, existingMem, ?_⟩
      rw [if_pos (beq_self_eq_true existing.id)]
    · exact not_not.mp sameUser
    · rfl

theorem activeIdentifier_none {store : IdentityStore}
    (none_eq : store.activeIdentifier userId = none) :
    ¬ ∃ row ∈ store.identifiers, row.userId = userId ∧ row.status = .active := by
  rintro ⟨row, rowMem, rowUser, isActive⟩
  have notFound := List.find?_eq_none.mp (Option.map_eq_none_iff.mp none_eq) row rowMem
  exact notFound (decide_eq_true ⟨rowUser, isActive⟩)

theorem activeIdentifier_some {store : IdentityStore} {id : Uuid}
    (some_eq : store.activeIdentifier userId = some id) :
    ∃ row ∈ store.identifiers, row.userId = userId := by
  obtain ⟨row, found, _⟩ := Option.map_eq_some_iff.mp some_eq
  have ofUser : row.userId = userId ∧ row.status = .active := by simpa using List.find?_some found
  exact ⟨row, List.mem_of_find?_eq_some found, ofUser.1⟩

theorem linkNew_alone {store : IdentityStore} (consistent : Consistent store) {key : IdentifierKey}
    (loaded : Loaded store user) (absent : store.identifierAt key = none)
    (linkable : Linkable store user.id key) (source : String) (verifiedAt : Option Instant)
    {isPrimary : Bool}
    (adopts : isPrimary = true → user.phoneNumber = some key.normalizedValue) (newId : Uuid) :
    Alone (linkNew user key source verifiedAt isPrimary newId) store (Links store user key) := by
  have isOwned : ∃ row ∈ store.users, row.id = user.id := by
    obtain ⟨row, rowMem, rowId, _⟩ := loaded
    exact ⟨row, rowMem, rowId⟩
  apply Ensures.query
  apply Ensures.lift
  intro clean _
  generalize isNew : (⟨newId, user.id, key.kind, key.normalizedValue, some key.normalizedValue,
    clean, verifiedAt, isPrimary || (store.activeIdentifier user.id).isNone, .active⟩ :
      UserIdentifier) = identifier
  have owner_eq : identifier.userId = user.id := by rw [← isNew]
  have key_eq : identifier.key = key := by rw [← isNew]; rfl
  have active_eq : identifier.status = .active := by rw [← isNew]
  have phoneFree : Consistent.PhoneFree store identifier := by
    intro other otherMem value phone isPhone
    rw [owner_eq]
    rw [key_eq] at isPhone
    exact ((linkable (key_ne_of_identifierAt absent) value isPhone).1 other otherMem phone).symm
  apply Ensures.savepoint
  · -- The handle is not stored, so no other user can have it.
    intro _
    apply Ensures.query
    rw [absent]
    exact ensures_raise
  · intro notRefused
    obtain ⟨notTaken, _⟩ := Bool.or_eq_false_iff.mp notRefused
    simp only [if_true]
    rw [← key_eq]
    split
    · rename_i primary
      have id_eq : identifier.id = newId := by rw [← isNew]
      have isPrimary_eq : identifier.isPrimary = true := by rw [← isNew]; exact primary
      have isOwned : ∃ row ∈ store.users, row.id = identifier.userId := by
        rw [owner_eq]
        exact isOwned
      -- The only phone that the user can have is the one that is linked.
      have ownPhone : identifier.kind = .phone → ∀ row ∈ store.users,
          row.id = identifier.userId → ∀ value, row.phoneNumber = some value →
            identifier.normalizedValue = value := by
        intro isPhone row rowMem rowId value phone
        have keyIsPhone : key = ⟨.phone, key.normalizedValue⟩ := by
          rw [← key_eq, UserIdentifier.key, isPhone]
        have ownValue : row.phoneNumber = some key.normalizedValue := by
          rcases Bool.or_eq_true_iff.mp primary with adopted | noneActive
          · obtain ⟨stored, storedMem, storedId, storedPhone⟩ := loaded
            have same : row = stored := consistent.userIds.eq_of_mem rowMem storedMem rfl
              (by rw [storedId, rowId, owner_eq])
            rw [same, storedPhone, adopts adopted]
          · have noActive := activeIdentifier_none (Option.isNone_iff_eq_none.mp noneActive)
            rcases (linkable (key_ne_of_identifierAt absent) _ keyIsPhone).2 with active |
              ⟨holder, holderMem, holderId, holderPhone⟩
            · exact absurd active noActive
            · have same : row = holder := consistent.userIds.eq_of_mem rowMem holderMem rfl
                (by rw [holderId, rowId, owner_eq])
              rw [same, holderPhone]
        rw [ownValue] at phone
        cases phone
        rw [← key_eq]
        rfl
      apply Ensures.execute
      intro _
      rw [← owner_eq, ← id_eq]
      have advances := consistent.appendPrimary notTaken isOwned isPrimary_eq phoneFree ownPhone
      apply links_of_stored advances rfl loaded
      · apply Table.mem_update.mpr
        refine ⟨identifier, List.mem_append_right _ List.mem_cons_self, ?_⟩
        simp
      · exact owner_eq
      · exact active_eq
    · rename_i notPrimary
      obtain ⟨isNotPrimary, hasActive⟩ := Bool.or_eq_false_iff.mp (Bool.not_eq_true _ |>.mp notPrimary)
      obtain ⟨id, found⟩ := Option.isSome_iff_exists.mp (Option.isNone_eq_false_iff.mp hasActive)
      have hasOther : ∃ row ∈ store.identifiers, row.userId = identifier.userId := by
        rw [owner_eq]
        exact activeIdentifier_some found
      have notPrimary_eq : identifier.isPrimary = false := by
        rw [← isNew]
        exact Bool.not_eq_true _ |>.mp notPrimary
      have isOwned : ∃ row ∈ store.users, row.id = identifier.userId := by
        rw [owner_eq]
        exact isOwned
      have advances := consistent.appendIdentifier notTaken isOwned notPrimary_eq hasOther phoneFree
      apply links_of_stored advances rfl loaded
      · exact List.mem_append_right _ List.mem_cons_self
      · exact owner_eq
      · exact active_eq

/-- Linking a handle, when one that is adopted is not stored yet. -/
theorem linkUserIdentifier_alone {store : IdentityStore}
    (consistent : Consistent store) {value : String}
    {expectedKind : Option UserIdentifierKind} {key : IdentifierKey}
    (normalized : normalizeUserIdentifier numbering value expectedKind = .ok key)
    (loaded : Loaded store user) (linkable : Linkable store user.id key) (source : String)
    (verifiedAt : Option Instant) {isPrimary : Bool}
    (adopts : isPrimary = true →
      store.identifierAt key = none ∧ user.phoneNumber = some key.normalizedValue)
    (newId : Uuid) :
    Alone (linkUserIdentifier numbering user value expectedKind source verifiedAt isPrimary newId)
      store (Links store user key) := by
  apply Ensures.lift
  intro other otherNormalized
  rw [normalized] at otherNormalized
  cases otherNormalized
  apply Ensures.query
  cases found : store.identifierAt key with
  | none =>
      exact linkNew_alone consistent loaded found linkable source verifiedAt
        (fun primary => (adopts primary).2) newId
  | some existing =>
      obtain ⟨existingMem, sameKey⟩ := mem_of_identifierAt found
      cases isPrimary with
      | true =>
          rw [(adopts rfl).1] at found
          cases found
      | false =>
          rw [← sameKey]
          exact linkExisting_alone consistent loaded existingMem source verifiedAt

/-! ## Resolving a handle -/

/-- What resolving a handle leaves: the user that it belongs to. -/
structure Resolves (store : IdentityStore) (key : IdentifierKey) (resolution : UserResolution)
    (final : IdentityStore) : Prop where
  advances : Advances store final
  owned : ∃ row ∈ final.identifiers, row.key = key ∧ row.userId = resolution.user.id

theorem resolveExisting_alone {store : IdentityStore} (consistent : Consistent store)
    (input : ResolutionInput) {identifier : UserIdentifier}
    (identifierMem : identifier ∈ store.identifiers) :
    Alone (resolveExisting input identifier) store (Resolves store identifier.key) := by
  rw [resolveExisting]
  split
  · exact ensures_raise
  · apply Ensures.query
    cases found : store.userAt identifier.userId with
    | none => exact ensures_raise
    | some user =>
        obtain ⟨userMem, userId⟩ := mem_of_userAt found
        dsimp only
        generalize (if input.verified = true then some input.now else identifier.verifiedAt) =
          verifiedAt
        apply Ensures.execute
        intro _
        apply Ensures.execute
        intro _
        have verified := consistent.setVerified identifier.id verifiedAt
        have advances := verified.trans (verified.consistent.touchUser user.id input.now)
        have loaded : Loaded ((touchUser user.id input.now).apply
            ((setVerified identifier.id verifiedAt).apply store))
              { user with lastSeenAt := input.now } := by
          refine ⟨_, Table.mem_update.mpr ⟨user, userMem, rfl⟩, ?_⟩
          rw [if_pos (beq_self_eq_true user.id)]
          exact ⟨rfl, rfl⟩
        have stored : { identifier with verifiedAt } ∈ ((touchUser user.id input.now).apply
            ((setVerified identifier.id verifiedAt).apply store)).identifiers := by
          apply Table.mem_update.mpr
          refine ⟨identifier, identifierMem, ?_⟩
          rw [if_pos (beq_self_eq_true identifier.id)]
        refine Ensures.bind (syncLegacyPhone_alone advances.consistent loaded
          ⟨_, stored, rfl, userId.symm, rfl⟩) ?_
        intro synced final sync
        apply ensures_pure
        refine ⟨advances.trans sync.advances, { identifier with verifiedAt },
          sync.sameIdentifiers ▸ stored, rfl, ?_⟩
        rw [sync.sameUser]
        exact userId.symm

theorem adoptLegacyUser_alone {store : IdentityStore}
    (consistent : Consistent store) (input : ResolutionInput) {key : IdentifierKey}
    (absent : store.identifierAt key = none)
    (normalized : normalizeUserIdentifier numbering key.normalizedValue (some key.kind) = .ok key)
    (found : store.userWithPhone key.normalizedValue = some user) :
    Alone (adoptLegacyUser numbering input key user) store (Resolves store key) := by
  obtain ⟨userMem, phone⟩ := mem_of_userWithPhone found
  have linkable : Linkable store user.id key := by
    intro _ value keyIsPhone
    rw [keyIsPhone] at phone
    constructor
    · intro other otherMem otherPhone
      rw [consistent.phoneNumbers.eq_of_mem otherMem userMem otherPhone phone]
    · exact Or.inr ⟨user, userMem, rfl, phone⟩
  refine Ensures.bind (linkUserIdentifier_alone consistent normalized ⟨user, userMem, rfl, rfl⟩
    linkable _ _ (fun _ => ⟨absent, phone⟩) _) ?_
  intro linked middle links
  apply Ensures.execute
  intro _
  apply ensures_pure
  have touched := links.advances.consistent.touchUser user.id input.now
  obtain ⟨row, rowMem, rowKey, rowUser⟩ := links.owned
  refine ⟨links.advances.trans touched, row, rowMem, rowKey, ?_⟩
  rw [rowUser]
  exact links.sameUser.symm

theorem createUser_alone {store : IdentityStore} (consistent : Consistent store)
    (input : ResolutionInput) {key : IdentifierKey} (absent : store.identifierAt key = none)
    (noLegacy : key.kind = .phone → store.userWithPhone key.normalizedValue = none) :
    Alone (createUser input key) store (Resolves store key) := by
  apply Ensures.lift
  intro clean _
  apply Ensures.savepoint
  · -- Nobody else has created the identifier in between.
    intro _
    apply Ensures.query
    rw [absent]
    exact ensures_raise
  · intro notRefused
    apply ensures_pure
    have key_eq : ∀ value, (⟨key.kind, key.normalizedValue⟩ : IdentifierKey) = ⟨.phone, value⟩ →
        key.kind = .phone ∧ key.normalizedValue = value := by
      intro value same
      exact ⟨congrArg IdentifierKey.kind same, congrArg IdentifierKey.normalizedValue same⟩
    refine ⟨consistent.insertUser rfl rfl ?_ ?_ notRefused, _,
      List.mem_append_right _ List.mem_cons_self, rfl, rfl⟩
    · intro value
      simp only [UserIdentifier.key]
      constructor
      · intro phone
        split at phone
        · rename_i isPhone
          cases phone
          rw [isPhone]
        · cases phone
      · intro same
        obtain ⟨isPhone, sameValue⟩ := key_eq value same
        rw [if_pos isPhone, sameValue]
    · intro other otherMem value otherPhone same
      obtain ⟨isPhone, sameValue⟩ := key_eq value same
      rw [← sameValue] at otherPhone
      exact phone_ne_of_userWithPhone (noLegacy isPhone) other otherMem otherPhone

/-- A handle resolves to the user of its identifier. -/
theorem resolveUserFromIdentifier_alone {store : IdentityStore}
    (consistent : Consistent store) (input : ResolutionInput) {key : IdentifierKey}
    (normalized : normalizeUserIdentifier numbering input.value input.expectedKind = .ok key) :
    Alone (resolveUserFromIdentifier numbering input) store (Resolves store key) := by
  apply Ensures.lift
  intro other otherNormalized
  rw [normalized] at otherNormalized
  cases otherNormalized
  apply Ensures.query
  cases found : store.identifierAt key with
  | some identifier =>
      obtain ⟨identifierMem, sameKey⟩ := mem_of_identifierAt found
      rw [← sameKey]
      exact resolveExisting_alone consistent input identifierMem
  | none =>
      by_cases isPhone : key.kind = .phone
      · simp only [isPhone, if_true]
        apply Ensures.query
        cases legacy : store.userWithPhone key.normalizedValue with
        | some user =>
            have again := normalize_again normalized isPhone
            rw [← isPhone] at again
            exact adoptLegacyUser_alone consistent input found again legacy
        | none => exact createUser_alone consistent input found fun _ => legacy
      · simp only [isPhone, if_false]
        exact createUser_alone consistent input found fun kind => absurd kind isPhone

/-! ## Looking a handle up -/

/-- What looking a handle up finds. -/
structure Finds (store : IdentityStore) (key : IdentifierKey) (user : Option User) : Prop where
  found : ∀ found, user = some found → found ∈ store.users ∧
    ((∃ row ∈ store.identifiers, row.key = key ∧ row.userId = found.id ∧ row.status = .active) ∨
      (key.kind = .phone ∧ found.phoneNumber = some key.normalizedValue))
  legacy : store.identifierAt key = none → key.kind = .phone → ∀ other ∈ store.users,
    other.phoneNumber = some key.normalizedValue → user = some other

theorem findUserByIdentifier_alone {store : IdentityStore}
    (consistent : Consistent store) {value : String} {expectedKind : Option UserIdentifierKind}
    {key : IdentifierKey}
    (normalized : normalizeUserIdentifier numbering value expectedKind = .ok key) :
    Alone (findUserByIdentifier numbering value expectedKind) store fun user final =>
      final = store ∧ Finds store key user := by
  apply Ensures.lift
  intro other otherNormalized
  rw [normalized] at otherNormalized
  cases otherNormalized
  apply Ensures.query
  cases atKey : store.identifierAt key with
  | some identifier =>
      have notLegacy : ∀ user : Option User, store.identifierAt key = none → key.kind = .phone →
          ∀ other ∈ store.users, other.phoneNumber = some key.normalizedValue →
            user = some other := by
        intro user absent
        rw [atKey] at absent
        cases absent
      obtain ⟨identifierMem, sameKey⟩ := mem_of_identifierAt atKey
      simp only
      split
      · apply ensures_pure
        exact ⟨rfl, fun _ isSome => (nomatch isSome), notLegacy none⟩
      · rename_i isActive
        intro user final isOk
        cases isOk
        refine ⟨rfl, ?_, notLegacy _⟩
        intro found isFound
        obtain ⟨foundMem, foundId⟩ := mem_of_userAt isFound
        exact ⟨foundMem, Or.inl ⟨identifier, identifierMem, sameKey, foundId.symm,
          not_not.mp isActive⟩⟩
  | none =>
      simp only
      split
      · rename_i notPhone
        apply ensures_pure
        exact ⟨rfl, fun _ isSome => (nomatch isSome), fun _ isPhone => absurd isPhone notPhone⟩
      · rename_i isPhone
        intro user final isOk
        cases isOk
        refine ⟨rfl, ?_, ?_⟩
        · intro found isFound
          obtain ⟨foundMem, phone⟩ := mem_of_userWithPhone isFound
          exact ⟨foundMem, Or.inr ⟨not_not.mp isPhone, phone⟩⟩
        · intro _ _ other otherMem otherPhone
          cases found : store.userWithPhone key.normalizedValue with
          | none => exact absurd otherPhone (phone_ne_of_userWithPhone found other otherMem)
          | some user =>
              obtain ⟨userMem, userPhone⟩ := mem_of_userWithPhone found
              rw [consistent.phoneNumbers.eq_of_mem otherMem userMem otherPhone userPhone]
              exact found

/-! ## Authentication -/

/-- A claim of a token that was looked up. -/
def Matches (numbering : Numbering) (store : IdentityStore) (claim : MatchedClaim) : Prop :=
  ∃ key, normalizeUserIdentifier numbering claim.key.normalizedValue (some claim.key.kind) = .ok key ∧
    (claim.key.kind = .phone → key = claim.key) ∧ key.kind = claim.key.kind ∧
      Finds store key claim.user

theorem matchClaims_alone {store : IdentityStore}
    (consistent : Consistent store) (claims : List (Option String × UserIdentifierKind)) :
    Alone (matchClaims numbering claims) store fun matched final => final = store ∧
      (∀ claim ∈ matched, Matches numbering store claim) ∧
        (matched.map fun claim => claim.key.kind).Sublist (claims.map Prod.snd) := by
  induction claims with
  | nil =>
      apply ensures_pure
      exact ⟨rfl, fun claim claimMem => (nomatch claimMem), List.Sublist.refl _⟩
  | cons first claims ih =>
      obtain ⟨value, kind⟩ := first
      cases value with
      | none =>
          refine Ensures.mono ih ?_
          rintro matched final ⟨same, matchedAll, sublist⟩
          exact ⟨same, matchedAll, sublist.cons kind⟩
      | some value =>
          apply Ensures.lift
          intro handle normalized
          have sameKind := kind_of_normalize normalized
          cases again : normalizeUserIdentifier numbering handle.normalizedValue (some kind) with
          | error error =>
              intro matched final isOk
              rw [findUserByIdentifier, again] at isOk
              cases isOk
          | ok key =>
              refine Ensures.bind (findUserByIdentifier_alone consistent again) ?_
              rintro user middle ⟨rfl, finds⟩
              refine Ensures.bind ih ?_
              rintro others final ⟨rfl, matchedAll, sublist⟩
              apply ensures_pure
              refine ⟨rfl, ?_, ?_⟩
              · intro claim claimMem
                rcases List.mem_cons.mp claimMem with rfl | claimMem
                · refine ⟨key, sameKind ▸ again, ?_, (kind_of_normalize again).trans sameKind.symm,
                    finds⟩
                  intro isPhone
                  have phoneAgain := normalize_again normalized isPhone
                  rw [← sameKind, isPhone, phoneAgain] at again
                  cases again
                  rfl
                · exact matchedAll claim claimMem
              · rw [List.map_cons, sameKind]
                exact sublist.cons_cons kind

theorem linkClaims_alone {store : IdentityStore}
    (consistent : Consistent store) (input : AuthenticationInput) {claims : List MatchedClaim}
    (loaded : Loaded store user)
    (linkable : ∀ claim ∈ claims, ∀ key,
      normalizeUserIdentifier numbering claim.key.normalizedValue (some claim.key.kind) = .ok key →
        Linkable store user.id key) :
    Alone (linkClaims numbering input user claims) store fun _ final => Advances store final := by
  induction claims generalizing user store with
  | nil => exact ensures_pure consistent.advances
  | cons claim claims ih =>
      cases normalized : normalizeUserIdentifier numbering claim.key.normalizedValue
          (some claim.key.kind) with
      | error error =>
          intro answer final isOk
          rw [linkClaims, linkUserIdentifier, normalized] at isOk
          cases isOk
      | ok key =>
          have mayLink := linkable claim List.mem_cons_self key normalized
          have adopts : false = true →
              store.identifierAt key = none ∧ user.phoneNumber = some key.normalizedValue := by
            intro impossible
            cases impossible
          refine Ensures.bind (linkUserIdentifier_alone consistent normalized loaded mayLink
            input.verified.provider (some input.now) adopts
            (input.newIdentifierId claim.key.kind)) ?_
          intro linked middle links
          refine Ensures.mono (ih links.advances.consistent links.loaded ?_) ?_
          · intro other otherMem otherKey otherNormalized
            exact (linkable other (List.mem_cons_of_mem claim otherMem) otherKey
              otherNormalized).of_links links
          · intro _ final later
            exact links.advances.trans later

/-- The claims of a token may be linked to the one user that they find. -/
theorem linkable_of_matches {store : IdentityStore}
    {claims : List MatchedClaim} (matched : ∀ claim ∈ claims, Matches numbering store claim)
    (kinds : (claims.map fun claim => claim.key.kind).Nodup) {others : List User}
    (candidates : claims.filterMap MatchedClaim.user = user :: others)
    (sameUser : ∀ other ∈ others, other.id = user.id) {claim : MatchedClaim}
    (claimMem : claim ∈ claims) {key : IdentifierKey}
    (normalized : normalizeUserIdentifier numbering claim.key.normalizedValue
      (some claim.key.kind) = .ok key) : Linkable store user.id key := by
  have isUser : ∀ other ∈ claims, ∀ found, other.user = some found → found.id = user.id := by
    intro other otherMem found isFound
    have candidate : found ∈ user :: others := by
      rw [← candidates]
      exact List.mem_filterMap.mpr ⟨other, otherMem, isFound⟩
    rcases List.mem_cons.mp candidate with rfl | otherUser
    · rfl
    · exact sameUser found otherUser
  obtain ⟨other, otherNormalized, _, _, finds⟩ := matched claim claimMem
  rw [normalized] at otherNormalized
  cases otherNormalized
  intro absent value isPhone
  have notStored : store.identifierAt key = none := by
    apply List.find?_eq_none.mpr
    intro row rowMem
    simpa using absent row rowMem
  have keyPhone : key.kind = .phone := by rw [isPhone]
  have keyValue : key.normalizedValue = value := by rw [isPhone]
  constructor
  · intro holder holderMem phone
    rw [← keyValue] at phone
    exact isUser claim claimMem holder (finds.legacy notStored keyPhone holder holderMem phone)
  · -- Some claim has found the user, by an active identifier or as the holder of the phone.
    have isCandidate : user ∈ claims.filterMap MatchedClaim.user := by
      rw [candidates]
      exact List.mem_cons_self
    obtain ⟨finder, finderMem, isFound⟩ := List.mem_filterMap.mp isCandidate
    obtain ⟨finderKey, finderNormalized, phoneKey, sameKind, finderFinds⟩ := matched finder finderMem
    obtain ⟨userMem, byRow | ⟨finderPhone, phone⟩⟩ := finderFinds.found user isFound
    · obtain ⟨row, rowMem, _, rowUser, isActive⟩ := byRow
      exact Or.inl ⟨row, rowMem, rowUser, isActive⟩
    · have sameClaim : finder = claim := by
        apply List.inj_on_of_nodup_map kinds finderMem claimMem
        rw [← sameKind, finderPhone, ← kind_of_normalize normalized, keyPhone]
      rw [sameClaim, normalized] at finderNormalized
      cases finderNormalized
      rw [keyValue] at phone
      exact Or.inr ⟨user, userMem, rfl, phone⟩

theorem resolveUserFromVerifiedClaims_alone {store : IdentityStore}
    (consistent : Consistent store) (input : AuthenticationInput) {claims : List MatchedClaim}
    (matched : ∀ claim ∈ claims, Matches numbering store claim)
    (kinds : (claims.map fun claim => claim.key.kind).Nodup) :
    Alone (resolveUserFromVerifiedClaims numbering input claims) store
      fun _ final => Advances store final := by
  rw [resolveUserFromVerifiedClaims]
  split
  · exact ensures_raise
  · rename_i user others candidates
    split
    · exact ensures_raise
    · rename_i noOther
      have sameUser : ∀ other ∈ others, other.id = user.id := by
        intro other otherMem
        by_contra differs
        exact noOther (List.any_eq_true.mpr ⟨other, otherMem, decide_eq_true differs⟩)
      have isCandidate : user ∈ claims.filterMap MatchedClaim.user := by
        rw [candidates]
        exact List.mem_cons_self
      obtain ⟨finder, finderMem, isFound⟩ := List.mem_filterMap.mp isCandidate
      obtain ⟨_, _, _, _, finds⟩ := matched finder finderMem
      have loaded : Loaded store user := ⟨user, (finds.found user isFound).1, rfl, rfl⟩
      refine Ensures.bind (linkClaims_alone consistent input loaded fun claim claimMem key
        normalized => linkable_of_matches matched kinds candidates sameUser claimMem
          normalized).mapError ?_
      intro linked final advances
      exact ensures_pure advances

theorem linkIdentity_alone {store : IdentityStore} (consistent : Consistent store)
    (input : AuthenticationInput) (phone : Option String) (found : AuthenticatedUser) :
    Alone (linkIdentity input phone found) store fun _ final => Advances store final := by
  apply Ensures.savepoint
  · intro _
    apply Ensures.query
    split
    · exact ensures_raise
    · split
      · exact ensures_raise
      · exact ensures_pure consistent.advances
  · intro _
    exact ensures_pure (consistent.of_same rfl rfl)

theorem resolveLinkedIdentity_alone {store : IdentityStore}
    (consistent : Consistent store) (input : AuthenticationInput) (identity : AuthIdentity) :
    Alone (resolveLinkedIdentity numbering input identity) store
      fun _ final => Advances store final := by
  rw [resolveLinkedIdentity]
  split
  · exact ensures_raise
  · apply Ensures.query
    split
    · exact ensures_raise
    · apply Ensures.lift
      intro phone _
      simp only
      split
      · apply Ensures.execute
        intro _
        exact ensures_pure (consistent.of_same rfl rfl)
      · exact ensures_pure consistent.advances

theorem resolveAuthenticatedUser_alone {store : IdentityStore}
    (consistent : Consistent store) (input : AuthenticationInput) :
    Alone (resolveAuthenticatedUser numbering input) store fun _ final => Advances store final := by
  apply Ensures.query
  split
  · exact resolveLinkedIdentity_alone consistent input _
  · refine Ensures.bind (matchClaims_alone consistent input.verified.claims) ?_
    rintro claims middle ⟨rfl, matched, sublist⟩
    have kinds : (claims.map fun claim => claim.key.kind).Nodup := by
      have tokenKinds : input.verified.claims.map Prod.snd = [.phone, .email] := rfl
      rw [tokenKinds] at sublist
      apply sublist.nodup
      decide
    refine Ensures.bind (resolveUserFromVerifiedClaims_alone consistent input matched kinds) ?_
    intro found later advances
    refine Ensures.mono (linkIdentity_alone advances.consistent input _ found) ?_
    intro _ final linked
    exact advances.trans linked

/-! ## Sequences of transactions -/

/-- A call as one transaction; one that raises is rolled back. -/
def IdentityCall.transact (numbering : Numbering) (store : IdentityStore) (call : IdentityCall) :
    IdentityStore :=
  match (call.program numbering).alone .integrityError store with
  | .ok (_, final) => final
  | .error _ => store

def identityStep (numbering : Numbering) (store : IdentityStore) (call : IdentityCall) :
    Option IdentityStore :=
  some (call.transact numbering store)

theorem call_alone {store : IdentityStore} (consistent : Consistent store)
    (call : IdentityCall) :
    Alone (call.program numbering) store fun _ final => Advances store final := by
  cases call with
  | find value expectedKind =>
      cases normalized : normalizeUserIdentifier numbering value expectedKind with
      | error error =>
          intro answer final isOk
          rw [IdentityCall.program, findUserByIdentifier, normalized] at isOk
          cases isOk
      | ok key =>
          refine Ensures.bind (findUserByIdentifier_alone consistent normalized) ?_
          rintro user final ⟨rfl, _⟩
          exact ensures_pure consistent.advances
  | resolve input =>
      cases normalized : normalizeUserIdentifier numbering input.value input.expectedKind with
      | error error =>
          intro answer final isOk
          rw [IdentityCall.program, resolveUserFromIdentifier, normalized] at isOk
          cases isOk
      | ok key =>
          refine Ensures.bind (resolveUserFromIdentifier_alone consistent input normalized) ?_
          intro resolution final resolves
          exact ensures_pure resolves.advances
  | authenticate input =>
      refine Ensures.bind (resolveAuthenticatedUser_alone consistent input) ?_
      intro authenticated final advances
      exact ensures_pure advances

/-- One transaction. -/
theorem Consistent.transact {store : IdentityStore}
    (consistent : Consistent store) (call : IdentityCall) :
    Advances store (call.transact numbering store) := by
  rw [IdentityCall.transact]
  split
  · rename_i answer final isOk
    exact call_alone consistent call answer final isOk
  · exact consistent.advances

/-- Any number of transactions. -/
theorem Consistent.run {store after : IdentityStore}
    (consistent : Consistent store)
    (run : Run (identityStep numbering) (fun _ _ => True) store after) : Advances store after := by
  apply run.invariant (Advances store) _ consistent.advances
  intro before call next advances _ stepped
  cases stepped
  exact advances.trans (advances.consistent.transact call)

/-- In a consistent store, and after any calls, users with identifiers have one primary
identifier, identifiers keep their owners, the phone of a user belongs to that user, and a
phone resolves to the account that it belonged to before. -/
theorem handles_keep_accounts {numbering : Numbering} {initial middle after : IdentityStore}
    (consistent : Consistent initial)
    (earlier : Run (identityStep numbering) (fun _ _ => True) initial middle)
    (later : Run (identityStep numbering) (fun _ _ => True) middle after) :
    (∀ identifier ∈ after.identifiers, ∃! primary, primary ∈ after.identifiers ∧
        primary.userId = identifier.userId ∧ primary.isPrimary = true) ∧
      (∀ identifier ∈ middle.identifiers, (∃ row ∈ after.identifiers, row.key = identifier.key) ∧
        ∀ row ∈ after.identifiers, row.key = identifier.key → row.userId = identifier.userId) ∧
      (∀ user ∈ after.users, ∀ value, user.phoneNumber = some value →
        ∀ identifier ∈ after.identifiers, identifier.key = ⟨.phone, value⟩ →
          identifier.userId = user.id) ∧
      ∀ value userId, middle.Belongs value userId → ∀ input resolution final,
        normalizeUserIdentifier numbering input.value input.expectedKind = .ok ⟨.phone, value⟩ →
          (resolveUserFromIdentifier numbering input).alone .integrityError after =
            .ok (resolution, final) → resolution.user.id = userId := by
  have atMiddle := (consistent.run earlier).consistent
  have advances := atMiddle.run later
  have atEnd := advances.consistent
  refine ⟨atEnd.onePrimary, ?_, atEnd.phoneOwner, ?_⟩
  · intro identifier identifierMem
    obtain ⟨kept, keptMem, _, sameKey, sameUser⟩ :=
      advances.evolves.owners identifier identifierMem
    refine ⟨⟨kept, keptMem, sameKey⟩, ?_⟩
    intro row rowMem rowKey
    have same : row = kept := atEnd.identifierKeys.eq_of_mem rowMem keptMem rfl
      (by rw [rowKey, sameKey])
    rw [same, sameUser]
  · intro value userId belongs input resolution final normalized isOk
    have resolves := resolveUserFromIdentifier_alone atEnd input normalized resolution final isOk
    have before := resolves.advances.evolves.phones value userId
      (advances.evolves.phones value userId belongs)
    exact resolves.advances.consistent.belongs_unique (Or.inl resolves.owned) before

/-- A user from before identifiers, and another who is known by an email address. -/
def legacyStore : IdentityStore where
  users := [⟨1, some "+14155552671", none, 0, 0⟩, ⟨2, none, none, 0, 0⟩]
  identifiers := [⟨1, 2, .email, "ann@example.com", none, "channel", none, true, .active⟩]
  identities := []

/-- A message from a phone. -/
def phoneMessage (value : String) (newId : Uuid) : ResolutionInput :=
  ⟨value, some .phone, "linq", true, 5, newId, newId⟩

theorem consistent_legacyStore : Consistent legacyStore := by
  refine ⟨⟨by decide, by decide, by decide, by decide,
    by decide⟩, ?_, ?_, ?_⟩
  · intro identifier identifierMem
    rw [List.mem_singleton.mp identifierMem]
    refine ⟨_, ⟨List.mem_cons_self, rfl, rfl⟩, ?_⟩
    exact fun other isPrimary => List.mem_singleton.mp isPrimary.1
  · intro user _ value _ identifier identifierMem isPhone
    rw [List.mem_singleton.mp identifierMem] at isPhone
    cases isPhone
  · intro user _ value _ primary primaryMem _ _ isPhone
    rw [List.mem_singleton.mp primaryMem] at isPhone
    cases isPhone

/-- The phone from before identifiers stays with its user when it is adopted and another
phone is linked to the other user. -/
theorem legacy_phone_keeps_account :
    ∃ after resolution final,
      Run (identityStep Numbering.ascii) (fun _ _ => True) legacyStore after ∧
        (resolveUserFromIdentifier Numbering.ascii (phoneMessage "+14155552671" 8)).alone
          .integrityError after = .ok (resolution, final) ∧ resolution.user.id = 1 := by
  have runs : (execute (identityStep Numbering.ascii) (fun _ _ => true) legacyStore
      [.authenticate ⟨⟨"firebase", "ann", some "+201001234567", some "ann@example.com"⟩, 5, 3, 4, 5⟩,
        .resolve (phoneMessage "+14155552671" 7)]).any (fun after =>
          ((resolveUserFromIdentifier Numbering.ascii (phoneMessage "+14155552671" 8)).alone
            .integrityError after).isOk) = true := by
    decide
  rw [Option.any_eq_true] at runs
  rcases runs with ⟨after, executed, succeeds⟩
  rcases exists_eq_ok succeeds with ⟨⟨resolution, final⟩, isOk⟩
  have run : Run (identityStep Numbering.ascii) (fun _ _ => True) legacyStore after :=
    (run_of_execute executed).mono fun _ _ _ => True.intro
  have belongs : legacyStore.Belongs "+14155552671" 1 :=
    Or.inr ⟨_, List.mem_cons_self, rfl, rfl⟩
  have normalized : normalizeUserIdentifier Numbering.ascii "+14155552671" (some .phone) =
      .ok ⟨.phone, "+14155552671"⟩ := by
    decide
  exact ⟨after, resolution, final, run, isOk, (handles_keep_accounts consistent_legacyStore Run.refl
    run).2.2.2 _ 1 belongs (phoneMessage "+14155552671" 8) resolution final normalized isOk⟩

/-! ## Stores that are not consistent -/

/-- The phone of one user is an identifier of another, who has no primary one. -/
def strayStore : IdentityStore where
  users := [⟨1, some "+14155552671", none, 0, 0⟩, ⟨2, none, none, 0, 0⟩]
  identifiers := [⟨1, 2, .phone, "+14155552671", none, "channel", none, false, .active⟩]
  identities := []

/-- The row of a user holds a phone that is not the primary one and no identifier. -/
def unadoptedStore : IdentityStore where
  users := [⟨1, some "+14155552671", none, 0, 0⟩]
  identifiers := [⟨1, 1, .phone, "+201001234567", none, "channel", none, true, .active⟩]
  identities := []

/-- Unique phone numbers are not enough: a store may begin without a primary identifier and
with the phone of another user, and a message from a primary phone replaces a phone that
is recorded in the row only, which then resolves to a new account. -/
theorem inconsistent_stores_mix_accounts :
    (strayStore.WellFormed ∧ (strayStore.identifiers.any fun identifier => identifier.isPrimary) = false ∧
      ∃ user ∈ strayStore.users, ∃ identifier ∈ strayStore.identifiers,
        user.phoneNumber = some "+14155552671" ∧ identifier.key = ⟨.phone, "+14155552671"⟩ ∧
          identifier.userId ≠ user.id) ∧
      unadoptedStore.WellFormed ∧ unadoptedStore.Belongs "+14155552671" 1 ∧
        ∃ after resolution final,
          Run (identityStep Numbering.ascii) (fun _ _ => True) unadoptedStore after ∧
            (resolveUserFromIdentifier Numbering.ascii (phoneMessage "+14155552671" 8)).alone
              .integrityError after = .ok (resolution, final) ∧ resolution.user.id = 8 := by
  have runs : (execute (identityStep Numbering.ascii) (fun _ _ => true) unadoptedStore
      [.resolve (phoneMessage "+201001234567" 7)]).any (fun after =>
        ((resolveUserFromIdentifier Numbering.ascii (phoneMessage "+14155552671" 8)).alone
          .integrityError after).toOption.any fun reached => reached.1.user.id = 8) = true := by
    decide
  simp only [Option.any_eq_true] at runs
  rcases runs with ⟨after, executed, ⟨resolution, final⟩, isSome, isNew⟩
  refine ⟨⟨?_, by decide, by decide⟩, ?_, ?_, after, resolution, final,
    (run_of_execute executed).mono fun _ _ _ => True.intro, ok_of_toOption isSome,
    of_decide_eq_true isNew⟩
  · constructor <;> decide
  · constructor <;> decide
  · exact Or.inr ⟨_, List.mem_cons_self, rfl, rfl⟩

end DotBackend.Identity
