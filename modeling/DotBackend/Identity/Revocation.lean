import DotBackend.Identity.Authentication

/-!
# Revoked identifiers

No call revokes an identifier, and none returns a user for a handle whose identifier is
revoked, whichever race it loses. Linking the claims of a token makes an identifier of
the user that one of them has found active again; the runs in which this does not happen
leave every revoked identifier revoked.
-/

namespace DotBackend.Identity

open Data Transaction Transition Program

/-- The identifiers that are revoked. -/
def IdentityStore.revokedIds (store : IdentityStore) : List Uuid :=
  (store.identifiers.filter fun identifier => identifier.status = .revoked).map UserIdentifier.id

/-- The handle has a revoked identifier. -/
def IdentityStore.RevokedKey (store : IdentityStore) (key : IdentifierKey) : Prop :=
  ∃ identifier ∈ store.identifiers, identifier.key = key ∧ identifier.status = .revoked

/-- The handle, as it is looked up, has no revoked identifier. -/
def NotRevoked (numbering : Numbering) (store : IdentityStore) (value : String)
    (expectedKind : Option UserIdentifierKind) : Prop :=
  ∀ key, normalizeUserIdentifier numbering value expectedKind = .ok key → ¬ store.RevokedKey key

/-- Identifiers of a first store are kept, and those that were revoked in it, and no others,
are revoked. -/
structure Unrevived (initial store : IdentityStore) : Prop where
  ids : Table.UniqueOn (fun identifier : UserIdentifier => some identifier.id) store.identifiers
  keys : Table.UniqueOn (fun identifier : UserIdentifier => some identifier.key) store.identifiers
  kept : ∀ identifier ∈ initial.identifiers, ∃ later ∈ store.identifiers,
    later.id = identifier.id ∧ later.key = identifier.key
  revoked_iff : ∀ identifier ∈ store.identifiers,
    identifier.status = .revoked ↔ identifier.id ∈ initial.revokedIds

/-- Linking does not come upon a revoked identifier of the user. -/
def linksUnrevoked : IdentityStatement → IdentityStore → Bool
  | .linkedIdentifier userId key, store => (store.identifierAt key).all fun identifier =>
      identifier.userId ≠ userId || identifier.status ≠ .revoked
  | _, _ => true

/-- A store in which ids are unique is its own first store. -/
theorem IdentityStore.WellFormed.unrevived {store : IdentityStore} (wellFormed : store.WellFormed) :
    Unrevived store store where
  ids := wellFormed.identifierIds
  keys := wellFormed.identifierKeys
  kept identifier identifierMem := ⟨identifier, identifierMem, rfl, rfl⟩
  revoked_iff := by
    intro identifier identifierMem
    simp only [IdentityStore.revokedIds, List.mem_map, List.mem_filter, decide_eq_true_eq]
    constructor
    · intro isRevoked
      exact ⟨identifier, ⟨identifierMem, isRevoked⟩, rfl⟩
    · rintro ⟨other, ⟨otherMem, isRevoked⟩, sameId⟩
      have same : other = identifier :=
        wellFormed.identifierIds.eq_of_mem otherMem identifierMem rfl (by rw [sameId])
      rw [← same]
      exact isRevoked

namespace Unrevived

variable {initial store : IdentityStore}

/-- A revoked identifier of the first store is still found under its handle, revoked. -/
theorem identifierAt_of_revokedKey (unrevived : Unrevived initial store) {key : IdentifierKey}
    (revokedKey : initial.RevokedKey key) :
    ∃ identifier, store.identifierAt key = some identifier ∧ identifier.status = .revoked := by
  obtain ⟨first, firstMem, firstKey, isRevoked⟩ := revokedKey
  obtain ⟨later, laterMem, sameId, sameKey⟩ := unrevived.kept first firstMem
  have found : store.identifierAt key = some later := by
    rw [IdentityStore.identifierAt, ← firstKey, ← sameKey]
    exact unrevived.keys.find?_eq_some laterMem
  refine ⟨later, found, (unrevived.revoked_iff later laterMem).mpr ?_⟩
  rw [sameId, IdentityStore.revokedIds]
  apply List.mem_map_of_mem
  exact List.mem_filter.mpr ⟨firstMem, decide_eq_true isRevoked⟩

theorem not_revokedKey_of_none (unrevived : Unrevived initial store) {key : IdentifierKey}
    (absent : store.identifierAt key = none) : ¬ initial.RevokedKey key := by
  intro revokedKey
  obtain ⟨identifier, found, _⟩ := unrevived.identifierAt_of_revokedKey revokedKey
  rw [absent] at found
  cases found

theorem not_revokedKey_of_some (unrevived : Unrevived initial store) {key : IdentifierKey}
    {identifier : UserIdentifier} (found : store.identifierAt key = some identifier)
    (notRevoked : identifier.status ≠ .revoked) : ¬ initial.RevokedKey key := by
  intro revokedKey
  obtain ⟨other, foundOther, isRevoked⟩ := unrevived.identifierAt_of_revokedKey revokedKey
  rw [found] at foundOther
  cases foundOther
  exact notRevoked isRevoked

/-! ### Writes -/

theorem of_identifiers_eq {other : IdentityStore} (unrevived : Unrevived initial store)
    (same : other.identifiers = store.identifiers) : Unrevived initial other := by
  obtain ⟨ids, keys, kept, revoked_iff⟩ := unrevived
  rw [← same] at ids keys kept revoked_iff
  exact ⟨ids, keys, kept, revoked_iff⟩

/-- An update that keeps ids and handles, and that leaves the right identifiers revoked. -/
theorem update (unrevived : Unrevived initial store) {condition : UserIdentifier → Bool}
    {change : UserIdentifier → UserIdentifier} (keepsId : ∀ row, (change row).id = row.id)
    (keepsKey : ∀ row, (change row).key = row.key)
    (leaves : ∀ row ∈ store.identifiers, condition row = true →
      ((change row).status = .revoked ↔ row.id ∈ initial.revokedIds)) :
    Unrevived initial (store.updateIdentifiers condition change) where
  ids := unrevived.ids.update condition keepsId
  keys := unrevived.keys.update condition keepsKey
  kept := by
    intro first firstMem
    obtain ⟨later, laterMem, sameId, sameKey⟩ := unrevived.kept first firstMem
    refine ⟨if condition later then change later else later,
      Table.mem_update.mpr ⟨later, laterMem, rfl⟩, ?_, ?_⟩
    · split
      · rw [keepsId, sameId]
      · exact sameId
    · split
      · rw [keepsKey, sameKey]
      · exact sameKey
  revoked_iff := by
    intro row rowMem
    rcases Table.mem_update_cases rowMem with ⟨old, oldMem, selected, rfl⟩ | ⟨rowMem, _⟩
    · rw [keepsId]
      exact leaves old oldMem selected
    · exact unrevived.revoked_iff row rowMem

/-- A new active identifier whose id and handle are new. -/
theorem append (unrevived : Unrevived initial store) {identifier : UserIdentifier}
    (isActive : identifier.status = .active) (notTaken : identifierTaken identifier store = false) :
    Unrevived initial { store with identifiers := store.identifiers ++ [identifier] } where
  ids := by
    apply unrevived.ids.append
    intro other otherMem sameId
    have taken := List.any_eq_false.mp notTaken other otherMem
    simp [sameId] at taken
  keys := by
    apply unrevived.keys.append
    intro other otherMem sameKey
    have taken := List.any_eq_false.mp notTaken other otherMem
    simp [sameKey] at taken
  kept := by
    intro first firstMem
    obtain ⟨later, laterMem, same⟩ := unrevived.kept first firstMem
    exact ⟨later, List.mem_append_left _ laterMem, same⟩
  revoked_iff := by
    intro row rowMem
    rcases List.mem_append.mp rowMem with old | new
    · exact unrevived.revoked_iff row old
    · rw [List.mem_singleton.mp new, isActive]
      simp only [reduceCtorEq, false_iff]
      intro isRevoked
      obtain ⟨first, firstMem, sameId⟩ := List.mem_map.mp isRevoked
      obtain ⟨later, laterMem, laterId, _⟩ :=
        unrevived.kept first (List.mem_filter.mp firstMem).1
      have taken := List.any_eq_false.mp notTaken later laterMem
      simp [laterId, sameId] at taken

end Unrevived

section Writes

variable {initial : IdentityStore}

theorem insertUser_preserves (user : User) {identifier : UserIdentifier}
    (isActive : identifier.status = .active) :
    (insertUser user identifier).Preserves (Unrevived initial) := by
  intro store unrevived notRefused
  obtain ⟨_, notTaken⟩ := Bool.or_eq_false_iff.mp notRefused
  exact (unrevived.append isActive notTaken).of_identifiers_eq rfl

theorem insertIdentifier_preserves {identifier : UserIdentifier}
    (isActive : identifier.status = .active) :
    (insertIdentifier identifier).Preserves (Unrevived initial) := by
  intro store unrevived notRefused
  obtain ⟨notTaken, _⟩ := Bool.or_eq_false_iff.mp notRefused
  exact unrevived.append isActive notTaken

theorem insertIdentity_preserves (identity : AuthIdentity) :
    (insertIdentity identity).Preserves (Unrevived initial) :=
  fun _ unrevived _ => unrevived.of_identifiers_eq rfl

theorem setVerified_preserves (id : Uuid) (verifiedAt : Option Instant) :
    (setVerified id verifiedAt).Preserves (Unrevived initial) := by
  intro store unrevived _
  apply unrevived.update
  · exact fun _ => rfl
  · exact fun _ => rfl
  · exact fun row rowMem _ => unrevived.revoked_iff row rowMem

/-- Linking again an identifier that was not revoked. -/
theorem setLinked_preserves {id : Uuid} (source : String) (verifiedAt : Option Instant)
    (notRevoked : id ∉ initial.revokedIds) :
    (setLinked id source verifiedAt).Preserves (Unrevived initial) := by
  intro store unrevived _
  apply unrevived.update
  · exact fun _ => rfl
  · exact fun _ => rfl
  · intro row _ selected
    rw [beq_iff_eq] at selected
    rw [selected]
    simp [notRevoked]

theorem makePrimary_preserves (userId : Uuid) (identifierId : Option Uuid) :
    (makePrimary userId identifierId).Preserves (Unrevived initial) := by
  intro store unrevived _
  apply unrevived.update
  · exact fun _ => rfl
  · exact fun _ => rfl
  · exact fun row rowMem _ => unrevived.revoked_iff row rowMem

theorem setPrimary_preserves (id : Uuid) : (setPrimary id).Preserves (Unrevived initial) := by
  intro store unrevived _
  apply unrevived.update
  · exact fun _ => rfl
  · exact fun _ => rfl
  · exact fun row rowMem _ => unrevived.revoked_iff row rowMem

theorem touchUser_preserves (id : Uuid) (now : Instant) :
    (touchUser id now).Preserves (Unrevived initial) :=
  fun _ unrevived _ => unrevived.of_identifiers_eq rfl

theorem setPhone_preserves (id : Uuid) (value : String) (verifiedAt : Option Instant) :
    (setPhone id value verifiedAt).Preserves (Unrevived initial) :=
  fun _ unrevived _ => unrevived.of_identifiers_eq rfl

theorem setIdentity_preserves (id : Uuid) (verifiedPhone : Option String)
    (verifiedAt : Option Instant) :
    (setIdentity id verifiedPhone verifiedAt).Preserves (Unrevived initial) :=
  fun _ unrevived _ => unrevived.of_identifiers_eq rfl

end Writes

/-! ## Programs -/

/-- The code leaves the revoked identifiers revoked, and what it returns is as required. -/
abbrev KeepsRevoked {α : Type} (initial : IdentityStore) (program : IdentityProgram α)
    (returns : α → Prop) : Prop :=
  program.Keeps (Unrevived initial) (fun statement view => linksUnrevoked statement view = true)
    returns

section Programs

variable {initial : IdentityStore} {numbering : Numbering}

theorem syncLegacyPhone_keeps (user : User) (identifier : UserIdentifier) :
    KeepsRevoked initial (syncLegacyPhone user identifier) fun _ => True := by
  rw [syncLegacyPhone]
  split
  · exact True.intro
  · split
    · exact ⟨setPhone_preserves _ _ _, True.intro⟩
    · exact True.intro

theorem notRevoked_of_key {store : IdentityStore} {value : String}
    {expectedKind : Option UserIdentifierKind} {key : IdentifierKey}
    (normalized : normalizeUserIdentifier numbering value expectedKind = .ok key)
    (notRevoked : ¬ store.RevokedKey key) : NotRevoked numbering store value expectedKind := by
  intro other otherNormalized
  rw [normalized] at otherNormalized
  cases otherNormalized
  exact notRevoked

/-- A handle finds a user through an identifier that is not revoked, or through none. -/
theorem findUserByIdentifier_keeps (value : String) (expectedKind : Option UserIdentifierKind) :
    KeepsRevoked initial (findUserByIdentifier numbering value expectedKind) fun user =>
      user.isSome = true → NotRevoked numbering initial value expectedKind := by
  apply Keeps.bind (keeps_lift.mpr fun key normalized => normalized)
  intro key normalized
  apply Keeps.query
  intro store unrevived _
  cases found : store.identifierAt key with
  | none =>
      have notRevoked := unrevived.not_revokedKey_of_none found
      simp only
      split
      · intro isSome
        cases isSome
      · intro view _ _ _
        exact notRevoked_of_key normalized notRevoked
  | some identifier =>
      simp only
      split
      · intro isSome
        cases isSome
      · rename_i isActive
        intro view _ _ _
        apply notRevoked_of_key normalized
        apply unrevived.not_revokedKey_of_some found
        rw [not_not.mp isActive]
        exact fun isRevoked => nomatch isRevoked

/-- Linking again is harmless when the identifier is not a revoked one of the user. -/
theorem linkExisting_keeps (user : User) {existing : UserIdentifier} (source : String)
    (verifiedAt : Option Instant) (isPrimary : Bool)
    (notRevoked : existing.userId = user.id → existing.id ∉ initial.revokedIds) :
    KeepsRevoked initial (linkExisting user existing source verifiedAt isPrimary)
      fun _ => True := by
  rw [linkExisting]
  split
  · exact True.intro
  · rename_i sameUser
    apply Keeps.bind (keeps_lift.mpr fun clean isClean => isClean)
    intro clean _
    refine ⟨setLinked_preserves _ _ (notRevoked (not_not.mp sameUser)), ?_⟩
    cases isPrimary with
    | true =>
        refine ⟨makePrimary_preserves _ _, setPrimary_preserves _, ?_⟩
        apply Keeps.bind (syncLegacyPhone_keeps user _)
        exact fun _ _ => True.intro
    | false =>
        apply Keeps.bind (syncLegacyPhone_keeps user _)
        exact fun _ _ => True.intro

theorem linkRaced_keeps (user : User) (key : IdentifierKey) :
    KeepsRevoked initial (linkRaced user key) fun _ => True := by
  apply Keeps.query
  intro store _ _
  split
  · exact True.intro
  · apply Keeps.query
    intro view _ _
    split
    · exact True.intro
    · exact True.intro

theorem linkNew_keeps (user : User) (key : IdentifierKey) (source : String)
    (verifiedAt : Option Instant) (isPrimary : Bool) (newId : Uuid) :
    KeepsRevoked initial (linkNew user key source verifiedAt isPrimary newId) fun _ => True := by
  apply Keeps.query
  intro store _ _
  apply Keeps.bind (keeps_lift.mpr fun clean isClean => isClean)
  intro clean _
  refine ⟨insertIdentifier_preserves rfl, ?_⟩
  intro inserted
  cases inserted with
  | false => exact linkRaced_keeps user key
  | true =>
      simp only
      split
      · refine ⟨makePrimary_preserves _ _, ?_⟩
        apply Keeps.bind (syncLegacyPhone_keeps user _)
        exact fun _ _ => True.intro
      · apply Keeps.bind (syncLegacyPhone_keeps user _)
        exact fun _ _ => True.intro

theorem linkUserIdentifier_keeps (user : User) (value : String)
    (expectedKind : Option UserIdentifierKind) (source : String) (verifiedAt : Option Instant)
    (isPrimary : Bool) (newId : Uuid) :
    KeepsRevoked initial
      (linkUserIdentifier numbering user value expectedKind source verifiedAt isPrimary newId)
      fun _ => True := by
  apply Keeps.bind (keeps_lift.mpr fun key normalized => normalized)
  intro key _
  apply Keeps.query
  intro store unrevived allowed
  cases found : store.identifierAt key with
  | none => exact linkNew_keeps user key source verifiedAt isPrimary newId
  | some existing =>
      apply linkExisting_keeps
      intro sameUser
      rw [← unrevived.revoked_iff existing (mem_of_identifierAt found).1]
      intro isRevoked
      simp [linksUnrevoked, found, sameUser, isRevoked] at allowed

theorem resolveExisting_keeps (input : ResolutionInput) {identifier : UserIdentifier}
    {store : IdentityStore} (unrevived : Unrevived initial store) {key : IdentifierKey}
    (found : store.identifierAt key = some identifier) :
    KeepsRevoked initial (resolveExisting input identifier) fun _ =>
      ¬ initial.RevokedKey key := by
  rw [resolveExisting]
  split
  · exact True.intro
  · rename_i notRevoked
    apply Keeps.query
    intro view _ _
    split
    · exact True.intro
    · refine ⟨setVerified_preserves _ _, touchUser_preserves _ _, ?_⟩
      apply Keeps.bind (syncLegacyPhone_keeps _ _)
      intro _ _
      exact unrevived.not_revokedKey_of_some found notRevoked

theorem adoptLegacyUser_keeps (input : ResolutionInput) (key : IdentifierKey)
    (legacyUser : User) :
    KeepsRevoked initial (adoptLegacyUser numbering input key legacyUser) fun _ => True := by
  apply Keeps.bind (linkUserIdentifier_keeps _ _ _ _ _ _ _)
  intro _ _
  exact ⟨touchUser_preserves _ _, True.intro⟩

theorem resolveRaced_keeps (input : ResolutionInput) (key : IdentifierKey) :
    KeepsRevoked initial (resolveRaced input key) fun _ => True := by
  apply Keeps.query
  intro store _ _
  split
  · exact True.intro
  · apply Keeps.query
    intro view _ _
    split
    · exact True.intro
    · exact ⟨touchUser_preserves _ _, True.intro⟩

theorem createUser_keeps (input : ResolutionInput) (key : IdentifierKey) :
    KeepsRevoked initial (createUser input key) fun _ => True := by
  apply Keeps.bind (keeps_lift.mpr fun clean isClean => isClean)
  intro clean _
  refine ⟨insertUser_preserves _ rfl, ?_⟩
  intro inserted
  cases inserted with
  | true => exact True.intro
  | false => exact resolveRaced_keeps input key

/-- Resolving a handle returns a user for no revoked identifier, also when another
transaction creates the identifier first. -/
theorem resolveUserFromIdentifier_keeps (input : ResolutionInput) :
    KeepsRevoked initial (resolveUserFromIdentifier numbering input) fun _ =>
      NotRevoked numbering initial input.value input.expectedKind := by
  apply Keeps.bind (keeps_lift.mpr fun key normalized => normalized)
  intro key normalized
  have forHandle : ∀ {program : IdentityProgram UserResolution},
      (KeepsRevoked initial program fun _ => ¬ initial.RevokedKey key) →
        KeepsRevoked initial program fun _ =>
          NotRevoked numbering initial input.value input.expectedKind :=
    fun keeps => keeps.mono fun _ notRevoked => notRevoked_of_key normalized notRevoked
  apply forHandle
  apply Keeps.query
  intro store unrevived _
  cases found : store.identifierAt key with
  | some identifier => exact resolveExisting_keeps input unrevived found
  | none =>
      -- An identifier that is stored later cannot be one of the revoked ones.
      have notRevoked := unrevived.not_revokedKey_of_none found
      simp only
      split
      · apply Keeps.query
        intro view _ _
        split
        · exact (adoptLegacyUser_keeps input key _).mono fun _ _ => notRevoked
        · exact (createUser_keeps input key).mono fun _ _ => notRevoked
      · exact (createUser_keeps input key).mono fun _ _ => notRevoked

/-- The claims that find a user do so through handles that are not revoked. -/
theorem matchClaims_keeps (claims : List (Option String × UserIdentifierKind)) :
    KeepsRevoked initial (matchClaims numbering claims) fun matched =>
      ∀ claim ∈ matched, claim.user.isSome = true →
        NotRevoked numbering initial claim.key.normalizedValue (some claim.key.kind) := by
  induction claims with
  | nil =>
      intro claim claimMem
      cases claimMem
  | cons first claims ih =>
      obtain ⟨value, kind⟩ := first
      cases value with
      | none => exact ih
      | some value =>
          apply Keeps.bind (keeps_lift.mpr fun key normalized => normalized)
          intro key normalized
          apply Keeps.bind (findUserByIdentifier_keeps key.normalizedValue (some kind))
          intro user foundBy
          apply Keeps.bind ih
          intro others othersFoundBy claim claimMem
          rcases List.mem_cons.mp claimMem with rfl | claimMem
          · rw [kind_of_normalize normalized]
            exact foundBy
          · exact othersFoundBy claim claimMem

theorem linkClaims_keeps (input : AuthenticationInput) (user : User)
    (claims : List MatchedClaim) :
    KeepsRevoked initial (linkClaims numbering input user claims) fun _ => True := by
  induction claims generalizing user with
  | nil => exact True.intro
  | cons claim claims ih =>
      apply Keeps.bind (linkUserIdentifier_keeps _ _ _ _ _ _ _)
      intro linked _
      exact ih linked.2

theorem resolveUserFromVerifiedClaims_keeps (input : AuthenticationInput)
    {claims : List MatchedClaim}
    (foundBy : ∀ claim ∈ claims, claim.user.isSome = true →
      NotRevoked numbering initial claim.key.normalizedValue (some claim.key.kind)) :
    KeepsRevoked initial (resolveUserFromVerifiedClaims numbering input claims)
      fun found => ∀ handle ∈ found.foundBy,
        NotRevoked numbering initial handle.normalizedValue (some handle.kind) := by
  rw [resolveUserFromVerifiedClaims]
  split
  · exact True.intro
  · split
    · exact True.intro
    · apply Keeps.bind (linkClaims_keeps input _ claims).mapError
      intro linked _ key keyMem
      obtain ⟨claim, claimMem, rfl⟩ := List.mem_map.mp keyMem
      obtain ⟨claimMem, isSome⟩ := List.mem_filter.mp claimMem
      exact foundBy claim claimMem isSome

theorem resolveLinkedIdentity_keeps (input : AuthenticationInput) (identity : AuthIdentity) :
    KeepsRevoked initial (resolveLinkedIdentity numbering input identity)
      fun found => found.foundBy = [] := by
  rw [resolveLinkedIdentity]
  split
  · exact True.intro
  · apply Keeps.query
    intro view _ _
    split
    · exact True.intro
    · apply Keeps.bind (keeps_lift.mpr fun phone isPhone => isPhone)
      intro phone _
      simp only
      split
      · exact ⟨setIdentity_preserves _ _ _, rfl⟩
      · rfl

theorem linkIdentity_keeps (input : AuthenticationInput) (phone : Option String)
    (found : AuthenticatedUser) :
    KeepsRevoked initial (linkIdentity input phone found) fun answer => answer = found := by
  refine ⟨insertIdentity_preserves _, ?_⟩
  intro inserted
  cases inserted with
  | true => exact rfl
  | false =>
      apply Keeps.query
      intro view _ _
      split
      · exact True.intro
      · split
        · exact True.intro
        · exact rfl

/-- Authentication finds users through handles that are not revoked. -/
theorem resolveAuthenticatedUser_keeps (input : AuthenticationInput) :
    KeepsRevoked initial (resolveAuthenticatedUser numbering input) fun found =>
      ∀ handle ∈ found.foundBy,
        NotRevoked numbering initial handle.normalizedValue (some handle.kind) := by
  apply Keeps.query
  intro store _ _
  split
  · apply (resolveLinkedIdentity_keeps input _).mono
    intro found noHandle handle handleMem
    rw [noHandle] at handleMem
    cases handleMem
  · apply Keeps.bind (matchClaims_keeps input.verified.claims)
    intro claims foundBy
    apply Keeps.bind (resolveUserFromVerifiedClaims_keeps input foundBy)
    intro found foundBy
    apply (linkIdentity_keeps input _ found).mono
    intro answer same
    rw [same]
    exact foundBy

/-- No call revives an identifier, or returns a user for a handle that is revoked. -/
theorem call_keeps (call : IdentityCall) :
    KeepsRevoked initial (call.program numbering) fun answer => answer.user.isSome = true →
      ∀ handle ∈ answer.foundBy, NotRevoked numbering initial handle.1 handle.2 := by
  cases call with
  | find value expectedKind =>
      apply Keeps.bind (findUserByIdentifier_keeps value expectedKind)
      intro user found isSome handle handleMem
      rw [List.mem_singleton.mp handleMem]
      exact found isSome
  | resolve input =>
      apply Keeps.bind (resolveUserFromIdentifier_keeps input)
      intro resolution found _ handle handleMem
      rw [List.mem_singleton.mp handleMem]
      exact found
  | authenticate input =>
      apply Keeps.bind (resolveAuthenticatedUser_keeps input)
      intro authenticated found _ handle handleMem
      obtain ⟨key, keyMem, rfl⟩ := List.mem_map.mp handleMem
      exact found key keyMem

end Programs

/-! ## Runs -/

/-- The sessions of the service that look up and link identifiers. -/
abbrev identitySessions (numbering : Numbering) :=
  sessions (IdentityCall.program numbering) IdentityError.integrityError

abbrev IdentitySystem :=
  System IdentityStore IdentityLock
    (Point IdentityCall IdentityStore IdentityLock IdentityStatement IdentityError IdentityAnswer)

/-- The condition of a run: linking never comes upon a revoked identifier of the user. -/
abbrev RevokedUntouched (system : IdentitySystem)
    (event : Event (Point IdentityCall IdentityStore IdentityLock IdentityStatement IdentityError
      IdentityAnswer) Unit) : Prop :=
  Reads (fun _ statement view => linksUnrevoked statement view = true) system event

/-- A revoked identifier was revoked in the first store, under the same handle. -/
theorem Unrevived.first_of_revoked {initial store : IdentityStore}
    (unrevived : Unrevived initial store) {row : UserIdentifier} (rowMem : row ∈ store.identifiers)
    (isRevoked : row.status = .revoked) :
    ∃ first ∈ initial.identifiers, first.id = row.id ∧ first.key = row.key ∧
      first.status = .revoked := by
  have wasRevoked := (unrevived.revoked_iff row rowMem).mp isRevoked
  obtain ⟨first, firstMem, sameId⟩ := List.mem_map.mp wasRevoked
  obtain ⟨firstMem, firstRevoked⟩ := List.mem_filter.mp firstMem
  obtain ⟨later, laterMem, laterId, laterKey⟩ := unrevived.kept first firstMem
  have same : later = row :=
    unrevived.ids.eq_of_mem laterMem rowMem rfl (by rw [laterId, sameId])
  refine ⟨first, firstMem, sameId, ?_, of_decide_eq_true firstRevoked⟩
  rw [← laterKey, same]

/-- A revoked identifier of the first store is revoked. -/
theorem Unrevived.revoked_of_first {initial store : IdentityStore}
    (unrevived : Unrevived initial store) {first : UserIdentifier}
    (firstMem : first ∈ initial.identifiers) (isRevoked : first.status = .revoked) :
    ∃ row ∈ store.identifiers, row.id = first.id ∧ row.key = first.key ∧
      row.status = .revoked := by
  obtain ⟨row, rowMem, sameId, sameKey⟩ := unrevived.kept first firstMem
  refine ⟨row, rowMem, sameId, sameKey, (unrevived.revoked_iff row rowMem).mpr ?_⟩
  rw [sameId]
  apply List.mem_map_of_mem
  exact List.mem_filter.mpr ⟨firstMem, decide_eq_true isRevoked⟩

/-- What holds of a system in which revoked identifiers have been left revoked. -/
abbrev RevokedSound (numbering : Numbering) (initial : IdentityStore) (system : IdentitySystem) :
    Prop :=
  Sound (Unrevived initial) (fun _ statement view => linksUnrevoked statement view = true)
    (fun (_ : IdentityCall) answer => answer.user.isSome = true →
      ∀ handle ∈ answer.foundBy, NotRevoked numbering initial handle.1 handle.2) system

/-- When linking never comes upon a revoked identifier of the user that it links to, an
identifier that is revoked stays revoked, and no call returns a user for a handle whose
identifier is revoked. -/
theorem untouched_stay_revoked {numbering : Numbering} {initial : IdentityStore}
    (wellFormed : initial.WellFormed) {middle after : IdentitySystem}
    (earlier : Run (System.step (identitySessions numbering)) RevokedUntouched
      (System.idle initial) middle)
    (later : Run (System.step (identitySessions numbering)) RevokedUntouched middle after) :
    (∀ identifier ∈ middle.database.identifiers, identifier.status = .revoked →
      ∃ row ∈ after.database.identifiers, row.id = identifier.id ∧ row.key = identifier.key ∧
        row.status = .revoked) ∧
      ∀ session call answer, after.points session = some (.finished call (.ok answer)) →
        answer.user.isSome = true → ∀ handle ∈ answer.foundBy,
          NotRevoked numbering after.database handle.1 handle.2 := by
  have idle : RevokedSound numbering initial (System.idle initial) :=
    sound_idle wellFormed.unrevived
  have atMiddle : RevokedSound numbering initial middle := idle.run call_keeps earlier
  have atEnd : RevokedSound numbering initial after := atMiddle.run call_keeps later
  constructor
  · intro identifier identifierMem isRevoked
    obtain ⟨first, firstMem, sameId, sameKey, firstRevoked⟩ :=
      atMiddle.holds.first_of_revoked identifierMem isRevoked
    obtain ⟨row, rowMem, rowId, rowKey, rowRevoked⟩ :=
      atEnd.holds.revoked_of_first firstMem firstRevoked
    exact ⟨row, rowMem, rowId.trans sameId, rowKey.trans sameKey, rowRevoked⟩
  · intro session call answer atPoint isSome handle handleMem key normalized revokedKey
    have returned := atEnd.good session _ atPoint answer rfl isSome handle handleMem
    obtain ⟨row, rowMem, rowKey, isRevoked⟩ := revokedKey
    obtain ⟨first, firstMem, _, sameKey, firstRevoked⟩ :=
      atEnd.holds.first_of_revoked rowMem isRevoked
    exact returned key normalized ⟨first, firstMem, sameKey.trans rowKey, firstRevoked⟩

/-! ## A claim that carries a revoked identifier along -/

/-- A user with an active phone, and an email address that was revoked. -/
def revokedEmailStore : IdentityStore where
  users := [⟨1, some "+14155552671", none, 0, 0⟩]
  identifiers :=
    [⟨1, 1, .phone, "+14155552671", none, "channel", none, true, .active⟩,
      ⟨2, 1, .email, "ann@example.com", none, "channel", none, false, .revoked⟩]
  identities := []

/-- A token for the phone, and for the address if it is given. -/
def phoneToken (email : Option String) : AuthenticationInput :=
  ⟨⟨"firebase", "ann", some "+14155552671", email⟩, 5, 3, 4, 5⟩

/-- The token finds the user by its phone and revives its address. -/
theorem carried_claim_revives :
    ∃ after : IdentitySystem,
      Run (System.step (identitySessions Numbering.ascii)) (fun _ _ => True)
        (System.idle revokedEmailStore) after ∧
        revokedEmailStore.identifiers.any (fun row => row.id = 2 ∧ row.status = .revoked) = true ∧
          after.database.identifiers.any (fun row => row.id = 2 ∧ row.status = .active) = true := by
  have authenticated : ((IdentityCall.program Numbering.ascii
      (.authenticate (phoneToken (some "ann@example.com")))).alone .integrityError
        revokedEmailStore).toOption.any (fun reached =>
          reached.2.identifiers.any fun row => row.id = 2 ∧ row.status = .active) = true := by
    decide
  rw [Option.any_eq_true] at authenticated
  rcases authenticated with ⟨⟨answer, final⟩, result, isActive⟩
  rcases run_idle_of_alone (ok_of_toOption result) with ⟨after, run, database_eq, _⟩
  refine ⟨after, run, by decide, ?_⟩
  rw [database_eq]
  exact isActive

/-- A session starts a call and goes on for some requests. -/
def runCall (session : Nat) (call : IdentityCall) (requests : Nat) :
    List (Event (Point IdentityCall IdentityStore IdentityLock IdentityStatement IdentityError
      IdentityAnswer) Unit) :=
  .start session (.waiting call) :: List.replicate requests (.advance session ())

/-- A token for the phone alone, and a message from the address, leave it revoked. -/
theorem revoked_email_stays_revoked :
    ∃ after : IdentitySystem,
      after.database.identities.length = 1 ∧
        ∃ row ∈ after.database.identifiers, row.id = 2 ∧ row.status = .revoked := by
  have runs : (execute (System.step (identitySessions Numbering.ascii))
      (readsChecked fun _ => linksUnrevoked) (System.idle revokedEmailStore)
      (runCall 1 (.authenticate (phoneToken none)) 9 ++
        runCall 2 (.resolve ⟨"ann@example.com", none, "channel", true, 6, 7, 8⟩) 3)).any
          (fun system => system.database.identities.length = 1) = true := by
    decide
  rw [Option.any_eq_true] at runs
  rcases runs with ⟨after, executed, linked⟩
  have run : Run (System.step (identitySessions Numbering.ascii)) RevokedUntouched
      (System.idle revokedEmailStore) after :=
    (run_of_execute executed).mono fun _ _ checked => reads_of_checked checked
  have wellFormed : revokedEmailStore.WellFormed := by
    constructor <;> decide
  have kept := (untouched_stay_revoked wellFormed Run.refl run).1
    ⟨2, 1, .email, "ann@example.com", none, "channel", none, false, .revoked⟩ (by decide) rfl
  rcases kept with ⟨row, rowMem, rowId, _, isRevoked⟩
  exact ⟨after, of_decide_eq_true linked, row, rowMem, rowId, isRevoked⟩

end DotBackend.Identity
