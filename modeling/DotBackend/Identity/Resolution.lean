import DotBackend.Identity.Store

/-!
# Resolving users from handles

A handle belongs to the user that its identifier names. Users from the time before
identifiers are found by the phone number of their row and are given an identifier when
they are resolved.
-/

namespace DotBackend.Identity

open Data Transaction

/-- The statements of the service that read. -/
inductive IdentityStatement
  | identifier (key : IdentifierKey)
  | linkedIdentifier (userId : Uuid) (key : IdentifierKey)
  | activeIdentifier (userId : Uuid)
  | user (id : Uuid)
  | legacyUser (phoneNumber : String)
  | identity (subject : String × String)
  deriving DecidableEq

abbrev IdentityProgram := Program IdentityStore IdentityLock IdentityStatement IdentityError

open Program

def selectIdentifier (key : IdentifierKey) : IdentityProgram (Option UserIdentifier) :=
  query (.identifier key) fun store => store.identifierAt key

def getUser (id : Uuid) : IdentityProgram (Option User) :=
  query (.user id) fun store => store.userAt id

def selectLegacyUser (phoneNumber : String) : IdentityProgram (Option User) :=
  query (.legacyUser phoneNumber) fun store => store.userWithPhone phoneNumber

def findUserByIdentifier (numbering : Numbering) (value : String)
    (expectedKind : Option UserIdentifierKind) : IdentityProgram (Option User) := do
  let key ← lift (normalizeUserIdentifier numbering value expectedKind)
  let identifier ← selectIdentifier key
  match identifier with
  | some identifier =>
      if identifier.status ≠ .active then pure none else getUser identifier.userId
  | none =>
      -- Users from before identifiers are known by the phone number of their row.
      if key.kind ≠ .phone then pure none else selectLegacyUser key.normalizedValue

/-- `_sync_legacy_phone`: the user as it is then. -/
def syncLegacyPhone (user : User) (identifier : UserIdentifier) : IdentityProgram User :=
  if identifier.kind ≠ .phone then pure user
  else if user.phoneNumber = none ∨ identifier.isPrimary = true then do
    execute (setPhone user.id identifier.normalizedValue identifier.verifiedAt)
    pure { user with
      phoneNumber := some identifier.normalizedValue, phoneVerifiedAt := identifier.verifiedAt }
  else pure user

/-- Link an identifier that is stored already. -/
def linkExisting (user : User) (existing : UserIdentifier) (source : String)
    (verifiedAt : Option Instant) (isPrimary : Bool) :
    IdentityProgram (UserIdentifier × User) :=
  if existing.userId ≠ user.id then
    raise (.userIdentifierConflictError "Identifier belongs to another user")
  else do
    let source ← lift (cleanSource source)
    let linked := { existing with
      status := .active, source, verifiedAt := verifiedAt <|> existing.verifiedAt }
    execute (setLinked existing.id source (verifiedAt <|> existing.verifiedAt))
    if isPrimary then do
      execute (makePrimary user.id (some existing.id))
      execute (setPrimary existing.id)
      let linked := { linked with isPrimary := true }
      let user ← syncLegacyPhone user linked
      pure (linked, user)
    else do
      let user ← syncLegacyPhone user linked
      pure (linked, user)

/-- What another transaction has made of an identifier that could not be inserted. -/
def linkRaced (user : User) (key : IdentifierKey) : IdentityProgram (UserIdentifier × User) := do
  let owner ← selectIdentifier key
  if owner.map UserIdentifier.userId ≠ some user.id then
    raise (.userIdentifierConflictError "Identifier belongs to another user")
  else do
    let existing ← selectIdentifier key
    match existing with
    | some existing => pure (existing, user)
    | none => raise .integrityError

/-- Link an identifier that is not stored; the first active one of a user is primary. -/
def linkNew (user : User) (key : IdentifierKey) (source : String) (verifiedAt : Option Instant)
    (isPrimary : Bool) (newId : Uuid) : IdentityProgram (UserIdentifier × User) := do
  let hasIdentifier ← query (.activeIdentifier user.id) fun store =>
    store.activeIdentifier user.id
  let primary := isPrimary || hasIdentifier.isNone
  let source ← lift (cleanSource source)
  let identifier : UserIdentifier :=
    ⟨newId, user.id, key.kind, key.normalizedValue, some key.normalizedValue, source, verifiedAt,
      primary, .active⟩
  let inserted ← savepoint (insertIdentifier identifier)
  if inserted then
    if primary then do
      execute (makePrimary user.id (some newId))
      let user ← syncLegacyPhone user identifier
      pure (identifier, user)
    else do
      let user ← syncLegacyPhone user identifier
      pure (identifier, user)
  else linkRaced user key

/-- The identifier, and the user as it is then. -/
def linkUserIdentifier (numbering : Numbering) (user : User) (value : String)
    (expectedKind : Option UserIdentifierKind) (source : String) (verifiedAt : Option Instant)
    (isPrimary : Bool) (newId : Uuid) : IdentityProgram (UserIdentifier × User) := do
  let key ← lift (normalizeUserIdentifier numbering value expectedKind)
  let existing ← query (.linkedIdentifier user.id key) fun store => store.identifierAt key
  match existing with
  | some existing => linkExisting user existing source verifiedAt isPrimary
  | none => linkNew user key source verifiedAt isPrimary newId

structure UserResolution where
  user : User
  created : Bool
  identifier : UserIdentifier
  deriving DecidableEq

/-- What a resolution reads from outside the database. -/
structure ResolutionInput where
  value : String
  expectedKind : Option UserIdentifierKind
  source : String
  verified : Bool
  now : Instant
  newUserId : Uuid
  newIdentifierId : Uuid
  deriving DecidableEq

/-- Resolve an identifier that is stored already. -/
def resolveExisting (input : ResolutionInput) (identifier : UserIdentifier) :
    IdentityProgram UserResolution :=
  if identifier.status = .revoked then
    raise (.userIdentifierRevokedError
      "Identifier was revoked and requires an explicit recovery flow")
  else do
    let user ← getUser identifier.userId
    match user with
    | none => raise (.runtimeError "User identifier points to a missing user")
    | some user => do
        let verifiedAt := if input.verified then some input.now else identifier.verifiedAt
        let identifier := { identifier with verifiedAt }
        execute (setVerified identifier.id verifiedAt)
        execute (touchUser user.id input.now)
        let user ← syncLegacyPhone { user with lastSeenAt := input.now } identifier
        pure ⟨user, false, identifier⟩

/-- Give a user from before identifiers the identifier of its phone. -/
def adoptLegacyUser (numbering : Numbering) (input : ResolutionInput) (key : IdentifierKey)
    (legacyUser : User) : IdentityProgram UserResolution := do
  let (identifier, user) ← linkUserIdentifier numbering legacyUser key.normalizedValue
    (some key.kind) "legacy_phone"
    (if input.verified then some input.now else legacyUser.phoneVerifiedAt) true
    input.newIdentifierId
  execute (touchUser legacyUser.id input.now)
  pure ⟨{ user with lastSeenAt := input.now }, false, identifier⟩

/-- Another transaction has created the user of an identifier first. -/
def resolveRaced (input : ResolutionInput) (key : IdentifierKey) :
    IdentityProgram UserResolution := do
  let identifier ← selectIdentifier key
  match identifier with
  | none => raise .integrityError
  | some identifier => do
      let user ← getUser identifier.userId
      match user with
      | none => raise (.runtimeError "User identifier points to a missing user")
      | some user => do
          execute (touchUser user.id input.now)
          pure ⟨{ user with lastSeenAt := input.now }, false, identifier⟩

/-- Create the user of an identifier that is not stored. -/
def createUser (input : ResolutionInput) (key : IdentifierKey) :
    IdentityProgram UserResolution := do
  let isPhone := key.kind = .phone
  let user : User :=
    ⟨input.newUserId, if isPhone then some key.normalizedValue else none,
      if input.verified ∧ isPhone then some input.now else none, input.now, input.now⟩
  let source ← lift (cleanSource input.source)
  let identifier : UserIdentifier :=
    ⟨input.newIdentifierId, input.newUserId, key.kind, key.normalizedValue,
      some key.normalizedValue, source, if input.verified then some input.now else none, true,
      .active⟩
  let inserted ← savepoint (insertUser user identifier)
  if inserted then pure ⟨user, true, identifier⟩ else resolveRaced input key

def resolveUserFromIdentifier (numbering : Numbering) (input : ResolutionInput) :
    IdentityProgram UserResolution := do
  let key ← lift (normalizeUserIdentifier numbering input.value input.expectedKind)
  let identifier ← selectIdentifier key
  match identifier with
  | some identifier => resolveExisting input identifier
  | none =>
      if key.kind = .phone then do
        let legacyUser ← selectLegacyUser key.normalizedValue
        match legacyUser with
        | some legacyUser => adoptLegacyUser numbering input key legacyUser
        | none => createUser input key
      else createUser input key

end DotBackend.Identity
