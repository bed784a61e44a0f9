import DotBackend.Identity.Resolution

/-!
# Authenticating users

A verified token of the authentication provider is linked to the user whose identifiers
its claims name; later tokens of the same subject find the user through that link.
-/

namespace DotBackend.Identity

open Data Transaction Program

structure VerifiedAuthToken where
  provider : String
  subject : String
  phoneNumber : Option String
  email : Option String
  deriving DecidableEq

/-- A verified token, and what authentication reads from outside the database. -/
structure AuthenticationInput where
  verified : VerifiedAuthToken
  now : Instant
  newIdentityId : Uuid
  newPhoneId : Uuid
  newEmailId : Uuid
  deriving DecidableEq

/-- The identifier row that linking a claim may insert. -/
def AuthenticationInput.newIdentifierId (input : AuthenticationInput) : UserIdentifierKind → Uuid
  | .phone => input.newPhoneId
  | .email => input.newEmailId

def VerifiedAuthToken.claims (verified : VerifiedAuthToken) :
    List (Option String × UserIdentifierKind) :=
  [(verified.phoneNumber, .phone), (verified.email, .email)]

/-- A claim as it is normalised, and the user that it finds. -/
structure MatchedClaim where
  key : IdentifierKey
  user : Option User
  deriving DecidableEq

/-- The user that authentication returns, and the handles that found it; none when it is
found by an identity that is linked already. -/
structure AuthenticatedUser where
  user : User
  foundBy : List IdentifierKey
  deriving DecidableEq

def matchClaims (numbering : Numbering) :
    List (Option String × UserIdentifierKind) → IdentityProgram (List MatchedClaim)
  | [] => pure []
  | (none, _) :: claims => matchClaims numbering claims
  | (some claim, kind) :: claims => do
      let key ← lift (normalizeUserIdentifier numbering claim (some kind))
      let user ← findUserByIdentifier numbering key.normalizedValue (some kind)
      let others ← matchClaims numbering claims
      pure (⟨key, user⟩ :: others)

def linkClaims (numbering : Numbering) (input : AuthenticationInput) :
    User → List MatchedClaim → IdentityProgram User
  | user, [] => pure user
  | user, claim :: claims => do
      let linked ← linkUserIdentifier numbering user claim.key.normalizedValue
        (some claim.key.kind) input.verified.provider (some input.now) false
        (input.newIdentifierId claim.key.kind)
      linkClaims numbering input linked.2 claims

/-- A conflict of identifiers is one of the identity. -/
def asIdentityConflict : IdentityError → IdentityError
  | .userIdentifierConflictError _ =>
      .authIdentityConflictError "Verified Firebase identifier belongs to another Dot account"
  | error => error

/-- `_resolve_user_from_verified_claims`, without the verified phone. -/
def resolveUserFromVerifiedClaims (numbering : Numbering) (input : AuthenticationInput)
    (claims : List MatchedClaim) : IdentityProgram AuthenticatedUser :=
  match claims.filterMap MatchedClaim.user with
  | [] => raise (.authUserNotFoundError
      "No Dot account matches the verified Firebase phone number or email")
  | user :: others =>
      if others.any (fun other => other.id ≠ user.id) then
        raise (.authIdentityConflictError
          "Verified Firebase identifiers belong to different Dot accounts")
      else do
        let linked ← (linkClaims numbering input user claims).mapError asIdentityConflict
        pure ⟨linked, (claims.filter fun claim => claim.user.isSome).map MatchedClaim.key⟩

/-- The normalised phone of a token, as `_resolve_user_from_verified_claims` keeps it. -/
def verifiedPhone (claims : List MatchedClaim) : Option String :=
  (claims.find? fun claim => claim.key.kind = .phone).map fun claim => claim.key.normalizedValue

/-- `_resolve_linked_identity`. -/
def resolveLinkedIdentity (numbering : Numbering) (input : AuthenticationInput)
    (identity : AuthIdentity) : IdentityProgram AuthenticatedUser :=
  if identity.status ≠ "active" then
    raise (.authIdentityNotFoundError "Authenticated identity is not active")
  else do
    let user ← getUser identity.userId
    match user with
    | none => raise (.authIdentityNotFoundError "Authenticated Dot user no longer exists")
    | some user => do
        let phone ← lift (match input.verified.phoneNumber with
          | none => .ok none
          | some claim => (normalizeUserIdentifier numbering claim (some .phone)).map
              fun key => some key.normalizedValue)
        let newPhone := phone.orElse fun _ => identity.verifiedPhone
        let newVerifiedAt := identity.verifiedAt.orElse fun _ => some input.now
        if newPhone ≠ identity.verifiedPhone ∨ identity.verifiedAt = none then do
          execute (setIdentity identity.id newPhone newVerifiedAt)
          pure ⟨user, []⟩
        else pure ⟨user, []⟩

/-- Link the identity of a token to the user that its claims have found. -/
def linkIdentity (input : AuthenticationInput) (phone : Option String)
    (found : AuthenticatedUser) : IdentityProgram AuthenticatedUser := do
  let verified := input.verified
  let inserted ← savepoint (insertIdentity
    ⟨input.newIdentityId, found.user.id, verified.provider, verified.subject, phone,
      some input.now, "active"⟩)
  if inserted then pure found
  else do
    let concurrent ← query (.identity (verified.provider, verified.subject)) fun store =>
      store.identityAt (verified.provider, verified.subject)
    match concurrent with
    | none => raise .integrityError
    | some concurrent =>
        if concurrent.status ≠ "active" ∨ concurrent.userId ≠ found.user.id then
          raise (.authIdentityConflictError
            "Authenticated identity is already linked to another Dot account")
        else pure found

def resolveAuthenticatedUser (numbering : Numbering) (input : AuthenticationInput) :
    IdentityProgram AuthenticatedUser := do
  let subject := (input.verified.provider, input.verified.subject)
  let identity ← query (.identity subject) fun store => store.identityAt subject
  match identity with
  | some identity => resolveLinkedIdentity numbering input identity
  | none => do
      let claims ← matchClaims numbering input.verified.claims
      let found ← resolveUserFromVerifiedClaims numbering input claims
      linkIdentity input (verifiedPhone claims) found

/-! ## Calls -/

inductive IdentityCall
  | find (value : String) (expectedKind : Option UserIdentifierKind)
  | resolve (input : ResolutionInput)
  | authenticate (input : AuthenticationInput)
  deriving DecidableEq

/-- The user that a call returns, and the handles that it is returned for, as they are
looked up. -/
structure IdentityAnswer where
  user : Option User
  foundBy : List (String × Option UserIdentifierKind)
  deriving DecidableEq

def IdentityCall.program (numbering : Numbering) : IdentityCall → IdentityProgram IdentityAnswer
  | .find value expectedKind => do
      let user ← findUserByIdentifier numbering value expectedKind
      pure ⟨user, [(value, expectedKind)]⟩
  | .resolve input => do
      let resolution ← resolveUserFromIdentifier numbering input
      pure ⟨some resolution.user, [(input.value, input.expectedKind)]⟩
  | .authenticate input => do
      let authenticated ← resolveAuthenticatedUser numbering input
      pure ⟨some authenticated.user,
        authenticated.foundBy.map fun key => (key.normalizedValue, some key.kind)⟩

end DotBackend.Identity
