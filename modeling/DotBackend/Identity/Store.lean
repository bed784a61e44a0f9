import DotBackend.Data.Table
import DotBackend.Identity.Handles
import DotBackend.Transaction.Program

/-!
# Users and their identifiers

The rows of users, of the handles that identify them and of the identities of the
authentication provider, the writes that the service makes to them, and the constraints
that the database enforces. The phone number of a user is also a column of its row, kept
from the time before identifiers.
-/

namespace DotBackend.Identity

open Data Transaction

/-! ## Rows -/

inductive UserIdentifierStatus
  | active
  | revoked
  deriving DecidableEq, Repr

structure User where
  id : Uuid
  phoneNumber : Option String
  phoneVerifiedAt : Option Instant
  firstSeenAt : Instant
  lastSeenAt : Instant
  deriving DecidableEq, Repr

structure UserIdentifier where
  id : Uuid
  userId : Uuid
  kind : UserIdentifierKind
  normalizedValue : String
  displayValue : Option String
  source : String
  verifiedAt : Option Instant
  isPrimary : Bool
  status : UserIdentifierStatus
  deriving DecidableEq, Repr

/-- What an identifier is looked up by. -/
def UserIdentifier.key (identifier : UserIdentifier) : IdentifierKey :=
  ⟨identifier.kind, identifier.normalizedValue⟩

structure AuthIdentity where
  id : Uuid
  userId : Uuid
  provider : String
  providerSubject : String
  verifiedPhone : Option String
  verifiedAt : Option Instant
  status : String
  deriving DecidableEq, Repr

/-- What an identity of the provider is looked up by. -/
def AuthIdentity.subject (identity : AuthIdentity) : String × String :=
  (identity.provider, identity.providerSubject)

structure IdentityStore where
  users : List User
  identifiers : List UserIdentifier
  identities : List AuthIdentity
  deriving DecidableEq, Repr

/-- What a transaction locks: rows that it updates and index entries that it inserts. -/
inductive IdentityLock
  | user (id : Uuid)
  | phoneNumber (value : String)
  | identifier (id : Uuid)
  | identifierKey (key : IdentifierKey)
  | identity (id : Uuid)
  | subject (subject : String × String)
  deriving DecidableEq

abbrev IdentityWrite := Write IdentityStore IdentityLock

namespace IdentityStore

/-! ## Statements -/

def identifierAt (store : IdentityStore) (key : IdentifierKey) : Option UserIdentifier :=
  store.identifiers.find? fun identifier => identifier.key = key

/-- `session.get(User, id)`. -/
def userAt (store : IdentityStore) (id : Uuid) : Option User :=
  store.users.find? fun user => user.id = id

def userWithPhone (store : IdentityStore) (value : String) : Option User :=
  store.users.find? fun user => user.phoneNumber = some value

/-- An active identifier of a user, if it has one. -/
def activeIdentifier (store : IdentityStore) (userId : Uuid) : Option Uuid :=
  (store.identifiers.find? fun identifier =>
    identifier.userId = userId ∧ identifier.status = .active).map UserIdentifier.id

def identityAt (store : IdentityStore) (subject : String × String) : Option AuthIdentity :=
  store.identities.find? fun identity => identity.subject = subject

/-! ## Updates of rows -/

def updateIdentifiers (condition : UserIdentifier → Bool)
    (change : UserIdentifier → UserIdentifier) (store : IdentityStore) : IdentityStore :=
  { store with identifiers := Table.update condition change store.identifiers }

def updateUser (id : Uuid) (change : User → User) (store : IdentityStore) : IdentityStore :=
  { store with users := Table.update (fun user => user.id == id) change store.users }

def updateIdentity (id : Uuid) (change : AuthIdentity → AuthIdentity) (store : IdentityStore) :
    IdentityStore :=
  { store with
    identities := Table.update (fun identity => identity.id == id) change store.identities }

end IdentityStore

theorem mem_of_identifierAt {store : IdentityStore} {key : IdentifierKey}
    {identifier : UserIdentifier} (found : store.identifierAt key = some identifier) :
    identifier ∈ store.identifiers ∧ identifier.key = key := by
  refine ⟨List.mem_of_find?_eq_some found, ?_⟩
  simpa using List.find?_some found

theorem key_ne_of_identifierAt {store : IdentityStore} {key : IdentifierKey}
    (absent : store.identifierAt key = none) :
    ∀ identifier ∈ store.identifiers, identifier.key ≠ key := by
  intro identifier identifierMem
  simpa using List.find?_eq_none.mp absent identifier identifierMem

theorem mem_of_userAt {store : IdentityStore} {id : Uuid} {user : User}
    (found : store.userAt id = some user) : user ∈ store.users ∧ user.id = id := by
  refine ⟨List.mem_of_find?_eq_some found, ?_⟩
  simpa using List.find?_some found

theorem mem_of_userWithPhone {store : IdentityStore} {value : String} {user : User}
    (found : store.userWithPhone value = some user) :
    user ∈ store.users ∧ user.phoneNumber = some value := by
  refine ⟨List.mem_of_find?_eq_some found, ?_⟩
  simpa using List.find?_some found

theorem phone_ne_of_userWithPhone {store : IdentityStore} {value : String}
    (absent : store.userWithPhone value = none) :
    ∀ user ∈ store.users, user.phoneNumber ≠ some value := by
  intro user userMem
  simpa using List.find?_eq_none.mp absent user userMem

/-! ## Writes -/

/-- The unique constraints that a new identifier may break. -/
def identifierTaken (identifier : UserIdentifier) (store : IdentityStore) : Bool :=
  store.identifiers.any fun other => other.id = identifier.id || other.key = identifier.key

/-- The unique constraints that a new user may break. -/
def userTaken (user : User) (store : IdentityStore) : Bool :=
  store.users.any fun other =>
    other.id = user.id || (user.phoneNumber.isSome && other.phoneNumber = user.phoneNumber)

/-- Insert a user with its first identifier. -/
def insertUser (user : User) (identifier : UserIdentifier) : IdentityWrite where
  rows := [.identifierKey identifier.key] ++ user.phoneNumber.toList.map .phoneNumber
  refused store := userTaken user store || identifierTaken identifier store
  apply store := { store with
    users := store.users ++ [user], identifiers := store.identifiers ++ [identifier] }

def insertIdentifier (identifier : UserIdentifier) : IdentityWrite where
  rows := [.identifierKey identifier.key]
  refused store := identifierTaken identifier store || (store.userAt identifier.userId).isNone
  apply store := { store with identifiers := store.identifiers ++ [identifier] }

def insertIdentity (identity : AuthIdentity) : IdentityWrite where
  rows := [.subject identity.subject]
  refused store := (store.identities.any fun other =>
      other.id = identity.id || other.subject = identity.subject) ||
    (store.userAt identity.userId).isNone
  apply store := { store with identities := store.identities ++ [identity] }

/-- Set columns of an identifier other than its key, owner and rank. -/
def writeIdentifier (id : Uuid) (change : UserIdentifier → UserIdentifier) : IdentityWrite where
  rows := [.identifier id]
  refused _ := false
  apply := IdentityStore.updateIdentifiers (fun identifier => identifier.id == id) change

/-- `identifier.verified_at = verified_at`. -/
def setVerified (id : Uuid) (verifiedAt : Option Instant) : IdentityWrite :=
  writeIdentifier id fun identifier => { identifier with verifiedAt }

/-- What linking an identifier again sets. -/
def setLinked (id : Uuid) (source : String) (verifiedAt : Option Instant) : IdentityWrite :=
  writeIdentifier id fun identifier => { identifier with status := .active, source, verifiedAt }

/-- `_make_primary`: no identifier of the user is primary, except the given one. -/
def makePrimary (userId : Uuid) (identifierId : Option Uuid) : IdentityWrite where
  rows := identifierId.toList.map .identifier
  refused _ := false
  apply := IdentityStore.updateIdentifiers
    (fun identifier => identifier.userId == userId && some identifier.id != identifierId)
    fun identifier => { identifier with isPrimary := false }

/-- `identifier.is_primary = True`. -/
def setPrimary (id : Uuid) : IdentityWrite :=
  writeIdentifier id fun identifier => { identifier with isPrimary := true }

/-- `user.last_seen_at = now`. -/
def touchUser (id : Uuid) (now : Instant) : IdentityWrite where
  rows := [.user id]
  refused _ := false
  apply := IdentityStore.updateUser id fun user => { user with lastSeenAt := now }

/-- Copy a phone to the column of its user, where it is unique. -/
def setPhone (id : Uuid) (value : String) (verifiedAt : Option Instant) : IdentityWrite where
  rows := [.user id, .phoneNumber value]
  refused store := store.users.any fun other => other.id ≠ id && other.phoneNumber = some value
  apply := IdentityStore.updateUser id fun user =>
    { user with phoneNumber := some value, phoneVerifiedAt := verifiedAt }

/-- What a token says anew about a linked identity. -/
def setIdentity (id : Uuid) (verifiedPhone : Option String) (verifiedAt : Option Instant) :
    IdentityWrite where
  rows := [.identity id]
  refused _ := false
  apply := IdentityStore.updateIdentity id fun identity =>
    { identity with verifiedPhone, verifiedAt }

/-! ## Constraints -/

/-- What the database enforces: primary keys, unique columns, and owners that exist. -/
structure IdentityStore.WellFormed (store : IdentityStore) : Prop where
  userIds : Table.UniqueOn (fun user : User => some user.id) store.users
  phoneNumbers : Table.UniqueOn User.phoneNumber store.users
  identifierIds : Table.UniqueOn (fun identifier : UserIdentifier => some identifier.id)
    store.identifiers
  identifierKeys : Table.UniqueOn (fun identifier : UserIdentifier => some identifier.key)
    store.identifiers
  owners : ∀ identifier ∈ store.identifiers, ∃ user ∈ store.users, user.id = identifier.userId

end DotBackend.Identity
