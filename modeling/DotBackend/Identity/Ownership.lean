import DotBackend.Identity.Authentication

/-!
# Whom handles belong to

A phone belongs to the user of its identifier or, where it has none yet, to the user
whose row holds it. What is proved about every change that the service makes to the
store: users with identifiers keep exactly one primary one, identifiers keep their
owners, and phones keep the users they belong to.
-/

namespace DotBackend.Identity

open Data

/-- The phone belongs to the user. -/
def IdentityStore.Belongs (store : IdentityStore) (value : String) (userId : Uuid) : Prop :=
  (∃ identifier ∈ store.identifiers,
      identifier.key = ⟨.phone, value⟩ ∧ identifier.userId = userId) ∨
    ∃ user ∈ store.users, user.phoneNumber = some value ∧ user.id = userId

/-- The phones of users agree with the identifiers, and every user with identifiers has one
primary identifier. A user whose primary identifier is a phone has no other phone that is
recorded in its row only. -/
structure Consistent (store : IdentityStore) : Prop extends store.WellFormed where
  onePrimary : ∀ identifier ∈ store.identifiers, ∃! primary, primary ∈ store.identifiers ∧
    primary.userId = identifier.userId ∧ primary.isPrimary = true
  phoneOwner : ∀ user ∈ store.users, ∀ value, user.phoneNumber = some value →
    ∀ identifier ∈ store.identifiers, identifier.key = ⟨.phone, value⟩ →
      identifier.userId = user.id
  adopted : ∀ user ∈ store.users, ∀ value, user.phoneNumber = some value →
    ∀ primary ∈ store.identifiers, primary.userId = user.id → primary.isPrimary = true →
      primary.kind = .phone → ∃ identifier ∈ store.identifiers, identifier.key = ⟨.phone, value⟩

/-- Identifiers keep their owners and phones the users they belong to. -/
structure Evolves (before after : IdentityStore) : Prop where
  owners : ∀ identifier ∈ before.identifiers, ∃ row ∈ after.identifiers,
    row.id = identifier.id ∧ row.key = identifier.key ∧ row.userId = identifier.userId
  phones : ∀ value userId, before.Belongs value userId → after.Belongs value userId

/-- A change that leaves a consistent store. -/
structure Advances (before after : IdentityStore) : Prop where
  consistent : Consistent after
  evolves : Evolves before after

theorem Evolves.refl (store : IdentityStore) : Evolves store store :=
  ⟨fun identifier identifierMem => ⟨identifier, identifierMem, rfl, rfl, rfl⟩, fun _ _ held => held⟩

theorem Evolves.trans {first second third : IdentityStore} (earlier : Evolves first second)
    (later : Evolves second third) : Evolves first third := by
  constructor
  · intro identifier identifierMem
    obtain ⟨middle, middleMem, sameId, sameKey, sameUser⟩ := earlier.owners identifier identifierMem
    obtain ⟨row, rowMem, rowId, rowKey, rowUser⟩ := later.owners middle middleMem
    exact ⟨row, rowMem, rowId.trans sameId, rowKey.trans sameKey, rowUser.trans sameUser⟩
  · intro value userId held
    exact later.phones value userId (earlier.phones value userId held)

theorem Advances.trans {first second third : IdentityStore} (earlier : Advances first second)
    (later : Advances second third) : Advances first third :=
  ⟨later.consistent, earlier.evolves.trans later.evolves⟩

namespace Consistent

variable {store : IdentityStore}

theorem advances (consistent : Consistent store) : Advances store store :=
  ⟨consistent, Evolves.refl store⟩

/-- A phone belongs to one user. -/
theorem belongs_unique (consistent : Consistent store) {value : String} {first second : Uuid}
    (belongsFirst : store.Belongs value first) (belongsSecond : store.Belongs value second) :
    first = second := by
  rcases belongsFirst with ⟨row, rowMem, rowKey, rowUser⟩ | ⟨user, userMem, phone, userId⟩
  · rcases belongsSecond with ⟨other, otherMem, otherKey, otherUser⟩ |
      ⟨other, otherMem, otherPhone, otherId⟩
    · have same : row = other := consistent.identifierKeys.eq_of_mem rowMem otherMem rfl
        (by rw [rowKey, otherKey])
      rw [← rowUser, ← otherUser, same]
    · rw [← rowUser, ← otherId]
      exact consistent.phoneOwner other otherMem value otherPhone row rowMem rowKey
  · rcases belongsSecond with ⟨other, otherMem, otherKey, otherUser⟩ |
      ⟨other, otherMem, otherPhone, otherId⟩
    · rw [← otherUser, ← userId]
      exact (consistent.phoneOwner user userMem value phone other otherMem otherKey).symm
    · have same : user = other :=
        consistent.phoneNumbers.eq_of_mem userMem otherMem phone otherPhone
      rw [← userId, ← otherId, same]

/-! ### Changes of other columns -/

/-- A change of identifiers that keeps what consistency is about. -/
theorem updateIdentifiers (consistent : Consistent store) {condition : UserIdentifier → Bool}
    {change : UserIdentifier → UserIdentifier} (keepsId : ∀ row, (change row).id = row.id)
    (keepsKey : ∀ row, (change row).key = row.key)
    (keepsUser : ∀ row, (change row).userId = row.userId)
    (keepsPrimary : ∀ row, (change row).isPrimary = row.isPrimary) :
    Advances store (store.updateIdentifiers condition change) := by
  have forward : ∀ row ∈ store.identifiers, ∃ later ∈ (store.updateIdentifiers condition
      change).identifiers, later.id = row.id ∧ later.key = row.key ∧
        later.userId = row.userId ∧ later.isPrimary = row.isPrimary := by
    intro row rowMem
    refine ⟨if condition row then change row else row,
      Table.mem_update.mpr ⟨row, rowMem, rfl⟩, ?_⟩
    split
    · exact ⟨keepsId row, keepsKey row, keepsUser row, keepsPrimary row⟩
    · exact ⟨rfl, rfl, rfl, rfl⟩
  have backward : ∀ later ∈ (store.updateIdentifiers condition change).identifiers,
      ∃ row ∈ store.identifiers, later.id = row.id ∧ later.key = row.key ∧
        later.userId = row.userId ∧ later.isPrimary = row.isPrimary := by
    intro later laterMem
    rcases Table.mem_update_cases laterMem with ⟨row, rowMem, _, rfl⟩ | ⟨rowMem, _⟩
    · exact ⟨row, rowMem, keepsId row, keepsKey row, keepsUser row, keepsPrimary row⟩
    · exact ⟨later, rowMem, rfl, rfl, rfl, rfl⟩
  have identifierIds := consistent.identifierIds.update condition keepsId
  have evolves : Evolves store (store.updateIdentifiers condition change) := by
    constructor
    · intro row rowMem
      obtain ⟨later, laterMem, sameId, sameKey, sameUser, _⟩ := forward row rowMem
      exact ⟨later, laterMem, sameId, sameKey, sameUser⟩
    · rintro value userId (⟨row, rowMem, rowKey, rowUser⟩ | legacy)
      · obtain ⟨later, laterMem, _, sameKey, sameUser, _⟩ := forward row rowMem
        exact Or.inl ⟨later, laterMem, sameKey.trans rowKey, sameUser.trans rowUser⟩
      · exact Or.inr legacy
  refine ⟨⟨⟨consistent.userIds, consistent.phoneNumbers, identifierIds,
    consistent.identifierKeys.update condition keepsKey, ?_⟩, ?_, ?_, ?_⟩, evolves⟩
  · intro later laterMem
    obtain ⟨row, rowMem, _, _, sameUser, _⟩ := backward later laterMem
    rw [sameUser]
    exact consistent.owners row rowMem
  · intro later laterMem
    obtain ⟨row, rowMem, _, _, sameUser, _⟩ := backward later laterMem
    obtain ⟨primary, ⟨primaryMem, primaryUser, isPrimary⟩, isOnly⟩ := consistent.onePrimary row rowMem
    obtain ⟨kept, keptMem, keptId, _, keptUser, keptPrimary⟩ := forward primary primaryMem
    refine ⟨kept, ⟨keptMem, ?_, keptPrimary.trans isPrimary⟩, ?_⟩
    · rw [keptUser, sameUser]
      exact primaryUser
    · rintro other ⟨otherMem, otherUser, otherPrimary⟩
      obtain ⟨old, oldMem, oldId, _, oldUser, oldPrimary⟩ := backward other otherMem
      have same : old = primary := by
        apply isOnly
        refine ⟨oldMem, ?_, oldPrimary.symm.trans otherPrimary⟩
        rw [← oldUser, otherUser, sameUser]
      exact identifierIds.eq_of_mem otherMem keptMem rfl (by rw [oldId, keptId, same])
  · intro user userMem value phone later laterMem laterKey
    obtain ⟨row, rowMem, _, sameKey, sameUser, _⟩ := backward later laterMem
    rw [sameUser]
    exact consistent.phoneOwner user userMem value phone row rowMem (sameKey.symm.trans laterKey)
  · intro user userMem value phone later laterMem laterUser laterPrimary laterKind
    obtain ⟨row, rowMem, _, sameKey, sameUser, samePrimary⟩ := backward later laterMem
    have rowKind : row.kind = .phone := (congrArg IdentifierKey.kind sameKey).symm.trans laterKind
    obtain ⟨identifier, identifierMem, key⟩ := consistent.adopted user userMem value phone row rowMem
      (sameUser.symm.trans laterUser) (samePrimary.symm.trans laterPrimary) rowKind
    obtain ⟨kept, keptMem, _, keptKey, _, _⟩ := forward identifier identifierMem
    exact ⟨kept, keptMem, keptKey.trans key⟩

/-- A change of a user that keeps its phone. -/
theorem updateUser (consistent : Consistent store) (id : Uuid) {change : User → User}
    (keepsId : ∀ user, (change user).id = user.id)
    (keepsPhone : ∀ user, (change user).phoneNumber = user.phoneNumber) :
    Advances store (store.updateUser id change) := by
  have backward : ∀ later ∈ (store.updateUser id change).users, ∃ user ∈ store.users,
      later.id = user.id ∧ later.phoneNumber = user.phoneNumber := by
    intro later laterMem
    rcases Table.mem_update_cases laterMem with ⟨user, userMem, _, rfl⟩ | ⟨userMem, _⟩
    · exact ⟨user, userMem, keepsId user, keepsPhone user⟩
    · exact ⟨later, userMem, rfl, rfl⟩
  have forward : ∀ user ∈ store.users, ∃ later ∈ (store.updateUser id change).users,
      later.id = user.id ∧ later.phoneNumber = user.phoneNumber := by
    intro user userMem
    refine ⟨if (user.id == id) = true then change user else user,
      Table.mem_update.mpr ⟨user, userMem, rfl⟩, ?_⟩
    split
    · exact ⟨keepsId user, keepsPhone user⟩
    · exact ⟨rfl, rfl⟩
  have evolves : Evolves store (store.updateUser id change) := by
    constructor
    · exact (Evolves.refl store).owners
    · rintro value userId (identified | ⟨user, userMem, phone, userId_eq⟩)
      · exact Or.inl identified
      · obtain ⟨later, laterMem, sameId, samePhone⟩ := forward user userMem
        exact Or.inr ⟨later, laterMem, samePhone.trans phone, sameId.trans userId_eq⟩
  refine ⟨⟨⟨consistent.userIds.update _ keepsId, ?_, consistent.identifierIds,
    consistent.identifierKeys, ?_⟩, consistent.onePrimary, ?_, ?_⟩, evolves⟩
  · exact consistent.phoneNumbers.rewrite fun user _ _ => keepsPhone user
  · intro identifier identifierMem
    obtain ⟨user, userMem, isOwner⟩ := consistent.owners identifier identifierMem
    obtain ⟨later, laterMem, sameId, _⟩ := forward user userMem
    exact ⟨later, laterMem, sameId.trans isOwner⟩
  · intro later laterMem value phone identifier identifierMem key
    obtain ⟨user, userMem, sameId, samePhone⟩ := backward later laterMem
    rw [sameId]
    exact consistent.phoneOwner user userMem value (samePhone.symm.trans phone) identifier
      identifierMem key
  · intro later laterMem value phone primary primaryMem isOwner isPrimary isPhone
    obtain ⟨user, userMem, sameId, samePhone⟩ := backward later laterMem
    exact consistent.adopted user userMem value (samePhone.symm.trans phone) primary primaryMem
      (isOwner.trans sameId) isPrimary isPhone

theorem setVerified (consistent : Consistent store) (id : Uuid) (verifiedAt : Option Instant) :
    Advances store ((Identity.setVerified id verifiedAt).apply store) :=
  consistent.updateIdentifiers (fun _ => rfl) (fun _ => rfl) (fun _ => rfl) fun _ => rfl

theorem setLinked (consistent : Consistent store) (id : Uuid) (source : String)
    (verifiedAt : Option Instant) :
    Advances store ((Identity.setLinked id source verifiedAt).apply store) :=
  consistent.updateIdentifiers (fun _ => rfl) (fun _ => rfl) (fun _ => rfl) fun _ => rfl

theorem touchUser (consistent : Consistent store) (id : Uuid) (now : Instant) :
    Advances store ((Identity.touchUser id now).apply store) :=
  consistent.updateUser id (fun _ => rfl) fun _ => rfl

/-- Identities are not about handles. -/
theorem of_same (consistent : Consistent store) {other : IdentityStore}
    (sameUsers : other.users = store.users) (sameIdentifiers : other.identifiers = store.identifiers) :
    Advances store other := by
  obtain ⟨users, identifiers, identities⟩ := store
  obtain ⟨otherUsers, otherIdentifiers, otherIdentities⟩ := other
  cases sameUsers
  cases sameIdentifiers
  obtain ⟨⟨userIds, phoneNumbers, identifierIds, identifierKeys, owners⟩, onePrimary, phoneOwner,
    adopted⟩ := consistent
  refine ⟨⟨⟨userIds, phoneNumbers, identifierIds, identifierKeys, owners⟩, onePrimary, phoneOwner,
    adopted⟩, ?_, fun _ _ held => held⟩
  exact fun identifier identifierMem => ⟨identifier, identifierMem, rfl, rfl, rfl⟩

/-- Copying a phone of the user to its row. -/
theorem setPhone (consistent : Consistent store) {user : User} {identifier : UserIdentifier}
    (userMem : user ∈ store.users) (identifierMem : identifier ∈ store.identifiers)
    (isPhone : identifier.kind = .phone) (isOwner : identifier.userId = user.id)
    (allowed : user.phoneNumber = none ∨ identifier.isPrimary = true)
    {verifiedAt : Option Instant}
    (free : (Identity.setPhone user.id identifier.normalizedValue verifiedAt).refused store = false) :
    Advances store
      ((Identity.setPhone user.id identifier.normalizedValue verifiedAt).apply store) := by
  have taken : ∀ other ∈ store.users, other.id ≠ user.id →
      other.phoneNumber ≠ some identifier.normalizedValue := by
    intro other otherMem differs samePhone
    have notTaken := List.any_eq_false.mp free other otherMem
    simp [differs, samePhone] at notTaken
  have identifierKey : identifier.key = ⟨.phone, identifier.normalizedValue⟩ := by
    rw [UserIdentifier.key, isPhone]
  generalize written : (Identity.setPhone user.id identifier.normalizedValue verifiedAt).apply
    store = after
  have sameIdentifiers : after.identifiers = store.identifiers := by
    rw [← written]
    rfl
  -- The row of the user holds the phone; the other rows are as before.
  have backward : ∀ later ∈ after.users, (later.id = user.id ∧
      later.phoneNumber = some identifier.normalizedValue) ∨
        (later ∈ store.users ∧ later.id ≠ user.id) := by
    intro later laterMem
    rw [← written] at laterMem
    rcases Table.mem_update_cases laterMem with ⟨old, _, selected, rfl⟩ | ⟨laterMem, notSelected⟩
    · exact Or.inl ⟨beq_iff_eq.mp selected, rfl⟩
    · exact Or.inr ⟨laterMem, beq_eq_false_iff_ne.mp notSelected⟩
  have forward : ∀ old ∈ store.users, ∃ later ∈ after.users, later.id = old.id ∧
      (old.id ≠ user.id → later.phoneNumber = old.phoneNumber) := by
    intro old oldMem
    rw [← written]
    refine ⟨if (old.id == user.id) = true then _ else old,
      Table.mem_update.mpr ⟨old, oldMem, rfl⟩, ?_⟩
    split
    · rename_i selected
      exact ⟨rfl, fun differs => absurd (beq_iff_eq.mp selected) differs⟩
    · exact ⟨rfl, fun _ => rfl⟩
  -- A phone that the row held before has an identifier of the user.
  have replaced : ∀ value, user.phoneNumber = some value →
      ∃ row ∈ store.identifiers, row.key = ⟨.phone, value⟩ ∧ row.userId = user.id := by
    intro value held
    rcases allowed with noPhone | isPrimary
    · rw [noPhone] at held
      cases held
    · obtain ⟨row, rowMem, key⟩ := consistent.adopted user userMem value held identifier
        identifierMem isOwner isPrimary isPhone
      exact ⟨row, rowMem, key, consistent.phoneOwner user userMem value held row rowMem key⟩
  have evolves : Evolves store after := by
    constructor
    · rw [sameIdentifiers]
      exact (Evolves.refl store).owners
    · rintro value userId (⟨row, rowMem, key, rowUser⟩ | ⟨old, oldMem, phone, oldId⟩)
      · exact Or.inl ⟨row, sameIdentifiers ▸ rowMem, key, rowUser⟩
      · by_cases isUser : old.id = user.id
        · have same : old = user :=
            consistent.userIds.eq_of_mem oldMem userMem rfl (by rw [isUser])
          obtain ⟨row, rowMem, key, rowUser⟩ := replaced value (same ▸ phone)
          exact Or.inl ⟨row, sameIdentifiers ▸ rowMem, key, rowUser.trans (isUser.symm.trans oldId)⟩
        · obtain ⟨later, laterMem, sameId, samePhone⟩ := forward old oldMem
          exact Or.inr ⟨later, laterMem, (samePhone isUser).trans phone, sameId.trans oldId⟩
  refine ⟨⟨⟨?_, ?_, ?_, ?_, ?_⟩, ?_, ?_, ?_⟩, evolves⟩
  · rw [← written]
    exact consistent.userIds.update _ fun _ => rfl
  · rw [← written]
    apply consistent.phoneNumbers.update_one consistent.userIds
    rintro row _ _ other otherMem differs value phone otherPhone
    cases phone
    exact taken other otherMem differs otherPhone
  · rw [sameIdentifiers]
    exact consistent.identifierIds
  · rw [sameIdentifiers]
    exact consistent.identifierKeys
  · rw [sameIdentifiers]
    intro row rowMem
    obtain ⟨owner, ownerMem, ownerId⟩ := consistent.owners row rowMem
    obtain ⟨later, laterMem, sameId, _⟩ := forward owner ownerMem
    exact ⟨later, laterMem, sameId.trans ownerId⟩
  · rw [sameIdentifiers]
    exact consistent.onePrimary
  · rw [sameIdentifiers]
    intro later laterMem value phone row rowMem key
    rcases backward later laterMem with ⟨laterId, laterPhone⟩ | ⟨laterMem, _⟩
    · rw [laterPhone] at phone
      cases phone
      have same : row = identifier := consistent.identifierKeys.eq_of_mem rowMem identifierMem rfl
        (by rw [key, identifierKey])
      rw [same, isOwner, laterId]
    · exact consistent.phoneOwner later laterMem value phone row rowMem key
  · rw [sameIdentifiers]
    intro later laterMem value phone primary primaryMem isPrimaryOwner isPrimary primaryKind
    rcases backward later laterMem with ⟨_, laterPhone⟩ | ⟨laterMem, _⟩
    · rw [laterPhone] at phone
      cases phone
      exact ⟨identifier, identifierMem, identifierKey⟩
    · exact consistent.adopted later laterMem value phone primary primaryMem isPrimaryOwner
        isPrimary primaryKind

/-! ### New rows -/

/-- The rows besides a new identifier keep what they say about each other. -/
theorem wellFormed_append (wellFormed : store.WellFormed) {identifier : UserIdentifier}
    (notTaken : identifierTaken identifier store = false)
    (isOwned : ∃ user ∈ store.users, user.id = identifier.userId) :
    IdentityStore.WellFormed
      { store with identifiers := store.identifiers ++ [identifier] } := by
  have isNew : ∀ other ∈ store.identifiers, other.id ≠ identifier.id ∧
      other.key ≠ identifier.key := by
    intro other otherMem
    have apart := List.any_eq_false.mp notTaken other otherMem
    simpa [not_or] using apart
  refine ⟨wellFormed.userIds, wellFormed.phoneNumbers, ?_, ?_, ?_⟩
  · exact wellFormed.identifierIds.append fun other otherMem => (isNew other otherMem).1
  · exact wellFormed.identifierKeys.append fun other otherMem => (isNew other otherMem).2
  · intro row rowMem
    rcases List.mem_append.mp rowMem with old | new
    · exact wellFormed.owners row old
    · rw [List.mem_singleton.mp new]
      exact isOwned

/-- The phone of an identifier is no other user's. -/
def PhoneFree (store : IdentityStore) (identifier : UserIdentifier) : Prop :=
  ∀ user ∈ store.users, ∀ value, user.phoneNumber = some value →
    identifier.key = ⟨.phone, value⟩ → identifier.userId = user.id

/-- A further identifier of a user that has some. -/
theorem appendIdentifier (consistent : Consistent store) {identifier : UserIdentifier}
    (notTaken : identifierTaken identifier store = false)
    (isOwned : ∃ user ∈ store.users, user.id = identifier.userId)
    (notPrimary : identifier.isPrimary = false)
    (hasOther : ∃ row ∈ store.identifiers, row.userId = identifier.userId)
    (phoneFree : PhoneFree store identifier) :
    Advances store { store with identifiers := store.identifiers ++ [identifier] } := by
  have wellFormed := wellFormed_append consistent.toWellFormed notTaken isOwned
  refine ⟨⟨wellFormed, ?_, ?_, ?_⟩, ?_, ?_⟩
  · intro row rowMem
    have before : ∃ old ∈ store.identifiers, old.userId = row.userId := by
      rcases List.mem_append.mp rowMem with old | new
      · exact ⟨row, old, rfl⟩
      · rw [List.mem_singleton.mp new]
        exact hasOther
    obtain ⟨old, oldMem, sameUser⟩ := before
    obtain ⟨primary, ⟨primaryMem, primaryUser, isPrimary⟩, isOnly⟩ := consistent.onePrimary old oldMem
    refine ⟨primary, ⟨List.mem_append_left _ primaryMem, primaryUser.trans sameUser, isPrimary⟩, ?_⟩
    rintro other ⟨otherMem, otherUser, otherPrimary⟩
    rcases List.mem_append.mp otherMem with otherOld | otherNew
    · exact isOnly other ⟨otherOld, otherUser.trans sameUser.symm, otherPrimary⟩
    · rw [List.mem_singleton.mp otherNew, notPrimary] at otherPrimary
      cases otherPrimary
  · intro user userMem value phone row rowMem key
    rcases List.mem_append.mp rowMem with old | new
    · exact consistent.phoneOwner user userMem value phone row old key
    · rw [List.mem_singleton.mp new] at key ⊢
      exact phoneFree user userMem value phone key
  · intro user userMem value phone primary primaryMem isOwner isPrimary isPhone
    rcases List.mem_append.mp primaryMem with old | new
    · obtain ⟨row, rowMem, key⟩ :=
        consistent.adopted user userMem value phone primary old isOwner isPrimary isPhone
      exact ⟨row, List.mem_append_left _ rowMem, key⟩
    · rw [List.mem_singleton.mp new, notPrimary] at isPrimary
      cases isPrimary
  · intro row rowMem
    exact ⟨row, List.mem_append_left _ rowMem, rfl, rfl, rfl⟩
  · rintro value userId (⟨row, rowMem, key, rowUser⟩ | legacy)
    · exact Or.inl ⟨row, List.mem_append_left _ rowMem, key, rowUser⟩
    · exact Or.inr legacy

/-- A new primary identifier of a user. -/
theorem appendPrimary (consistent : Consistent store) {identifier : UserIdentifier}
    (notTaken : identifierTaken identifier store = false)
    (isOwned : ∃ user ∈ store.users, user.id = identifier.userId)
    (isPrimary : identifier.isPrimary = true) (phoneFree : PhoneFree store identifier)
    (ownPhone : identifier.kind = .phone → ∀ user ∈ store.users, user.id = identifier.userId →
      ∀ value, user.phoneNumber = some value → identifier.normalizedValue = value) :
    Advances store ((makePrimary identifier.userId (some identifier.id)).apply
      { store with identifiers := store.identifiers ++ [identifier] }) := by
  have wellFormed := wellFormed_append consistent.toWellFormed notTaken isOwned
  have identifierNew : ∀ row ∈ store.identifiers, row.id ≠ identifier.id := by
    intro row rowMem sameId
    have apart := List.any_eq_false.mp notTaken row rowMem
    simp [sameId] at apart
  generalize written : (makePrimary identifier.userId (some identifier.id)).apply
    { store with identifiers := store.identifiers ++ [identifier] } = after
  have sameUsers : after.users = store.users := by
    rw [← written]
    rfl
  -- Rows of other users are as before; of the rows of the user only the new one is primary.
  have backward : ∀ later ∈ after.identifiers, later = identifier ∨
      ∃ row ∈ store.identifiers, later.id = row.id ∧ later.key = row.key ∧
        later.userId = row.userId ∧
          later.isPrimary = (row.isPrimary && row.userId != identifier.userId) := by
    intro later laterMem
    rw [← written] at laterMem
    rcases Table.mem_update_cases laterMem with ⟨row, rowMem, selected, rfl⟩ | ⟨rowMem, notSelected⟩
    · simp only [Bool.and_eq_true, beq_iff_eq, bne_iff_ne, ne_eq, Option.some.injEq] at selected
      rcases List.mem_append.mp rowMem with old | new
      · refine Or.inr ⟨row, old, rfl, rfl, rfl, ?_⟩
        simp [selected.1]
      · exact absurd (congrArg UserIdentifier.id (List.mem_singleton.mp new)) selected.2
    · rcases List.mem_append.mp rowMem with old | new
      · refine Or.inr ⟨later, old, rfl, rfl, rfl, ?_⟩
        have otherUser : later.userId ≠ identifier.userId := by
          intro sameUser
          simp [sameUser, identifierNew later old] at notSelected
        simp [otherUser]
      · exact Or.inl (List.mem_singleton.mp new)
  have newMem : identifier ∈ after.identifiers := by
    rw [← written]
    apply Table.mem_update.mpr
    refine ⟨identifier, List.mem_append_right _ List.mem_cons_self, ?_⟩
    simp
  have forward : ∀ row ∈ store.identifiers, ∃ later ∈ after.identifiers, later.id = row.id ∧
      later.key = row.key ∧ later.userId = row.userId := by
    intro row rowMem
    rw [← written]
    refine ⟨_, Table.mem_update.mpr ⟨row, List.mem_append_left _ rowMem, rfl⟩, ?_⟩
    split
    · exact ⟨rfl, rfl, rfl⟩
    · exact ⟨rfl, rfl, rfl⟩
  have identifierIds : Table.UniqueOn (fun row : UserIdentifier => some row.id)
      after.identifiers := by
    rw [← written]
    exact wellFormed.identifierIds.update _ fun _ => rfl
  have evolves : Evolves store after := by
    constructor
    · exact forward
    · rintro value userId (⟨row, rowMem, key, rowUser⟩ | legacy)
      · obtain ⟨later, laterMem, _, sameKey, sameUser⟩ := forward row rowMem
        exact Or.inl ⟨later, laterMem, sameKey.trans key, sameUser.trans rowUser⟩
      · exact Or.inr (sameUsers ▸ legacy)
  refine ⟨⟨⟨?_, ?_, identifierIds, ?_, ?_⟩, ?_, ?_, ?_⟩, evolves⟩
  · rw [sameUsers]
    exact consistent.userIds
  · rw [sameUsers]
    exact consistent.phoneNumbers
  · rw [← written]
    exact wellFormed.identifierKeys.update _ fun _ => rfl
  · rw [sameUsers]
    intro later laterMem
    rcases backward later laterMem with rfl | ⟨row, rowMem, _, _, sameUser, _⟩
    · exact isOwned
    · rw [sameUser]
      exact consistent.owners row rowMem
  · intro later laterMem
    by_cases ofUser : later.userId = identifier.userId
    · refine ⟨identifier, ⟨newMem, ofUser.symm, isPrimary⟩, ?_⟩
      rintro other ⟨otherMem, otherUser, otherPrimary⟩
      rcases backward other otherMem with isNew | ⟨row, _, _, _, sameUser, samePrimary⟩
      · exact isNew
      · rw [samePrimary, ← sameUser, otherUser, ofUser] at otherPrimary
        simp at otherPrimary
    · rcases backward later laterMem with rfl | ⟨row, rowMem, _, _, sameUser, _⟩
      · exact absurd rfl ofUser
      · obtain ⟨primary, ⟨primaryMem, primaryUser, wasPrimary⟩, isOnly⟩ :=
          consistent.onePrimary row rowMem
        have primaryOther : primary.userId ≠ identifier.userId := by
          rw [primaryUser, ← sameUser]
          exact ofUser
        obtain ⟨kept, keptMem, keptId, _, keptUser⟩ := forward primary primaryMem
        have keptPrimary : kept.isPrimary = true := by
          rcases backward kept keptMem with rfl | ⟨old, oldMem, oldId, _, _, oldPrimary⟩
          · exact isPrimary
          · have same : old = primary := consistent.identifierIds.eq_of_mem oldMem primaryMem rfl
              (by rw [← oldId, keptId])
            rw [oldPrimary, same, wasPrimary]
            simpa using primaryOther
        refine ⟨kept, ⟨keptMem, keptUser.trans (primaryUser.trans sameUser.symm), keptPrimary⟩, ?_⟩
        rintro other ⟨otherMem, otherUser, otherPrimary⟩
        rcases backward other otherMem with rfl | ⟨old, oldMem, oldId, _, oldUser, oldPrimary⟩
        · exact absurd otherUser.symm ofUser
        · rw [oldPrimary, Bool.and_eq_true] at otherPrimary
          have same : old = primary :=
            isOnly old ⟨oldMem, oldUser.symm.trans (otherUser.trans sameUser), otherPrimary.1⟩
          exact identifierIds.eq_of_mem otherMem keptMem rfl (by rw [oldId, keptId, same])
  · rw [sameUsers]
    intro user userMem value phone later laterMem key
    rcases backward later laterMem with rfl | ⟨row, rowMem, _, sameKey, sameUser, _⟩
    · exact phoneFree user userMem value phone key
    · rw [sameUser]
      exact consistent.phoneOwner user userMem value phone row rowMem (sameKey.symm.trans key)
  · rw [sameUsers]
    intro user userMem value phone later laterMem laterUser laterPrimary laterKind
    rcases backward later laterMem with rfl | ⟨row, rowMem, _, sameKey, sameUser, samePrimary⟩
    · refine ⟨_, newMem, ?_⟩
      rw [UserIdentifier.key, laterKind, ownPhone laterKind user userMem laterUser.symm value phone]
    · rw [samePrimary, Bool.and_eq_true] at laterPrimary
      have rowKind : row.kind = .phone :=
        (congrArg IdentifierKey.kind sameKey).symm.trans laterKind
      obtain ⟨old, oldMem, key⟩ := consistent.adopted user userMem value phone row rowMem
        (sameUser.symm.trans laterUser) laterPrimary.1 rowKind
      obtain ⟨kept, keptMem, _, keptKey, _⟩ := forward old oldMem
      exact ⟨kept, keptMem, keptKey.trans key⟩

/-- A new user with its first identifier, whose phone, if it is one, is the user's. -/
theorem insertUser (consistent : Consistent store) {user : User} {identifier : UserIdentifier}
    (isOwner : identifier.userId = user.id) (isPrimary : identifier.isPrimary = true)
    (samePhone : ∀ value, user.phoneNumber = some value ↔ identifier.key = ⟨.phone, value⟩)
    (phoneFree : ∀ other ∈ store.users, ∀ value, other.phoneNumber = some value →
      identifier.key ≠ ⟨.phone, value⟩)
    (notRefused : (Identity.insertUser user identifier).refused store = false) :
    Advances store ((Identity.insertUser user identifier).apply store) := by
  obtain ⟨userFree, notTaken⟩ := Bool.or_eq_false_iff.mp notRefused
  have userNew : ∀ other ∈ store.users, other.id ≠ user.id := by
    intro other otherMem sameId
    have apart := List.any_eq_false.mp userFree other otherMem
    simp [sameId] at apart
  have rowsOther : ∀ row ∈ store.identifiers, row.userId ≠ user.id := by
    intro row rowMem sameUser
    obtain ⟨owner, ownerMem, ownerId⟩ := consistent.owners row rowMem
    exact userNew owner ownerMem (ownerId.trans sameUser)
  have isNew : ∀ other ∈ store.identifiers, other.id ≠ identifier.id ∧
      other.key ≠ identifier.key := by
    intro other otherMem
    have apart := List.any_eq_false.mp notTaken other otherMem
    simpa [not_or] using apart
  refine ⟨⟨⟨?_, ?_, ?_, ?_, ?_⟩, ?_, ?_, ?_⟩, ?_, ?_⟩
  · exact consistent.userIds.append userNew
  · apply consistent.phoneNumbers.append_of_new
    intro value phone other otherMem otherPhone
    exact phoneFree other otherMem value otherPhone ((samePhone value).mp phone)
  · exact consistent.identifierIds.append fun other otherMem => (isNew other otherMem).1
  · exact consistent.identifierKeys.append fun other otherMem => (isNew other otherMem).2
  · intro row rowMem
    rcases List.mem_append.mp rowMem with old | new
    · obtain ⟨owner, ownerMem, ownerId⟩ := consistent.owners row old
      exact ⟨owner, List.mem_append_left _ ownerMem, ownerId⟩
    · rw [List.mem_singleton.mp new]
      exact ⟨user, List.mem_append_right _ List.mem_cons_self, isOwner.symm⟩
  · intro row rowMem
    rcases List.mem_append.mp rowMem with old | new
    · obtain ⟨primary, ⟨primaryMem, primaryUser, wasPrimary⟩, isOnly⟩ :=
        consistent.onePrimary row old
      refine ⟨primary, ⟨List.mem_append_left _ primaryMem, primaryUser, wasPrimary⟩, ?_⟩
      rintro other ⟨otherMem, otherUser, otherPrimary⟩
      rcases List.mem_append.mp otherMem with otherOld | otherNew
      · exact isOnly other ⟨otherOld, otherUser, otherPrimary⟩
      · rw [List.mem_singleton.mp otherNew, isOwner] at otherUser
        exact absurd otherUser.symm (rowsOther row old)
    · rw [List.mem_singleton.mp new]
      refine ⟨identifier, ⟨List.mem_append_right _ List.mem_cons_self, rfl, isPrimary⟩, ?_⟩
      rintro other ⟨otherMem, otherUser, _⟩
      rcases List.mem_append.mp otherMem with otherOld | otherNew
      · exact absurd (otherUser.trans isOwner) (rowsOther other otherOld)
      · exact List.mem_singleton.mp otherNew
  · intro holder holderMem value phone row rowMem key
    rcases List.mem_append.mp holderMem with holderOld | holderNew
    · rcases List.mem_append.mp rowMem with old | new
      · exact consistent.phoneOwner holder holderOld value phone row old key
      · rw [List.mem_singleton.mp new] at key
        exact absurd key (phoneFree holder holderOld value phone)
    · rw [List.mem_singleton.mp holderNew] at phone ⊢
      have newKey := (samePhone value).mp phone
      rcases List.mem_append.mp rowMem with old | new
      · exact absurd (key.trans newKey.symm) (isNew row old).2
      · rw [List.mem_singleton.mp new]
        exact isOwner
  · intro holder holderMem value phone primary primaryMem primaryUser wasPrimary isPhone
    rcases List.mem_append.mp holderMem with holderOld | holderNew
    · rcases List.mem_append.mp primaryMem with old | new
      · obtain ⟨row, rowMem, key⟩ := consistent.adopted holder holderOld value phone primary old
          primaryUser wasPrimary isPhone
        exact ⟨row, List.mem_append_left _ rowMem, key⟩
      · rw [List.mem_singleton.mp new, isOwner] at primaryUser
        exact absurd primaryUser.symm (userNew holder holderOld)
    · rw [List.mem_singleton.mp holderNew] at phone
      exact ⟨identifier, List.mem_append_right _ List.mem_cons_self, (samePhone value).mp phone⟩
  · intro row rowMem
    exact ⟨row, List.mem_append_left _ rowMem, rfl, rfl, rfl⟩
  · rintro value userId (⟨row, rowMem, key, rowUser⟩ | ⟨holder, holderMem, phone, holderId⟩)
    · exact Or.inl ⟨row, List.mem_append_left _ rowMem, key, rowUser⟩
    · exact Or.inr ⟨holder, List.mem_append_left _ holderMem, phone, holderId⟩

end Consistent

end DotBackend.Identity
