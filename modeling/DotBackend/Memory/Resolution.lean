import DotBackend.Memory.Store

/-!
# What an operation does to the store

An entity is known by its owner, its type and its canonical key. Resolving the entities of
an operation only adds entities; a fact that was stored before says what the operation says
before the resolution exactly when it does afterwards. With that, the four outcomes of an
operation are listed once.
-/

namespace DotBackend.Memory

open Data

/-! ## Identities -/

/-- What an entity is looked up by. -/
abbrev EntityKey := Uuid × String × String

def MemoryEntity.key (entity : MemoryEntity) : EntityKey :=
  (entity.userId, entity.entityType, entity.canonicalKey)

/-- The entities without their names. -/
def MemoryStore.identities (store : MemoryStore) : List (Uuid × EntityKey) :=
  store.entities.map fun entity => (entity.id, entity.key)

/-- The entity of a key. -/
def MemoryStore.entityId (store : MemoryStore) (key : EntityKey) : Option Uuid :=
  (store.identities.find? fun identity => identity.2 = key).map Prod.fst

def subjectKey (unicode : Unicode) (userId : Uuid) (operation : MemoryOperation) : EntityKey :=
  (userId, operation.subjectType, canonicalKey unicode operation.subjectName)

/-- The key of the object, when it is an entity. -/
def objectKey? (unicode : Unicode) (userId : Uuid) (operation : MemoryOperation) :
    Option EntityKey :=
  operation.objectEntity?.map fun object => (userId, object.2, canonicalKey unicode object.1)

/-- The object of a fact is that of an operation. -/
def MemoryStore.sameObject (store : MemoryStore) (operation : MemoryOperation)
    (fact : MemoryFact) : Option EntityKey → Bool
  | some key => fact.objectEntityId.isSome && store.entityId key = fact.objectEntityId
  | none => fact.objectEntityId = none ∧ fact.objectValue = operation.objectValue

/-- A fact of the user has the subject, the predicate and the object of an operation. -/
def MemoryStore.asserts (unicode : Unicode) (store : MemoryStore) (userId : Uuid)
    (operation : MemoryOperation) (fact : MemoryFact) : Bool :=
  fact.userId = userId && fact.predicate = operation.predicate &&
    store.entityId (subjectKey unicode userId operation) = some fact.subjectEntityId &&
    store.sameObject operation fact (objectKey? unicode userId operation)

section Identities

variable {unicode : Unicode} {store middle after : MemoryStore} {userId : Uuid}
  {name entityType : String} {key : EntityKey} {id : Uuid}

theorem entityId_eq_findEntity (store : MemoryStore) (userId : Uuid) (entityType key : String) :
    store.entityId (userId, entityType, key) =
      (store.findEntity userId entityType key).map (·.id) := by
  unfold MemoryStore.entityId MemoryStore.identities MemoryStore.findEntity
  rw [List.find?_map, Option.map_map]
  congr 1
  apply congrArg (List.find? · store.entities)
  funext entity
  simp [MemoryEntity.key, Prod.ext_iff]

theorem mem_identities_of_entityId (found : store.entityId key = some id) :
    (id, key) ∈ store.identities := by
  rcases Option.map_eq_some_iff.mp found with ⟨identity, find_eq, rfl⟩
  have sameKey : identity.2 = key := by simpa using List.find?_some find_eq
  rw [← sameKey]
  exact List.mem_of_find?_eq_some find_eq

/-- Only entities with new identifiers are added. -/
structure Extends (store after : MemoryStore) : Prop where
  facts : after.facts = store.facts
  episodes : after.episodes = store.episodes
  evidence : after.evidence = store.evidence
  supply : store.nextId ≤ after.nextId
  identities : ∃ more, after.identities = store.identities ++ more ∧
    (more.map Prod.fst).Nodup ∧
      ∀ identity ∈ more, store.nextId ≤ identity.1 ∧ identity.1 < after.nextId

namespace Extends

theorem refl (store : MemoryStore) : Extends store store :=
  ⟨rfl, rfl, rfl, le_refl _, [], (List.append_nil _).symm, List.nodup_nil, nofun⟩

theorem trans (first : Extends store middle) (second : Extends middle after) :
    Extends store after where
  facts := second.facts.trans first.facts
  episodes := second.episodes.trans first.episodes
  evidence := second.evidence.trans first.evidence
  supply := le_trans first.supply second.supply
  identities := by
    rcases first.identities with ⟨some, some_eq, someDiffer, someNew⟩
    rcases second.identities with ⟨more, more_eq, moreDiffer, moreNew⟩
    refine ⟨some ++ more, by rw [more_eq, some_eq, List.append_assoc], ?_, ?_⟩
    · rw [List.map_append, List.nodup_append]
      refine ⟨someDiffer, moreDiffer, ?_⟩
      intro id isFirst other isSecond
      rcases List.mem_map.mp isFirst with ⟨identity, identityMem, rfl⟩
      rcases List.mem_map.mp isSecond with ⟨later, laterMem, rfl⟩
      exact Nat.ne_of_lt (lt_of_lt_of_le (someNew identity identityMem).2 (moreNew later laterMem).1)
    · intro identity identityMem
      rcases List.mem_append.mp identityMem with isFirst | isSecond
      · rcases someNew identity isFirst with ⟨fresh, bound⟩
        exact ⟨fresh, lt_of_lt_of_le bound second.supply⟩
      · rcases moreNew identity isSecond with ⟨fresh, bound⟩
        exact ⟨le_trans first.supply fresh, bound⟩

theorem entityId_of_some (extends_ : Extends store after) (found : store.entityId key = some id) :
    after.entityId key = some id := by
  rcases extends_.identities with ⟨more, more_eq, _, _⟩
  rcases Option.map_eq_some_iff.mp found with ⟨identity, find_eq, rfl⟩
  rw [MemoryStore.entityId, more_eq, List.find?_append, find_eq]
  rfl

/-- An identifier from before is that of the same key. -/
theorem entityId_iff (extends_ : Extends store after) (known : id < store.nextId) :
    after.entityId key = some id ↔ store.entityId key = some id := by
  constructor
  · intro found
    rcases extends_.identities with ⟨more, more_eq, _, moreNew⟩
    rw [MemoryStore.entityId, more_eq, List.find?_append] at found
    cases find_eq : store.identities.find? fun identity => identity.2 = key with
    | some identity =>
        rw [find_eq, Option.some_or] at found
        rw [MemoryStore.entityId, find_eq]
        exact found
    | none =>
        rw [find_eq, Option.none_or] at found
        rcases Option.map_eq_some_iff.mp found with ⟨identity, isMore, rfl⟩
        have fresh := (moreNew identity (List.mem_of_find?_eq_some isMore)).1
        exact absurd known (Nat.not_lt.mpr fresh)
  · exact extends_.entityId_of_some

end Extends

/-! ## Resolving -/

/-- A new alias changes no identity. -/
theorem identities_addAlias (store : MemoryStore) (entity : MemoryEntity) (aliases : List String) :
    (Table.update (· == entity) (fun _ => { entity with aliases := aliases })
      store.entities).map (fun entity => (entity.id, entity.key)) = store.identities := by
  unfold MemoryStore.identities Table.update
  rw [List.map_map]
  apply List.map_congr_left
  intro row _
  by_cases same : row = entity
  · simp [same, MemoryEntity.key]
  · simp [same]

/-- Resolving finds the entity of the key, or adds it. -/
theorem resolveEntity_extends (unicode : Unicode) (store : MemoryStore) (userId : Uuid)
    (name entityType : String) :
    Extends store (resolveEntity unicode store userId name entityType).1 ∧
      (resolveEntity unicode store userId name entityType).1.entityId
        (userId, entityType, canonicalKey unicode name) =
          some (resolveEntity unicode store userId name entityType).2.id := by
  unfold resolveEntity
  cases found : store.findEntity userId entityType (canonicalKey unicode name) with
  | none =>
      have notFound : (store.identities.find? fun identity =>
          identity.2 = (userId, entityType, canonicalKey unicode name)) = none := by
        have missing := entityId_eq_findEntity store userId entityType (canonicalKey unicode name)
        rw [found, Option.map_none, MemoryStore.entityId, Option.map_eq_none_iff] at missing
        exact missing
      constructor
      · refine ⟨rfl, rfl, rfl, Nat.le_succ _, ?_⟩
        refine ⟨[(store.nextId, userId, entityType, canonicalKey unicode name)], ?_, ?_, ?_⟩
        · simp [MemoryStore.identities, MemoryEntity.key]
        · simp
        · simp
      · simp only [MemoryStore.entityId, MemoryStore.identities] at notFound ⊢
        rw [List.map_append, List.find?_append, notFound]
        simp [MemoryEntity.key]
  | some entity =>
      have known : store.entityId (userId, entityType, canonicalKey unicode name) =
          some entity.id := by
        rw [entityId_eq_findEntity, found]
        rfl
      dsimp only
      split
      · have same := identities_addAlias store entity (entity.aliases ++ [name])
        constructor
        · refine ⟨rfl, rfl, rfl, le_refl _, [], ?_, List.nodup_nil, nofun⟩
          rw [List.append_nil]
          exact same
        · rw [MemoryStore.entityId, MemoryStore.identities]
          dsimp only
          rw [same]
          exact known
      · exact ⟨Extends.refl store, known⟩

/-- The only new entity is the resolved one. -/
theorem mem_identities_resolveEntity {unicode : Unicode} {store : MemoryStore} {userId : Uuid}
    {name entityType : String} {identity : Uuid × EntityKey}
    (stored : identity ∈ (resolveEntity unicode store userId name entityType).1.identities) :
    identity ∈ store.identities ∨ identity.2.1 = userId ∧
      identity.1 = (resolveEntity unicode store userId name entityType).2.id := by
  unfold resolveEntity at stored ⊢
  split at stored
  · rw [MemoryStore.identities, List.map_append] at stored
    rcases List.mem_append.mp stored with isOld | isNew
    · exact Or.inl isOld
    · rw [List.map_singleton, List.mem_singleton] at isNew
      rw [isNew]
      exact Or.inr ⟨rfl, rfl⟩
  · rename_i entity _
    left
    dsimp only at stored
    split at stored
    · rw [MemoryStore.identities] at stored
      dsimp only at stored
      rw [identities_addAlias] at stored
      exact stored
    · exact stored

/-- The object of an operation is resolved to the entity of its key. -/
theorem resolveObject_extends (unicode : Unicode) (store : MemoryStore) (userId : Uuid)
    (operation : MemoryOperation) :
    Extends store (resolveObject unicode store userId operation).1 ∧
      ((resolveObject unicode store userId operation).2.map (·.id) =
        (objectKey? unicode userId operation).bind
          (resolveObject unicode store userId operation).1.entityId ∧
      ((resolveObject unicode store userId operation).2.isSome =
        (objectKey? unicode userId operation).isSome)) := by
  unfold resolveObject objectKey?
  cases operation.objectEntity? with
  | none => exact ⟨Extends.refl store, rfl, rfl⟩
  | some object =>
      rcases resolveEntity_extends unicode store userId object.1 object.2 with ⟨extends_, found⟩
      exact ⟨extends_, found.symm, rfl⟩

theorem mem_identities_resolveObject {operation : MemoryOperation} {identity : Uuid × EntityKey}
    (stored : identity ∈ (resolveObject unicode store userId operation).1.identities) :
    identity ∈ store.identities ∨ identity.2.1 = userId ∧
      (resolveObject unicode store userId operation).2.map (·.id) = some identity.1 := by
  unfold resolveObject at stored ⊢
  split at stored
  · rcases mem_identities_resolveEntity stored with isOld | isNew
    · exact Or.inl isOld
    · exact Or.inr ⟨isNew.1, congrArg some isNew.2.symm⟩
  · exact Or.inl stored

/-- Every entity that is new is the subject or the object, and belongs to the user. -/
def AddsOnly (userId : Uuid) (store resolved : MemoryStore) (subject : Uuid)
    (object : Option Uuid) : Prop :=
  ∀ identity ∈ resolved.identities, identity ∈ store.identities ∨
    identity.2.1 = userId ∧ (subject = identity.1 ∨ object = some identity.1)

theorem addsOnly_resolve (unicode : Unicode) (store : MemoryStore) (userId : Uuid)
    (operation : MemoryOperation) :
    AddsOnly userId store
      (resolveObject unicode (resolveEntity unicode store userId operation.subjectName
        operation.subjectType).1 userId operation).1
      (resolveEntity unicode store userId operation.subjectName operation.subjectType).2.id
      ((resolveObject unicode (resolveEntity unicode store userId operation.subjectName
        operation.subjectType).1 userId operation).2.map (·.id)) := by
  intro identity stored
  rcases mem_identities_resolveObject stored with isOld | ⟨isUser, isObject⟩
  · rcases mem_identities_resolveEntity isOld with isOld | ⟨isUser, isSubject⟩
    · exact Or.inl isOld
    · exact Or.inr ⟨isUser, Or.inl isSubject.symm⟩
  · exact Or.inr ⟨isUser, Or.inr isObject⟩

/-- What an operation says of a fact whose entities were known before. -/
theorem Extends.asserts_eq (extends_ : Extends store after) {operation : MemoryOperation}
    {fact : MemoryFact} (subjectKnown : fact.subjectEntityId < store.nextId)
    (objectKnown : ∀ id, fact.objectEntityId = some id → id < store.nextId) :
    after.asserts unicode userId operation fact = store.asserts unicode userId operation fact := by
  have subjects : (decide (after.entityId (subjectKey unicode userId operation) =
      some fact.subjectEntityId)) = decide (store.entityId (subjectKey unicode userId operation) =
        some fact.subjectEntityId) :=
    decide_eq_decide.mpr (extends_.entityId_iff subjectKnown)
  have objects : after.sameObject operation fact (objectKey? unicode userId operation) =
      store.sameObject operation fact (objectKey? unicode userId operation) := by
    cases objectKey? unicode userId operation with
    | none => rfl
    | some key =>
        unfold MemoryStore.sameObject
        cases object_eq : fact.objectEntityId with
        | none => rfl
        | some id =>
            have sameId : after.entityId key = some id ↔ store.entityId key = some id :=
              extends_.entityId_iff (objectKnown id object_eq)
            simp [sameId]
  rw [MemoryStore.asserts, MemoryStore.asserts, subjects, objects]

/-- The entities of an operation, as they were resolved. -/
structure Means (unicode : Unicode) (store : MemoryStore) (userId : Uuid)
    (operation : MemoryOperation) (subject : Uuid) (object : Option Uuid) : Prop where
  subjectFound : store.entityId (subjectKey unicode userId operation) = some subject
  objectFound : object = (objectKey? unicode userId operation).bind store.entityId
  isEntity : object.isSome = (objectKey? unicode userId operation).isSome

variable {operation : MemoryOperation} {subject : Uuid} {object : Option Uuid}

/-- What is looked for as a duplicate: an active fact that says the same. -/
theorem Means.findDuplicate_eq (means : Means unicode store userId operation subject object) :
    store.findDuplicate userId subject object operation = store.facts.find? fun fact =>
      fact.status = .active && store.asserts unicode userId operation fact := by
  have objects : ∀ fact : MemoryFact, fact.hasObject operation.objectValue object =
      store.sameObject operation fact (objectKey? unicode userId operation) := by
    intro fact
    have object_eq := means.objectFound
    have isEntity := means.isEntity
    cases key_eq : objectKey? unicode userId operation with
    | none =>
        rw [key_eq] at object_eq
        rw [object_eq]
        rfl
    | some key =>
        rw [key_eq, Option.bind_some] at object_eq
        rw [key_eq, Option.isSome_some] at isEntity
        rcases Option.isSome_iff_exists.mp isEntity with ⟨id, rfl⟩
        unfold MemoryStore.sameObject MemoryFact.hasObject
        dsimp only
        rw [← object_eq]
        cases fact.objectEntityId with
        | none => simp
        | some other => simp [eq_comm]
  unfold MemoryStore.findDuplicate
  apply congrArg (List.find? · store.facts)
  funext fact
  unfold MemoryStore.asserts
  rw [means.subjectFound, ← objects fact, Bool.eq_iff_iff]
  simp only [decide_eq_true_eq, Bool.and_eq_true, Option.some.injEq]
  constructor
  · rintro ⟨isUser, isSubject, isPredicate, isActive, isObject⟩
    exact ⟨isActive, ⟨⟨isUser, isPredicate⟩, isSubject.symm⟩, isObject⟩
  · rintro ⟨isActive, ⟨⟨isUser, isPredicate⟩, isSubject⟩, isObject⟩
    exact ⟨isUser, isSubject.symm, isPredicate, isActive, isObject⟩

/-- The fact that an operation inserts says what the operation says. -/
theorem Means.asserts_newFact (means : Means unicode store userId operation subject object)
    (id : Uuid) (occurredAt : Instant) (embedding : Option Embedding) :
    store.asserts unicode userId operation
      (newFact id userId subject object occurredAt embedding operation) = true := by
  have object_eq := means.objectFound
  have isEntity := means.isEntity
  have objects : store.sameObject operation
      (newFact id userId subject object occurredAt embedding operation)
      (objectKey? unicode userId operation) = true := by
    cases key_eq : objectKey? unicode userId operation with
    | none =>
        rw [key_eq] at object_eq
        rw [object_eq]
        simp [MemoryStore.sameObject, newFact]
    | some key =>
        rw [key_eq, Option.bind_some] at object_eq
        rw [key_eq, Option.isSome_some] at isEntity
        rw [MemoryStore.sameObject, ← object_eq, newFact, isEntity, Bool.true_and]
        exact decide_eq_true rfl
  simp only [MemoryStore.asserts, Bool.and_eq_true, decide_eq_true_eq]
  exact ⟨⟨⟨rfl, rfl⟩, means.subjectFound⟩, objects⟩

end Identities

/-! ## The outcomes of an operation -/

/-- The fact that an operation supersedes is closed. -/
def MemoryStore.replace (store : MemoryStore) (existing : Option MemoryFact)
    (operation : MemoryOperation) (newId : Uuid) (occurredAt : Instant) : MemoryStore :=
  match existing with
  | some old =>
      if operation.action = .supersede then
        store.updateFact old.id (·.supersededBy newId occurredAt operation)
      else store
  | none => store

/-- A fact is inserted under the next identifier. -/
def MemoryStore.insertFact (store : MemoryStore) (fact : MemoryFact) : MemoryStore :=
  { store with facts := store.facts ++ [fact], nextId := store.nextId + 1 }

/-- The store with the new fact of an operation. -/
def MemoryStore.withFact (resolved : MemoryStore) (episode : Episode)
    (embedding : Option Embedding) (existing : Option MemoryFact) (operation : MemoryOperation)
    (subject : Uuid) (object : Option Uuid) : MemoryStore :=
  addEvidence ((resolved.insertFact (newFact resolved.nextId episode.job.userId subject object
    episode.job.triggerCreatedAt embedding operation)).replace existing operation resolved.nextId
      episode.job.triggerCreatedAt) resolved.nextId episode.episodeId
    (episode.sourceMessageId operation.sourceBasis) operation.sourceBasis

/-- The store with a fact that was stated again. -/
def MemoryStore.withRepetition (resolved : MemoryStore) (episode : Episode) (fact : MemoryFact)
    (operation : MemoryOperation) (sourceId : Uuid) : MemoryStore :=
  addEvidence (resolved.updateFact fact.id (·.strengthen operation)) fact.id episode.episodeId
    sourceId operation.sourceBasis

section Outcomes

variable (unicode : Unicode) (episode : Episode) (embedding : Option Embedding) (now : Instant)
  (store : MemoryStore) (operation : MemoryOperation)

/-- What `_apply_operation` can do. -/
inductive Applied : MemoryStore → Prop
  | ignored : operation.action = .reinforce →
      store.findExisting episode.job.userId now operation = none → Applied store
  | reinforced {fact : MemoryFact} : operation.action = .reinforce →
      store.findExisting episode.job.userId now operation = some fact →
      Applied (store.withRepetition episode fact operation
        (episode.sourceMessageId operation.sourceBasis))
  | repeated {resolved : MemoryStore} {subject : Uuid} {object : Option Uuid}
      {fact : MemoryFact} : operation.action ≠ .reinforce → Extends store resolved →
      AddsOnly episode.job.userId store resolved subject object →
      Means unicode resolved episode.job.userId operation subject object →
      resolved.findDuplicate episode.job.userId subject object operation = some fact →
      Applied (resolved.withRepetition episode fact operation episode.job.triggerId)
  | inserted {resolved : MemoryStore} {subject : Uuid} {object : Option Uuid} :
      operation.action ≠ .reinforce → Extends store resolved →
      AddsOnly episode.job.userId store resolved subject object →
      Means unicode resolved episode.job.userId operation subject object →
      resolved.findDuplicate episode.job.userId subject object operation = none →
      Applied (resolved.withFact episode embedding
        (store.findExisting episode.job.userId now operation) operation subject object)

theorem applied_applyOperation :
    Applied unicode episode embedding now store operation
      (applyOperation unicode episode embedding now store operation) := by
  unfold applyOperation
  dsimp only
  split
  · rename_i reinforces
    split
    · rename_i missing
      exact Applied.ignored reinforces missing
    · rename_i found
      exact Applied.reinforced reinforces found
  · rename_i notReinforce
    rcases resolveEntity_extends unicode store episode.job.userId operation.subjectName
      operation.subjectType with ⟨subjectExtends, subjectFound⟩
    rcases resolveObject_extends unicode (resolveEntity unicode store episode.job.userId
      operation.subjectName operation.subjectType).1 episode.job.userId operation with
        ⟨objectExtends, object_eq, isEntity⟩
    have means : Means unicode _ episode.job.userId operation _ _ :=
      ⟨objectExtends.entityId_of_some subjectFound, object_eq, by rw [Option.isSome_map, isEntity]⟩
    have adds := addsOnly_resolve unicode store episode.job.userId operation
    split
    · rename_i found
      exact Applied.repeated notReinforce (subjectExtends.trans objectExtends) adds means found
    · rename_i missing
      exact Applied.inserted notReinforce (subjectExtends.trans objectExtends) adds means missing

end Outcomes

end DotBackend.Memory
