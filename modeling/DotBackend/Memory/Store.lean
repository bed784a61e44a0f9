import DotBackend.Data.Table
import DotBackend.Memory.Consolidation

/-!
# The memory store

Episodes, entities, facts and evidence of every user, and the writes of one memory job.
The rows keep the columns that the service reads back or that hold a text; `nextId`
stands for the random identifiers, which never repeat.
-/

namespace DotBackend.Memory

open Data

abbrev Embedding := List PyFloat

structure MemoryEpisode where
  id : Uuid
  userId : Uuid
  conversationId : Uuid
  jobId : Uuid
  triggerMessageId : Uuid
  responseMessageId : Uuid
  summary : String
  isRetrievable : Bool
  embedding : Option Embedding
  occurredAt : Instant
  deriving DecidableEq

structure MemoryEntity where
  id : Uuid
  userId : Uuid
  entityType : String
  name : String
  canonicalKey : String
  aliases : List String
  deriving DecidableEq

inductive MemoryFactStatus
  | active | superseded | expired
  deriving DecidableEq

structure MemoryFact where
  id : Uuid
  userId : Uuid
  subjectEntityId : Uuid
  predicate : String
  objectEntityId : Option Uuid
  objectValue : Option String
  statement : String
  kind : MemoryKind
  confidence : Rat
  importance : Int
  sensitivity : Sensitivity
  status : MemoryFactStatus
  validFrom : Instant
  validUntil : Option Instant
  supersededByFactId : Option Uuid
  embedding : Option Embedding
  /-- The only entry of the `metadata` column. -/
  sourceBasis : SourceBasis
  deriving DecidableEq

structure MemoryEvidence where
  id : Uuid
  factId : Uuid
  episodeId : Uuid
  sourceMessageId : Uuid
  evidenceType : SourceBasis
  deriving DecidableEq

structure MemoryStore where
  episodes : List MemoryEpisode
  entities : List MemoryEntity
  facts : List MemoryFact
  evidence : List MemoryEvidence
  nextId : Uuid
  deriving DecidableEq

/-- What a job was loaded with. -/
structure JobInput where
  jobId : Uuid
  userId : Uuid
  conversationId : Uuid
  triggerId : Uuid
  triggerContent : String
  triggerCreatedAt : Instant
  /-- `responses[-1].id`. -/
  lastResponseId : Uuid
  hasVerifiedToolResults : Bool

/-! ## Guarding -/

def explicitRequestPhrases : List String :=
  ["remember", "don't forget", "do not forget", "keep this in mind", "keep that in mind"]

/-- The user asks in so many words to remember something. -/
def explicitlyRequested (unicode : Unicode) (userText : String) : Bool :=
  Text.searchPhrases unicode (explicitRequestPhrases.map String.toList) none userText.toList

/-- The condition under which `_guard_consolidation` keeps an operation. -/
def passesGuard (unicode : Unicode) (userText : String) (hasVerifiedToolResults : Bool)
    (operation : MemoryOperation) : Bool :=
  operation.sensitivity ≠ .restricted
    && !containsRestrictedSecret unicode operation.statement
    && (operation.sensitivity ≠ .sensitive || explicitlyRequested unicode userText)
    && (operation.sourceBasis = .userStated || hasVerifiedToolResults)

/-- `_guard_consolidation`. -/
def guardConsolidation (unicode : Unicode) (consolidation : MemoryConsolidation)
    (userText : String) (hasVerifiedToolResults : Bool) : MemoryConsolidation :=
  { consolidation with
    operations := consolidation.operations.filter
      (passesGuard unicode userText hasVerifiedToolResults) }

/-! ## Entities and evidence -/

/-- A character that a canonical key keeps. -/
def isKeyChar (c : Char) : Bool :=
  ('a' ≤ c ∧ c ≤ 'z') || ('0' ≤ c ∧ c ≤ '9')

/-- `_canonical_key`. -/
def canonicalKey (unicode : Unicode) (name : String) : String :=
  let folded := Text.collapse isKeyChar '-' false (Text.casefold unicode name.toList)
  String.ofList ((Text.trim (· == '-') folded).take 255)

/-- The query of `_resolve_entity`. -/
def MemoryStore.findEntity (store : MemoryStore) (userId : Uuid) (entityType key : String) :
    Option MemoryEntity :=
  store.entities.find? fun entity =>
    entity.userId = userId ∧ entity.entityType = entityType ∧ entity.canonicalKey = key

/-- `_resolve_entity`: a new name of a known entity becomes an alias of the loaded row. -/
def resolveEntity (unicode : Unicode) (store : MemoryStore) (userId : Uuid)
    (name entityType : String) : MemoryStore × MemoryEntity :=
  match store.findEntity userId entityType (canonicalKey unicode name) with
  | none =>
      let entity : MemoryEntity := {
        id := store.nextId, userId, entityType, name,
        canonicalKey := canonicalKey unicode name, aliases := [] }
      ({ store with entities := store.entities ++ [entity], nextId := store.nextId + 1 }, entity)
  | some entity =>
      if name ≠ entity.name ∧ name ∉ entity.aliases then
        let renamed := { entity with aliases := entity.aliases ++ [name] }
        let entities := Table.update (· == entity) (fun _ => renamed) store.entities
        ({ store with entities }, renamed)
      else (store, entity)

/-- `_add_evidence`. -/
def addEvidence (store : MemoryStore) (factId episodeId sourceMessageId : Uuid)
    (evidenceType : SourceBasis) : MemoryStore :=
  if store.evidence.any fun row => row.factId = factId ∧ row.episodeId = episodeId then store
  else
    let row : MemoryEvidence := {
      id := store.nextId, factId, episodeId, sourceMessageId, evidenceType }
    { store with evidence := store.evidence ++ [row], nextId := store.nextId + 1 }

/-! ## Operations -/

/-- `_is_relevant_fact`. -/
def isRelevantFact (at_ : Instant) (fact : MemoryFact) : Bool :=
  (fact.status = .active ||
      (fact.status = .superseded && fact.validUntil.any (at_ < ·))) &&
    fact.validUntil.all (at_ < ·)

/-- The name and the type of the object of an operation, when it is an entity. -/
def MemoryOperation.objectEntity? (operation : MemoryOperation) : Option (String × String) :=
  if operation.objectIsEntity then
    match operation.objectName.bind nonempty, operation.objectType.bind nonempty with
    | some name, some entityType => some (name, entityType)
    | _, _ => none
  else none

/-- Assignments to the columns of one loaded fact. -/
def MemoryStore.updateFact (store : MemoryStore) (id : Uuid)
    (change : MemoryFact → MemoryFact) : MemoryStore :=
  { store with facts := Table.update (fun fact => fact.id == id) change store.facts }

/-- A fact stated again becomes as confident and as important as the new statement. -/
def MemoryFact.strengthen (operation : MemoryOperation) (fact : MemoryFact) : MemoryFact :=
  { fact with
    confidence := max fact.confidence operation.confidence
    importance := max fact.importance operation.importance }

/-- The query for the fact that an operation refers to. -/
def MemoryStore.findExisting (store : MemoryStore) (userId : Uuid) (now : Instant)
    (operation : MemoryOperation) : Option MemoryFact :=
  operation.existingFactId.bind fun id =>
    store.facts.find? fun fact =>
      fact.id = id ∧ fact.userId = userId ∧ isRelevantFact now fact

/-- The object of a fact is the given entity or, without one, the given value. -/
def MemoryFact.hasObject (fact : MemoryFact) (value : Option String) : Option Uuid → Bool
  | some objectId => fact.objectEntityId = some objectId
  | none => fact.objectEntityId = none ∧ fact.objectValue = value

/-- The query for an active fact that already says the same. -/
def MemoryStore.findDuplicate (store : MemoryStore) (userId subjectId : Uuid)
    (objectId : Option Uuid) (operation : MemoryOperation) : Option MemoryFact :=
  store.facts.find? fun fact =>
    fact.userId = userId ∧ fact.subjectEntityId = subjectId ∧
      fact.predicate = operation.predicate ∧ fact.status = .active ∧
      fact.hasObject operation.objectValue objectId

/-- The context of the operations of one job. -/
structure Episode where
  job : JobInput
  episodeId : Uuid

/-- The message that counts as the source of an operation. -/
def Episode.sourceMessageId (episode : Episode) (basis : SourceBasis) : Uuid :=
  if basis = .userStated then episode.job.triggerId else episode.job.lastResponseId

/-- The object of an operation, resolved when it is an entity. -/
def resolveObject (unicode : Unicode) (store : MemoryStore) (userId : Uuid)
    (operation : MemoryOperation) : MemoryStore × Option MemoryEntity :=
  match operation.objectEntity? with
  | some (name, entityType) =>
      let resolved := resolveEntity unicode store userId name entityType
      (resolved.1, some resolved.2)
  | none => (store, none)

/-- The row of a new fact. -/
def newFact (id userId subjectId : Uuid) (objectId : Option Uuid) (occurredAt : Instant)
    (embedding : Option Embedding) (operation : MemoryOperation) : MemoryFact where
  id := id
  userId := userId
  subjectEntityId := subjectId
  predicate := operation.predicate
  objectEntityId := objectId
  objectValue := if objectId.isSome then none else operation.objectValue
  statement := operation.statement
  kind := operation.kind
  confidence := operation.confidence
  importance := operation.importance
  sensitivity := operation.sensitivity
  status := .active
  validFrom := operation.validFrom.getD occurredAt
  validUntil := operation.validUntil
  supersededByFactId := none
  embedding := embedding
  sourceBasis := operation.sourceBasis

/-- How a fact is closed by the fact that replaces it. -/
def MemoryFact.supersededBy (fact : MemoryFact) (newId : Uuid) (occurredAt : Instant)
    (operation : MemoryOperation) : MemoryFact :=
  { fact with
    status := .superseded
    validUntil := some ((operation.validFrom.filter fun from_ => occurredAt < from_).getD occurredAt)
    supersededByFactId := some newId }

/-- `_apply_operation` at one reading of the clock. -/
def applyOperation (unicode : Unicode) (episode : Episode) (embedding : Option Embedding)
    (now : Instant) (store : MemoryStore) (operation : MemoryOperation) : MemoryStore :=
  let userId := episode.job.userId
  let occurredAt := episode.job.triggerCreatedAt
  let existing := store.findExisting userId now operation
  if operation.action = .reinforce then
    match existing with
    | none => store
    | some fact =>
        addEvidence (store.updateFact fact.id (·.strengthen operation)) fact.id episode.episodeId
          (episode.sourceMessageId operation.sourceBasis) operation.sourceBasis
  else
    let (store, subject) :=
      resolveEntity unicode store userId operation.subjectName operation.subjectType
    let (store, objectEntity) := resolveObject unicode store userId operation
    let objectId := objectEntity.map (·.id)
    match store.findDuplicate userId subject.id objectId operation with
    | some duplicate =>
        addEvidence (store.updateFact duplicate.id (·.strengthen operation)) duplicate.id
          episode.episodeId episode.job.triggerId operation.sourceBasis
    | none =>
        let fact := newFact store.nextId userId subject.id objectId occurredAt embedding operation
        let store := { store with facts := store.facts ++ [fact], nextId := store.nextId + 1 }
        let store :=
          match existing with
          | some old =>
              if operation.action = .supersede then
                store.updateFact old.id (·.supersededBy fact.id occurredAt operation)
              else store
          | none => store
        addEvidence store fact.id episode.episodeId
          (episode.sourceMessageId operation.sourceBasis) operation.sourceBasis

/-- The operations of a job in order; `clock i` is read by the `i`-th of them. -/
def applyOperations (unicode : Unicode) (episode : Episode)
    (embeddings : List (String × Embedding)) (clock : Nat → Instant) :
    Nat → MemoryStore → List MemoryOperation → MemoryStore
  | _, store, [] => store
  | i, store, operation :: rest =>
      let embedding := embeddings.lookup operation.statement
      applyOperations unicode episode embeddings clock (i + 1)
        (applyOperation unicode episode embedding (clock i) store operation) rest

/-! ## Persisting -/

/-- Whether a consolidation says anything that is kept. -/
def MemoryConsolidation.hasContent (consolidation : MemoryConsolidation) : Bool :=
  !consolidation.operations.isEmpty ||
    (consolidation.storeEpisode && consolidation.episodeSummary ≠ "")

/-- The summary of the episode: the model's own, or the first statement. -/
def MemoryConsolidation.summary (consolidation : MemoryConsolidation) : String :=
  if consolidation.episodeSummary ≠ "" then consolidation.episodeSummary
  else (consolidation.operations.head?.map (·.statement)).getD ""

/-- The episode row of a job. -/
def newEpisode (id : Uuid) (embeddings : List (String × Embedding)) (job : JobInput)
    (consolidation : MemoryConsolidation) : MemoryEpisode where
  id := id
  userId := job.userId
  conversationId := job.conversationId
  jobId := job.jobId
  triggerMessageId := job.triggerId
  responseMessageId := job.lastResponseId
  summary := consolidation.summary
  isRetrievable := consolidation.storeEpisode
  embedding := embeddings.lookup consolidation.episodeSummary
  occurredAt := job.triggerCreatedAt

/-- `_persist_consolidation`: the store after the transaction and the result. -/
def persistConsolidation (unicode : Unicode) (embeddings : List (String × Embedding))
    (clock : Nat → Instant) (job : JobInput) (consolidation : MemoryConsolidation)
    (store : MemoryStore) : MemoryStore × Bool :=
  if ¬ consolidation.hasContent then (store, false)
  else if store.episodes.any fun episode => episode.jobId = job.jobId then (store, true)
  else
    let episode := newEpisode store.nextId embeddings job consolidation
    let opened := {
      store with episodes := store.episodes ++ [episode], nextId := store.nextId + 1 }
    (applyOperations unicode ⟨job, episode.id⟩ embeddings clock 0 opened
      consolidation.operations, true)

/-- What a memory job does with a parsed output: guard it, then persist it. -/
def storeConsolidation (unicode : Unicode) (embeddings : List (String × Embedding))
    (clock : Nat → Instant) (job : JobInput) (consolidation : MemoryConsolidation)
    (store : MemoryStore) : MemoryStore × Bool :=
  persistConsolidation unicode embeddings clock job
    (guardConsolidation unicode consolidation job.triggerContent job.hasVerifiedToolResults) store

end DotBackend.Memory
