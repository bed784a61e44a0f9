import DotBackend.Memory.Supersession
import DotBackend.Transition.Run
import Mathlib.Logic.Relation

/-!
# The fact store over time

Facts refer to entities and to the facts that supersede them, evidence links facts and
episodes. Memory jobs and requests to forget come in any order; the references stay closed
and within one user, supersession stays acyclic, and a job is applied once.
-/

namespace DotBackend.Memory

open Data

variable {fact : MemoryFact} {userId : Uuid}

/-! ## Forgetting -/

/-- An episode whose text the user does not want to be kept. -/
def MemoryEpisode.scrub (episode : MemoryEpisode) : MemoryEpisode :=
  { episode with summary := "[forgotten by user]", isRetrievable := false, embedding := none }

/-- `DELETE` of facts: their evidence goes with them, pointers to them become null. -/
def MemoryStore.deleteFacts (store : MemoryStore) (factIds : List Uuid) : MemoryStore :=
  { store with
    facts := (Table.update (fun fact => fact.supersededByFactId.any (· ∈ factIds))
      (fun fact => { fact with supersededByFactId := none }) store.facts).filter
        fun fact => fact.id ∉ factIds
    evidence := store.evidence.filter fun row => row.factId ∉ factIds }

/-- Some fact has the entity as its subject or object. -/
def MemoryStore.refersTo (store : MemoryStore) (entityId : Uuid) : Bool :=
  store.facts.any fun fact =>
    fact.subjectEntityId = entityId || fact.objectEntityId = some entityId

/-- `DELETE` of the entities of the user that no fact refers to. -/
def MemoryStore.deleteUnreferenced (store : MemoryStore) (userId : Uuid) : MemoryStore :=
  { store with
    entities := store.entities.filter fun entity =>
      entity.userId ≠ userId || store.refersTo entity.id }

/-- The episodes that are evidence for some facts. -/
def MemoryStore.evidenceEpisodes (store : MemoryStore) (factIds : List Uuid) : List Uuid :=
  (store.evidence.filter fun row => row.factId ∈ factIds).map (·.episodeId)

/-- Some episodes lose their text. -/
def MemoryStore.scrubEpisodes (store : MemoryStore) (episodeIds : List Uuid) : MemoryStore :=
  { store with
    episodes := Table.update (fun episode => episode.id ∈ episodeIds) MemoryEpisode.scrub
      store.episodes }

/-- `forget_user_memories`: the store after the transaction and the number of facts. -/
def forgetUserMemories (userId : Uuid) (memoryIds : List Uuid) (store : MemoryStore) :
    MemoryStore × Nat :=
  if memoryIds = [] then (store, 0)
  else
    let facts := store.facts.filter fun fact => fact.userId = userId ∧ fact.id ∈ memoryIds
    if facts = [] then (store, 0)
    else
      let factIds := facts.map (·.id)
      let episodeIds := store.evidenceEpisodes factIds
      let scrubbed := if episodeIds = [] then store else store.scrubEpisodes episodeIds
      ((scrubbed.deleteFacts factIds).deleteUnreferenced userId, facts.length)

/-! ## Runs -/

/-- A memory job that was processed up to its transaction, or a request to forget. -/
inductive MemoryCall
  | job (embeddings : List (String × Embedding)) (clock : Nat → Instant) (job : JobInput)
      (consolidation : MemoryConsolidation)
  | forget (userId : Uuid) (memoryIds : List Uuid)

/-- One call on the store. -/
def memoryStep (unicode : Unicode) (store : MemoryStore) : MemoryCall → Option MemoryStore
  | .job embeddings clock job consolidation =>
      some (storeConsolidation unicode embeddings clock job consolidation store).1
  | .forget userId memoryIds => some (forgetUserMemories userId memoryIds store).1

/-- A store before the first call. -/
def MemoryStore.initial (nextId : Uuid) : MemoryStore where
  episodes := []
  entities := []
  facts := []
  evidence := []
  nextId := nextId

/-- Any sequence of calls. -/
abbrev MemoryRun (unicode : Unicode) :=
  Transition.Run (memoryStep unicode) fun _ _ => True

/-! ## The invariant -/

/-- The object of a fact: an entity, or a value. -/
def MemoryFact.object (fact : MemoryFact) : Option Uuid × Option String :=
  (fact.objectEntityId, if fact.objectEntityId.isSome then none else fact.objectValue)

/-- What an active fact is about. -/
def MemoryFact.activeKey (fact : MemoryFact) :
    Option (Uuid × Uuid × String × Option Uuid × Option String) :=
  if fact.status = .active then
    some (fact.userId, fact.subjectEntityId, fact.predicate, fact.object)
  else none

/-- The references of the store are closed and stay within one user. -/
structure MemoryStore.Linked (store : MemoryStore) : Prop where
  factIds : Table.UniqueOn (fun fact => some fact.id) store.facts
  factsKnown : ∀ fact ∈ store.facts, fact.id < store.nextId
  episodeIds : Table.UniqueOn (fun episode => some episode.id) store.episodes
  episodesKnown : ∀ episode ∈ store.episodes, episode.id < store.nextId
  identityIds : Table.UniqueOn (fun identity => some identity.1) store.identities
  identitiesKnown : ∀ identity ∈ store.identities, identity.1 < store.nextId
  jobs : Table.UniqueOn (fun episode => some episode.jobId) store.episodes
  active : Table.UniqueOn MemoryFact.activeKey store.facts
  subjects : ∀ fact ∈ store.facts, ∃ identity ∈ store.identities,
    identity.1 = fact.subjectEntityId ∧ identity.2.1 = fact.userId
  objects : ∀ fact ∈ store.facts, ∀ id, fact.objectEntityId = some id →
    ∃ identity ∈ store.identities, identity.1 = id ∧ identity.2.1 = fact.userId
  successors : ∀ fact ∈ store.facts, ∀ id, fact.supersededByFactId = some id → fact.id < id ∧
    ∃ successor ∈ store.facts, successor.id = id ∧ successor.userId = fact.userId
  evidence : ∀ row ∈ store.evidence, ∃ fact ∈ store.facts, fact.id = row.factId ∧
    ∃ episode ∈ store.episodes, episode.id = row.episodeId ∧ episode.userId = fact.userId

/-- Every fact has evidence. -/
def MemoryStore.Evidenced (store : MemoryStore) : Prop :=
  ∀ fact ∈ store.facts, ∃ row ∈ store.evidence, row.factId = fact.id

/-- Every entity is the subject or the object of some fact of its user. -/
def MemoryStore.Referenced (store : MemoryStore) : Prop :=
  ∀ identity ∈ store.identities, ∃ fact ∈ store.facts, fact.userId = identity.2.1 ∧
    (fact.subjectEntityId = identity.1 ∨ fact.objectEntityId = some identity.1)

/-- What every call preserves. -/
structure MemoryStore.Sound (store : MemoryStore) : Prop where
  linked : store.Linked
  evidenced : store.Evidenced
  referenced : store.Referenced

theorem MemoryStore.initial_sound (nextId : Uuid) : (MemoryStore.initial nextId).Sound where
  linked := {
    factIds := List.nodup_nil
    factsKnown := List.forall_mem_nil _
    episodeIds := List.nodup_nil
    episodesKnown := List.forall_mem_nil _
    identityIds := List.nodup_nil
    identitiesKnown := List.forall_mem_nil _
    jobs := List.nodup_nil
    active := List.nodup_nil
    subjects := List.forall_mem_nil _
    objects := List.forall_mem_nil _
    successors := List.forall_mem_nil _
    evidence := List.forall_mem_nil _ }
  evidenced := List.forall_mem_nil _
  referenced := List.forall_mem_nil _

/-! ## What an operation preserves -/

section Operations

variable {unicode : Unicode} {episode : Episode} {embedding : Option Embedding}
  {store resolved : MemoryStore} {operation : MemoryOperation} {subject : Uuid}
  {object : Option Uuid}

/-- New entities break no reference. -/
theorem Extends.linked (extends_ : Extends store resolved) (linked : store.Linked) :
    resolved.Linked := by
  rcases extends_.identities with ⟨more, more_eq, moreDiffer, moreNew⟩
  have kept : ∀ identity ∈ store.identities, identity ∈ resolved.identities := by
    intro identity identityMem
    rw [more_eq]
    exact List.mem_append_left more identityMem
  constructor
  · rw [extends_.facts]
    exact linked.factIds
  · intro fact stored
    rw [extends_.facts] at stored
    exact lt_of_lt_of_le (linked.factsKnown fact stored) extends_.supply
  · rw [extends_.episodes]
    exact linked.episodeIds
  · intro row stored
    rw [extends_.episodes] at stored
    exact lt_of_lt_of_le (linked.episodesKnown row stored) extends_.supply
  · rw [more_eq]
    apply linked.identityIds.append_all moreDiffer
    intro identity isOld later isNew
    exact Nat.ne_of_lt (lt_of_lt_of_le (linked.identitiesKnown identity isOld) (moreNew later isNew).1)
  · intro identity stored
    rw [more_eq] at stored
    rcases List.mem_append.mp stored with isOld | isNew
    · exact lt_of_lt_of_le (linked.identitiesKnown identity isOld) extends_.supply
    · exact (moreNew identity isNew).2
  · rw [extends_.episodes]
    exact linked.jobs
  · rw [extends_.facts]
    exact linked.active
  · intro fact stored
    rw [extends_.facts] at stored
    rcases linked.subjects fact stored with ⟨identity, identityMem, isSubject⟩
    exact ⟨identity, kept identity identityMem, isSubject⟩
  · intro fact stored id object_eq
    rw [extends_.facts] at stored
    rcases linked.objects fact stored id object_eq with ⟨identity, identityMem, isObject⟩
    exact ⟨identity, kept identity identityMem, isObject⟩
  · rw [extends_.facts]
    exact linked.successors
  · rw [extends_.facts, extends_.evidence, extends_.episodes]
    exact linked.evidence

/-- Evidence of an episode of the same user. -/
theorem MemoryStore.Linked.addEvidence (linked : store.Linked) (stored : fact ∈ store.facts)
    {row : MemoryEpisode} (rowStored : row ∈ store.episodes)
    (sameUser : row.userId = fact.userId) (sourceId : Uuid) (basis : SourceBasis) :
    (Memory.addEvidence store fact.id row.id sourceId basis).Linked := by
  unfold Memory.addEvidence
  split
  · exact linked
  · constructor
    · exact linked.factIds
    · exact fun other otherMem => Nat.lt_succ_of_lt (linked.factsKnown other otherMem)
    · exact linked.episodeIds
    · exact fun other otherMem => Nat.lt_succ_of_lt (linked.episodesKnown other otherMem)
    · exact linked.identityIds
    · exact fun other otherMem => Nat.lt_succ_of_lt (linked.identitiesKnown other otherMem)
    · exact linked.jobs
    · exact linked.active
    · exact linked.subjects
    · exact linked.objects
    · exact linked.successors
    · intro other otherMem
      rcases List.mem_append.mp otherMem with isOld | isNew
      · exact linked.evidence other isOld
      · rw [List.mem_singleton.mp isNew]
        exact ⟨fact, stored, rfl, row, rowStored, rfl, sameUser⟩

/-- Evidence that was there stays, and the fact has some of the episode. -/
theorem mem_evidence_addEvidence (store : MemoryStore) (factId episodeId sourceId : Uuid)
    (basis : SourceBasis) :
    (∀ row ∈ store.evidence, row ∈ (Memory.addEvidence store factId episodeId sourceId basis).evidence) ∧
      ∃ row ∈ (Memory.addEvidence store factId episodeId sourceId basis).evidence,
        row.factId = factId := by
  unfold Memory.addEvidence
  split
  · rename_i hasRow
    rcases List.any_eq_true.mp hasRow with ⟨row, rowMem, isRow⟩
    exact ⟨fun _ other => other, row, rowMem, (of_decide_eq_true isRow).1⟩
  · exact ⟨fun _ other => List.mem_append_left _ other, _, List.mem_append_right _
      (List.mem_singleton_self _), rfl⟩

/-- Facts keep their entities and their user; they may stop to be active. -/
theorem MemoryStore.Linked.changeFacts (linked : store.Linked) (condition : MemoryFact → Bool)
    (change : MemoryFact → MemoryFact)
    (keeps : ∀ fact, (change fact).id = fact.id ∧ (change fact).userId = fact.userId ∧
      (change fact).subjectEntityId = fact.subjectEntityId ∧
        (change fact).objectEntityId = fact.objectEntityId)
    (closes : ∀ fact, (change fact).activeKey = fact.activeKey ∨ (change fact).activeKey = none)
    (successors : ∀ fact ∈ store.facts, condition fact = true → ∀ id,
      (change fact).supersededByFactId = some id → fact.id < id ∧
        ∃ successor ∈ store.facts, successor.id = id ∧ successor.userId = fact.userId) :
    ({ store with facts := Table.update condition change store.facts } : MemoryStore).Linked := by
  have cases : ∀ fact ∈ Table.update condition change store.facts, ∃ old ∈ store.facts,
      fact.id = old.id ∧ fact.userId = old.userId ∧ fact.subjectEntityId = old.subjectEntityId ∧
        fact.objectEntityId = old.objectEntityId := by
    intro fact stored
    rcases Table.mem_update_cases stored with ⟨old, oldMem, _, rfl⟩ | ⟨oldMem, _⟩
    · exact ⟨old, oldMem, keeps old⟩
    · exact ⟨fact, oldMem, rfl, rfl, rfl, rfl⟩
  have persists : ∀ old ∈ store.facts, ∃ fact ∈ Table.update condition change store.facts,
      fact.id = old.id ∧ fact.userId = old.userId := by
    intro old oldMem
    refine ⟨_, Table.mem_update.mpr ⟨old, oldMem, rfl⟩, ?_⟩
    split
    · exact ⟨(keeps old).1, (keeps old).2.1⟩
    · exact ⟨rfl, rfl⟩
  constructor
  · exact linked.factIds.update condition fun fact => (keeps fact).1
  · intro fact stored
    rcases cases fact stored with ⟨old, oldMem, id_eq, _⟩
    rw [id_eq]
    exact linked.factsKnown old oldMem
  · exact linked.episodeIds
  · exact linked.episodesKnown
  · exact linked.identityIds
  · exact linked.identitiesKnown
  · exact linked.jobs
  · exact linked.active.update_losing closes
  · intro fact stored
    rcases cases fact stored with ⟨old, oldMem, _, user_eq, subject_eq, _⟩
    rw [user_eq, subject_eq]
    exact linked.subjects old oldMem
  · intro fact stored id object_eq
    rcases cases fact stored with ⟨old, oldMem, _, user_eq, _, objects_eq⟩
    rw [user_eq]
    exact linked.objects old oldMem id (objects_eq.symm.trans object_eq)
  · have moved : ∀ id userId, (∃ successor ∈ store.facts, successor.id = id ∧
        successor.userId = userId) → ∃ successor ∈ Table.update condition change store.facts,
          successor.id = id ∧ successor.userId = userId := by
      rintro id userId ⟨successor, successorMem, rfl, rfl⟩
      exact persists successor successorMem
    intro fact stored id pointer
    rcases Table.mem_update_cases stored with ⟨old, oldMem, selected, rfl⟩ | ⟨oldMem, _⟩
    · rw [(keeps old).1, (keeps old).2.1]
      rcases successors old oldMem selected id pointer with ⟨older, successor⟩
      exact ⟨older, moved id old.userId successor⟩
    · rcases linked.successors fact oldMem id pointer with ⟨older, successor⟩
      exact ⟨older, moved id fact.userId successor⟩
  · intro row stored
    rcases linked.evidence row stored with ⟨old, oldMem, id_eq, shared⟩
    rcases persists old oldMem with ⟨fact, factMem, sameId, sameUser⟩
    refine ⟨fact, factMem, sameId.trans id_eq, ?_⟩
    rw [sameUser]
    exact shared

/-- A fact stated again. -/
theorem MemoryStore.Linked.strengthen (linked : store.Linked) (id : Uuid) :
    (store.updateFact id (·.strengthen operation)).Linked := by
  apply linked.changeFacts
  · exact fun fact => ⟨rfl, rfl, rfl, rfl⟩
  · exact fun fact => Or.inl rfl
  · exact fun fact stored _ => linked.successors fact stored

/-- The entities of an operation belong to the user. -/
theorem Means.identities (means : Means unicode store userId operation subject object) :
    (∃ identity ∈ store.identities, identity.1 = subject ∧ identity.2.1 = userId) ∧
      ∀ id, object = some id →
        ∃ identity ∈ store.identities, identity.1 = id ∧ identity.2.1 = userId := by
  constructor
  · exact ⟨_, mem_identities_of_entityId means.subjectFound, rfl, rfl⟩
  · rintro id rfl
    rcases Option.bind_eq_some_iff.mp means.objectFound.symm with ⟨key, key_eq, found⟩
    rcases Option.map_eq_some_iff.mp key_eq with ⟨_, _, rfl⟩
    exact ⟨_, mem_identities_of_entityId found, rfl, rfl⟩

/-- An active fact with the key of a new fact is found as a duplicate. -/
theorem findDuplicate_of_activeKey {id : Uuid} {occurredAt : Instant}
    {other : MemoryFact} (stored : other ∈ store.facts)
    (sameKey : other.activeKey =
      (newFact id userId subject object occurredAt embedding operation).activeKey) :
    store.findDuplicate userId subject object operation ≠ none := by
  intro missing
  have notDuplicate := List.find?_eq_none.mp missing other stored
  rw [MemoryFact.activeKey, MemoryFact.activeKey, if_pos (show (newFact id userId subject object
    occurredAt embedding operation).status = .active from rfl)] at sameKey
  split at sameKey
  · rename_i isActive
    simp only [Option.some.injEq, Prod.mk.injEq, MemoryFact.object, newFact] at sameKey
    rcases sameKey with ⟨sameUser, sameSubject, samePredicate, sameObject, sameValue⟩
    apply notDuplicate
    rw [decide_eq_true_eq]
    refine ⟨sameUser, sameSubject, samePredicate, isActive, ?_⟩
    cases object with
    | none =>
        rw [sameObject] at sameValue
        simpa [MemoryFact.hasObject, sameObject] using sameValue
    | some entityId => simp [MemoryFact.hasObject, sameObject]
  · cases sameKey

/-- A fact that nothing active says yet. -/
theorem MemoryStore.Linked.insertFact (linked : store.Linked)
    (means : Means unicode store userId operation subject object)
    (missing : store.findDuplicate userId subject object operation = none)
    (occurredAt : Instant) (embedding : Option Embedding) :
    (store.insertFact (newFact store.nextId userId subject object occurredAt embedding
      operation)).Linked := by
  rcases means.identities with ⟨subjectStored, objectStored⟩
  have atEnd : ∀ fact ∈ store.facts ++ [newFact store.nextId userId subject object occurredAt
      embedding operation], fact ∈ store.facts ∨
        fact = newFact store.nextId userId subject object occurredAt embedding operation := by
    intro fact stored
    simpa using stored
  constructor
  · apply linked.factIds.append
    intro other stored
    exact Nat.ne_of_lt (linked.factsKnown other stored)
  · intro fact stored
    rcases atEnd fact stored with isOld | rfl
    · exact Nat.lt_succ_of_lt (linked.factsKnown fact isOld)
    · exact Nat.lt_succ_self store.nextId
  · exact linked.episodeIds
  · exact fun other stored => Nat.lt_succ_of_lt (linked.episodesKnown other stored)
  · exact linked.identityIds
  · exact fun other stored => Nat.lt_succ_of_lt (linked.identitiesKnown other stored)
  · exact linked.jobs
  · apply linked.active.append_of_new
    intro value newKey other stored otherKey
    exact findDuplicate_of_activeKey stored (otherKey.trans newKey.symm) missing
  · intro fact stored
    rcases atEnd fact stored with isOld | rfl
    · exact linked.subjects fact isOld
    · exact subjectStored
  · intro fact stored
    rcases atEnd fact stored with isOld | rfl
    · exact linked.objects fact isOld
    · exact objectStored
  · intro fact stored id pointer
    rcases atEnd fact stored with isOld | rfl
    · rcases linked.successors fact isOld id pointer with ⟨older, successor, isFact, same⟩
      exact ⟨older, successor, List.mem_append_left _ isFact, same⟩
    · cases pointer
  · intro row stored
    rcases linked.evidence row stored with ⟨fact, isFact, shared⟩
    exact ⟨fact, List.mem_append_left _ isFact, shared⟩

/-- A fact is superseded by one that is newer. -/
theorem MemoryStore.Linked.replace (linked : store.Linked) {existing : Option MemoryFact}
    {newer : MemoryFact} (newerStored : newer ∈ store.facts)
    (older : ∀ fact, existing = some fact → fact ∈ store.facts ∧ fact.id < newer.id ∧
      newer.userId = fact.userId) (occurredAt : Instant) :
    (store.replace existing operation newer.id occurredAt).Linked := by
  unfold MemoryStore.replace
  split
  · rename_i old
    rcases older old rfl with ⟨oldStored, isOlder, sameUser⟩
    split
    · apply linked.changeFacts
      · exact fun fact => ⟨rfl, rfl, rfl, rfl⟩
      · exact fun fact => Or.inr rfl
      · rintro fact stored selected _ ⟨⟩
        have isOld : fact = old :=
          linked.factIds.eq_of_mem stored oldStored (congrArg some (eq_of_beq selected)) rfl
        rw [isOld]
        exact ⟨isOlder, newer, newerStored, rfl, sameUser⟩
    · exact linked
  · exact linked

theorem MemoryStore.Evidenced.changeFacts (evidenced : store.Evidenced)
    (condition : MemoryFact → Bool) {change : MemoryFact → MemoryFact}
    (keeps : ∀ fact, (change fact).id = fact.id) :
    ({ store with facts := Table.update condition change store.facts } : MemoryStore).Evidenced := by
  intro fact stored
  rcases Table.mem_update_cases stored with ⟨old, oldMem, _, rfl⟩ | ⟨oldMem, _⟩
  · rw [keeps old]
    exact evidenced old oldMem
  · exact evidenced fact oldMem

theorem MemoryStore.Referenced.changeFacts (referenced : store.Referenced)
    (condition : MemoryFact → Bool) {change : MemoryFact → MemoryFact}
    (keeps : ∀ fact, (change fact).userId = fact.userId ∧
      (change fact).subjectEntityId = fact.subjectEntityId ∧
        (change fact).objectEntityId = fact.objectEntityId) :
    ({ store with facts := Table.update condition change store.facts } : MemoryStore).Referenced := by
  intro identity stored
  rcases referenced identity stored with ⟨fact, factMem, refers⟩
  refine ⟨_, Table.mem_update.mpr ⟨fact, factMem, rfl⟩, ?_⟩
  split
  · rw [(keeps fact).1, (keeps fact).2.1, (keeps fact).2.2]
    exact refers
  · exact refers

/-- More evidence for a fact of the store. -/
theorem MemoryStore.Sound.addEvidence (sound : store.Sound) (stored : fact ∈ store.facts)
    {row : MemoryEpisode} (rowStored : row ∈ store.episodes)
    (sameUser : row.userId = fact.userId) (sourceId : Uuid) (basis : SourceBasis) :
    (Memory.addEvidence store fact.id row.id sourceId basis).Sound where
  linked := sound.linked.addEvidence stored rowStored sameUser sourceId basis
  evidenced := by
    intro other otherMem
    rw [facts_addEvidence] at otherMem
    rcases sound.evidenced other otherMem with ⟨evidence, evidenceMem, isOther⟩
    exact ⟨evidence, (mem_evidence_addEvidence store fact.id row.id sourceId basis).1 evidence
      evidenceMem, isOther⟩
  referenced := by
    intro identity identityMem
    rw [MemoryStore.identities, entities_addEvidence] at identityMem
    rw [facts_addEvidence]
    exact sound.referenced identity identityMem

/-- The row of the episode of a job is stored. -/
def Episode.StoredIn (episode : Episode) (store : MemoryStore) : Prop :=
  ∃ row ∈ store.episodes, row.id = episode.episodeId ∧ row.userId = episode.job.userId

/-- A fact of the user is stated again. -/
theorem MemoryStore.Sound.withRepetition (sound : store.Sound) (open_ : episode.StoredIn store)
    (stored : fact ∈ store.facts)
    (isUser : fact.userId = episode.job.userId) (sourceId : Uuid) :
    (store.withRepetition episode fact operation sourceId).Sound := by
  rcases open_ with ⟨row, rowMem, id_eq, user_eq⟩
  have strengthened : (store.updateFact fact.id (·.strengthen operation)).Sound :=
    ⟨sound.linked.strengthen fact.id, sound.evidenced.changeFacts _ fun _ => rfl,
      sound.referenced.changeFacts _ fun _ => ⟨rfl, rfl, rfl⟩⟩
  have isStored : fact.strengthen operation ∈
      (store.updateFact fact.id (·.strengthen operation)).facts :=
    Table.mem_update.mpr ⟨fact, stored, by simp⟩
  rw [MemoryStore.withRepetition, ← id_eq]
  exact strengthened.addEvidence isStored rowMem (user_eq.trans isUser.symm) sourceId _

/-- Closing a fact and adding evidence do not touch the same rows. -/
theorem addEvidence_replace (store : MemoryStore) (existing : Option MemoryFact)
    (newId factId episodeId sourceId : Uuid) (occurredAt : Instant) (basis : SourceBasis) :
    Memory.addEvidence (store.replace existing operation newId occurredAt) factId episodeId sourceId
        basis =
      (Memory.addEvidence store factId episodeId sourceId basis).replace existing operation newId
        occurredAt := by
  unfold MemoryStore.replace
  split
  · split
    · unfold Memory.addEvidence MemoryStore.updateFact
      dsimp only
      split <;> rfl
    · rfl
  · rfl

/-- A new fact with its evidence; it refers to the entities that are new. -/
theorem MemoryStore.Sound.insertFact (sound : store.Sound) (extends_ : Extends store resolved)
    (adds : AddsOnly episode.job.userId store resolved subject object)
    (means : Means unicode resolved episode.job.userId operation subject object)
    (missing : resolved.findDuplicate episode.job.userId subject object operation = none)
    (open_ : episode.StoredIn store) (embedding : Option Embedding) (sourceId : Uuid) :
    (Memory.addEvidence (resolved.insertFact (newFact resolved.nextId episode.job.userId subject
      object episode.job.triggerCreatedAt embedding operation)) resolved.nextId episode.episodeId
        sourceId operation.sourceBasis).Sound := by
  rcases open_ with ⟨row, rowMem, id_eq, user_eq⟩
  have inserted := (extends_.linked sound.linked).insertFact means missing
    episode.job.triggerCreatedAt embedding
  have isStored := List.mem_append_right resolved.facts (List.mem_singleton_self
    (newFact resolved.nextId episode.job.userId subject object episode.job.triggerCreatedAt
      embedding operation))
  rw [← extends_.episodes] at rowMem
  rw [← id_eq]
  constructor
  · exact inserted.addEvidence isStored rowMem user_eq sourceId _
  · have grows := mem_evidence_addEvidence (resolved.insertFact (newFact resolved.nextId
      episode.job.userId subject object episode.job.triggerCreatedAt embedding operation))
      resolved.nextId row.id sourceId operation.sourceBasis
    intro fact stored
    rw [facts_addEvidence] at stored
    rcases List.mem_append.mp stored with isOld | isNew
    · rw [extends_.facts] at isOld
      rcases sound.evidenced fact isOld with ⟨evidence, evidenceMem, isFact⟩
      rw [← extends_.evidence] at evidenceMem
      exact ⟨evidence, grows.1 evidence evidenceMem, isFact⟩
    · rw [List.mem_singleton.mp isNew]
      exact grows.2
  · intro identity identityMem
    rw [MemoryStore.identities, entities_addEvidence] at identityMem
    rw [facts_addEvidence]
    rcases adds identity identityMem with isOld | ⟨isUser, isEntity⟩
    · rcases sound.referenced identity isOld with ⟨fact, factMem, refers⟩
      rw [← extends_.facts] at factMem
      exact ⟨fact, List.mem_append_left _ factMem, refers⟩
    · exact ⟨_, isStored, isUser.symm, isEntity⟩

/-- A fact is superseded by one that is newer. -/
theorem MemoryStore.Sound.replace (sound : store.Sound) {existing : Option MemoryFact}
    {newer : MemoryFact} (newerStored : newer ∈ store.facts)
    (older : ∀ fact, existing = some fact → fact ∈ store.facts ∧ fact.id < newer.id ∧
      newer.userId = fact.userId) (occurredAt : Instant) :
    (store.replace existing operation newer.id occurredAt).Sound := by
  refine ⟨sound.linked.replace newerStored older occurredAt, ?_, ?_⟩
  · unfold MemoryStore.replace
    split
    · split
      · exact sound.evidenced.changeFacts _ fun _ => rfl
      · exact sound.evidenced
    · exact sound.evidenced
  · unfold MemoryStore.replace
    split
    · split
      · exact sound.referenced.changeFacts _ fun _ => ⟨rfl, rfl, rfl⟩
      · exact sound.referenced
    · exact sound.referenced

/-- An operation keeps the store sound. -/
theorem MemoryStore.Sound.applyOperation (sound : store.Sound) (open_ : episode.StoredIn store)
    (embedding : Option Embedding) (now : Instant) (operation : MemoryOperation) :
    (Memory.applyOperation unicode episode embedding now store operation).Sound := by
  have applied := applied_applyOperation unicode episode embedding now store operation
  generalize Memory.applyOperation unicode episode embedding now store operation = after
    at applied ⊢
  cases applied with
  | ignored _ _ => exact sound
  | reinforced _ found =>
      rcases findExisting_eq_some found with ⟨stored, isUser⟩
      exact sound.withRepetition open_ stored isUser _
  | @repeated resolved subject object fact _ extends_ adds means duplicate =>
      have stored := List.mem_of_find?_eq_some duplicate
      have isDuplicate := List.find?_some duplicate
      rcases of_decide_eq_true isDuplicate with ⟨isUser, isSubject, _, _, isObject⟩
      have resolvedSound : resolved.Sound := by
        refine ⟨extends_.linked sound.linked, ?_, ?_⟩
        · rw [MemoryStore.Evidenced, extends_.facts, extends_.evidence]
          exact sound.evidenced
        · intro identity identityMem
          rcases adds identity identityMem with isOld | ⟨ofUser, rfl | rfl⟩
          · rw [extends_.facts]
            exact sound.referenced identity isOld
          · exact ⟨fact, stored, isUser.trans ofUser.symm, Or.inl isSubject⟩
          · exact ⟨fact, stored, isUser.trans ofUser.symm, Or.inr (of_decide_eq_true isObject)⟩
      apply resolvedSound.withRepetition ?_ stored isUser
      rw [Episode.StoredIn, extends_.episodes]
      exact open_
  | @inserted resolved subject object _ extends_ adds means missing =>
      have inserted := sound.insertFact extends_ adds means missing open_ embedding
        (episode.sourceMessageId operation.sourceBasis)
      rw [MemoryStore.withFact, addEvidence_replace]
      have newerStored : newFact resolved.nextId episode.job.userId subject object
          episode.job.triggerCreatedAt embedding operation ∈ (Memory.addEvidence
            (resolved.insertFact (newFact resolved.nextId episode.job.userId subject object
              episode.job.triggerCreatedAt embedding operation)) resolved.nextId episode.episodeId
            (episode.sourceMessageId operation.sourceBasis) operation.sourceBasis).facts := by
        rw [facts_addEvidence]
        exact List.mem_append_right _ (List.mem_singleton_self _)
      apply inserted.replace newerStored
      intro fact found
      rcases findExisting_eq_some found with ⟨stored, isUser⟩
      rw [facts_addEvidence]
      refine ⟨List.mem_append_left _ ?_, ?_, isUser.symm⟩
      · rw [extends_.facts]
        exact stored
      · exact lt_of_lt_of_le (sound.linked.factsKnown fact stored) extends_.supply

end Operations

/-! ## What a call preserves -/

section Calls

variable {unicode : Unicode} {store after : MemoryStore}

theorem episodes_addEvidence (store : MemoryStore) (factId episodeId sourceId : Uuid)
    (basis : SourceBasis) :
    (addEvidence store factId episodeId sourceId basis).episodes = store.episodes := by
  unfold addEvidence
  split <;> rfl

theorem episodes_applyOperation (episode : Episode) (embedding : Option Embedding) (now : Instant)
    (operation : MemoryOperation) :
    (applyOperation unicode episode embedding now store operation).episodes = store.episodes := by
  have applied := applied_applyOperation unicode episode embedding now store operation
  generalize applyOperation unicode episode embedding now store operation = after at applied ⊢
  cases applied with
  | ignored _ _ => rfl
  | reinforced _ _ => exact episodes_addEvidence _ _ _ _ _
  | repeated _ extends_ _ _ _ => exact (episodes_addEvidence _ _ _ _ _).trans extends_.episodes
  | inserted _ extends_ _ _ _ =>
      rw [MemoryStore.withFact, episodes_addEvidence]
      unfold MemoryStore.replace
      split
      · split
        · exact extends_.episodes
        · exact extends_.episodes
      · exact extends_.episodes

theorem episodes_applyOperations (episode : Episode) (embeddings : List (String × Embedding))
    (clock : Nat → Instant) (operations : List MemoryOperation) (i : Nat) (store : MemoryStore) :
    (applyOperations unicode episode embeddings clock i store operations).episodes =
      store.episodes := by
  induction operations generalizing i store with
  | nil => rfl
  | cons operation rest ih =>
      rw [applyOperations, ih, episodes_applyOperation]

theorem MemoryStore.Sound.applyOperations {episode : Episode} (sound : store.Sound)
    (open_ : episode.StoredIn store) (embeddings : List (String × Embedding))
    (clock : Nat → Instant) (operations : List MemoryOperation) (i : Nat) :
    (Memory.applyOperations unicode episode embeddings clock i store operations).Sound := by
  induction operations generalizing i store with
  | nil => exact sound
  | cons operation rest ih =>
      apply ih (sound.applyOperation open_ _ _ _)
      rw [Episode.StoredIn, episodes_applyOperation]
      exact open_

/-- The store with the episode of a job that has none yet. -/
theorem MemoryStore.Sound.openEpisode (sound : store.Sound) {episode : MemoryEpisode}
    (isNext : episode.id = store.nextId)
    (isFirst : ∀ other ∈ store.episodes, other.jobId ≠ episode.jobId) :
    ({ store with
      episodes := store.episodes ++ [episode], nextId := store.nextId + 1 } : MemoryStore).Sound where
  linked := {
    factIds := sound.linked.factIds
    factsKnown := fun fact stored => Nat.lt_succ_of_lt (sound.linked.factsKnown fact stored)
    episodeIds := by
      apply sound.linked.episodeIds.append
      intro other stored
      rw [isNext]
      exact Nat.ne_of_lt (sound.linked.episodesKnown other stored)
    episodesKnown := by
      intro other stored
      rcases List.mem_append.mp stored with isOld | isNew
      · exact Nat.lt_succ_of_lt (sound.linked.episodesKnown other isOld)
      · rw [List.mem_singleton.mp isNew, isNext]
        exact Nat.lt_succ_self store.nextId
    identityIds := sound.linked.identityIds
    identitiesKnown := fun other stored =>
      Nat.lt_succ_of_lt (sound.linked.identitiesKnown other stored)
    jobs := sound.linked.jobs.append isFirst
    active := sound.linked.active
    subjects := sound.linked.subjects
    objects := sound.linked.objects
    successors := sound.linked.successors
    evidence := by
      intro row stored
      rcases sound.linked.evidence row stored with ⟨fact, factMem, isFact, other, otherMem, shared⟩
      exact ⟨fact, factMem, isFact, other, List.mem_append_left _ otherMem, shared⟩ }
  evidenced := sound.evidenced
  referenced := sound.referenced

/-- What a processed job does to the episodes: nothing, or it adds that of the job. -/
theorem storeConsolidation_cases (unicode : Unicode) (embeddings : List (String × Embedding))
    (clock : Nat → Instant) (job : JobInput) (consolidation : MemoryConsolidation)
    (store : MemoryStore) :
    (storeConsolidation unicode embeddings clock job consolidation store).1 = store ∨
      (∀ other ∈ store.episodes, other.jobId ≠ job.jobId) ∧
        ∃ episode : MemoryEpisode, episode.id = store.nextId ∧ episode.jobId = job.jobId ∧
          episode.userId = job.userId ∧ ∃ operations,
            (storeConsolidation unicode embeddings clock job consolidation store).1 =
              applyOperations unicode ⟨job, episode.id⟩ embeddings clock 0
                { store with
                  episodes := store.episodes ++ [episode], nextId := store.nextId + 1 }
                operations := by
  unfold storeConsolidation persistConsolidation
  split
  · exact Or.inl rfl
  · split
    · exact Or.inl rfl
    · rename_i isFirst
      right
      constructor
      · intro other stored sameJob
        exact isFirst (List.any_eq_true.mpr ⟨other, stored, decide_eq_true sameJob⟩)
      · exact ⟨_, rfl, rfl, rfl, _, rfl⟩

theorem MemoryStore.Sound.storeConsolidation (sound : store.Sound)
    (embeddings : List (String × Embedding)) (clock : Nat → Instant) (job : JobInput)
    (consolidation : MemoryConsolidation) :
    (Memory.storeConsolidation unicode embeddings clock job consolidation store).1.Sound := by
  rcases storeConsolidation_cases unicode embeddings clock job consolidation store with
    same | ⟨isFirst, episode, isNext, isJob, isUser, operations, applied⟩
  · rw [same]
    exact sound
  · rw [applied]
    have opened := sound.openEpisode isNext fun other stored => by
      rw [isJob]
      exact isFirst other stored
    apply opened.applyOperations
    exact ⟨episode, List.mem_append_right _ (List.mem_singleton_self _), rfl, isUser⟩

/-! ### Forgetting -/

theorem MemoryStore.Sound.scrubEpisodes (sound : store.Sound) (episodeIds : List Uuid) :
    (store.scrubEpisodes episodeIds).Sound := by
  have persists : ∀ old ∈ store.episodes, ∃ episode ∈ (store.scrubEpisodes episodeIds).episodes,
      episode.id = old.id ∧ episode.userId = old.userId := by
    intro old oldMem
    refine ⟨_, Table.mem_update.mpr ⟨old, oldMem, rfl⟩, ?_⟩
    split <;> exact ⟨rfl, rfl⟩
  constructor
  · constructor
    · exact sound.linked.factIds
    · exact sound.linked.factsKnown
    · exact sound.linked.episodeIds.update _ fun _ => rfl
    · intro episode stored
      rcases Table.mem_update_cases stored with ⟨old, oldMem, _, rfl⟩ | ⟨oldMem, _⟩
      · exact sound.linked.episodesKnown old oldMem
      · exact sound.linked.episodesKnown episode oldMem
    · exact sound.linked.identityIds
    · exact sound.linked.identitiesKnown
    · exact sound.linked.jobs.update _ fun _ => rfl
    · exact sound.linked.active
    · exact sound.linked.subjects
    · exact sound.linked.objects
    · exact sound.linked.successors
    · intro row stored
      rcases sound.linked.evidence row stored with ⟨fact, factMem, isFact, old, oldMem, id_eq, user_eq⟩
      rcases persists old oldMem with ⟨episode, episodeMem, sameId, sameUser⟩
      exact ⟨fact, factMem, isFact, episode, episodeMem, sameId.trans id_eq, sameUser.trans user_eq⟩
  · exact sound.evidenced
  · exact sound.referenced

/-- Facts that nothing points to are deleted with their evidence. -/
theorem MemoryStore.Linked.dropFacts (linked : store.Linked) {factIds : List Uuid}
    (unpointed : ∀ fact ∈ store.facts, ∀ id, fact.supersededByFactId = some id → id ∉ factIds) :
    ({ store with
      facts := store.facts.filter fun fact => fact.id ∉ factIds
      evidence := store.evidence.filter fun row => row.factId ∉ factIds } : MemoryStore).Linked := by
  have kept : ∀ fact ∈ store.facts, fact.id ∉ factIds →
      fact ∈ store.facts.filter fun fact => fact.id ∉ factIds := by
    intro fact stored notDeleted
    exact List.mem_filter.mpr ⟨stored, decide_eq_true notDeleted⟩
  constructor
  · exact linked.factIds.filter _
  · exact fun fact stored => linked.factsKnown fact (List.mem_of_mem_filter stored)
  · exact linked.episodeIds
  · exact linked.episodesKnown
  · exact linked.identityIds
  · exact linked.identitiesKnown
  · exact linked.jobs
  · exact linked.active.filter _
  · exact fun fact stored => linked.subjects fact (List.mem_of_mem_filter stored)
  · exact fun fact stored => linked.objects fact (List.mem_of_mem_filter stored)
  · intro fact stored id pointer
    have isOld := List.mem_of_mem_filter stored
    rcases linked.successors fact isOld id pointer with ⟨older, successor, successorMem, id_eq, same⟩
    refine ⟨older, successor, kept successor successorMem ?_, id_eq, same⟩
    rw [id_eq]
    exact unpointed fact isOld id pointer
  · intro row stored
    rcases List.mem_filter.mp stored with ⟨isOld, notDeleted⟩
    rcases linked.evidence row isOld with ⟨fact, factMem, id_eq, shared⟩
    refine ⟨fact, kept fact factMem ?_, id_eq, shared⟩
    rw [id_eq]
    exact of_decide_eq_true notDeleted

theorem MemoryStore.Linked.deleteFacts (linked : store.Linked) (factIds : List Uuid) :
    (store.deleteFacts factIds).Linked := by
  have cleared : ({ store with
      facts := Table.update (fun fact => fact.supersededByFactId.any (· ∈ factIds))
        (fun fact => { fact with supersededByFactId := none }) store.facts } :
          MemoryStore).Linked := by
    apply linked.changeFacts
    · exact fun fact => ⟨rfl, rfl, rfl, rfl⟩
    · exact fun fact => Or.inl rfl
    · intro fact _ _ id pointer
      cases pointer
  apply cleared.dropFacts
  intro fact stored id pointer
  rcases Table.mem_update_cases stored with ⟨old, _, _, rfl⟩ | ⟨_, notSelected⟩
  · cases pointer
  · rw [pointer, Option.any_some] at notSelected
    exact of_decide_eq_false notSelected

theorem MemoryStore.Evidenced.deleteFacts (evidenced : store.Evidenced) (factIds : List Uuid) :
    (store.deleteFacts factIds).Evidenced := by
  intro fact stored
  rcases List.mem_filter.mp stored with ⟨changed, notDeleted⟩
  have sameIds : ({ store with
      facts := Table.update (fun fact => fact.supersededByFactId.any (· ∈ factIds))
        (fun fact => { fact with supersededByFactId := none }) store.facts } :
          MemoryStore).Evidenced :=
    evidenced.changeFacts _ fun _ => rfl
  rcases sameIds fact changed with ⟨row, rowMem, isFact⟩
  refine ⟨row, List.mem_filter.mpr ⟨rowMem, ?_⟩, isFact⟩
  rw [isFact]
  exact notDeleted

theorem mem_identities_iff {identity : Uuid × EntityKey} :
    identity ∈ store.identities ↔ ∃ entity ∈ store.entities, (entity.id, entity.key) = identity :=
  List.mem_map

/-- A fact refers to the entity. -/
theorem refersTo_of_mem (stored : fact ∈ store.facts) {id : Uuid}
    (refers : fact.subjectEntityId = id ∨ fact.objectEntityId = some id) :
    store.refersTo id = true := by
  apply List.any_eq_true.mpr
  exact ⟨fact, stored, by simpa using refers⟩

theorem MemoryStore.Linked.deleteUnreferenced (linked : store.Linked) (userId : Uuid) :
    (store.deleteUnreferenced userId).Linked := by
  have sublist : (store.deleteUnreferenced userId).identities.Sublist store.identities :=
    List.filter_sublist.map _
  have kept : ∀ identity ∈ store.identities, store.refersTo identity.1 = true →
      identity ∈ (store.deleteUnreferenced userId).identities := by
    intro identity identityMem isReferenced
    rcases mem_identities_iff.mp identityMem with ⟨entity, entityMem, rfl⟩
    apply mem_identities_iff.mpr
    exact ⟨entity, List.mem_filter.mpr ⟨entityMem, by simp [isReferenced]⟩, rfl⟩
  constructor
  · exact linked.factIds
  · exact linked.factsKnown
  · exact linked.episodeIds
  · exact linked.episodesKnown
  · exact linked.identityIds.sublist (sublist.filterMap _)
  · exact fun identity stored => linked.identitiesKnown identity (sublist.subset stored)
  · exact linked.jobs
  · exact linked.active
  · intro fact stored
    rcases linked.subjects fact stored with ⟨identity, identityMem, id_eq, sameUser⟩
    refine ⟨identity, kept identity identityMem ?_, id_eq, sameUser⟩
    exact refersTo_of_mem stored (Or.inl id_eq.symm)
  · intro fact stored id object_eq
    rcases linked.objects fact stored id object_eq with ⟨identity, identityMem, id_eq, sameUser⟩
    refine ⟨identity, kept identity identityMem ?_, id_eq, sameUser⟩
    rw [id_eq]
    exact refersTo_of_mem stored (Or.inr object_eq)
  · exact linked.successors
  · exact linked.evidence

/-- Only the entities of one user may have lost their facts. -/
theorem MemoryStore.Linked.referenced_deleteUnreferenced (linked : store.Linked)
    (others : ∀ identity ∈ store.identities, identity.2.1 ≠ userId → ∃ fact ∈ store.facts,
      fact.userId = identity.2.1 ∧
        (fact.subjectEntityId = identity.1 ∨ fact.objectEntityId = some identity.1)) :
    (store.deleteUnreferenced userId).Referenced := by
  intro identity stored
  rcases mem_identities_iff.mp stored with ⟨entity, entityMem, rfl⟩
  rcases List.mem_filter.mp entityMem with ⟨isOld, isKept⟩
  have oldIdentity : (entity.id, entity.key) ∈ store.identities :=
    mem_identities_iff.mpr ⟨entity, isOld, rfl⟩
  by_cases isUser : entity.userId = userId
  · have isReferenced : store.refersTo entity.id = true := by simpa [isUser] using isKept
    rcases List.any_eq_true.mp isReferenced with ⟨fact, factMem, refers⟩
    rw [Bool.or_eq_true, decide_eq_true_eq, decide_eq_true_eq] at refers
    refine ⟨fact, factMem, ?_, refers⟩
    have entityOf : ∃ identity ∈ store.identities,
        identity.1 = entity.id ∧ identity.2.1 = fact.userId := by
      rcases refers with isSubject | isObject
      · rw [← isSubject]
        exact linked.subjects fact factMem
      · exact linked.objects fact factMem entity.id isObject
    rcases entityOf with ⟨other, otherMem, sameId, sameUser⟩
    rw [← sameUser]
    rw [linked.identityIds.eq_of_mem otherMem oldIdentity (congrArg some sameId) rfl]
  · exact others _ oldIdentity isUser

/-- What forgetting does: nothing, or it forgets some facts of the user. -/
theorem forgetUserMemories_cases (userId : Uuid) (memoryIds : List Uuid) (store : MemoryStore) :
    (store.facts.filter (fun fact => fact.userId = userId ∧ fact.id ∈ memoryIds) = [] ∧
        (forgetUserMemories userId memoryIds store).1 = store) ∨
      ∃ factIds : List Uuid, factIds = (store.facts.filter fun fact =>
          fact.userId = userId ∧ fact.id ∈ memoryIds).map (·.id) ∧
        (forgetUserMemories userId memoryIds store).1 =
          (((store.scrubEpisodes (store.evidenceEpisodes factIds)).deleteFacts
            factIds).deleteUnreferenced userId) := by
  unfold forgetUserMemories
  split
  · rename_i noIds
    left
    constructor
    · rw [noIds]
      simp
    · rfl
  · dsimp only
    split
    · rename_i noFacts
      exact Or.inl ⟨noFacts, rfl⟩
    · right
      refine ⟨_, rfl, ?_⟩
      split
      · rename_i noEpisodes
        have unchanged : ∀ store : MemoryStore, store.scrubEpisodes [] = store := by
          intro store
          rw [MemoryStore.scrubEpisodes, Table.update_eq_self]
          simp
        rw [noEpisodes, unchanged]
      · rfl

theorem MemoryStore.Sound.forgetUserMemories (sound : store.Sound) (userId : Uuid)
    (memoryIds : List Uuid) : (Memory.forgetUserMemories userId memoryIds store).1.Sound := by
  rcases forgetUserMemories_cases userId memoryIds store with ⟨_, same⟩ | ⟨factIds, ids_eq, forgotten⟩
  · rw [same]
    exact sound
  · rw [forgotten]
    have scrubbed := sound.scrubEpisodes (store.evidenceEpisodes factIds)
    have deleted := scrubbed.linked.deleteFacts factIds
    refine ⟨deleted.deleteUnreferenced userId, scrubbed.evidenced.deleteFacts factIds, ?_⟩
    apply deleted.referenced_deleteUnreferenced
    intro identity identityMem notUser
    rcases sound.referenced identity identityMem with ⟨fact, factMem, ofUser, refers⟩
    have notDeleted : fact.id ∉ factIds := by
      rw [ids_eq]
      intro isDeleted
      rcases List.mem_map.mp isDeleted with ⟨other, otherMem, sameId⟩
      rcases List.mem_filter.mp otherMem with ⟨isStored, isListed⟩
      have isFact := sound.linked.factIds.eq_of_mem isStored factMem (congrArg some sameId) rfl
      rw [isFact] at isListed
      exact notUser (ofUser.symm.trans (of_decide_eq_true isListed).1)
    refine ⟨_, List.mem_filter.mpr ⟨Table.mem_update.mpr ⟨fact, factMem, rfl⟩, ?_⟩, ?_⟩
    · split <;> exact decide_eq_true notDeleted
    · split <;> exact ⟨ofUser, refers⟩

theorem MemoryStore.Sound.step (sound : store.Sound) {call : MemoryCall}
    (stepped : memoryStep unicode store call = some after) : after.Sound := by
  cases call with
  | job embeddings clock job consolidation =>
      cases stepped
      exact sound.storeConsolidation embeddings clock job consolidation
  | forget userId memoryIds =>
      cases stepped
      exact sound.forgetUserMemories userId memoryIds

/-- Every reachable store is sound. -/
theorem MemoryRun.sound {nextId : Uuid} (run : MemoryRun unicode (MemoryStore.initial nextId) store) :
    store.Sound := by
  apply run.invariant MemoryStore.Sound
  · exact fun _ _ _ sound _ stepped => sound.step stepped
  · exact MemoryStore.initial_sound nextId

end Calls

/-! ## The invariant of the fact store -/

/-- A fact of the store points to a fact that supersedes it. -/
def MemoryStore.SupersededBy (store : MemoryStore) (fact successor : MemoryFact) : Prop :=
  fact ∈ store.facts ∧ successor ∈ store.facts ∧ fact.supersededByFactId = some successor.id

theorem MemoryStore.Linked.acyclic {store : MemoryStore} (linked : store.Linked)
    (fact : MemoryFact) : ¬ Relation.TransGen store.SupersededBy fact fact := by
  have increases : ∀ {first last}, Relation.TransGen store.SupersededBy first last →
      first.id < last.id := by
    intro first last chain
    induction chain with
    | single points => exact (linked.successors _ points.1 _ points.2.2).1
    | tail _ points ih =>
        exact lt_trans ih (linked.successors _ points.1 _ points.2.2).1
  intro cycle
  exact lt_irrefl _ (increases cycle)

/-- A superseded fact that points to nothing. -/
def MemoryFact.orphaned (fact : MemoryFact) : Prop :=
  fact.status = .superseded ∧ fact.supersededByFactId = none

section Successors

variable {unicode : Unicode} {store after : MemoryStore}

/-- Every fact that points to nothing although it is superseded did so before. -/
def OrphansKept (store after : MemoryStore) : Prop :=
  ∀ fact ∈ after.facts, fact.orphaned → ∃ old ∈ store.facts, old.id = fact.id ∧ old.orphaned

theorem orphansKept_of_facts (same : after.facts = store.facts) : OrphansKept store after := by
  intro fact stored orphan
  rw [same] at stored
  exact ⟨fact, stored, rfl, orphan⟩

theorem OrphansKept.trans {middle : MemoryStore} (first : OrphansKept store middle)
    (second : OrphansKept middle after) : OrphansKept store after := by
  intro fact stored orphan
  rcases second fact stored orphan with ⟨between, betweenMem, sameId, wasOrphan⟩
  rcases first between betweenMem wasOrphan with ⟨old, oldMem, oldId, oldOrphan⟩
  exact ⟨old, oldMem, oldId.trans sameId, oldOrphan⟩

theorem orphansKept_withRepetition (episode : Episode) (target : MemoryFact)
    (operation : MemoryOperation) (sourceId : Uuid) :
    OrphansKept store (store.withRepetition episode target operation sourceId) := by
  intro fact stored orphan
  rw [MemoryStore.withRepetition, facts_addEvidence] at stored
  rcases Table.mem_update_cases stored with ⟨old, oldMem, _, rfl⟩ | ⟨oldMem, _⟩
  · exact ⟨old, oldMem, rfl, orphan⟩
  · exact ⟨fact, oldMem, rfl, orphan⟩

theorem orphansKept_withFact (episode : Episode) (embedding : Option Embedding)
    (existing : Option MemoryFact) (operation : MemoryOperation) (subject : Uuid)
    (object : Option Uuid) :
    OrphansKept store (store.withFact episode embedding existing operation subject object) := by
  have inserted : OrphansKept store (store.insertFact (newFact store.nextId episode.job.userId
      subject object episode.job.triggerCreatedAt embedding operation)) := by
    intro fact stored orphan
    rcases List.mem_append.mp stored with isOld | isNew
    · exact ⟨fact, isOld, rfl, orphan⟩
    · rw [List.mem_singleton.mp isNew] at orphan
      cases orphan.1
  apply inserted.trans
  intro fact stored orphan
  rw [MemoryStore.withFact, facts_addEvidence] at stored
  unfold MemoryStore.replace at stored
  split at stored
  · split at stored
    · rcases Table.mem_update_cases stored with ⟨old, _, _, rfl⟩ | ⟨oldMem, _⟩
      · cases orphan.2
      · exact ⟨fact, oldMem, rfl, orphan⟩
    · exact ⟨fact, stored, rfl, orphan⟩
  · exact ⟨fact, stored, rfl, orphan⟩

theorem orphansKept_applyOperation (episode : Episode) (embedding : Option Embedding)
    (now : Instant) (operation : MemoryOperation) :
    OrphansKept store (applyOperation unicode episode embedding now store operation) := by
  have applied := applied_applyOperation unicode episode embedding now store operation
  generalize applyOperation unicode episode embedding now store operation = after at applied ⊢
  cases applied with
  | ignored _ _ => exact orphansKept_of_facts rfl
  | reinforced _ _ => exact orphansKept_withRepetition _ _ _ _
  | repeated _ extends_ _ _ _ =>
      exact (orphansKept_of_facts extends_.facts).trans (orphansKept_withRepetition _ _ _ _)
  | inserted _ extends_ _ _ _ =>
      exact (orphansKept_of_facts extends_.facts).trans (orphansKept_withFact _ _ _ _ _ _)

theorem orphansKept_applyOperations (episode : Episode) (embeddings : List (String × Embedding))
    (clock : Nat → Instant) (operations : List MemoryOperation) (i : Nat) (store : MemoryStore) :
    OrphansKept store (applyOperations unicode episode embeddings clock i store operations) := by
  induction operations generalizing i store with
  | nil => exact orphansKept_of_facts rfl
  | cons operation rest ih =>
      exact (orphansKept_applyOperation episode _ _ operation).trans (ih _ _)

/-- After a call a superseded fact points to nothing only if it was superseded before and what
it pointed to is gone. -/
theorem successors_gone {call : MemoryCall} (stepped : memoryStep unicode store call = some after) :
    ∀ fact ∈ after.facts, fact.orphaned → ∃ old ∈ store.facts, old.id = fact.id ∧
      old.status = .superseded ∧ ∀ id, old.supersededByFactId = some id →
        ∀ other ∈ after.facts, other.id ≠ id := by
  have ofKept : OrphansKept store after → ∀ fact ∈ after.facts, fact.orphaned →
      ∃ old ∈ store.facts, old.id = fact.id ∧ old.status = .superseded ∧
        ∀ id, old.supersededByFactId = some id → ∀ other ∈ after.facts, other.id ≠ id := by
    intro kept fact stored orphan
    rcases kept fact stored orphan with ⟨old, oldMem, sameId, isSuperseded, noPointer⟩
    refine ⟨old, oldMem, sameId, isSuperseded, ?_⟩
    intro id pointer
    cases noPointer.symm.trans pointer
  cases call with
  | job embeddings clock job consolidation =>
      cases stepped
      apply ofKept
      rcases storeConsolidation_cases unicode embeddings clock job consolidation store
        with same | ⟨_, episode, _, _, _, operations, applied⟩
      · rw [same]
        exact orphansKept_of_facts rfl
      · rw [applied]
        exact orphansKept_applyOperations ⟨job, episode.id⟩ embeddings clock operations 0 _
  | forget userId memoryIds =>
      cases stepped
      rcases forgetUserMemories_cases userId memoryIds store with ⟨_, same⟩ | ⟨factIds, _, forgotten⟩
      · apply ofKept
        rw [same]
        exact orphansKept_of_facts rfl
      · rw [forgotten]
        intro fact stored orphan
        have changed := List.mem_of_mem_filter stored
        rcases Table.mem_update_cases changed with ⟨old, oldMem, selected, rfl⟩ | ⟨oldMem, _⟩
        · refine ⟨old, oldMem, rfl, orphan.1, ?_⟩
          rintro id pointer other otherMem rfl
          rw [pointer, Option.any_some] at selected
          exact of_decide_eq_true (List.mem_filter.mp otherMem).2 (of_decide_eq_true selected)
        · refine ⟨fact, oldMem, rfl, orphan.1, ?_⟩
          intro id pointer
          cases orphan.2.symm.trans pointer

end Successors

/-- In every reachable store active facts are distinct, every fact has evidence of its user,
supersession stays within a user and never cycles, and a job has one episode and is not
applied again; a pointer is lost only with the fact that it points to. -/
theorem fact_store_invariant (unicode : Unicode) (nextId : Uuid) (store : MemoryStore)
    (run : MemoryRun unicode (MemoryStore.initial nextId) store) :
    Table.UniqueOn MemoryFact.activeKey store.facts ∧
      (∀ fact ∈ store.facts, ∃ row ∈ store.evidence, row.factId = fact.id ∧
        ∃ episode ∈ store.episodes, episode.id = row.episodeId ∧ episode.userId = fact.userId) ∧
      (∀ fact ∈ store.facts, ∀ id, fact.supersededByFactId = some id →
        ∃ successor ∈ store.facts, successor.id = id ∧ successor.userId = fact.userId) ∧
      (∀ call after, memoryStep unicode store call = some after → ∀ fact ∈ after.facts,
        fact.orphaned → ∃ old ∈ store.facts, old.id = fact.id ∧ old.status = .superseded ∧
          ∀ id, old.supersededByFactId = some id → ∀ other ∈ after.facts, other.id ≠ id) ∧
      (∀ fact, ¬ Relation.TransGen store.SupersededBy fact fact) ∧
      Table.UniqueOn (fun episode => some episode.jobId) store.episodes ∧
      ∀ embeddings clock job consolidation,
        ((∃ episode ∈ store.episodes, episode.jobId = job.jobId) →
          (storeConsolidation unicode embeddings clock job consolidation store).1 = store) ∧
        ((storeConsolidation unicode embeddings clock job consolidation store).1 ≠ store →
          ∃ episode ∈ (storeConsolidation unicode embeddings clock job consolidation store).1.episodes,
            episode.jobId = job.jobId) := by
  have sound := run.sound
  refine ⟨sound.linked.active, ?_, ?_, fun _ _ => successors_gone, sound.linked.acyclic,
    sound.linked.jobs, ?_⟩
  · intro fact stored
    rcases sound.evidenced fact stored with ⟨row, rowMem, isFact⟩
    rcases sound.linked.evidence row rowMem with ⟨other, otherMem, id_eq, shared⟩
    have same := sound.linked.factIds.eq_of_mem otherMem stored
      (congrArg some (id_eq.trans isFact)) rfl
    rw [same] at shared
    exact ⟨row, rowMem, isFact, shared⟩
  · intro fact stored id pointer
    exact (sound.linked.successors fact stored id pointer).2
  · intro embeddings clock job consolidation
    rcases storeConsolidation_cases unicode embeddings clock job consolidation store with
      same | ⟨isFirst, episode, _, isJob, _, operations, applied⟩
    · exact ⟨fun _ => same, fun changed => absurd same changed⟩
    · constructor
      · rintro ⟨other, otherMem, sameJob⟩
        exact absurd sameJob (isFirst other otherMem)
      · intro _
        rw [applied, episodes_applyOperations]
        exact ⟨episode, List.mem_append_right _ (List.mem_singleton_self _), isJob⟩

/-- The store after one turn in which Ada says where she lives. -/
def storeAfterTurn : MemoryStore :=
  (storeConsolidation Unicode.ascii [] (fun _ => 0) (turnAt 0).job
    ⟨true, "Ada lives in Paris", [livesIn .add none "Paris" none]⟩ (MemoryStore.initial 30)).1

theorem run_storeAfterTurn : MemoryRun Unicode.ascii (MemoryStore.initial 30) storeAfterTurn :=
  Transition.Run.tail Transition.Run.refl True.intro
    (show memoryStep Unicode.ascii (MemoryStore.initial 30) (.job [] (fun _ => 0) (turnAt 0).job
      ⟨true, "Ada lives in Paris", [livesIn .add none "Paris" none]⟩) = some storeAfterTurn from rfl)

theorem fact_store_invariant_turn :
    storeAfterTurn.facts.length = 1 ∧
      Table.UniqueOn MemoryFact.activeKey storeAfterTurn.facts :=
  ⟨by decide +kernel, (fact_store_invariant Unicode.ascii 30 _ run_storeAfterTurn).1⟩

end DotBackend.Memory
