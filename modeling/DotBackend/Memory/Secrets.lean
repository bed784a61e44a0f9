import DotBackend.Memory.Store

/-!
# Which secrets a memory job can store

The guard looks at the statement of an operation only. The texts that it lets through
unread are the episode summary, the names of the entities and the literal object
values; a job stores no new secret exactly when none of these is one.
-/

namespace DotBackend.Memory

open Data

variable {unicode : Unicode} {consolidation : MemoryConsolidation} {clock : Nat → Instant}
  {job : JobInput}

/-! ## The texts of a store -/

/-- The texts of an entity, each with its owner. -/
def MemoryEntity.texts (entity : MemoryEntity) : List (Uuid × String) :=
  (entity.userId, entity.name) :: entity.aliases.map fun text => (entity.userId, text)

/-- The texts of a fact, each with its owner. -/
def MemoryFact.texts (fact : MemoryFact) : List (Uuid × String) :=
  (fact.userId, fact.statement) :: fact.objectValue.toList.map fun text => (fact.userId, text)

/-- The text of an episode with its owner. -/
def MemoryEpisode.ownedSummary (episode : MemoryEpisode) : Uuid × String :=
  (episode.userId, episode.summary)

/-- Every stored text with the user whose memory it is in. -/
def MemoryStore.texts (store : MemoryStore) : List (Uuid × String) :=
  store.episodes.map MemoryEpisode.ownedSummary ++ store.entities.flatMap MemoryEntity.texts ++
    store.facts.flatMap MemoryFact.texts

/-- Texts of one user. -/
def owned (userId : Uuid) (texts : List String) : List (Uuid × String) :=
  texts.map fun text => (userId, text)

/-- The memory before the first job. -/
def MemoryStore.empty : MemoryStore where
  episodes := []
  entities := []
  facts := []
  evidence := []
  nextId := 100

end DotBackend.Memory
