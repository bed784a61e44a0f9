import DotBackend.Memory.FactStore
import DotBackend.Memory.Retrieval

/-!
# Forgetting is complete

What the user asks to forget is gone with the texts of the episodes that it came from, for
ever: identifiers are not used again and a scrubbed episode stays scrubbed. The references
of what remains are closed, no entity of the user is left alone, and nobody else is affected.
-/

namespace DotBackend.Memory

open Data

/-! ## What later calls keep -/

/-- A fact with the identifier existed, and exists no more. -/
def MemoryStore.Gone (store : MemoryStore) (factId : Uuid) : Prop :=
  factId < store.nextId ∧ ∀ fact ∈ store.facts, fact.id ≠ factId

/-- An episode without its text. -/
def MemoryEpisode.Scrubbed (episode : MemoryEpisode) : Prop :=
  episode.summary = "[forgotten by user]" ∧ episode.isRetrievable = false ∧
    episode.embedding = none

/-- The episode is stored without its text. -/
def MemoryStore.ScrubbedEpisode (store : MemoryStore) (episodeId : Uuid) : Prop :=
  (∃ episode ∈ store.episodes, episode.id = episodeId) ∧
    ∀ episode ∈ store.episodes, episode.id = episodeId → episode.Scrubbed

/-- Facts that are added have new identifiers. -/
def FactIdsGrow (store after : MemoryStore) : Prop :=
  store.nextId ≤ after.nextId ∧ ∀ fact ∈ after.facts,
    (∃ old ∈ store.facts, old.id = fact.id) ∨ store.nextId ≤ fact.id

section Later

variable {unicode : Unicode} {store middle after : MemoryStore}

theorem FactIdsGrow.trans (first : FactIdsGrow store middle) (second : FactIdsGrow middle after) :
    FactIdsGrow store after := by
  refine ⟨le_trans first.1 second.1, ?_⟩
  intro fact stored
  rcases second.2 fact stored with ⟨old, oldMem, sameId⟩ | isNew
  · rw [← sameId]
    exact first.2 old oldMem
  · exact Or.inr (le_trans first.1 isNew)

theorem FactIdsGrow.gone (grow : FactIdsGrow store after) {factId : Uuid}
    (gone : store.Gone factId) : after.Gone factId := by
  refine ⟨lt_of_lt_of_le gone.1 grow.1, ?_⟩
  rintro fact stored rfl
  rcases grow.2 fact stored with ⟨old, oldMem, sameId⟩ | isNew
  · exact gone.2 old oldMem sameId
  · exact absurd gone.1 (not_lt.mpr isNew)

theorem factIdsGrow_of_facts (supply : store.nextId ≤ after.nextId)
    (same : after.facts = store.facts) : FactIdsGrow store after := by
  refine ⟨supply, ?_⟩
  intro fact stored
  rw [same] at stored
  exact Or.inl ⟨fact, stored, rfl⟩

theorem factIdsGrow_addEvidence (store : MemoryStore) (factId episodeId sourceId : Uuid)
    (basis : SourceBasis) :
    FactIdsGrow store (addEvidence store factId episodeId sourceId basis) := by
  apply factIdsGrow_of_facts
  · unfold addEvidence
    split
    · exact le_refl _
    · exact Nat.le_succ _
  · exact facts_addEvidence store factId episodeId sourceId basis

theorem factIdsGrow_updateFact (store : MemoryStore) (id : Uuid)
    (change : MemoryFact → MemoryFact) (keeps : ∀ fact, (change fact).id = fact.id) :
    FactIdsGrow store (store.updateFact id change) := by
  refine ⟨le_refl _, ?_⟩
  intro fact stored
  rcases Table.mem_update_cases stored with ⟨old, oldMem, _, rfl⟩ | ⟨oldMem, _⟩
  · exact Or.inl ⟨old, oldMem, (keeps old).symm⟩
  · exact Or.inl ⟨fact, oldMem, rfl⟩

theorem factIdsGrow_withRepetition (store : MemoryStore) (episode : Episode) (target : MemoryFact)
    (operation : MemoryOperation) (sourceId : Uuid) :
    FactIdsGrow store (store.withRepetition episode target operation sourceId) :=
  (factIdsGrow_updateFact store target.id (·.strengthen operation) fun _ => rfl).trans
    (factIdsGrow_addEvidence _ _ _ _ _)

theorem factIdsGrow_withFact (store : MemoryStore) (episode : Episode)
    (embedding : Option Embedding) (existing : Option MemoryFact) (operation : MemoryOperation)
    (subject : Uuid) (object : Option Uuid) :
    FactIdsGrow store (store.withFact episode embedding existing operation subject object) := by
  have inserted : FactIdsGrow store (store.insertFact (newFact store.nextId episode.job.userId
      subject object episode.job.triggerCreatedAt embedding operation)) := by
    refine ⟨Nat.le_succ _, ?_⟩
    intro fact stored
    rcases List.mem_append.mp stored with isOld | isNew
    · exact Or.inl ⟨fact, isOld, rfl⟩
    · rw [List.mem_singleton.mp isNew]
      exact Or.inr (le_refl _)
  apply (inserted.trans ?_).trans (factIdsGrow_addEvidence _ _ _ _ _)
  unfold MemoryStore.replace
  split
  · split
    · exact factIdsGrow_updateFact _ _ _ fun _ => rfl
    · exact factIdsGrow_of_facts (le_refl _) rfl
  · exact factIdsGrow_of_facts (le_refl _) rfl

theorem factIdsGrow_applyOperation (episode : Episode) (embedding : Option Embedding)
    (now : Instant) (operation : MemoryOperation) :
    FactIdsGrow store (applyOperation unicode episode embedding now store operation) := by
  have applied := applied_applyOperation unicode episode embedding now store operation
  generalize applyOperation unicode episode embedding now store operation = after at applied ⊢
  cases applied with
  | ignored _ _ => exact factIdsGrow_of_facts (le_refl _) rfl
  | reinforced _ _ => exact factIdsGrow_withRepetition _ _ _ _ _
  | repeated _ extends_ _ _ _ =>
      exact (factIdsGrow_of_facts extends_.supply extends_.facts).trans
        (factIdsGrow_withRepetition _ _ _ _ _)
  | inserted _ extends_ _ _ _ =>
      exact (factIdsGrow_of_facts extends_.supply extends_.facts).trans
        (factIdsGrow_withFact _ _ _ _ _ _ _)

theorem factIdsGrow_applyOperations (episode : Episode) (embeddings : List (String × Embedding))
    (clock : Nat → Instant) (operations : List MemoryOperation) (i : Nat) (store : MemoryStore) :
    FactIdsGrow store (applyOperations unicode episode embeddings clock i store operations) := by
  induction operations generalizing i store with
  | nil => exact factIdsGrow_of_facts (le_refl _) rfl
  | cons operation rest ih =>
      exact (factIdsGrow_applyOperation episode _ _ operation).trans (ih _ _)

/-- Deleting facts adds none. -/
theorem factIdsGrow_deleteFacts (store : MemoryStore) (factIds : List Uuid) :
    FactIdsGrow store (store.deleteFacts factIds) := by
  refine ⟨le_refl _, ?_⟩
  intro fact stored
  rcases Table.mem_update_cases (List.mem_of_mem_filter stored) with
    ⟨old, oldMem, _, rfl⟩ | ⟨oldMem, _⟩
  · exact Or.inl ⟨old, oldMem, rfl⟩
  · exact Or.inl ⟨fact, oldMem, rfl⟩

theorem factIdsGrow_step {call : MemoryCall} (stepped : memoryStep unicode store call = some after) :
    FactIdsGrow store after := by
  cases call with
  | job embeddings clock job consolidation =>
      cases stepped
      rcases storeConsolidation_cases unicode embeddings clock job consolidation store with
        same | ⟨_, episode, _, _, _, operations, applied⟩
      · rw [same]
        exact factIdsGrow_of_facts (le_refl _) rfl
      · rw [applied]
        have opened : FactIdsGrow store ({ store with
            episodes := store.episodes ++ [episode], nextId := store.nextId + 1 } : MemoryStore) :=
          factIdsGrow_of_facts (Nat.le_succ _) rfl
        exact opened.trans (factIdsGrow_applyOperations ⟨job, episode.id⟩ embeddings clock operations 0 _)
  | forget userId memoryIds =>
      cases stepped
      rcases forgetUserMemories_cases userId memoryIds store with ⟨_, same⟩ | ⟨factIds, _, forgotten⟩
      · rw [same]
        exact factIdsGrow_of_facts (le_refl _) rfl
      · rw [forgotten]
        exact factIdsGrow_deleteFacts (store.scrubEpisodes _) factIds

/-- Scrubbing leaves scrubbed episodes as they are. -/
theorem scrubbedEpisode_scrubEpisodes {episodeId : Uuid} (scrubbed : store.ScrubbedEpisode episodeId)
    (episodeIds : List Uuid) : (store.scrubEpisodes episodeIds).ScrubbedEpisode episodeId := by
  rcases scrubbed with ⟨⟨episode, episodeMem, isEpisode⟩, allScrubbed⟩
  constructor
  · refine ⟨_, Table.mem_update.mpr ⟨episode, episodeMem, rfl⟩, ?_⟩
    split <;> exact isEpisode
  · intro other stored sameId
    rcases Table.mem_update_cases stored with ⟨old, _, _, rfl⟩ | ⟨oldMem, _⟩
    · exact ⟨rfl, rfl, rfl⟩
    · exact allScrubbed other oldMem sameId

/-- An episode that was scrubbed stays scrubbed. -/
theorem scrubbedEpisode_step (sound : store.Sound) {call : MemoryCall} {episodeId : Uuid}
    (scrubbed : store.ScrubbedEpisode episodeId)
    (stepped : memoryStep unicode store call = some after) : after.ScrubbedEpisode episodeId := by
  cases call with
  | job embeddings clock job consolidation =>
      cases stepped
      rcases storeConsolidation_cases unicode embeddings clock job consolidation store with
        same | ⟨_, episode, isNext, _, _, operations, applied⟩
      · rw [same]
        exact scrubbed
      · rw [applied, MemoryStore.ScrubbedEpisode, episodes_applyOperations]
        rcases scrubbed with ⟨⟨old, oldMem, isOld⟩, allScrubbed⟩
        constructor
        · exact ⟨old, List.mem_append_left _ oldMem, isOld⟩
        · intro other stored sameId
          rcases List.mem_append.mp stored with isEarlier | isNew
          · exact allScrubbed other isEarlier sameId
          · have known := sound.linked.episodesKnown old oldMem
            rw [isOld, ← sameId, List.mem_singleton.mp isNew, isNext] at known
            exact absurd known (lt_irrefl _)
  | forget userId memoryIds =>
      cases stepped
      rcases forgetUserMemories_cases userId memoryIds store with ⟨_, same⟩ | ⟨factIds, _, forgotten⟩
      · rw [same]
        exact scrubbed
      · rw [forgotten]
        exact scrubbedEpisode_scrubEpisodes scrubbed (store.evidenceEpisodes factIds)

/-- What is gone and what is scrubbed stays so. -/
theorem MemoryRun.keeps_forgotten (sound : store.Sound) (run : MemoryRun unicode store after) :
    (∀ factId, store.Gone factId → after.Gone factId) ∧
      ∀ episodeId, store.ScrubbedEpisode episodeId → after.ScrubbedEpisode episodeId := by
  have kept := run.invariant (fun later => later.Sound ∧
      (∀ factId, store.Gone factId → later.Gone factId) ∧
        ∀ episodeId, store.ScrubbedEpisode episodeId → later.ScrubbedEpisode episodeId) ?_
    ⟨sound, fun _ => id, fun _ => id⟩
  · exact kept.2
  · rintro before call later ⟨sound, gone, scrubbed⟩ _ stepped
    refine ⟨sound.step stepped, ?_, ?_⟩
    · intro factId wasGone
      exact (factIdsGrow_step stepped).gone (gone factId wasGone)
    · intro episodeId wasScrubbed
      exact scrubbedEpisode_step sound (scrubbed episodeId wasScrubbed) stepped

end Later

/-! ## The rows of one user -/

def MemoryStore.factsOf (store : MemoryStore) (userId : Uuid) : List MemoryFact :=
  store.facts.filter (·.userId = userId)

def MemoryStore.entitiesOf (store : MemoryStore) (userId : Uuid) : List MemoryEntity :=
  store.entities.filter (·.userId = userId)

def MemoryStore.episodesOf (store : MemoryStore) (userId : Uuid) : List MemoryEpisode :=
  store.episodes.filter (·.userId = userId)

/-- The evidence for facts of a user. -/
def MemoryStore.evidenceOf (store : MemoryStore) (userId : Uuid) : List MemoryEvidence :=
  store.evidence.filter fun row => (store.factsOf userId).any fun fact => fact.id = row.factId

/-- Two stores have the same rows of a user. -/
def SameRows (userId : Uuid) (store after : MemoryStore) : Prop :=
  after.factsOf userId = store.factsOf userId ∧ after.entitiesOf userId = store.entitiesOf userId ∧
    after.episodesOf userId = store.episodesOf userId ∧
      after.evidenceOf userId = store.evidenceOf userId

section Others

variable {store : MemoryStore} {userId other : Uuid} {factIds : List Uuid}

/-- The facts with the given identifiers belong to the user. -/
def MemoryStore.Belong (store : MemoryStore) (userId : Uuid) (factIds : List Uuid) : Prop :=
  ∀ fact ∈ store.facts, fact.id ∈ factIds → fact.userId = userId

/-- The episodes of the user's facts are his own. -/
theorem episodesOf_scrubEpisodes (linked : store.Linked) (belong : store.Belong userId factIds)
    (isOther : other ≠ userId) :
    (store.scrubEpisodes (store.evidenceEpisodes factIds)).episodesOf other =
      store.episodesOf other := by
  apply Table.filter_update_of_dropped
  intro episode stored selected
  rcases List.mem_map.mp (of_decide_eq_true selected) with ⟨row, rowMem, isEpisode⟩
  rcases List.mem_filter.mp rowMem with ⟨isEvidence, isListed⟩
  rcases linked.evidence row isEvidence with ⟨fact, factMem, isFact, owner, ownerMem, isOwner, sameUser⟩
  have sameEpisode := linked.episodeIds.eq_of_mem ownerMem stored
    (congrArg some (isOwner.trans isEpisode)) rfl
  have isUser : episode.userId = userId := by
    rw [← sameEpisode, sameUser]
    apply belong fact factMem
    rw [isFact]
    exact of_decide_eq_true isListed
  have notOther : decide (episode.userId = other) = false := by
    apply decide_eq_false
    intro ofOther
    exact isOther (ofOther.symm.trans isUser)
  exact ⟨notOther, notOther⟩

/-- Facts of others are neither deleted nor superseded by deleted ones. -/
theorem factsOf_deleteFacts (linked : store.Linked) (belong : store.Belong userId factIds)
    (isOther : other ≠ userId) : (store.deleteFacts factIds).factsOf other = store.factsOf other := by
  rw [MemoryStore.factsOf, MemoryStore.deleteFacts, List.filter_comm]
  have unchanged : (Table.update (fun fact => fact.supersededByFactId.any (· ∈ factIds))
      (fun fact => { fact with supersededByFactId := none }) store.facts).filter
        (·.userId = other) = store.factsOf other := by
    apply Table.filter_update_of_dropped
    intro fact stored selected
    have notOther : decide (fact.userId = other) = false := by
      apply decide_eq_false
      intro ofOther
      rcases Option.any_eq_true _ _ |>.mp selected with ⟨id, pointer, isDeleted⟩
      rcases linked.successors fact stored id pointer with ⟨_, successor, successorMem, rfl, sameUser⟩
      have isUser := belong successor successorMem (of_decide_eq_true isDeleted)
      exact isOther (ofOther.symm.trans (sameUser.symm.trans isUser))
    exact ⟨notOther, notOther⟩
  rw [unchanged, List.filter_eq_self]
  intro fact isFact
  rcases List.mem_filter.mp isFact with ⟨stored, ofOther⟩
  apply decide_eq_true
  intro isDeleted
  exact isOther ((of_decide_eq_true ofOther).symm.trans (belong fact stored isDeleted))

theorem entitiesOf_deleteUnreferenced (isOther : other ≠ userId) :
    (store.deleteUnreferenced userId).entitiesOf other = store.entitiesOf other := by
  rw [MemoryStore.entitiesOf, MemoryStore.deleteUnreferenced, List.filter_filter]
  apply List.filter_congr
  intro entity _
  by_cases ofOther : entity.userId = other
  · simp [ofOther, isOther]
  · simp [ofOther]

theorem evidenceOf_deleteFacts (linked : store.Linked) (belong : store.Belong userId factIds)
    (isOther : other ≠ userId) :
    (store.deleteFacts factIds).evidenceOf other = store.evidenceOf other := by
  rw [MemoryStore.evidenceOf, factsOf_deleteFacts linked belong isOther, MemoryStore.deleteFacts,
    List.filter_filter]
  apply List.filter_congr
  intro row _
  by_cases hasFact : ((store.factsOf other).any fun fact => fact.id = row.factId) = true
  · rcases List.any_eq_true.mp hasFact with ⟨fact, isFact, sameId⟩
    rcases List.mem_filter.mp isFact with ⟨stored, ofOther⟩
    have notDeleted : row.factId ∉ factIds := by
      rw [← of_decide_eq_true sameId]
      intro isDeleted
      exact isOther ((of_decide_eq_true ofOther).symm.trans (belong fact stored isDeleted))
    rw [hasFact, Bool.true_and]
    exact decide_eq_true notDeleted
  · simp [hasFact]

/-- Forgetting facts of one user changes no row of another. -/
theorem sameRows_forget (sound : store.Sound) (belong : store.Belong userId factIds)
    (isOther : other ≠ userId) :
    SameRows other store (((store.scrubEpisodes (store.evidenceEpisodes factIds)).deleteFacts
      factIds).deleteUnreferenced userId) := by
  have scrubbed := (sound.scrubEpisodes (store.evidenceEpisodes factIds)).linked
  refine ⟨?_, ?_, ?_, ?_⟩
  · exact factsOf_deleteFacts scrubbed belong isOther
  · exact entitiesOf_deleteUnreferenced isOther
  · exact episodesOf_scrubEpisodes sound.linked belong isOther
  · exact evidenceOf_deleteFacts scrubbed belong isOther

end Others

/-! ## The result -/

/-- An episode is evidence for a listed fact of the user. -/
def MemoryStore.TellsListed (store : MemoryStore) (userId : Uuid) (memoryIds : List Uuid)
    (episode : MemoryEpisode) : Prop :=
  ∃ row ∈ store.evidence, row.episodeId = episode.id ∧ ∃ fact ∈ store.facts,
    fact.id = row.factId ∧ fact.userId = userId ∧ fact.id ∈ memoryIds

section Result

variable {store : MemoryStore} {userId : Uuid} {memoryIds : List Uuid}

/-- Deleting facts by identifier deletes all of them. -/
theorem gone_forgetUserMemories (sound : store.Sound) {fact : MemoryFact}
    (stored : fact ∈ store.facts) (isUser : fact.userId = userId) (isListed : fact.id ∈ memoryIds) :
    (forgetUserMemories userId memoryIds store).1.Gone fact.id := by
  have isSelected : fact ∈ store.facts.filter fun fact =>
      fact.userId = userId ∧ fact.id ∈ memoryIds :=
    List.mem_filter.mpr ⟨stored, decide_eq_true ⟨isUser, isListed⟩⟩
  rcases forgetUserMemories_cases userId memoryIds store with ⟨noFacts, _⟩ | ⟨factIds, ids_eq, forgotten⟩
  · rw [noFacts] at isSelected
    cases isSelected
  · rw [forgotten]
    constructor
    · exact sound.linked.factsKnown fact stored
    · intro other otherMem sameId
      have notDeleted := of_decide_eq_true (List.mem_filter.mp otherMem).2
      apply notDeleted
      rw [sameId, ids_eq]
      exact List.mem_map.mpr ⟨fact, isSelected, rfl⟩

theorem not_listed_forgetUserMemories {fact : MemoryFact}
    (stored : fact ∈ (forgetUserMemories userId memoryIds store).1.facts)
    (isUser : fact.userId = userId) : fact.id ∉ memoryIds := by
  intro isListed
  rcases forgetUserMemories_cases userId memoryIds store with
    ⟨noFacts, same⟩ | ⟨factIds, ids_eq, forgotten⟩
  · rw [same] at stored
    have isSelected : fact ∈ store.facts.filter fun fact =>
        fact.userId = userId ∧ fact.id ∈ memoryIds :=
      List.mem_filter.mpr ⟨stored, decide_eq_true ⟨isUser, isListed⟩⟩
    rw [noFacts] at isSelected
    cases isSelected
  · rw [forgotten] at stored
    rcases List.mem_filter.mp stored with ⟨changed, notDeleted⟩
    apply of_decide_eq_true notDeleted
    have deletes : ∀ old ∈ store.facts, old.userId = userId → old.id = fact.id →
        fact.id ∈ factIds := by
      intro old oldMem ofUser sameId
      rw [ids_eq, ← sameId]
      rw [← sameId] at isListed
      exact List.mem_map.mpr ⟨old, List.mem_filter.mpr ⟨oldMem, decide_eq_true ⟨ofUser, isListed⟩⟩, rfl⟩
    rcases Table.mem_update_cases changed with ⟨old, oldMem, _, rfl⟩ | ⟨oldMem, _⟩
    · exact deletes old oldMem isUser rfl
    · exact deletes fact oldMem isUser rfl

/-- The episodes of the deleted facts are scrubbed. -/
theorem scrubbed_forgetUserMemories {episode : MemoryEpisode} (stored : episode ∈ store.episodes)
    (tells : store.TellsListed userId memoryIds episode) :
    (forgetUserMemories userId memoryIds store).1.ScrubbedEpisode episode.id := by
  rcases tells with ⟨row, rowMem, isEpisode, fact, factMem, isFact, isUser, isListed⟩
  have isSelected : fact ∈ store.facts.filter fun fact =>
      fact.userId = userId ∧ fact.id ∈ memoryIds :=
    List.mem_filter.mpr ⟨factMem, decide_eq_true ⟨isUser, isListed⟩⟩
  rcases forgetUserMemories_cases userId memoryIds store with ⟨noFacts, _⟩ | ⟨factIds, ids_eq, forgotten⟩
  · rw [noFacts] at isSelected
    cases isSelected
  · have isDeleted : row.factId ∈ factIds := by
      rw [ids_eq, ← isFact]
      exact List.mem_map.mpr ⟨fact, isSelected, rfl⟩
    have isTold : episode.id ∈ store.evidenceEpisodes factIds := by
      rw [← isEpisode]
      exact List.mem_map.mpr ⟨row, List.mem_filter.mpr ⟨rowMem, decide_eq_true isDeleted⟩, rfl⟩
    rw [forgotten]
    constructor
    · refine ⟨_, Table.mem_update.mpr ⟨episode, stored, rfl⟩, ?_⟩
      split <;> rfl
    · intro other otherMem sameId
      rcases Table.mem_update_cases otherMem with ⟨old, _, _, rfl⟩ | ⟨_, notSelected⟩
      · exact ⟨rfl, rfl, rfl⟩
      · rw [sameId] at notSelected
        exact absurd isTold (of_decide_eq_false notSelected)

theorem sameRows_forgetUserMemories (sound : store.Sound) {other : Uuid} (isOther : other ≠ userId) :
    SameRows other store (forgetUserMemories userId memoryIds store).1 := by
  rcases forgetUserMemories_cases userId memoryIds store with ⟨_, same⟩ | ⟨factIds, ids_eq, forgotten⟩
  · rw [same]
    exact ⟨rfl, rfl, rfl, rfl⟩
  · rw [forgotten]
    apply sameRows_forget sound ?_ isOther
    intro fact stored isDeleted
    rw [ids_eq] at isDeleted
    rcases List.mem_map.mp isDeleted with ⟨listed, isListed, sameId⟩
    rcases List.mem_filter.mp isListed with ⟨listedMem, isUser⟩
    have same := sound.linked.factIds.eq_of_mem listedMem stored (congrArg some sameId) rfl
    rw [← same]
    exact (of_decide_eq_true isUser).1

end Result

/-- The listed facts of the user are gone for ever, the episodes they came from never give their
text again, every reference is closed, every entity of the user is in use, and the rows of every
other user are as they were. -/
theorem forget_user_memories_complete (unicode : Unicode) (nextId : Uuid) (store after : MemoryStore)
    (userId : Uuid) (memoryIds : List Uuid)
    (run : MemoryRun unicode (MemoryStore.initial nextId) store)
    (forgotten : (forgetUserMemories userId memoryIds store).1 = after) :
    (∀ fact ∈ after.facts, fact.userId = userId → fact.id ∉ memoryIds) ∧
      (∀ fact ∈ store.facts, fact.userId = userId → fact.id ∈ memoryIds →
        ∀ later, MemoryRun unicode after later → (∀ fact' ∈ later.facts, fact'.id ≠ fact.id) ∧
          (∀ ranking format reader now limit candidateLimit, ∀ item ∈ (retrieveMemoryContext unicode
            ranking format reader now limit candidateLimit later).retrieved,
              item.memoryType = .fact → item.memoryId ≠ fact.id) ∧
          ∀ before hasTerm reader now limit, ∀ item ∈ listUserMemories before hasTerm reader now limit
            later, item.id ≠ fact.id) ∧
      (∀ episode ∈ store.episodes, store.TellsListed userId memoryIds episode →
        ∀ later, MemoryRun unicode after later → later.ScrubbedEpisode episode.id ∧
          ∀ ranking format reader now limit candidateLimit, ∀ item ∈ (retrieveMemoryContext unicode
            ranking format reader now limit candidateLimit later).retrieved,
              item.memoryType = .episode → item.memoryId ≠ episode.id) ∧
      (∀ fact ∈ after.facts, (∃ entity ∈ after.entities, entity.id = fact.subjectEntityId) ∧
        ∀ id, fact.objectEntityId = some id → ∃ entity ∈ after.entities, entity.id = id) ∧
      (∀ entity ∈ after.entities, entity.userId = userId → ∃ fact ∈ after.facts,
        fact.subjectEntityId = entity.id ∨ fact.objectEntityId = some entity.id) ∧
      ∀ other, other ≠ userId → SameRows other store after := by
  have sound := run.sound
  have afterSound : after.Sound := by
    rw [← forgotten]
    exact sound.forgetUserMemories userId memoryIds
  refine ⟨?_, ?_, ?_, ?_, ?_, ?_⟩
  · intro fact stored
    rw [← forgotten] at stored
    exact not_listed_forgetUserMemories stored
  · intro fact stored isUser isListed later laterRun
    have gone := gone_forgetUserMemories sound stored isUser isListed
    rw [forgotten] at gone
    have stillGone := ((laterRun.keeps_forgotten afterSound).1 fact.id gone).2
    refine ⟨stillGone, ?_, ?_⟩
    · intro ranking format reader now limit candidateLimit item isRetrieved isFact
      rcases mem_retrieved isRetrieved with ⟨_, other, otherMem, sameId, _⟩ | ⟨isEpisode, _⟩
      · rw [← sameId]
        exact stillGone other otherMem
      · cases isFact.symm.trans isEpisode
    · intro before hasTerm reader now limit item isListed
      rcases mem_listUserMemories isListed with ⟨other, otherMem, sameId, _⟩
      rw [← sameId]
      exact stillGone other otherMem
  · intro episode stored tells later laterRun
    have scrubbed := scrubbed_forgetUserMemories stored tells
    rw [forgotten] at scrubbed
    have stillScrubbed := (laterRun.keeps_forgotten afterSound).2 episode.id scrubbed
    refine ⟨stillScrubbed, ?_⟩
    intro ranking format reader now limit candidateLimit item isRetrieved isEpisode
    rcases mem_retrieved isRetrieved with ⟨isFact, _⟩ | ⟨_, other, otherMem, otherId, _, readable, _⟩
    · cases isEpisode.symm.trans isFact
    · rintro sameId
      have unreadable := (stillScrubbed.2 other otherMem (otherId.trans sameId)).2.1
      cases readable.symm.trans unreadable
  · have hasEntity : ∀ id, (∃ identity ∈ after.identities, identity.1 = id) →
        ∃ entity ∈ after.entities, entity.id = id := by
      rintro id ⟨identity, identityMem, rfl⟩
      rcases mem_identities_iff.mp identityMem with ⟨entity, entityMem, rfl⟩
      exact ⟨entity, entityMem, rfl⟩
    intro fact stored
    constructor
    · rcases afterSound.linked.subjects fact stored with ⟨identity, identityMem, sameId, _⟩
      exact hasEntity _ ⟨identity, identityMem, sameId⟩
    · intro id object_eq
      rcases afterSound.linked.objects fact stored id object_eq with ⟨identity, identityMem, sameId, _⟩
      exact hasEntity id ⟨identity, identityMem, sameId⟩
  · intro entity stored _
    rcases afterSound.referenced _ (mem_identities_iff.mpr ⟨entity, stored, rfl⟩) with
      ⟨fact, factMem, _, refers⟩
    exact ⟨fact, factMem, refers⟩
  · intro other isOther
    rw [← forgotten]
    exact sameRows_forgetUserMemories sound isOther

/-- After her only turn Ada asks to forget where she lives. -/
theorem forget_user_memories_complete_turn :
    ((forgetUserMemories 7 [32] storeAfterTurn).1.facts = [] ∧
      (forgetUserMemories 7 [32] storeAfterTurn).1.entities = []) ∧
      ∀ other, other ≠ 7 → SameRows other storeAfterTurn (forgetUserMemories 7 [32] storeAfterTurn).1 :=
  ⟨by decide +kernel, (forget_user_memories_complete Unicode.ascii 30 storeAfterTurn _ 7 [32]
    run_storeAfterTurn rfl).2.2.2.2.2⟩

end DotBackend.Memory
