import DotBackend.Memory.Store

/-!
# Reading the memory

What a turn is told about the user, and what the user is shown. The candidates are
selected by the user and by their relevance; orders and scores, which rest on floating
point numbers and on the text search of the database, are parameters.
-/

namespace DotBackend.Memory

open Data

/-! ## Candidates -/

structure FactCandidate where
  fact : MemoryFact
  subjectName : String
  objectName : Option String
  deriving DecidableEq

/-- `base_statement`: relevant facts of the user, joined with the names of their entities. -/
def MemoryStore.candidates (store : MemoryStore) (userId : Uuid) (now : Instant) :
    List FactCandidate :=
  (store.facts.filter fun fact => fact.userId = userId && isRelevantFact now fact).filterMap
    fun fact => (store.entities.find? (·.id = fact.subjectEntityId)).map fun subject => {
      fact, subjectName := subject.name
      objectName := fact.objectEntityId.bind fun id =>
        (store.entities.find? (·.id = id)).map (·.name) }

/-- The episodes of the user that may be read. -/
def MemoryStore.retrievableEpisodes (store : MemoryStore) (userId : Uuid) : List MemoryEpisode :=
  store.episodes.filter fun episode => episode.userId = userId && episode.isRetrievable

/-- The orders, scores and floors of one query. -/
structure Ranking where
  /-- `importance DESC, updated_at DESC`. -/
  recentFacts : FactCandidate → FactCandidate → Bool
  /-- The cosine distance, when the query has an embedding and the database compares them. -/
  nearestFacts : Option (FactCandidate → FactCandidate → Bool)
  /-- The text search, when the query has words and the database supports it. -/
  matchingFacts : Option ((FactCandidate → Bool) × (FactCandidate → FactCandidate → Bool))
  importantFacts : FactCandidate → FactCandidate → Bool
  factScore : MemoryFact → Rat
  passesRelevanceFloor : MemoryFact → Bool
  recentEpisodes : MemoryEpisode → MemoryEpisode → Bool
  nearestEpisodes : Option (MemoryEpisode → MemoryEpisode → Bool)
  episodeScore : MemoryEpisode → Rat
  passesEpisodeRelevanceFloor : MemoryEpisode → Bool

/-- `sorted(rows, key=score, reverse=True)`. -/
def sortedByScore {α : Type} (score : α → Rat) (rows : List α) : List α :=
  Table.orderBy (fun a b => score b ≤ score a) rows

/-- The candidates of the three queries without repetitions. -/
def Ranking.selectFacts (ranking : Ranking) (candidates : List FactCandidate)
    (limit candidateLimit : Nat) : List FactCandidate :=
  let recent := (Table.orderBy ranking.recentFacts candidates).take (max candidateLimit limit)
  let nearest := ranking.nearestFacts.elim [] fun order =>
    (Table.orderBy order (candidates.filter (·.fact.embedding.isSome))).take candidateLimit
  let found := ranking.matchingFacts.elim [] fun search =>
    (Table.orderBy search.2 (candidates.filter search.1)).take candidateLimit
  (recent ++ nearest ++ found).eraseDups

/-- Candidates that are not selected yet are added up to the limit. -/
def fillUp (limit : Nat) : List FactCandidate → List FactCandidate → List FactCandidate
  | selected, [] => selected
  | selected, candidate :: rest =>
      if selected.any fun other => other.fact.id = candidate.fact.id then fillUp limit selected rest
      else if limit ≤ (selected ++ [candidate]).length then selected ++ [candidate]
      else fillUp limit (selected ++ [candidate]) rest

/-- `_expansion_entity_ids`: the common node of the user is not followed. -/
def expansionEntityIds (unicode : Unicode) (candidate : FactCandidate) : List Uuid :=
  let folded := String.ofList (Text.casefold unicode candidate.subjectName.toList)
  let subject :=
    if folded = "user" ∨ folded = "the user" then none else some candidate.fact.subjectEntityId
  [subject, candidate.fact.objectEntityId].reduceOption

/-- `_expand_graph`: facts that share an entity with the first three. -/
def expandGraph (unicode : Unicode) (ranking : Ranking) (candidates selected : List FactCandidate)
    (limit : Nat) : List FactCandidate :=
  if selected = [] ∨ limit ≤ selected.length then selected
  else
    let entityIds := (selected.take 3).flatMap (expansionEntityIds unicode)
    if entityIds = [] then selected
    else
      let shares := fun candidate : FactCandidate =>
        decide (candidate.fact.subjectEntityId ∈ entityIds) ||
          candidate.fact.objectEntityId.any (· ∈ entityIds)
      fillUp limit selected
        ((Table.orderBy ranking.importantFacts (candidates.filter shares)).take limit)

/-! ## The context of a turn -/

inductive RetrievedKind
  | fact | episode
  deriving DecidableEq

/-- Whether a memory answers the query itself, or was reached from one that does. -/
inductive RetrievalReason
  | direct | graph
  deriving DecidableEq

structure RetrievedMemory where
  memoryId : Uuid
  memoryType : RetrievedKind
  text : String
  retrievalReason : RetrievalReason := .direct
  deriving DecidableEq

structure MemoryContext where
  facts : List String
  episodes : List String
  retrieved : List RetrievedMemory
  deriving DecidableEq

/-- How dates are written, and when each fact is formatted. -/
structure FactFormat where
  isoDate : Instant → String
  formattedAt : MemoryFact → Instant

/-- `_format_fact`. -/
def FactFormat.formatFact (format : FactFormat) (fact : MemoryFact) : String :=
  let validFrom :=
    if format.formattedAt fact < fact.validFrom then
      "; effective from " ++ format.isoDate fact.validFrom
    else ""
  let validUntil := fact.validUntil.elim "" fun end_ => "; relevant until " ++ format.isoDate end_
  fact.statement ++ validFrom ++ validUntil

/-- `relevant_ranked`: the candidates by their scores, down to the relevance floor. -/
def relevantFacts (ranking : Ranking) (candidates : List FactCandidate)
    (limit candidateLimit : Nat) : List FactCandidate :=
  let ranked := sortedByScore (fun candidate => ranking.factScore candidate.fact)
    (ranking.selectFacts candidates limit candidateLimit)
  ranked.filter fun candidate => ranking.passesRelevanceFloor candidate.fact

/-- The facts of `retrieve_memory_context`. -/
def retrieveFacts (unicode : Unicode) (ranking : Ranking) (candidates : List FactCandidate)
    (limit candidateLimit : Nat) : List FactCandidate :=
  let relevant := relevantFacts ranking candidates limit candidateLimit
  let seedLimit := min limit (max 1 (limit / 2))
  let selected := expandGraph unicode ranking candidates (relevant.take seedLimit) limit
  if selected.length < limit then fillUp limit selected (relevant.drop seedLimit) else selected

/-- The episodes of `retrieve_memory_context`. -/
def retrieveEpisodes (ranking : Ranking) (episodes : List MemoryEpisode)
    (episodeLimit candidateLimit : Nat) : List MemoryEpisode :=
  let recent := (Table.orderBy ranking.recentEpisodes episodes).take candidateLimit
  let nearest := ranking.nearestEpisodes.elim [] fun order =>
    (Table.orderBy order (episodes.filter (·.embedding.isSome))).take candidateLimit
  ((sortedByScore ranking.episodeScore (recent ++ nearest).eraseDups).filter
    ranking.passesEpisodeRelevanceFloor).take episodeLimit

/-- `retrieve_memory_context` at one reading of the clock. -/
def retrieveMemoryContext (unicode : Unicode) (ranking : Ranking) (format : FactFormat)
    (userId : Uuid) (now : Instant) (limit candidateLimit : Nat) (store : MemoryStore) :
    MemoryContext :=
  if limit = 0 then ⟨[], [], []⟩
  else
    let candidates := store.candidates userId now
    let relevant := relevantFacts ranking candidates limit candidateLimit
    let selected := retrieveFacts unicode ranking candidates limit candidateLimit
    let episodes := retrieveEpisodes ranking (store.retrievableEpisodes userId)
      (min 3 (limit - selected.length)) candidateLimit
    { facts := selected.map fun candidate => format.formatFact candidate.fact
      episodes := episodes.map (·.summary)
      retrieved :=
        selected.map (fun candidate =>
          { memoryId := candidate.fact.id
            memoryType := .fact
            text := format.formatFact candidate.fact
            retrievalReason :=
              if relevant.any fun other => other.fact.id = candidate.fact.id then .direct
              else .graph }) ++
        episodes.map fun episode =>
          { memoryId := episode.id, memoryType := .episode, text := episode.summary } }

/-! ## The list for the user -/

structure ListedMemory where
  id : Uuid
  kind : MemoryKind
  statement : String
  confidence : Rat
  validUntil : Option Instant
  deriving DecidableEq

/-- `list_user_memories`; the terms of the query, if it has any, are a condition. -/
def listUserMemories (before : MemoryFact → MemoryFact → Bool)
    (hasTerm : Option (MemoryFact → Bool)) (userId : Uuid) (now : Instant) (limit : Int)
    (store : MemoryStore) : List ListedMemory :=
  let relevant := store.facts.filter fun fact =>
    fact.userId = userId && isRelevantFact now fact && hasTerm.all (· fact)
  ((Table.orderBy before relevant).take (max 1 (min limit 50)).toNat).map fun fact =>
    ⟨fact.id, fact.kind, fact.statement, fact.confidence, fact.validUntil⟩

/-! ## Where the texts come from -/

theorem mem_sortedByScore {α : Type} {score : α → Rat} {rows : List α} {row : α} :
    row ∈ sortedByScore score rows ↔ row ∈ rows :=
  Table.mem_orderBy

theorem mem_fillUp {limit : Nat} {selected rows : List FactCandidate} {candidate : FactCandidate}
    (isFilled : candidate ∈ fillUp limit selected rows) :
    candidate ∈ selected ∨ candidate ∈ rows := by
  induction rows generalizing selected with
  | nil => exact Or.inl isFilled
  | cons row rest ih =>
      rw [fillUp] at isFilled
      have fromSelected : candidate ∈ selected ++ [row] → candidate ∈ selected ∨
          candidate ∈ row :: rest := by
        intro isMem
        rcases List.mem_append.mp isMem with isSelected | isRow
        · exact Or.inl isSelected
        · rw [List.mem_singleton.mp isRow]
          exact Or.inr List.mem_cons_self
      split at isFilled
      · rcases ih isFilled with isSelected | isRest
        · exact Or.inl isSelected
        · exact Or.inr (List.mem_cons_of_mem row isRest)
      · split at isFilled
        · exact fromSelected isFilled
        · rcases ih isFilled with isMem | isRest
          · exact fromSelected isMem
          · exact Or.inr (List.mem_cons_of_mem row isRest)

section Origins

variable {unicode : Unicode} {ranking : Ranking} {candidates selected : List FactCandidate}
  {limit candidateLimit : Nat} {candidate : FactCandidate}

theorem mem_selectFacts (isSelected : candidate ∈ ranking.selectFacts candidates limit candidateLimit) :
    candidate ∈ candidates := by
  rw [Ranking.selectFacts, List.mem_eraseDups, List.mem_append, List.mem_append] at isSelected
  rcases isSelected with (isRecent | isNearest) | isFound
  · exact Table.mem_orderBy.mp (List.mem_of_mem_take isRecent)
  · cases order_eq : ranking.nearestFacts with
    | none =>
        rw [order_eq] at isNearest
        cases isNearest
    | some order =>
        rw [order_eq] at isNearest
        exact List.mem_of_mem_filter (Table.mem_orderBy.mp (List.mem_of_mem_take isNearest))
  · cases search_eq : ranking.matchingFacts with
    | none =>
        rw [search_eq] at isFound
        cases isFound
    | some search =>
        rw [search_eq] at isFound
        exact List.mem_of_mem_filter (Table.mem_orderBy.mp (List.mem_of_mem_take isFound))

theorem mem_expandGraph (isExpanded : candidate ∈ expandGraph unicode ranking candidates selected limit) :
    candidate ∈ selected ∨ candidate ∈ candidates := by
  unfold expandGraph at isExpanded
  split at isExpanded
  · exact Or.inl isExpanded
  · dsimp only at isExpanded
    split at isExpanded
    · exact Or.inl isExpanded
    · rcases mem_fillUp isExpanded with isSelected | isShared
      · exact Or.inl isSelected
      · have isFiltered := Table.mem_orderBy.mp (List.mem_of_mem_take isShared)
        exact Or.inr (List.mem_of_mem_filter isFiltered)

theorem mem_relevantFacts
    (isRelevant : candidate ∈ relevantFacts ranking candidates limit candidateLimit) :
    candidate ∈ candidates ∧ ranking.passesRelevanceFloor candidate.fact = true := by
  rcases List.mem_filter.mp isRelevant with ⟨isRanked, passes⟩
  exact ⟨mem_selectFacts (mem_sortedByScore.mp isRanked), passes⟩

theorem mem_retrieveFacts
    (isRetrieved : candidate ∈ retrieveFacts unicode ranking candidates limit candidateLimit) :
    candidate ∈ candidates := by
  have ofExpanded : ∀ {seedLimit}, candidate ∈ expandGraph unicode ranking candidates
      ((relevantFacts ranking candidates limit candidateLimit).take seedLimit) limit →
      candidate ∈ candidates := by
    intro seedLimit isExpanded
    rcases mem_expandGraph isExpanded with isSeed | isCandidate
    · exact (mem_relevantFacts (List.mem_of_mem_take isSeed)).1
    · exact isCandidate
  unfold retrieveFacts at isRetrieved
  dsimp only at isRetrieved
  split at isRetrieved
  · rcases mem_fillUp isRetrieved with isExpanded | isLater
    · exact ofExpanded isExpanded
    · exact (mem_relevantFacts (List.mem_of_mem_drop isLater)).1
  · exact ofExpanded isRetrieved

theorem mem_retrieveEpisodes {episodes : List MemoryEpisode} {episode : MemoryEpisode}
    (isRetrieved : episode ∈ retrieveEpisodes ranking episodes limit candidateLimit) :
    episode ∈ episodes := by
  have isRanked := mem_sortedByScore.mp (List.mem_of_mem_filter (List.mem_of_mem_take isRetrieved))
  rw [List.mem_eraseDups] at isRanked
  rcases List.mem_append.mp isRanked with isRecent | isNearest
  · exact Table.mem_orderBy.mp (List.mem_of_mem_take isRecent)
  · cases order_eq : ranking.nearestEpisodes with
    | none =>
        rw [order_eq] at isNearest
        cases isNearest
    | some order =>
        rw [order_eq] at isNearest
        exact List.mem_of_mem_filter (Table.mem_orderBy.mp (List.mem_of_mem_take isNearest))

variable {format : FactFormat} {userId : Uuid} {now : Instant} {store : MemoryStore}

theorem mem_candidates (isCandidate : candidate ∈ store.candidates userId now) :
    candidate.fact ∈ store.facts ∧ candidate.fact.userId = userId ∧
      isRelevantFact now candidate.fact = true := by
  rcases List.mem_filterMap.mp isCandidate with ⟨fact, factMem, joined⟩
  rcases Option.map_eq_some_iff.mp joined with ⟨_, _, rfl⟩
  rcases List.mem_filter.mp factMem with ⟨stored, isSelected⟩
  rw [Bool.and_eq_true, decide_eq_true_eq] at isSelected
  exact ⟨stored, isSelected⟩

/-- Every retrieved fact is a relevant fact of the user, every retrieved episode one of the user
that may be read. -/
theorem mem_retrieved {item : RetrievedMemory}
    (isRetrieved : item ∈ (retrieveMemoryContext unicode ranking format userId now limit
      candidateLimit store).retrieved) :
    (item.memoryType = .fact ∧ ∃ fact ∈ store.facts, fact.id = item.memoryId ∧
      fact.userId = userId ∧ isRelevantFact now fact = true) ∨
    (item.memoryType = .episode ∧ ∃ episode ∈ store.episodes, episode.id = item.memoryId ∧
      episode.userId = userId ∧ episode.isRetrievable = true ∧ item.text = episode.summary) := by
  unfold retrieveMemoryContext at isRetrieved
  split at isRetrieved
  · cases isRetrieved
  · dsimp only at isRetrieved
    rcases List.mem_append.mp isRetrieved with isFact | isEpisode
    · rcases List.mem_map.mp isFact with ⟨candidate, isSelected, rfl⟩
      rcases mem_candidates (mem_retrieveFacts isSelected) with ⟨stored, isUser, isRelevant⟩
      exact Or.inl ⟨rfl, candidate.fact, stored, rfl, isUser, isRelevant⟩
    · rcases List.mem_map.mp isEpisode with ⟨episode, isSelected, rfl⟩
      rcases List.mem_filter.mp (mem_retrieveEpisodes isSelected) with ⟨stored, isReadable⟩
      rw [Bool.and_eq_true, decide_eq_true_eq] at isReadable
      exact Or.inr ⟨rfl, episode, stored, rfl, isReadable.1, isReadable.2, rfl⟩

/-- Every listed memory is a relevant fact of the user. -/
theorem mem_listUserMemories {before : MemoryFact → MemoryFact → Bool}
    {hasTerm : Option (MemoryFact → Bool)} {listLimit : Int} {item : ListedMemory}
    (isListed : item ∈ listUserMemories before hasTerm userId now listLimit store) :
    ∃ fact ∈ store.facts, fact.id = item.id ∧ fact.userId = userId ∧
      isRelevantFact now fact = true ∧ item.statement = fact.statement := by
  rcases List.mem_map.mp isListed with ⟨fact, isTaken, rfl⟩
  rcases List.mem_filter.mp (Table.mem_orderBy.mp (List.mem_of_mem_take isTaken)) with
    ⟨stored, isSelected⟩
  rw [Bool.and_eq_true, Bool.and_eq_true, decide_eq_true_eq] at isSelected
  exact ⟨fact, stored, rfl, isSelected.1.1, isSelected.1.2, rfl⟩

end Origins

end DotBackend.Memory
