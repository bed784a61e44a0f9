import DotBackend.Memory.Retrieval
import DotBackend.Memory.FactStore
import Mathlib.Data.List.ReduceOption

/-!
# What a turn is given of the memory

At most as many memories as the limit says, none of them twice. A fact that is marked as direct
passes the relevance floor; any other fact shares an entity with one of the first three direct
facts, and that entity is not the common node of the user as a subject.
-/

namespace DotBackend.Memory

open Data

variable {relevant selected : List FactCandidate} {context : MemoryContext}

/-! ## Filling up -/

section Filling

variable {unicode : Unicode} {ranking : Ranking} {candidates selected rows : List FactCandidate}
  {limit candidateLimit : Nat} {candidate : FactCandidate}

/-- The facts of candidates. -/
def factIds (candidates : List FactCandidate) : List Uuid :=
  candidates.map (·.fact.id)

theorem notMem_factIds_iff : candidate.fact.id ∉ factIds selected ↔
    (selected.any fun other => other.fact.id = candidate.fact.id) = false := by
  simp [factIds]

theorem exists_fillUp (limit : Nat) (selected rows : List FactCandidate) :
    ∃ added, fillUp limit selected rows = selected ++ added ∧ ∀ row ∈ added, row ∈ rows := by
  induction rows generalizing selected with
  | nil => exact ⟨[], (List.append_nil _).symm, List.forall_mem_nil _⟩
  | cons row rest ih =>
      rw [fillUp]
      split
      · rcases ih selected with ⟨added, filled, ofRest⟩
        exact ⟨added, filled, fun other otherMem => List.mem_cons_of_mem _ (ofRest other otherMem)⟩
      · split
        · refine ⟨[row], rfl, ?_⟩
          intro other otherMem
          rw [List.mem_singleton.mp otherMem]
          exact List.mem_cons_self
        · rcases ih (selected ++ [row]) with ⟨added, filled, ofRest⟩
          refine ⟨row :: added, ?_, ?_⟩
          · rw [filled, List.append_assoc]
            rfl
          · intro other otherMem
            rcases List.mem_cons.mp otherMem with rfl | otherMem
            · exact List.mem_cons_self
            · exact List.mem_cons_of_mem _ (ofRest other otherMem)

theorem nodup_append_row (apart : (factIds selected).Nodup)
    (isNew : candidate.fact.id ∉ factIds selected) :
    (factIds (selected ++ [candidate])).Nodup := by
  rw [factIds, List.map_append]
  apply List.Nodup.append apart (List.nodup_singleton _)
  intro id idMem isRow
  rw [List.mem_singleton.mp isRow] at idMem
  exact isNew idMem

theorem nodup_fillUp (apart : (factIds selected).Nodup) :
    (factIds (fillUp limit selected rows)).Nodup := by
  induction rows generalizing selected with
  | nil => exact apart
  | cons row rest ih =>
      rw [fillUp]
      split
      · exact ih apart
      · rename_i isNew
        have appended := nodup_append_row apart
          (notMem_factIds_iff.mpr (Bool.eq_false_iff.mpr isNew))
        split
        · exact appended
        · exact ih appended

theorem length_fillUp_le (less : selected.length < limit) :
    (fillUp limit selected rows).length ≤ limit := by
  induction rows generalizing selected with
  | nil => exact Nat.le_of_lt less
  | cons row rest ih =>
      rw [fillUp]
      split
      · exact ih less
      · split
        · rw [List.length_append]
          exact less
        · rename_i within
          exact ih (Nat.not_le.mp within)

/-! ## Facts that are reached -/

/-- The entity is the subject or the object of the fact. -/
def Mentions (fact : MemoryFact) (entityId : Uuid) : Prop :=
  fact.subjectEntityId = entityId ∨ fact.objectEntityId = some entityId

/-- What is expanded starts with what was selected; what is added shares an entity with the
first three. -/
theorem exists_expandGraph (unicode : Unicode) (ranking : Ranking)
    (candidates selected : List FactCandidate) (limit : Nat) :
    ∃ added, expandGraph unicode ranking candidates selected limit = selected ++ added ∧
      ∀ row ∈ added, row ∈ candidates ∧ ∃ source ∈ selected.take 3,
        ∃ entityId ∈ expansionEntityIds unicode source, Mentions row.fact entityId := by
  have nothing : ∃ added, selected = selected ++ added ∧
      ∀ row ∈ added, row ∈ candidates ∧ ∃ source ∈ selected.take 3,
        ∃ entityId ∈ expansionEntityIds unicode source, Mentions row.fact entityId :=
    ⟨[], (List.append_nil _).symm, List.forall_mem_nil _⟩
  unfold expandGraph
  split
  · exact nothing
  · dsimp only
    split
    · exact nothing
    · rcases exists_fillUp limit selected ((Table.orderBy ranking.importantFacts
        (candidates.filter fun candidate => decide (candidate.fact.subjectEntityId ∈
          (selected.take 3).flatMap (expansionEntityIds unicode)) ||
            candidate.fact.objectEntityId.any
              (· ∈ (selected.take 3).flatMap (expansionEntityIds unicode)))).take limit) with
        ⟨added, filled, ofRows⟩
      refine ⟨added, filled, ?_⟩
      intro row rowMem
      rcases List.mem_filter.mp (Table.mem_orderBy.mp (List.mem_of_mem_take (ofRows row rowMem)))
        with ⟨isCandidate, shares⟩
      refine ⟨isCandidate, ?_⟩
      simp only [Bool.or_eq_true, decide_eq_true_eq, Option.any_eq_true, List.mem_flatMap]
        at shares
      rcases shares with ⟨source, sourceMem, isEntity⟩ | ⟨_, isObject, source, sourceMem, isEntity⟩
      · exact ⟨source, sourceMem, _, isEntity, Or.inl rfl⟩
      · exact ⟨source, sourceMem, _, isEntity, Or.inr isObject⟩

theorem nodup_expandGraph (apart : (factIds selected).Nodup) :
    (factIds (expandGraph unicode ranking candidates selected limit)).Nodup := by
  unfold expandGraph
  split
  · exact apart
  · dsimp only
    split
    · exact apart
    · exact nodup_fillUp apart

theorem length_expandGraph_le (within : selected.length ≤ limit) :
    (expandGraph unicode ranking candidates selected limit).length ≤ limit := by
  unfold expandGraph
  split
  · exact within
  · rename_i isLess
    dsimp only
    split
    · exact within
    · apply length_fillUp_le
      rw [not_or, Nat.not_le] at isLess
      exact isLess.2

/-- The facts are the first relevant ones, then facts that share an entity with the first three,
then relevant ones again. -/
theorem exists_retrieveFacts (unicode : Unicode) (ranking : Ranking)
    (candidates : List FactCandidate) (limit candidateLimit : Nat) :
    ∃ added, retrieveFacts unicode ranking candidates limit candidateLimit =
        (relevantFacts ranking candidates limit candidateLimit).take
          (min limit (max 1 (limit / 2))) ++ added ∧
      ∀ row ∈ added, row ∈ relevantFacts ranking candidates limit candidateLimit ∨
        ∃ source ∈ ((relevantFacts ranking candidates limit candidateLimit).take
            (min limit (max 1 (limit / 2)))).take 3,
          ∃ entityId ∈ expansionEntityIds unicode source, Mentions row.fact entityId := by
  rcases exists_expandGraph unicode ranking candidates
    ((relevantFacts ranking candidates limit candidateLimit).take (min limit (max 1 (limit / 2))))
    limit with ⟨reached, expanded, shares⟩
  unfold retrieveFacts
  dsimp only
  split
  · rcases exists_fillUp limit _ ((relevantFacts ranking candidates limit candidateLimit).drop
      (min limit (max 1 (limit / 2)))) with ⟨added, filled, ofRest⟩
    refine ⟨reached ++ added, ?_, ?_⟩
    · rw [filled, expanded, List.append_assoc]
    · intro row rowMem
      rcases List.mem_append.mp rowMem with isReached | isAdded
      · exact Or.inr (shares row isReached).2
      · exact Or.inl (List.mem_of_mem_drop (ofRest row isAdded))
  · exact ⟨reached, expanded, fun row rowMem => Or.inr (shares row rowMem).2⟩

theorem length_retrieveFacts_le :
    (retrieveFacts unicode ranking candidates limit candidateLimit).length ≤ limit := by
  have seeds : ((relevantFacts ranking candidates limit candidateLimit).take
      (min limit (max 1 (limit / 2)))).length ≤ limit := by
    rw [List.length_take]
    omega
  unfold retrieveFacts
  dsimp only
  split
  · rename_i less
    exact length_fillUp_le less
  · exact length_expandGraph_le seeds

theorem nodup_retrieveFacts
    (apart : (factIds (relevantFacts ranking candidates limit candidateLimit)).Nodup) :
    (factIds (retrieveFacts unicode ranking candidates limit candidateLimit)).Nodup := by
  have seeds : (factIds ((relevantFacts ranking candidates limit candidateLimit).take
      (min limit (max 1 (limit / 2))))).Nodup :=
    apart.sublist ((List.take_sublist _ _).map _)
  unfold retrieveFacts
  dsimp only
  split
  · exact nodup_fillUp (nodup_expandGraph seeds)
  · exact nodup_expandGraph seeds

end Filling

/-! ## Keys of what is read -/

section Keys

variable {ranking : Ranking} {userId : Uuid} {now : Instant} {store : MemoryStore}
  {limit candidateLimit : Nat}

/-- A candidate is known by its fact. -/
theorem candidate_eq (unique : Table.UniqueOn (fun fact => some fact.id) store.facts)
    {first second : FactCandidate} (firstMem : first ∈ store.candidates userId now)
    (secondMem : second ∈ store.candidates userId now) (sameId : first.fact.id = second.fact.id) :
    first = second := by
  rcases List.mem_filterMap.mp firstMem with ⟨fact, factMem, isFirst⟩
  rcases List.mem_filterMap.mp secondMem with ⟨other, otherMem, isSecond⟩
  have firstFact : first.fact = fact := by
    rcases Option.map_eq_some_iff.mp isFirst with ⟨_, _, rfl⟩
    rfl
  have secondFact : second.fact = other := by
    rcases Option.map_eq_some_iff.mp isSecond with ⟨_, _, rfl⟩
    rfl
  have same : fact = other := by
    apply unique.eq_of_mem (List.mem_of_mem_filter factMem) (List.mem_of_mem_filter otherMem) rfl
    rw [← firstFact, ← secondFact, sameId]
  rw [same] at isFirst
  exact Option.some.inj (isFirst.symm.trans isSecond)

theorem nodup_sortedByScore {α : Type} {score : α → Rat} {rows : List α} (apart : rows.Nodup) :
    (sortedByScore score rows).Nodup :=
  (List.perm_insertionSort _ rows).nodup_iff.mpr apart

theorem nodup_relevantFacts (unique : Table.UniqueOn (fun fact => some fact.id) store.facts) :
    (factIds (relevantFacts ranking (store.candidates userId now) limit candidateLimit)).Nodup := by
  apply List.Nodup.map_on
  · intro first firstMem second secondMem
    exact candidate_eq unique (mem_relevantFacts firstMem).1 (mem_relevantFacts secondMem).1
  · apply List.Nodup.filter
    apply nodup_sortedByScore
    exact Table.nodup_eraseDups _

theorem nodup_retrieveEpisodes
    (unique : Table.UniqueOn (fun episode => some episode.id) store.episodes) :
    ((retrieveEpisodes ranking (store.retrievableEpisodes userId) limit candidateLimit).map
      (·.id)).Nodup := by
  apply List.Nodup.map_on
  · intro first firstMem second secondMem sameId
    apply unique.eq_of_mem (List.mem_of_mem_filter (mem_retrieveEpisodes firstMem))
      (List.mem_of_mem_filter (mem_retrieveEpisodes secondMem)) rfl
    rw [sameId]
  · apply List.Nodup.sublist (List.take_sublist _ _)
    apply List.Nodup.filter
    apply nodup_sortedByScore
    exact Table.nodup_eraseDups _

end Keys

/-! ## The context of a turn -/

/-- The identifiers of the memories of a kind. -/
def MemoryContext.idsOf (context : MemoryContext) (kind : RetrievedKind) : List Uuid :=
  (context.retrieved.filter fun item => item.memoryType = kind).map (·.memoryId)

/-- The facts that are marked as direct, in order. -/
def MemoryContext.directFacts (context : MemoryContext) : List RetrievedMemory :=
  context.retrieved.filter fun item =>
    item.memoryType = .fact ∧ item.retrievalReason = .direct

/-- The fact shares an entity that is followed with one of the first three direct facts. -/
def Reached (unicode : Unicode) (candidates : List FactCandidate) (context : MemoryContext)
    (fact : MemoryFact) : Prop :=
  ∃ source ∈ context.directFacts.take 3, ∃ candidate ∈ candidates,
    candidate.fact.id = source.memoryId ∧
      ∃ entityId ∈ expansionEntityIds unicode candidate, Mentions fact entityId

/-- What holds of the memories that a turn is given. -/
structure WellRetrieved (unicode : Unicode) (ranking : Ranking) (userId : Uuid) (now : Instant)
    (limit : Nat) (store : MemoryStore) (context : MemoryContext) : Prop where
  bounded : context.facts.length + context.episodes.length ≤ limit
  listed : context.retrieved.length = context.facts.length + context.episodes.length
  factsOnce : (context.idsOf .fact).Nodup
  episodesOnce : (context.idsOf .episode).Nodup
  facts : ∀ item ∈ context.retrieved, item.memoryType = .fact →
    ∃ fact ∈ store.facts, fact.id = item.memoryId ∧ fact.userId = userId ∧
      isRelevantFact now fact = true ∧
      (item.retrievalReason ≠ .graph → ranking.passesRelevanceFloor fact = true) ∧
      (item.retrievalReason = .graph →
        Reached unicode (store.candidates userId now) context fact)
  episodes : ∀ item ∈ context.retrieved, item.memoryType = .episode →
    ∃ episode ∈ store.episodes, episode.id = item.memoryId ∧ episode.userId = userId ∧
      episode.isRetrievable = true

section Context

variable {unicode : Unicode} {ranking : Ranking} {format : FactFormat} {userId : Uuid}
  {now : Instant} {limit candidateLimit : Nat} {store : MemoryStore}

/-- Whether a candidate has the fact of a relevant one. -/
def isDirect (relevant : List FactCandidate) (candidate : FactCandidate) : Bool :=
  relevant.any fun other => other.fact.id = candidate.fact.id

/-- A retrieved fact. -/
def factItem (format : FactFormat) (relevant : List FactCandidate) (candidate : FactCandidate) :
    RetrievedMemory where
  memoryId := candidate.fact.id
  memoryType := .fact
  text := format.formatFact candidate.fact
  retrievalReason := if isDirect relevant candidate then .direct else .graph

/-- A retrieved episode. -/
def episodeItem (episode : MemoryEpisode) : RetrievedMemory where
  memoryId := episode.id
  memoryType := .episode
  text := episode.summary

theorem isDirect_of_mem {candidate : FactCandidate}
    (isRelevant : candidate ∈ relevant) : isDirect relevant candidate = true :=
  List.any_eq_true.mpr ⟨candidate, isRelevant, decide_eq_true rfl⟩

theorem factItem_isGraph {candidate : FactCandidate} :
    (factItem format relevant candidate).retrievalReason = .graph ↔
      isDirect relevant candidate = false := by
  rw [factItem]
  cases isDirect relevant candidate <;> simp

/-- A candidate with the fact of a relevant one is that one. -/
theorem passes_of_isDirect {candidate : FactCandidate}
    (unique : Table.UniqueOn (fun fact => some fact.id) store.facts)
    (isCandidate : candidate ∈ store.candidates userId now)
    (direct : isDirect (relevantFacts ranking (store.candidates userId now) limit candidateLimit)
      candidate = true) : ranking.passesRelevanceFloor candidate.fact = true := by
  rcases List.any_eq_true.mp direct with ⟨other, isRelevant, sameId⟩
  rcases mem_relevantFacts isRelevant with ⟨otherMem, passes⟩
  rw [← candidate_eq unique otherMem isCandidate (of_decide_eq_true sameId)]
  exact passes

theorem idsOf_fact {read : List MemoryEpisode} (retrieved : context.retrieved =
      selected.map (factItem format relevant) ++ read.map episodeItem) :
    context.idsOf .fact = factIds selected := by
  rw [MemoryContext.idsOf, retrieved, List.filter_append, List.filter_map, List.filter_map]
  simp [Function.comp_def, factItem, episodeItem, factIds]

theorem idsOf_episode {read : List MemoryEpisode} (retrieved : context.retrieved =
      selected.map (factItem format relevant) ++ read.map episodeItem) :
    context.idsOf .episode = read.map (·.id) := by
  rw [MemoryContext.idsOf, retrieved, List.filter_append, List.filter_map, List.filter_map]
  simp [Function.comp_def, factItem, episodeItem]

theorem directFacts_eq {read : List MemoryEpisode} (retrieved : context.retrieved =
      selected.map (factItem format relevant) ++ read.map episodeItem) :
    context.directFacts = (selected.filter (isDirect relevant)).map (factItem format relevant) := by
  rw [MemoryContext.directFacts, retrieved, List.filter_append, List.filter_map, List.filter_map]
  simp only [Function.comp_def, factItem, episodeItem, reduceCtorEq, false_and, decide_false,
    List.filter_false, List.map_nil, List.append_nil, true_and]
  congr 2
  funext candidate
  cases isDirect relevant candidate <;> rfl

/-- The first three facts that were selected are the first three direct ones. -/
theorem mem_directFacts {seeds added : List FactCandidate}
    {read : List MemoryEpisode} {source : FactCandidate} (retrieved : context.retrieved =
      (seeds ++ added).map (factItem format relevant) ++ read.map episodeItem)
    (areRelevant : ∀ seed ∈ seeds, seed ∈ relevant) (sourceMem : source ∈ seeds.take 3) :
    factItem format relevant source ∈ context.directFacts.take 3 := by
  have seedsDirect : seeds.filter (isDirect relevant) = seeds := by
    apply List.filter_eq_self.mpr
    intro seed seedMem
    exact isDirect_of_mem (areRelevant seed seedMem)
  rw [directFacts_eq retrieved, List.filter_append, seedsDirect, ← List.map_take]
  apply List.mem_map_of_mem
  rw [List.take_append]
  exact List.mem_append_left _ sourceMem

/-- A fact that is not direct was reached from one of the first three direct ones. -/
theorem reached_of_mem {candidates : List FactCandidate}
    {read : List MemoryEpisode} {candidate : FactCandidate}
    (retrieved : context.retrieved =
      (retrieveFacts unicode ranking candidates limit candidateLimit).map
        (factItem format (relevantFacts ranking candidates limit candidateLimit)) ++
          read.map episodeItem)
    (isRetrieved : candidate ∈ retrieveFacts unicode ranking candidates limit candidateLimit)
    (notDirect :
      isDirect (relevantFacts ranking candidates limit candidateLimit) candidate = false) :
    Reached unicode candidates context candidate.fact := by
  rcases exists_retrieveFacts unicode ranking candidates limit candidateLimit with
    ⟨added, splits, fromSeeds⟩
  have notRelevant : candidate ∉ relevantFacts ranking candidates limit candidateLimit := by
    intro isRelevant
    rw [isDirect_of_mem isRelevant] at notDirect
    cases notDirect
  rw [splits] at isRetrieved retrieved
  rcases List.mem_append.mp isRetrieved with isSeed | isAdded
  · exact absurd (List.mem_of_mem_take isSeed) notRelevant
  · rcases fromSeeds candidate isAdded with isRelevant | ⟨source, sourceMem, shares⟩
    · exact absurd isRelevant notRelevant
    · have isRelevant := List.mem_of_mem_take (List.mem_of_mem_take sourceMem)
      have isFirst := mem_directFacts retrieved (fun _ seedMem => List.mem_of_mem_take seedMem)
        sourceMem
      exact ⟨_, isFirst, source, (mem_relevantFacts isRelevant).1, rfl, shares⟩

/-- At every limit, and whatever orders the database returns rows in: a turn is given at most as
many memories as the limit says, none twice, only those of its user that may be read, and facts
that are relevant or reached from the first three that are. -/
theorem wellRetrieved_retrieveMemoryContext (unicode : Unicode) (ranking : Ranking)
    (format : FactFormat) (userId : Uuid) (now : Instant) (limit candidateLimit : Nat)
    (store : MemoryStore)
    (factsKeyed : Table.UniqueOn (fun fact => some fact.id) store.facts)
    (episodesKeyed : Table.UniqueOn (fun episode => some episode.id) store.episodes) :
    WellRetrieved unicode ranking userId now limit store
      (retrieveMemoryContext unicode ranking format userId now limit candidateLimit store) := by
  by_cases isZero : limit = 0
  · have nothing : retrieveMemoryContext unicode ranking format userId now limit candidateLimit
        store = ⟨[], [], []⟩ := if_pos isZero
    rw [nothing]
    exact ⟨Nat.zero_le _, rfl, List.nodup_nil, List.nodup_nil, List.forall_mem_nil _,
      List.forall_mem_nil _⟩
  · let candidates := store.candidates userId now
    let relevant := relevantFacts ranking candidates limit candidateLimit
    let selected := retrieveFacts unicode ranking candidates limit candidateLimit
    let read := retrieveEpisodes ranking (store.retrievableEpisodes userId)
      (min 3 (limit - selected.length)) candidateLimit
    let context : MemoryContext := {
      facts := selected.map fun candidate => format.formatFact candidate.fact
      episodes := read.map (·.summary)
      retrieved := selected.map (factItem format relevant) ++ read.map episodeItem }
    have context_eq : retrieveMemoryContext unicode ranking format userId now limit candidateLimit
        store = context := if_neg isZero
    have retrieved : context.retrieved =
        selected.map (factItem format relevant) ++ read.map episodeItem := rfl
    rw [context_eq]
    exact {
      bounded := by
        have facts : selected.length ≤ limit := length_retrieveFacts_le
        have episodes : read.length ≤ min 3 (limit - selected.length) := by
          rw [show read = List.take _ _ from rfl, List.length_take]
          exact Nat.min_le_left _ _
        simp only [context, List.length_map]
        omega
      listed := by
        simp only [context, List.length_append, List.length_map]
      factsOnce := by
        rw [idsOf_fact retrieved]
        exact nodup_retrieveFacts (nodup_relevantFacts factsKeyed)
      episodesOnce := by
        rw [idsOf_episode retrieved]
        exact nodup_retrieveEpisodes episodesKeyed
      facts := by
        intro item itemMem isFact
        rcases List.mem_append.mp itemMem with itemMem | itemMem
        · rcases List.mem_map.mp itemMem with ⟨candidate, isSelected, rfl⟩
          rcases mem_candidates (mem_retrieveFacts isSelected) with ⟨stored, ofUser, isRelevant⟩
          refine ⟨candidate.fact, stored, rfl, ofUser, isRelevant, ?_, ?_⟩
          · intro notGraph
            apply passes_of_isDirect factsKeyed (mem_retrieveFacts isSelected)
            rw [ne_eq, factItem_isGraph, Bool.not_eq_false] at notGraph
            exact notGraph
          · intro isGraph
            exact reached_of_mem retrieved isSelected (factItem_isGraph.mp isGraph)
        · rcases List.mem_map.mp itemMem with ⟨episode, _, rfl⟩
          cases isFact
      episodes := by
        intro item itemMem isEpisode
        rcases List.mem_append.mp itemMem with itemMem | itemMem
        · rcases List.mem_map.mp itemMem with ⟨candidate, _, rfl⟩
          cases isEpisode
        · rcases List.mem_map.mp itemMem with ⟨episode, isRead, rfl⟩
          rcases List.mem_filter.mp (mem_retrieveEpisodes isRead) with ⟨stored, isReadable⟩
          rw [Bool.and_eq_true, decide_eq_true_eq] at isReadable
          exact ⟨episode, stored, rfl, isReadable⟩ }

end Context

/-! ## A friend in London -/

/-- A fact of the user 7 between two entities. -/
def friendFact (id subject object : Uuid) (statement : String) : MemoryFact where
  id := id
  userId := 7
  subjectEntityId := subject
  predicate := "knows"
  objectEntityId := some object
  objectValue := none
  statement := statement
  kind := .relationship
  confidence := 1
  importance := 3
  sensitivity := .normal
  status := .active
  validFrom := 0
  validUntil := none
  supersededByFactId := none
  embedding := none
  sourceBasis := .userStated

/-- The user knows Maya, who lives in London. -/
def friendStore : MemoryStore where
  episodes := []
  entities := [⟨1, 7, "person", "user", "user", []⟩, ⟨2, 7, "person", "Maya", "maya", []⟩,
    ⟨3, 7, "place", "London", "london", []⟩]
  facts := [friendFact 10 1 2 "The user knows Maya", friendFact 11 2 3 "Maya lives in London"]
  evidence := []
  nextId := 20

/-- The query is about Maya as a friend. -/
def friendRanking : Ranking where
  recentFacts := fun _ _ => true
  nearestFacts := none
  matchingFacts := none
  importantFacts := fun _ _ => true
  factScore := fun _ => 0
  passesRelevanceFloor := fun fact => fact.id = 10
  recentEpisodes := fun _ _ => true
  nearestEpisodes := none
  episodeScore := fun _ => 0
  passesEpisodeRelevanceFloor := fun _ => false

/-- London is reached through Maya. -/
theorem friend_wellRetrieved :
    let context := retrieveMemoryContext Unicode.ascii friendRanking ⟨fun _ => "", fun _ => 0⟩ 7 0 4
      100 friendStore
    (context.retrieved.map fun item => (item.memoryId, item.retrievalReason)) =
        [(10, .direct), (11, .graph)] ∧
      WellRetrieved Unicode.ascii friendRanking 7 0 4 friendStore context :=
  ⟨by decide, wellRetrieved_retrieveMemoryContext _ _ _ _ _ _ _ _ (by decide) (by decide)⟩

end DotBackend.Memory
