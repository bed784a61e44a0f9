import DotBackend.Memory.Resolution

/-!
# What an operation achieves

An operation that adds or supersedes a fact stops early when an active fact already says the
same, whatever the validity of that fact and whatever the operation was to retire. When this
does harm is stated exactly.
-/

namespace DotBackend.Memory

open Data

/-! ## What stays -/

section Stays

variable {unicode : Unicode} {store after : MemoryStore} {userId : Uuid}
  {operation : MemoryOperation}

theorem asserts_of_entities (same : after.entities = store.entities) :
    after.asserts unicode userId operation = store.asserts unicode userId operation := by
  have identities : after.identities = store.identities := by
    rw [MemoryStore.identities, same, MemoryStore.identities]
  have ids : ∀ key, after.entityId key = store.entityId key := by
    intro key
    rw [MemoryStore.entityId, identities, MemoryStore.entityId]
  funext fact
  unfold MemoryStore.asserts
  cases objectKey? unicode userId operation with
  | none =>
      rw [ids]
      rfl
  | some key =>
      unfold MemoryStore.sameObject
      dsimp only
      rw [ids, ids]

theorem facts_addEvidence (store : MemoryStore) (factId episodeId sourceId : Uuid)
    (basis : SourceBasis) : (addEvidence store factId episodeId sourceId basis).facts =
      store.facts := by
  unfold addEvidence
  split <;> rfl

theorem entities_addEvidence (store : MemoryStore) (factId episodeId sourceId : Uuid)
    (basis : SourceBasis) : (addEvidence store factId episodeId sourceId basis).entities =
      store.entities := by
  unfold addEvidence
  split <;> rfl

theorem entities_replace (store : MemoryStore) (existing : Option MemoryFact) (newId : Uuid)
    (occurredAt : Instant) :
    (store.replace existing operation newId occurredAt).entities = store.entities := by
  unfold MemoryStore.replace
  split
  · split <;> rfl
  · rfl

end Stays

/-- The keys of the facts: identifiers are unique, and those of new rows are new. -/
structure MemoryStore.Keyed (store : MemoryStore) : Prop where
  unique : Table.UniqueOn (fun fact => some fact.id) store.facts
  known : ∀ fact ∈ store.facts, fact.id < store.nextId
  subjects : ∀ fact ∈ store.facts, fact.subjectEntityId < store.nextId
  objects : ∀ fact ∈ store.facts, ∀ id, fact.objectEntityId = some id → id < store.nextId

theorem findExisting_eq_some {store : MemoryStore} {userId : Uuid} {now : Instant}
    {operation : MemoryOperation} {fact : MemoryFact}
    (found : store.findExisting userId now operation = some fact) :
    fact ∈ store.facts ∧ fact.userId = userId := by
  rcases Option.bind_eq_some_iff.mp found with ⟨_, _, find_eq⟩
  have isFound := List.find?_some find_eq
  exact ⟨List.mem_of_find?_eq_some find_eq, (of_decide_eq_true isFound).2.1⟩

/-- No active fact says what the operation says. -/
def MemoryStore.Unsaid (unicode : Unicode) (store : MemoryStore) (userId : Uuid)
    (operation : MemoryOperation) : Prop :=
  ∀ fact ∈ store.facts, fact.status = .active →
    store.asserts unicode userId operation fact = false

section Outcomes

variable {unicode : Unicode} {store resolved : MemoryStore} {userId : Uuid}
  {operation : MemoryOperation} {subject : Uuid} {object : Option Uuid}

theorem asserts_resolved (keyed : store.Keyed) (extends_ : Extends store resolved)
    {fact : MemoryFact} (stored : fact ∈ store.facts) :
    resolved.asserts unicode userId operation fact = store.asserts unicode userId operation fact :=
  extends_.asserts_eq (keyed.subjects fact stored) (keyed.objects fact stored)

/-- A duplicate is found exactly when it was said before. -/
theorem findDuplicate_eq_none_iff (keyed : store.Keyed) (extends_ : Extends store resolved)
    (means : Means unicode resolved userId operation subject object) :
    resolved.findDuplicate userId subject object operation = none ↔
      store.Unsaid unicode userId operation := by
  rw [means.findDuplicate_eq, List.find?_eq_none, extends_.facts]
  constructor
  · intro none fact stored isActive
    have missing := none fact stored
    rw [asserts_resolved keyed extends_ stored] at missing
    simpa [isActive] using missing
  · intro unsaid fact stored
    rw [asserts_resolved keyed extends_ stored]
    by_cases isActive : fact.status = .active
    · simp [unsaid fact stored isActive]
    · simp [isActive]

/-- Strengthening a fact and giving it evidence changes nothing that is asked about facts. -/
theorem exists_repeated_iff (extends_ : Extends store resolved) (episode : Episode)
    (target : MemoryFact) (sourceId : Uuid) {about : MemoryFact → Prop}
    (keeps : ∀ fact, about (fact.strengthen operation) ↔ about fact) :
    (∃ fact ∈ (resolved.withRepetition episode target operation sourceId).facts, about fact) ↔
      ∃ fact ∈ store.facts, about fact := by
  rw [MemoryStore.withRepetition, facts_addEvidence, ← extends_.facts]
  constructor
  · rintro ⟨fact, factMem, holds⟩
    rcases Table.mem_update_cases factMem with ⟨old, oldMem, _, rfl⟩ | ⟨oldMem, _⟩
    · exact ⟨old, oldMem, (keeps old).mp holds⟩
    · exact ⟨fact, oldMem, holds⟩
  · rintro ⟨fact, stored, holds⟩
    by_cases isTarget : fact.id = target.id
    · refine ⟨fact.strengthen operation, ?_, (keeps fact).mpr holds⟩
      exact Table.mem_update.mpr ⟨fact, stored, by simp [isTarget]⟩
    · exact ⟨fact, Table.mem_update.mpr ⟨fact, stored, by simp [isTarget]⟩, holds⟩

theorem asserts_withRepetition (episode : Episode) (target : MemoryFact) (sourceId : Uuid) :
    (resolved.withRepetition episode target operation sourceId).asserts unicode userId operation =
      resolved.asserts unicode userId operation :=
  (asserts_of_entities (entities_addEvidence _ _ _ _ _)).trans (asserts_of_entities rfl)

theorem asserts_strengthen (store : MemoryStore) (fact : MemoryFact) :
    store.asserts unicode userId operation (fact.strengthen operation) =
      store.asserts unicode userId operation fact := by
  unfold MemoryStore.asserts
  cases objectKey? unicode userId operation <;> rfl

theorem asserts_withFact (episode : Episode) (embedding : Option Embedding)
    (existing : Option MemoryFact) :
    (resolved.withFact episode embedding existing operation subject object).asserts unicode userId
      operation = resolved.asserts unicode userId operation := by
  apply asserts_of_entities
  rw [MemoryStore.withFact, entities_addEvidence, entities_replace]
  rfl

/-- The new fact is among the facts, as it was made. -/
theorem newFact_mem_withFact (episode : Episode) (embedding : Option Embedding)
    {existing : Option MemoryFact} (older : ∀ fact, existing = some fact → fact.id < resolved.nextId) :
    newFact resolved.nextId episode.job.userId subject object episode.job.triggerCreatedAt embedding
      operation ∈ (resolved.withFact episode embedding existing operation subject object).facts := by
  rw [MemoryStore.withFact, facts_addEvidence]
  have appended := List.mem_append_right resolved.facts (List.mem_singleton_self
    (newFact resolved.nextId episode.job.userId subject object episode.job.triggerCreatedAt
      embedding operation))
  unfold MemoryStore.replace
  split
  · rename_i old
    split
    · apply Table.mem_update.mpr
      refine ⟨_, appended, ?_⟩
      rw [if_neg]
      simpa [newFact] using Nat.ne_of_gt (older old rfl)
    · exact appended
  · exact appended

end Outcomes

/-! ## Supersession -/

/-- When a superseded fact ends: at the start of what replaces it, or with the message. -/
def supersessionStart (operation : MemoryOperation) (occurredAt : Instant) : Instant :=
  (operation.validFrom.filter fun from_ => occurredAt < from_).getD occurredAt

/-- A fact is retired by an active fact that says what the operation says. -/
def Superseded (unicode : Unicode) (episode : Episode) (operation : MemoryOperation) (id : Uuid)
    (store : MemoryStore) : Prop :=
  ∃ fact ∈ store.facts, fact.id = id ∧ fact.status ≠ .active ∧
    fact.validUntil = some (supersessionStart operation episode.job.triggerCreatedAt) ∧
      ∃ successor ∈ store.facts, fact.supersededByFactId = some successor.id ∧
        successor.status = .active ∧
          store.asserts unicode episode.job.userId operation successor = true

section Supersession

variable {unicode : Unicode} {episode : Episode} {embedding : Option Embedding} {now : Instant}
  {store resolved : MemoryStore} {operation : MemoryOperation} {subject : Uuid}
  {object : Option Uuid}

/-- A new fact retires the fact that the operation names. -/
theorem superseded_withFact {fact : MemoryFact} (keyed : store.Keyed)
    (supersedes : operation.action = .supersede) (stored : fact ∈ store.facts)
    (extends_ : Extends store resolved)
    (means : Means unicode resolved episode.job.userId operation subject object) :
    Superseded unicode episode operation fact.id
      (resolved.withFact episode embedding (some fact) operation subject object) := by
  have older : fact.id < resolved.nextId := lt_of_lt_of_le (keyed.known fact stored) extends_.supply
  rw [← extends_.facts] at stored
  refine ⟨fact.supersededBy resolved.nextId episode.job.triggerCreatedAt operation, ?_, rfl, nofun,
    rfl, newFact resolved.nextId episode.job.userId subject object episode.job.triggerCreatedAt
      embedding operation, ?_, rfl, rfl, ?_⟩
  · rw [MemoryStore.withFact, facts_addEvidence, MemoryStore.replace, if_pos supersedes]
    exact Table.mem_update.mpr ⟨fact, List.mem_append_left _ stored, by simp⟩
  · apply newFact_mem_withFact
    rintro _ ⟨⟩
    exact older
  · rw [asserts_withFact]
    exact means.asserts_newFact _ _ _

/-- A fact that is stated again retires nothing. -/
theorem superseded_withRepetition_iff (keyed : store.Keyed) (extends_ : Extends store resolved)
    (target : MemoryFact) (sourceId id : Uuid) :
    Superseded unicode episode operation id
        (resolved.withRepetition episode target operation sourceId) ↔
      Superseded unicode episode operation id store := by
  unfold Superseded
  rw [asserts_withRepetition]
  have successors : ∀ pointer : Option Uuid,
      (∃ successor ∈ (resolved.withRepetition episode target operation sourceId).facts,
        pointer = some successor.id ∧ successor.status = .active ∧
          resolved.asserts unicode episode.job.userId operation successor = true) ↔
      ∃ successor ∈ store.facts, pointer = some successor.id ∧ successor.status = .active ∧
        store.asserts unicode episode.job.userId operation successor = true := by
    intro pointer
    rw [exists_repeated_iff extends_]
    · apply exists_congr
      intro successor
      apply and_congr_right
      intro stored
      rw [asserts_resolved keyed extends_ stored]
    · intro fact
      rw [asserts_strengthen]
      rfl
  rw [exists_repeated_iff extends_]
  · simp only [successors]
  · intro fact
    exact Iff.rfl

end Supersession

/-- A supersession takes effect exactly when nothing active says already what is new, or when
the fact had been retired in that way before. -/
theorem supersession_takes_effect_iff (unicode : Unicode) (episode : Episode)
    (embedding : Option Embedding) (now : Instant) (store : MemoryStore)
    (operation : MemoryOperation) (fact : MemoryFact) (keyed : store.Keyed)
    (supersedes : operation.action = .supersede)
    (found : store.findExisting episode.job.userId now operation = some fact) :
    Superseded unicode episode operation fact.id
        (applyOperation unicode episode embedding now store operation) ↔
      store.Unsaid unicode episode.job.userId operation ∨
        Superseded unicode episode operation fact.id store := by
  have stored := (findExisting_eq_some found).1
  have applied := applied_applyOperation unicode episode embedding now store operation
  generalize applyOperation unicode episode embedding now store operation = after at applied ⊢
  cases applied with
  | ignored reinforces _ => cases supersedes.symm.trans reinforces
  | reinforced reinforces _ => cases supersedes.symm.trans reinforces
  | repeated _ extends_ _ means duplicate =>
      rw [superseded_withRepetition_iff keyed extends_, or_iff_right]
      intro unsaid
      rw [(findDuplicate_eq_none_iff keyed extends_ means).mpr unsaid] at duplicate
      cases duplicate
  | inserted _ extends_ _ means missing =>
      rw [found]
      apply iff_of_true
      · exact superseded_withFact keyed supersedes stored extends_ means
      · exact Or.inl ((findDuplicate_eq_none_iff keyed extends_ means).mp missing)

/-! ### A move -/

/-- A turn of user 7 at the given time. -/
def turnAt (time : Instant) : Episode where
  job := {
    jobId := 20, userId := 7, conversationId := 21, triggerId := 22
    triggerContent := "I moved", triggerCreatedAt := time, lastResponseId := 23
    hasVerifiedToolResults := false }
  episodeId := 24

/-- The user says in which city she lives, perhaps until some time. -/
def livesIn (action : MemoryAction) (existingFactId : Option Uuid) (city : String)
    (validUntil : Option Instant) : MemoryOperation where
  action := action
  existingFactId := existingFactId
  kind := .biographical
  subjectName := "Ada"
  subjectType := "person"
  predicate := "lives_in"
  objectIsEntity := false
  objectName := none
  objectType := none
  objectValue := some city
  statement := "Ada lives in " ++ city
  confidence := 1
  importance := 3
  sensitivity := .normal
  validFrom := none
  validUntil := validUntil
  sourceBasis := .userStated

/-- The store after operations at time 0. -/
def storeAfter (operations : List MemoryOperation) : MemoryStore :=
  applyOperations Unicode.ascii (turnAt 0) [] (fun _ => 0) 0 ⟨[], [], [], [], 30⟩ operations

theorem MemoryStore.Keyed.of_values {store : MemoryStore}
    (unique : Table.UniqueOn (fun fact => some fact.id) store.facts)
    (known : ∀ fact ∈ store.facts,
      fact.id < store.nextId ∧ fact.subjectEntityId < store.nextId ∧ fact.objectEntityId = none) :
    store.Keyed where
  unique := unique
  known := fun fact stored => (known fact stored).1
  subjects := fun fact stored => (known fact stored).2.1
  objects := by
    intro fact stored id object_eq
    rw [(known fact stored).2.2] at object_eq
    cases object_eq

/-- Ada moves from Paris to Rome. -/
theorem supersession_takes_effect_move :
    Superseded Unicode.ascii (turnAt 5) (livesIn .supersede (some 31) "Rome" none) 31
      (applyOperation Unicode.ascii (turnAt 5) none 6 (storeAfter [livesIn .add none "Paris" none])
        (livesIn .supersede (some 31) "Rome" none)) := by
  have found : ((storeAfter [livesIn .add none "Paris" none]).findExisting 7 6
      (livesIn .supersede (some 31) "Rome" none)).any (fun fact => fact.id = 31) = true := by
    decide
  rw [Option.any_eq_true] at found
  rcases found with ⟨fact, found, isPlace⟩
  have unsaid : (storeAfter [livesIn .add none "Paris" none]).Unsaid Unicode.ascii 7
      (livesIn .supersede (some 31) "Rome" none) := by
    unfold MemoryStore.Unsaid
    decide
  have effect := (supersession_takes_effect_iff Unicode.ascii (turnAt 5) none 6 _ _ fact
    (MemoryStore.Keyed.of_values (by decide) (by decide)) rfl found).mpr
      (Or.inl unsaid)
  rw [of_decide_eq_true isPlace] at effect
  exact effect

/-- Ada lives in Paris and in Rome; when she moves to Rome, Paris stays. -/
theorem supersession_to_known_city_ignored :
    ((storeAfter [livesIn .add none "Paris" none, livesIn .add none "Rome" none]).findExisting 7 6
      (livesIn .supersede (some 31) "Rome" none)).any (fun fact => fact.id = 31 ∧
        (storeAfter [livesIn .add none "Paris" none, livesIn .add none "Rome" none]).asserts
          Unicode.ascii 7 (livesIn .supersede (some 31) "Rome" none) fact = false) = true ∧
      ¬ Superseded Unicode.ascii (turnAt 5) (livesIn .supersede (some 31) "Rome" none) 31
        (applyOperation Unicode.ascii (turnAt 5) none 6
          (storeAfter [livesIn .add none "Paris" none, livesIn .add none "Rome" none])
          (livesIn .supersede (some 31) "Rome" none)) := by
  constructor
  · decide
  · rintro ⟨fact, stored, isParis, notActive, _⟩
    have staysActive : ∀ fact ∈ (applyOperation Unicode.ascii (turnAt 5) none 6
        (storeAfter [livesIn .add none "Paris" none, livesIn .add none "Rome" none])
        (livesIn .supersede (some 31) "Rome" none)).facts,
        fact.id = 31 → fact.status = .active := by
      decide
    exact notActive (staysActive fact stored isParis)

/-! ## Retrieval -/

/-- A fact is relevant from now on until the limit, or for ever without one. -/
def MemoryFact.staysRelevant (fact : MemoryFact) (now : Instant) (limit : Option Instant) : Prop :=
  ∀ at_, now ≤ at_ → limit.all (at_ < ·) = true → isRelevantFact at_ fact = true

/-- A fact is open, or ends after now and not before the limit. -/
def MemoryFact.covers (fact : MemoryFact) (now : Instant) (limit : Option Instant) : Prop :=
  (fact.status = .active ∨ fact.status = .superseded ∧ fact.validUntil ≠ none) ∧
    ∀ end_, fact.validUntil = some end_ → now < end_ ∧ ∃ last, limit = some last ∧ last ≤ end_

/-- Some fact that says what the operation says stays relevant as long as the operation is
valid. -/
def Retrievable (unicode : Unicode) (userId : Uuid) (now : Instant) (operation : MemoryOperation)
    (store : MemoryStore) : Prop :=
  ∃ fact ∈ store.facts, store.asserts unicode userId operation fact = true ∧
    fact.staysRelevant now operation.validUntil

section Retrieval

variable {now : Instant} {limit : Option Instant} {fact : MemoryFact}

theorem staysRelevant_iff_covers (current : limit.all (now < ·) = true) :
    fact.staysRelevant now limit ↔ fact.covers now limit := by
  constructor
  · intro stays
    have relevantNow := stays now (le_refl now) current
    simp only [isRelevantFact, Bool.and_eq_true, Bool.or_eq_true, decide_eq_true_eq] at relevantNow
    rcases relevantNow with ⟨status, inTime⟩
    constructor
    · rcases status with isActive | ⟨isSuperseded, ends⟩
      · exact Or.inl isActive
      · refine Or.inr ⟨isSuperseded, ?_⟩
        rintro open_
        rw [open_] at ends
        cases ends
    · intro end_ end_eq
      rw [end_eq, Option.all_some, decide_eq_true_eq] at inTime
      by_contra ends
      have within : limit.all (max now end_ < ·) = true := by
        cases limit with
        | none => rfl
        | some last =>
            rw [Option.all_some, decide_eq_true_eq] at current ⊢
            apply max_lt current
            by_contra notLast
            exact ends ⟨inTime, last, rfl, not_lt.mp notLast⟩
      have later := stays (max now end_) (le_max_left _ _) within
      rw [isRelevantFact, Bool.and_eq_true, end_eq, Option.all_some, decide_eq_true_eq] at later
      exact absurd later.2 (not_lt.mpr (le_max_right _ _))
  · rintro ⟨status, ends⟩ at_ nowLe within
    have inTime : fact.validUntil.all (at_ < ·) = true := by
      cases end_eq : fact.validUntil with
      | none => rfl
      | some end_ =>
          rcases ends end_ end_eq with ⟨_, last, rfl, lastLe⟩
          rw [Option.all_some, decide_eq_true_eq] at within ⊢
          exact lt_of_lt_of_le within lastLe
    rw [isRelevantFact, inTime, Bool.and_true]
    rcases status with isActive | ⟨isSuperseded, closed⟩
    · simp [isActive]
    · rcases Option.ne_none_iff_exists'.mp closed with ⟨end_, end_eq⟩
      rw [end_eq, Option.all_some] at inTime
      simp [isSuperseded, end_eq, inTime]

variable {unicode : Unicode} {episode : Episode} {embedding : Option Embedding}
  {store resolved : MemoryStore} {operation : MemoryOperation} {subject : Uuid}
  {object : Option Uuid}

/-- A new fact is valid as long as the operation. -/
theorem retrievable_withFact (keyed : store.Keyed) (extends_ : Extends store resolved)
    (means : Means unicode resolved episode.job.userId operation subject object)
    {existing : Option MemoryFact} (stored : ∀ fact, existing = some fact → fact ∈ store.facts) :
    Retrievable unicode episode.job.userId now operation
      (resolved.withFact episode embedding existing operation subject object) := by
  refine ⟨newFact resolved.nextId episode.job.userId subject object episode.job.triggerCreatedAt
    embedding operation, ?_, ?_, ?_⟩
  · apply newFact_mem_withFact
    intro fact isExisting
    exact lt_of_lt_of_le (keyed.known fact (stored fact isExisting)) extends_.supply
  · rw [asserts_withFact]
    exact means.asserts_newFact _ _ _
  · intro at_ _ within
    simpa [isRelevantFact, newFact] using within

/-- A fact that is stated again stays relevant as long as before. -/
theorem retrievable_withRepetition_iff (keyed : store.Keyed) (extends_ : Extends store resolved)
    (target : MemoryFact) (sourceId userId : Uuid) :
    Retrievable unicode userId now operation
        (resolved.withRepetition episode target operation sourceId) ↔
      Retrievable unicode userId now operation store := by
  unfold Retrievable
  rw [asserts_withRepetition, exists_repeated_iff extends_]
  · apply exists_congr
    intro fact
    apply and_congr_right
    intro stored
    rw [asserts_resolved keyed extends_ stored]
  · intro fact
    rw [asserts_strengthen]
    exact Iff.rfl

end Retrieval

/-- What is added can be retrieved exactly when nothing active says it already, or when some
fact that says it is open or ends late enough. -/
theorem added_memory_retrievable_iff (unicode : Unicode) (episode : Episode)
    (embedding : Option Embedding) (now : Instant) (store : MemoryStore)
    (operation : MemoryOperation) (keyed : store.Keyed) (adds : operation.action ≠ .reinforce)
    (current : operation.validUntil.all (now < ·) = true) :
    Retrievable unicode episode.job.userId now operation
        (applyOperation unicode episode embedding now store operation) ↔
      store.Unsaid unicode episode.job.userId operation ∨
        ∃ fact ∈ store.facts, store.asserts unicode episode.job.userId operation fact = true ∧
          fact.covers now operation.validUntil := by
  have before : Retrievable unicode episode.job.userId now operation store ↔
      ∃ fact ∈ store.facts, store.asserts unicode episode.job.userId operation fact = true ∧
        fact.covers now operation.validUntil := by
    simp only [Retrievable, staysRelevant_iff_covers current]
  rw [← before]
  have applied := applied_applyOperation unicode episode embedding now store operation
  generalize applyOperation unicode episode embedding now store operation = after at applied ⊢
  cases applied with
  | ignored reinforces _ => exact absurd reinforces adds
  | reinforced reinforces _ => exact absurd reinforces adds
  | repeated _ extends_ _ means duplicate =>
      rw [retrievable_withRepetition_iff keyed extends_, or_iff_right]
      intro unsaid
      rw [(findDuplicate_eq_none_iff keyed extends_ means).mpr unsaid] at duplicate
      cases duplicate
  | inserted _ extends_ _ means missing =>
      apply iff_of_true
      · exact retrievable_withFact keyed extends_ means fun _ found => (findExisting_eq_some found).1
      · exact Or.inl ((findDuplicate_eq_none_iff keyed extends_ means).mp missing)

/-- Ada lives in Paris; that she lives in Rome says something else. -/
theorem added_memory_retrievable_first :
    Retrievable Unicode.ascii 7 6 (livesIn .add none "Paris" none)
      (applyOperation Unicode.ascii (turnAt 5) none 6 (storeAfter [livesIn .add none "Rome" none])
        (livesIn .add none "Paris" none)) := by
  apply (added_memory_retrievable_iff Unicode.ascii (turnAt 5) none 6 _ _
    (MemoryStore.Keyed.of_values (by decide) (by decide)) (by decide) rfl).mpr
  apply Or.inl
  unfold MemoryStore.Unsaid
  decide

/-- Ada lives in Paris again, but the fact that she lived there until time 3 is active. -/
theorem added_memory_lost_in_ended_fact :
    ¬ Retrievable Unicode.ascii 7 6 (livesIn .add none "Paris" none)
      (applyOperation Unicode.ascii (turnAt 5) none 6
        (storeAfter [livesIn .add none "Paris" (some 3)]) (livesIn .add none "Paris" none)) := by
  rintro ⟨fact, stored, _, stays⟩
  have ended : ∀ fact ∈ (applyOperation Unicode.ascii (turnAt 5) none 6
      (storeAfter [livesIn .add none "Paris" (some 3)]) (livesIn .add none "Paris" none)).facts,
      isRelevantFact 6 fact = false := by
    decide
  have relevantNow := stays 6 (le_refl 6) rfl
  rw [ended fact stored] at relevantNow
  cases relevantNow

end DotBackend.Memory
