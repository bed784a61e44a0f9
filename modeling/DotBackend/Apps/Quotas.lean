import Mathlib.Algebra.Order.BigOperators.Group.List
import Mathlib.Algebra.Order.Group.Nat
import DotBackend.Apps.MutationIsolation

/-!
# Quotas of records

An app has a limited number of records and a limited size of their data. Both limits are
checked before a write, under the lock of the app; the seeds of a first deployment are not
counted against the number of records, but are few.
-/

namespace DotBackend.Apps

open Data Transition

variable {data : Fields} {userId recordId : Uuid} {expectedVersion : Int} {manifest : Json}

variable {platform : Platform} {unicode : Unicode} {db middle after : AppsDb} {appId : Uuid}
  {now : Instant}

/-! ## Records -/

/-- The sum of `data_bytes`. -/
def AppsDb.usedBytes (db : AppsDb) (appId : Uuid) : Nat :=
  ((db.recordsOf appId).map (·.dataBytes)).sum

/-- Some records were added to an app, within the limit on their size. -/
structure Grows (appId : Uuid) (added : Nat) (before after : AppsDb) : Prop where
  count : (after.recordsOf appId).length ≤ (before.recordsOf appId).length + added
  bytes : before.usedBytes appId ≤ 10000000 → after.usedBytes appId ≤ 10000000
  others : ∀ other, other ≠ appId → after.recordsOf other = before.recordsOf other

theorem Grows.of_eq (records : after.records = db.records) : Grows appId 0 db after where
  count := by rw [AppsDb.recordsOf, AppsDb.recordsOf, records, Nat.add_zero]
  bytes within := by
    rw [AppsDb.usedBytes, AppsDb.recordsOf, records]
    exact within
  others other _ := by rw [AppsDb.recordsOf, AppsDb.recordsOf, records]

theorem Grows.trans {first second : Nat} (grows : Grows appId first db middle)
    (next : Grows appId second middle after) : Grows appId (first + second) db after where
  count := by
    have before := grows.count
    have later := next.count
    omega
  bytes within := next.bytes (grows.bytes within)
  others other different := (next.others other different).trans (grows.others other different)

theorem Grows.mono {few many : Nat} (grows : Grows appId few db after) (few_le : few ≤ many) :
    Grows appId many db after where
  count := grows.count.trans (Nat.add_le_add_left few_le _)
  bytes := grows.bytes
  others := grows.others

theorem enforceAppStorageLimit_eq_ok {addedBytes : Nat}
    (allowed : enforceAppStorageLimit db appId addedBytes = .ok ()) :
    addedBytes = 0 ∨ db.usedBytes appId + addedBytes ≤ 10000000 := by
  rw [enforceAppStorageLimit, require_eq_ok, Bool.or_eq_true, decide_eq_true_eq,
    decide_eq_true_eq] at allowed
  exact allowed

theorem recordsOf_insertRecord (record : GeneratedAppDataRecord) :
    (insertRecord record db).recordsOf appId =
      db.recordsOf appId ++ if record.appId = appId then [record] else [] := by
  simp only [AppsDb.recordsOf, insertRecord, List.filter_append, List.filter_cons,
    List.filter_nil, decide_eq_true_eq]

theorem grows_insertRecord {name : String} {userId : Option Uuid}
    (allowed : enforceAppStorageLimit db appId (jsonBytes (.obj data)) = .ok ()) :
    Grows appId 1 db (insertRecord (newRecord db appId name data userId now) db) := by
  have own : (insertRecord (newRecord db appId name data userId now) db).recordsOf appId =
      db.recordsOf appId ++ [newRecord db appId name data userId now] := by
    rw [recordsOf_insertRecord]
    simp [newRecord]
  constructor
  · rw [own, List.length_append, List.length_singleton]
  · intro within
    have added : (newRecord db appId name data userId now).dataBytes = jsonBytes (.obj data) := rfl
    rw [AppsDb.usedBytes, own, List.map_append, List.sum_append, List.map_singleton,
      List.sum_singleton, added]
    change db.usedBytes appId + _ ≤ _
    rcases enforceAppStorageLimit_eq_ok allowed with nothing | fits
    · rw [nothing]
      exact within
    · exact fits
  · intro other different
    rw [recordsOf_insertRecord, if_neg, List.append_nil]
    exact fun same => different same.symm

/-! ## Changing and removing a record -/

/-- An update of one row moves the sum by the weight of that row. -/
theorem sum_map_update_one {rows : List GeneratedAppDataRecord} {row : GeneratedAppDataRecord}
    {condition : GeneratedAppDataRecord → Bool}
    {change : GeneratedAppDataRecord → GeneratedAppDataRecord}
    (weight : GeneratedAppDataRecord → Nat) (unique : Table.UniqueOn (fun row => some row.id) rows)
    (rowMem : row ∈ rows) (selected : condition row = true)
    (selectsOne : ∀ other, condition other = true → other.id = row.id) :
    ((Table.update condition change rows).map weight).sum + weight row =
      (rows.map weight).sum + weight (change row) := by
  obtain ⟨front, back, rfl⟩ := List.append_of_mem rowMem
  obtain ⟨-, ofBack, apart⟩ := List.pairwise_append.mp (Table.uniqueOn_iff_pairwise.mp unique)
  have behind := (List.pairwise_cons.mp ofBack).1
  have frontKept : Table.update condition change front = front := by
    apply Table.update_eq_self
    intro other otherMem
    rw [← Bool.not_eq_true]
    intro isSelected
    apply apart other otherMem row List.mem_cons_self other.id rfl
    rw [selectsOne other isSelected]
  have backKept : Table.update condition change back = back := by
    apply Table.update_eq_self
    intro other otherMem
    rw [← Bool.not_eq_true]
    intro isSelected
    apply behind other otherMem row.id rfl
    rw [selectsOne other isSelected]
  have split : Table.update condition change (front ++ row :: back) =
      front ++ change row :: back := by
    calc
      Table.update condition change (front ++ row :: back) =
          Table.update condition change front ++
            (if condition row then change row else row) :: Table.update condition change back := by
        simp [Table.update]
      _ = front ++ change row :: back := by rw [frontKept, backKept, if_pos selected]
  rw [split]
  simp only [List.map_append, List.map_cons, List.sum_append, List.sum_cons]
  omega

theorem recordsOf_revised (recordId : Uuid) (expectedVersion : Int) (data : Fields)
    (userId : Option Uuid) (other : Uuid) :
    (reviseRecord appId recordId expectedVersion data userId now db).recordsOf other =
      Table.update
        (fun row => row.id == recordId && row.appId == appId && row.version == expectedVersion)
        (GeneratedAppDataRecord.revised data userId now) (db.recordsOf other) := by
  rw [AppsDb.recordsOf, AppsDb.recordsOf, reviseRecord, Table.update, Table.update,
    List.filter_map]
  congr 1
  apply List.filter_congr
  intro row _
  rw [Function.comp_apply]
  split
  · rfl
  · rfl

/-- The records after an update; the limit was checked on what the data grow by. -/
theorem reviseRecord_bytes {userId : Option Uuid} {current : GeneratedAppDataRecord}
    (keyed : db.RecordsKeyed)
    (found : db.record? appId recordId = some current)
    (isExpected : current.version = expectedVersion)
    (measured : measureUpdate db appId recordId data = .ok ())
    (within : db.usedBytes appId ≤ 10000000) :
    (reviseRecord appId recordId expectedVersion data userId now db).usedBytes appId ≤
      10000000 := by
  obtain ⟨currentMem, sameId, ofApp⟩ := record?_eq_some found
  have ownMem : current ∈ db.recordsOf appId := List.mem_filter.mpr ⟨currentMem, by simp [ofApp]⟩
  have moved : ((Table.update (fun row => row.id == recordId && row.appId == appId &&
        row.version == expectedVersion) (GeneratedAppDataRecord.revised data userId now)
        (db.recordsOf appId)).map (·.dataBytes)).sum + current.dataBytes =
      ((db.recordsOf appId).map (·.dataBytes)).sum + (current.revised data userId now).dataBytes := by
    apply sum_map_update_one (·.dataBytes) (keyed.unique.filter _) ownMem
    · simp [sameId, ofApp, isExpected]
    · intro other selected
      simp only [Bool.and_eq_true, beq_iff_eq] at selected
      rw [selected.1.1, sameId]
  rw [measureUpdate, found] at measured
  have revisedBytes : (current.revised data userId now).dataBytes = jsonBytes (.obj data) := rfl
  have limits := enforceAppStorageLimit_eq_ok measured
  rw [AppsDb.usedBytes, recordsOf_revised]
  rw [AppsDb.usedBytes] at within limits
  rw [revisedBytes] at moved
  unfold AppsDb.recordsOf at *
  omega

/-! ## Seeds -/

theorem grows_seedRecords {name : String}
    {candidates : List Json}
    (seeded : seedRecords unicode appId userId manifest name now db candidates = .ok after) :
    Grows appId candidates.length db after := by
  induction candidates generalizing db with
  | nil =>
      cases seeded
      exact Grows.of_eq rfl
  | cons candidate rest ih =>
      cases candidate with
      | obj raw =>
          simp only [seedRecords, bind_eq_ok] at seeded
          obtain ⟨clean, _, _, allowed, later⟩ := seeded
          have first : Grows appId 1 db
              (insertRecord (newRecord db appId name clean (some userId) now) db) :=
            grows_insertRecord allowed
          apply (first.trans (ih later)).mono
          rw [List.length_cons, Nat.add_comm]
      | null | bool | int | float | str | arr =>
          apply (ih seeded).mono
          exact Nat.le_succ _

theorem grows_seedEntities {seedData : Fields}
    {entities : List Json}
    (seeded : seedEntities unicode appId userId manifest seedData now db entities = .ok after) :
    Grows appId (200 * entities.length) db after := by
  induction entities generalizing db with
  | nil =>
      cases seeded
      exact Grows.of_eq rfl
  | cons definition rest ih =>
      simp only [seedEntities, bind_eq_ok] at seeded
      obtain ⟨name, _, middle, first, later⟩ := seeded
      have grows : Grows appId 200 db middle := by
        unfold seedEntity at first
        split at first
        · apply (grows_seedRecords first).mono
          rw [List.length_take]
          exact Nat.min_le_left _ _
        · cases first
          exact (Grows.of_eq rfl).mono (Nat.zero_le _)
      apply (grows.trans (ih later)).mono
      rw [List.length_cons]
      omega

/-- A manifest that is valid has at most 24 entities. -/
theorem validateManifest_entities {entities : List Json}
    (valid : validateManifest manifest = .ok ()) (isList : manifestEntities manifest = .arr entities) :
    entities.length ≤ 24 := by
  unfold validateManifest at valid
  split at valid
  · simp only [bind_eq_ok] at valid
    obtain ⟨_, _, _, _, _, _, valid⟩ := valid
    rw [isList] at valid
    simp only [bind_eq_ok, require_eq_ok, decide_eq_true_eq] at valid
    obtain ⟨_, few, _⟩ := valid
    exact few
  · cases valid

/-- The seeds of a revision are at most 200 for each of 24 entities. -/
theorem grows_seedCodeAppRecords {seedData : Fields}
    (seeded : seedCodeAppRecords unicode db appId userId manifest seedData now = .ok after) :
    Grows appId 4800 db after := by
  simp only [seedCodeAppRecords, bind_eq_ok] at seeded
  obtain ⟨_, valid, seeded⟩ := seeded
  split at seeded
  · rename_i entities isList
    apply (grows_seedEntities seeded).mono
    have few := validateManifest_entities valid isList
    omega
  · cases seeded
    exact (Grows.of_eq rfl).mono (Nat.zero_le _)

/-! ## Within the limits on records -/

structure RecordsWithin (db : AppsDb) : Prop where
  count : ∀ appId, (db.recordsOf appId).length ≤ 10000
  bytes : ∀ appId, db.usedBytes appId ≤ 10000000

namespace RecordsWithin

theorem of_eq (within : RecordsWithin db) (records : after.records = db.records) :
    RecordsWithin after where
  count appId := by
    rw [AppsDb.recordsOf, records]
    exact within.count appId
  bytes appId := by
    rw [AppsDb.usedBytes, AppsDb.recordsOf, records]
    exact within.bytes appId

theorem grows {added : Nat} (within : RecordsWithin db) (grows : Grows appId added db after)
    (room : (db.recordsOf appId).length + added ≤ 10000) : RecordsWithin after where
  count other := by
    by_cases isApp : other = appId
    · rw [isApp]
      exact grows.count.trans room
    · rw [grows.others other isApp]
      exact within.count other
  bytes other := by
    by_cases isApp : other = appId
    · rw [isApp]
      exact grows.bytes (within.bytes appId)
    · rw [AppsDb.usedBytes, grows.others other isApp]
      exact within.bytes other

theorem consumeSeeds {app : GeneratedApp} {revision : GeneratedAppRevision}
    {isFirstDeployment : Bool} (within : RecordsWithin db)
    (consumed : consumeSeeds unicode db app revision isFirstDeployment now = .ok after) :
    RecordsWithin after := by
  unfold Apps.consumeSeeds at consumed
  split at consumed
  · cases consumed
    exact within
  · split at consumed
    · rename_i isFirst
      simp only [bind_eq_ok, pure_eq_ok] at consumed
      obtain ⟨seeded, seeds, rfl⟩ := consumed
      have noRecords : db.recordsOf app.id = [] := by
        rw [AppsDb.recordsOf, List.filter_eq_nil_iff]
        simp only [Bool.and_eq_true, Bool.not_eq_true', List.any_eq_false] at isFirst
        exact isFirst.2
      have room : (db.recordsOf app.id).length + 4800 ≤ 10000 := by
        rw [noRecords]
        decide
      exact (within.grows (grows_seedCodeAppRecords seeds) room).of_eq rfl
    · cases consumed
      exact within.of_eq rfl

theorem promoteRevision {revisionId : Uuid} {expected : Option (Option Uuid)}
    (within : RecordsWithin db)
    (promoted : promoteRevision unicode db appId revisionId expected now = .ok after) :
    RecordsWithin after := by
  unfold Apps.promoteRevision at promoted
  split at promoted
  · cases promoted
  · simp only [bind_eq_ok] at promoted
    obtain ⟨_, _, _, _, promoted⟩ := promoted
    split at promoted
    · cases promoted
    · simp only [bind_eq_ok] at promoted
      obtain ⟨_, _, swapped, swaps, consumes⟩ := promoted
      obtain ⟨⟨deployments, rfl⟩, -⟩ := swapDeployment_eq_ok swaps
      apply RecordsWithin.consumeSeeds _ consumes
      exact within.of_eq rfl

theorem completeBuild {result : BuildResult} {token : String} (within : RecordsWithin db)
    (completed : completeBuild unicode db result token now = .ok after) : RecordsWithin after := by
  simp only [Apps.completeBuild, bind_eq_ok] at completed
  obtain ⟨job, _, _, _, finished⟩ := completed
  obtain ⟨app, revision, promoted, issued, _, made, _, promotes, issues, rfl⟩ :=
    finishBuild_eq_ok finished
  have settled := sameDeployments_settle
    ⟨app.userId, app.conversationId, .appBuildCompleted job.id, app.id⟩ _ issues
  have stored : RecordsWithin (insertRevision revision db) := within.of_eq rfl
  exact (stored.promoteRevision promotes).of_eq settled.records

theorem rollback {revisions : GeneratedAppRevision × GeneratedAppRevision}
    {keyed : Option Checked} {response : MutationResponse} (within : RecordsWithin db)
    (writes : writeRollback unicode appId userId revisions now keyed db = .ok (response, after)) :
    RecordsWithin after := by
  obtain ⟨promoted, _, _, _, promotes, _, _, _, _, rfl⟩ := writeRollback_eq_ok writes
  exact (within.promoteRevision promotes).of_eq rfl

theorem createRecord {name : String} {clean : Fields} {checked : Checked}
    (within : RecordsWithin db) (measured : measureCreate db appId clean = .ok ()) :
    RecordsWithin (writeCreate platform appId name clean now checked db).2 := by
  simp only [measureCreate, bind_eq_ok, require_eq_ok, decide_eq_true_eq] at measured
  obtain ⟨_, room, allowed⟩ := measured
  have inserted : RecordsWithin (insertRecord
      (newRecord db appId name clean checked.actor.userId now) db) :=
    within.grows (grows_insertRecord allowed) room
  exact inserted.of_eq rfl

theorem updateRecord {userId : Option Uuid} {current : GeneratedAppDataRecord}
    (within : RecordsWithin db)
    (keyed : db.RecordsKeyed) (found : db.record? appId recordId = some current)
    (isExpected : current.version = expectedVersion)
    (measured : measureUpdate db appId recordId data = .ok ()) :
    RecordsWithin (reviseRecord appId recordId expectedVersion data userId now db) where
  count other := by
    rw [recordsOf_revised, Table.update, List.length_map]
    exact within.count other
  bytes other := by
    by_cases isApp : other = appId
    · rw [isApp]
      exact reviseRecord_bytes keyed found isExpected measured (within.bytes appId)
    · rw [AppsDb.usedBytes, recordsOf_reviseRecord isApp]
      exact within.bytes other

theorem deleteRecord (within : RecordsWithin db) :
    RecordsWithin (removeRecord appId recordId expectedVersion db) := by
  have fewer : ∀ other,
      ((removeRecord appId recordId expectedVersion db).recordsOf other).Sublist
        (db.recordsOf other) := by
    intro other
    apply List.Sublist.filter
    exact List.filter_sublist
  constructor
  · intro other
    exact (fewer other).length_le.trans (within.count other)
  · intro other
    apply le_trans _ (within.bytes other)
    apply List.Sublist.sum_le_sum ((fewer other).map _)
    intro size _
    exact Nat.zero_le size

/-- The writes of a mutation that was measured. -/
theorem write {request : MutationRequest} {checked : Checked} {response : MutationResponse}
    {content : request.Content} (within : RecordsWithin db) (keyed : db.RecordsKeyed)
    (measured : request.measure db appId content = .ok ())
    (writes : request.write platform appId now checked db content = .ok (response, after)) :
    RecordsWithin after := by
  cases request with
  | createRecord actor name data =>
      cases writes
      exact within.createRecord measured
  | updateRecord actor recordId expectedVersion data =>
      obtain ⟨current, found, isExpected, _, rfl⟩ := writeUpdate_eq_ok writes
      have revised : RecordsWithin (reviseRecord appId recordId expectedVersion content
          checked.actor.userId now db) :=
        within.updateRecord keyed found isExpected measured
      exact revised.of_eq rfl
  | deleteRecord actor recordId expectedVersion =>
      obtain ⟨_, _, _, _, rfl⟩ := writeDelete_eq_ok writes
      exact within.deleteRecord.of_eq rfl
  | createReminder actor title goal runAt timezone recurrence handle =>
      obtain ⟨created, task, only, _, rfl⟩ := writeReminder_eq_ok writes
      exact within.of_eq only.records
  | rollBack userId expectedActiveRevisionId => exact within.rollback writes

end RecordsWithin

end DotBackend.Apps
