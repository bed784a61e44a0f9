import DotBackend.Apps.MutationEvents
import DotBackend.Transaction.ReadCommitted
import DotBackend.Transaction.VersionedCell

/-!
# Concurrent mutations

Every mutation is a transaction that locks the row of its app, looks its key up, reads what
it merges with, measures, compares and swaps, and commits; each of these reads the state
that is committed at its time. A mutation of one app leaves what the mutations of other apps
have read, so the content that a mutation writes is still merged from the record it swaps.
-/

namespace DotBackend.Apps

open Data DotBackend.Schedules Transaction Transition

/-- The rows that a mutation locks. -/
inductive MutationRow
  | app (id : Uuid)
  | record (id : Uuid)
  deriving DecidableEq

/-- A mutation that was performed under a key. -/
structure Performed where
  appId : Uuid
  key : String
  request : MutationRequest
  response : MutationResponse
  deriving DecidableEq

/-- The tables, and the history. -/
structure MutationDb where
  tables : AppsDb
  performed : List Performed
  deriving DecidableEq

/-- The program points. -/
inductive MutationPoint
  | call (appId : Uuid) (key : String) (request : MutationRequest)
  | lookUp (appId : Uuid) (checked : Checked) (request : MutationRequest)
  | read (appId : Uuid) (checked : Checked) (request : MutationRequest)
  | measure (appId : Uuid) (checked : Checked) (request : MutationRequest)
      (content : request.Content)
  | write (appId : Uuid) (checked : Checked) (request : MutationRequest)
      (content : request.Content)
  | commit (appId : Uuid) (checked : Checked) (request : MutationRequest)
      (content : request.Content) (now : Instant)
  | returned (response : MutationResponse)
  | raised (error : CodeAppError)

/-- Go on with a result, or raise. -/
def MutationPoint.orRaise {α : Type} (next : α → MutationPoint) :
    Except CodeAppError α → MutationPoint
  | .ok result => next result
  | .error error => .raised error

/-- The record that the compare-and-swap of a mutation locks. -/
def MutationRequest.swaps (db : AppsDb) (appId : Uuid) : MutationRequest → List MutationRow
  | updateRecord _ recordId expectedVersion _ | deleteRecord _ recordId expectedVersion =>
      if ((db.record? appId recordId).filter fun row => row.version = expectedVersion).isSome then
        [.record recordId]
      else []
  | _ => []

/-- The look-up of the key, with the event that it finds. -/
def lookUpKey (platform : Platform) (appId : Uuid) (checked : Checked)
    (request : MutationRequest) : Option GeneratedAppEvent → MutationPoint
  | none => .read appId checked request
  | some event =>
      MutationPoint.orRaise .returned (request.answer platform appId event checked.hash)

/-- The committed writes of a mutation. -/
def performMutation (platform : Platform) (appId : Uuid) (checked : Checked)
    (request : MutationRequest) (content : request.Content) (now : Instant) (db : MutationDb) :
    MutationDb :=
  match request.write platform appId now checked db.tables content with
  | .ok (response, after) =>
      ⟨after, db.performed ++ [⟨appId, checked.key, request, response⟩]⟩
  | .error _ => db

/-- What a session requests at a point, at the time that its clock shows. -/
def MutationPoint.request (platform : Platform) :
    MutationPoint → Instant → Request MutationDb MutationRow MutationPoint
  | .call appId key request, now =>
      .lock (fun _ => [.app appId]) fun db =>
        orRaise (fun checked => .lookUp appId checked request)
          (request.check platform db.tables appId key now)
  | .lookUp appId checked request, _ =>
      .read fun db => lookUpKey platform appId checked request
        (eventByKey db.tables appId checked.key)
  | .read appId checked request, now =>
      .read fun db => orRaise (.measure appId checked request)
        (request.read platform db.tables appId now checked)
  | .measure appId checked request content, _ =>
      .read fun db => orRaise (fun _ => .write appId checked request content)
        (request.measure db.tables appId content)
  | .write appId checked request content, now =>
      .lock (fun db => request.swaps db.tables appId) fun db =>
        orRaise (fun _ => .commit appId checked request content now)
          (request.write platform appId now checked db.tables content)
  | .commit appId checked request content now, _ =>
      .commit (fun db => request.swaps db.tables appId)
        (fun db => (request.write platform appId now checked db.tables content).isOk &&
          (eventByKey db.tables appId checked.key).isNone)
        (performMutation platform appId checked request content now)
        (fun db => db.performed.getLast?.map fun done => .returned done.response)
        (some (.raised (.internal "uq_app_events_app_idempotency")))
  -- the session of a request is closed when it returns or raises
  | .returned _, _ | .raised _, _ => .rollback none

def MutationPoint.isEntry : MutationPoint → Bool
  | .call _ _ _ => true
  | _ => false

def mutationProtocol (platform : Platform) :
    Protocol MutationDb MutationRow MutationPoint Instant where
  starts := MutationPoint.isEntry
  request := MutationPoint.request platform

/-! ## Records as cells -/

/-- The record under an identifier; an identifier that was drawn and is no record will not
be one again. -/
def AppsDb.cell (db : AppsDb) (id : Uuid) : Cell Fields :=
  match db.records.find? fun record => record.id = id with
  | some record => .live record.version record.data
  | none => if id < db.nextId then .dead else .unborn

/-- What a mutation does to a record. -/
def Performed.recordEvent (done : Performed) : Option (Uuid × CellEvent Fields Fields) :=
  match done.request, done.response with
  | .createRecord .., .record stored => some (stored.id, .created stored.data)
  | .updateRecord _ recordId expectedVersion data, _ =>
      some (recordId, .updated expectedVersion (jsonObject (some data)))
  | .deleteRecord _ recordId expectedVersion, _ => some (recordId, .deleted expectedVersion)
  | _, _ => none

/-- What happened to a record. -/
def recordHistory (performed : List Performed) (id : Uuid) : List (CellEvent Fields Fields) :=
  performed.filterMap fun done =>
    done.recordEvent.bind fun entry => if entry.1 = id then some entry.2 else none

/-- The columns of the unique index on events. -/
def AppsDb.eventKeys (db : AppsDb) : List (Uuid × String) :=
  db.events.map fun event => (event.appId, event.idempotencyKey)

def Performed.eventKey (done : Performed) : Uuid × String :=
  (done.appId, done.key)

variable {platform : Platform} {unicode : Unicode} {db after : AppsDb} {appId : Uuid}
  {now : Instant} {checked : Checked} {request : MutationRequest} {response : MutationResponse}

/-! ## What a mutation has read -/

/-- The content of a mutation is what it reads in these tables. -/
def MutationRequest.ReadFrom (db : AppsDb) (appId : Uuid) :
    (request : MutationRequest) → request.Content → Prop
  | createRecord .., _ | createReminder .., _ => True
  | updateRecord _ recordId _ data, content => ∃ current, db.record? appId recordId = some current ∧
      content = mergeData current.data (jsonObject (some data))
  | deleteRecord _ recordId _, state => db.record? appId recordId = some state
  | rollBack .., _ => (db.deployment? appId).isSome = true

theorem readDelete_eq_ok {recordId : Uuid} {state : GeneratedAppDataRecord}
    (reads : readDelete db appId recordId now checked = .ok state) :
    db.record? appId recordId = some state := by
  unfold readDelete at reads
  split at reads
  · cases reads
  · rename_i row found
    simp only [bind_eq_ok, pure_eq_ok] at reads
    obtain ⟨_, _, rfl⟩ := reads
    exact found

theorem readFrom_of_read {content : request.Content}
    (reads : request.read platform db appId now checked = .ok content) :
    request.ReadFrom db appId content := by
  cases request with
  | createRecord | createReminder => trivial
  | updateRecord actor recordId expectedVersion data =>
      obtain ⟨_, current, _, found, merged, _⟩ := readUpdate_eq_ok reads
      exact ⟨current, found, merged⟩
  | deleteRecord actor recordId expectedVersion => exact readDelete_eq_ok reads
  | rollBack userId expectedActiveRevisionId =>
      obtain ⟨deployment, deployed, _⟩ := readRollback_eq_ok reads
      change (db.deployment? appId).isSome = true
      rw [deployed]
      rfl

/-- What a mutation of an app leaves of another app. -/
structure SameFor (other : Uuid) (before after : AppsDb) : Prop where
  records : after.recordsOf other = before.recordsOf other
  deployment : after.deployment? other = before.deployment? other

theorem AppsDb.record?_eq (db : AppsDb) (appId recordId : Uuid) :
    db.record? appId recordId = (db.recordsOf appId).find? fun record => record.id = recordId := by
  rw [record?, recordsOf, List.find?_filter]
  congr 1
  funext record
  simp [Bool.and_comm]

theorem SameFor.readFrom {other : Uuid} {content : request.Content}
    (same : SameFor other db after) (reads : request.ReadFrom db other content) :
    request.ReadFrom after other content := by
  have looks : ∀ recordId, after.record? other recordId = db.record? other recordId := by
    intro recordId
    rw [AppsDb.record?_eq, AppsDb.record?_eq, same.records]
  cases request with
  | createRecord | createReminder => trivial
  | updateRecord actor recordId expectedVersion data =>
      obtain ⟨current, found, merged⟩ := reads
      exact ⟨current, (looks recordId).trans found, merged⟩
  | deleteRecord actor recordId expectedVersion => exact (looks recordId).trans reads
  | rollBack userId expectedActiveRevisionId =>
      change (after.deployment? other).isSome = true
      rw [same.deployment]
      exact reads

/-! ## What a mutation writes -/

theorem recordsOf_reviseRecord {recordId : Uuid} {expectedVersion : Int} {data : Fields}
    {userId : Option Uuid} {other : Uuid} (different : other ≠ appId) :
    (reviseRecord appId recordId expectedVersion data userId now db).recordsOf other =
      db.recordsOf other := by
  apply Table.filter_update_of_dropped
  intro row _ selected
  simp only [Bool.and_eq_true, beq_iff_eq] at selected
  simp [GeneratedAppDataRecord.revised, selected.1.2, Ne.symm different]

theorem recordsOf_removeRecord {recordId : Uuid} {expectedVersion : Int} {other : Uuid}
    (different : other ≠ appId) :
    (removeRecord appId recordId expectedVersion db).recordsOf other = db.recordsOf other := by
  rw [AppsDb.recordsOf, removeRecord, List.filter_filter]
  apply List.filter_congr
  intro row _
  by_cases ofOther : row.appId = other
  · simp [ofOther, different]
  · simp [ofOther]

/-- The rollback of a deployed app adds no records. -/
theorem records_rollback {userId : Uuid}
    {revisions : GeneratedAppRevision × GeneratedAppRevision} {keyed : Option Checked}
    (deployed : (db.deployment? appId).isSome = true)
    (writes : writeRollback unicode appId userId revisions now keyed db = .ok (response, after)) :
    after.records = db.records ∧ db.nextId ≤ after.nextId ∧
      ∀ other, other ≠ appId → after.deployment? other = db.deployment? other := by
  obtain ⟨promoted, _, _, _, promotes, _, _, _, _, rfl⟩ := writeRollback_eq_ok writes
  obtain ⟨row, found, promotion⟩ := promoteRevision_eq_ok promotes
  refine ⟨?_, (promotes_promoteRevision promotes).supply, promotion.others⟩
  change promoted.records = db.records
  by_contra changed
  rw [(promotion.seeded changed).1] at deployed
  cases deployed

theorem sameFor_write {content : request.Content} {other : Uuid} (different : other ≠ appId)
    (reads : request.ReadFrom db appId content)
    (writes : request.write platform appId now checked db content = .ok (response, after)) :
    SameFor other db after := by
  cases request with
  | createRecord actor name data =>
      cases writes
      refine ⟨?_, rfl⟩
      simp [AppsDb.recordsOf, addDataEvent, addEvent, insertRecord, newRecord, Ne.symm different]
  | updateRecord actor recordId expectedVersion data =>
      obtain ⟨_, _, _, _, rfl⟩ := writeUpdate_eq_ok writes
      exact ⟨recordsOf_reviseRecord different, rfl⟩
  | deleteRecord actor recordId expectedVersion =>
      obtain ⟨_, _, _, _, rfl⟩ := writeDelete_eq_ok writes
      exact ⟨recordsOf_removeRecord different, rfl⟩
  | createReminder actor title goal runAt timezone recurrence handle =>
      obtain ⟨created, task, only, _, rfl⟩ := writeReminder_eq_ok writes
      constructor
      · change created.records.filter _ = _
        rw [only.records]
        rfl
      · change created.deployments.find? _ = _
        rw [only.deployments]
        rfl
  | rollBack userId expectedActiveRevisionId =>
      obtain ⟨records, _, others⟩ := records_rollback reads writes
      refine ⟨?_, others other different⟩
      rw [AppsDb.recordsOf, records]
      rfl

theorem keyed_write {content : request.Content} (keyed : db.RecordsKeyed)
    (reads : request.ReadFrom db appId content)
    (writes : request.write platform appId now checked db content = .ok (response, after)) :
    after.RecordsKeyed := by
  cases request with
  | createRecord actor name data =>
      cases writes
      exact (keyed.insertRecord rfl).of_eq rfl (le_refl _)
  | updateRecord actor recordId expectedVersion data =>
      obtain ⟨_, _, _, _, rfl⟩ := writeUpdate_eq_ok writes
      exact (keyed.reviseRecord recordId expectedVersion content checked.actor.userId now).of_eq
        rfl (le_refl _)
  | deleteRecord actor recordId expectedVersion =>
      obtain ⟨_, _, _, _, rfl⟩ := writeDelete_eq_ok writes
      exact (keyed.removeRecord recordId expectedVersion).of_eq rfl (le_refl _)
  | createReminder actor title goal runAt timezone recurrence handle =>
      obtain ⟨created, task, only, _, rfl⟩ := writeReminder_eq_ok writes
      exact keyed.of_eq only.records only.supply
  | rollBack userId expectedActiveRevisionId =>
      obtain ⟨records, supply, _⟩ := records_rollback reads writes
      exact keyed.of_eq records supply

/-! ## The life of a record -/

theorem cell_of_find {id : Uuid} {record : GeneratedAppDataRecord}
    (found : db.records.find? (fun record => record.id = id) = some record) :
    db.cell id = .live record.version record.data := by
  rw [AppsDb.cell, found]

theorem cell_of_record? {recordId : Uuid} {current : GeneratedAppDataRecord}
    (keyed : db.RecordsKeyed) (found : db.record? appId recordId = some current) :
    db.records.find? (fun record => record.id = recordId) = some current := by
  obtain ⟨currentMem, sameId, _⟩ := record?_eq_some found
  rw [← sameId]
  exact keyed.unique.find?_eq_some currentMem

/-- Where the records stay, identifiers may be used for something else. -/
theorem life_of_records (records : after.records = db.records) (supply : db.nextId ≤ after.nextId)
    (id : Uuid) : Life mergeData (db.cell id) [] (after.cell id) := by
  rw [AppsDb.cell, AppsDb.cell, records]
  split
  · exact Life.refl
  · by_cases drawn : id < db.nextId
    · rw [if_pos drawn, if_pos (Nat.lt_of_lt_of_le drawn supply)]
      exact Life.refl
    · rw [if_neg drawn]
      split
      · exact Life.unused Life.refl
      · exact Life.refl

theorem life_insertRecord {record : GeneratedAppDataRecord} (keyed : db.RecordsKeyed)
    (isNext : record.id = db.nextId) (isFirst : record.version = 1) (id : Uuid) :
    Life mergeData (db.cell id) (if record.id = id then [.created record.data] else [])
      ((insertRecord record db).cell id) := by
  have absent : db.records.find? (fun row => row.id = db.nextId) = none := by
    rw [List.find?_eq_none]
    intro row rowMem
    simpa using Nat.ne_of_lt (keyed.known row rowMem)
  by_cases isNew : record.id = id
  · have unborn : db.cell id = .unborn := by
      rw [AppsDb.cell, ← isNew, isNext, absent]
      exact if_neg (Nat.lt_irrefl _)
    have live : (insertRecord record db).cell id = .live 1 record.data := by
      rw [← isFirst]
      apply cell_of_find
      rw [insertRecord, List.find?_append, ← isNew, isNext, absent, Option.none_or,
        List.find?_singleton, if_pos (decide_eq_true isNext)]
    rw [unborn, live, if_pos isNew]
    exact Life.event Life.refl rfl
  · have same : (insertRecord record db).cell id = db.cell id := by
      have looks : (insertRecord record db).records.find? (fun row => row.id = id) =
          db.records.find? (fun row => row.id = id) := by
        simp [insertRecord, List.find?_append, isNew]
      have drawn : id < db.nextId + 1 ↔ id < db.nextId := by
        rw [isNext] at isNew
        constructor
        · exact fun below => Nat.lt_of_le_of_ne (Nat.lt_succ_iff.mp below) (Ne.symm isNew)
        · exact Nat.lt_succ_of_lt
      rw [AppsDb.cell, looks, AppsDb.cell]
      simp only [insertRecord, drawn]
    rw [same, if_neg isNew]
    exact Life.refl

/-- Every record after an update, by its identifier. -/
theorem find?_reviseRecord (recordId : Uuid) (expectedVersion : Int) (data : Fields)
    (userId : Option Uuid) (now : Instant) (id : Uuid) :
    (reviseRecord appId recordId expectedVersion data userId now db).records.find?
        (fun row => row.id = id) =
      (db.records.find? fun row => row.id = id).map fun row =>
        if row.id == recordId && row.appId == appId && row.version == expectedVersion then
          row.revised data userId now else row := by
  apply Table.find?_update GeneratedAppDataRecord.id
  intro row
  rfl

/-- The record that is updated. -/
theorem find?_reviseRecord_self {recordId : Uuid} {current : GeneratedAppDataRecord}
    (keyed : db.RecordsKeyed) (found : db.record? appId recordId = some current) (data : Fields)
    (userId : Option Uuid) (now : Instant) :
    (reviseRecord appId recordId current.version data userId now db).records.find?
      (fun row => row.id = recordId) = some (current.revised data userId now) := by
  obtain ⟨_, currentId, ofApp⟩ := record?_eq_some found
  have selected : (current.id == recordId && current.appId == appId &&
      current.version == current.version) = true := by
    simp [currentId, ofApp]
  rw [find?_reviseRecord, cell_of_record? keyed found, Option.map_some, if_pos selected]

theorem life_reviseRecord {recordId : Uuid} {current : GeneratedAppDataRecord} {patch : Fields}
    (keyed : db.RecordsKeyed) (found : db.record? appId recordId = some current)
    (userId : Option Uuid) (now : Instant) (id : Uuid) :
    Life mergeData (db.cell id)
      (if recordId = id then [.updated current.version patch] else [])
      ((reviseRecord appId recordId current.version (mergeData current.data patch) userId now
        db).cell id) := by
  by_cases isRecord : recordId = id
  · subst isRecord
    rw [if_pos rfl, cell_of_find (cell_of_record? keyed found),
      cell_of_find (find?_reviseRecord_self keyed found _ userId now)]
    exact Life.event Life.refl (if_pos rfl)
  · have same : (reviseRecord appId recordId current.version (mergeData current.data patch) userId
        now db).cell id = db.cell id := by
      rw [AppsDb.cell, find?_reviseRecord, AppsDb.cell]
      cases stored : db.records.find? fun row => row.id = id with
      | none => rfl
      | some row =>
          have rowId : row.id = id := by simpa using List.find?_some stored
          have notSelected : (row.id == recordId && row.appId == appId &&
              row.version == current.version) ≠ true := by
            simp [rowId, Ne.symm isRecord]
          rw [Option.map_some, if_neg notSelected]
    rw [same, if_neg isRecord]
    exact Life.refl

/-- A record that was deleted is no more. -/
theorem cell_removeRecord {recordId : Uuid} {current : GeneratedAppDataRecord}
    (keyed : db.RecordsKeyed) (found : db.record? appId recordId = some current) :
    (removeRecord appId recordId current.version db).cell recordId = .dead := by
  obtain ⟨currentMem, currentId, ofApp⟩ := record?_eq_some found
  have gone : (removeRecord appId recordId current.version db).records.find?
      (fun row => row.id = recordId) = none := by
    rw [List.find?_eq_none]
    intro row rowMem sameId
    obtain ⟨storedMem, kept⟩ := List.mem_filter.mp rowMem
    have row_eq : row = current :=
      keyed.unique.eq_of_mem storedMem currentMem rfl
        (by rw [of_decide_eq_true sameId, currentId])
    simp [row_eq, currentId, ofApp] at kept
  have drawn : recordId < db.nextId := by
    rw [← currentId]
    exact keyed.known current currentMem
  rw [AppsDb.cell, gone]
  exact if_pos drawn

theorem life_removeRecord {recordId : Uuid} {current : GeneratedAppDataRecord}
    (keyed : db.RecordsKeyed) (found : db.record? appId recordId = some current) (id : Uuid) :
    Life mergeData (db.cell id)
      (if recordId = id then [.deleted current.version] else [])
      ((removeRecord appId recordId current.version db).cell id) := by
  by_cases isRecord : recordId = id
  · subst isRecord
    rw [if_pos rfl, cell_of_find (cell_of_record? keyed found), cell_removeRecord keyed found]
    exact Life.event Life.refl (if_pos rfl)
  · have same : (removeRecord appId recordId current.version db).cell id = db.cell id := by
      have looks : (removeRecord appId recordId current.version db).records.find?
          (fun row => row.id = id) = db.records.find? fun row => row.id = id := by
        rw [removeRecord, List.find?_filter]
        congr 1
        funext row
        by_cases rowId : row.id = id
        · simp [rowId, Ne.symm isRecord]
        · simp [rowId]
      rw [AppsDb.cell, looks, AppsDb.cell]
      rfl
    rw [same, if_neg isRecord]
    exact Life.refl

theorem recordHistory_of_event {done : Performed} {recordId id : Uuid}
    {event : CellEvent Fields Fields} (recorded : done.recordEvent = some (recordId, event)) :
    recordHistory [done] id = if recordId = id then [event] else [] := by
  by_cases isRecord : recordId = id
  · simp [recordHistory, recorded, isRecord]
  · simp [recordHistory, recorded, isRecord]

/-- A mutation is a step in the life of the record that it is about. -/
theorem life_write {content : request.Content} (keyed : db.RecordsKeyed)
    (reads : request.ReadFrom db appId content)
    (writes : request.write platform appId now checked db content = .ok (response, after))
    (id : Uuid) :
    Life mergeData (db.cell id) (recordHistory [⟨appId, checked.key, request, response⟩] id)
      (after.cell id) := by
  cases request with
  | createRecord actor name data =>
      cases writes
      rw [recordHistory_of_event rfl]
      exact life_insertRecord keyed rfl rfl id
  | updateRecord actor recordId expectedVersion data =>
      obtain ⟨current, found, rfl⟩ := reads
      obtain ⟨swapped, swappedFound, rfl, _, rfl⟩ := writeUpdate_eq_ok writes
      cases found.symm.trans swappedFound
      rw [recordHistory_of_event rfl]
      exact life_reviseRecord keyed found checked.actor.userId now id
  | deleteRecord actor recordId expectedVersion =>
      obtain ⟨swapped, found, rfl, _, rfl⟩ := writeDelete_eq_ok writes
      rw [recordHistory_of_event rfl]
      exact life_removeRecord keyed found id
  | createReminder actor title goal runAt timezone recurrence handle =>
      obtain ⟨created, task, only, _, rfl⟩ := writeReminder_eq_ok writes
      exact life_of_records only.records only.supply id
  | rollBack userId expectedActiveRevisionId =>
      obtain ⟨records, supply, _⟩ := records_rollback reads writes
      exact life_of_records records supply id

theorem eventKeys_of_appends {added : List GeneratedAppEvent} (appends : Appends db after added) :
    after.eventKeys = db.eventKeys ++ added.map fun event => (event.appId, event.idempotencyKey) := by
  have keys : ∀ tables : AppsDb, tables.eventKeys =
      (tables.events.map GeneratedAppEvent.detached).map
        fun event => (event.appId, event.idempotencyKey) := by
    intro tables
    rw [List.map_map]
    rfl
  rw [keys, appends, List.map_append, ← keys]

/-! ## The proof outline -/

/-- A later state, seen from a first one, with the mutations performed since: no event key is
used twice, and the history is the life of every record. -/
structure MutationDb.Extends (source db : MutationDb) (more : List Performed) : Prop where
  performed : db.performed = source.performed ++ more
  keyed : db.tables.RecordsKeyed
  events : db.tables.eventKeys = source.tables.eventKeys ++ more.map Performed.eventKey
  nodup : db.tables.eventKeys.Nodup
  lives : ∀ id, Life mergeData (source.tables.cell id) (recordHistory more id)
    (db.tables.cell id)

/-- What holds in every state, seen from a first one. -/
def MutationDb.Faithful (source db : MutationDb) : Prop :=
  ∃ more, source.Extends db more

/-- What holds at the point of a session. -/
def MutationPoint.Local (db : MutationDb) : MutationPoint → Held MutationRow → Prop
  | .call _ _ _, _ | .returned _, _ | .raised _, _ => True
  | .lookUp appId _ _, held | .read appId _ _, held => held (.app appId)
  | .measure appId _ request content, held | .write appId _ request content, held
  | .commit appId _ request content _, held =>
      held (.app appId) ∧ request.ReadFrom db.tables appId content

/-- A commit of a mutation. -/
structure MutationCommit (platform : Platform) (db after : MutationDb) (appId : Uuid)
    (checked : Checked) (request : MutationRequest) (content : request.Content) (now : Instant) :
    Prop where
  writes : ∃ response tables, request.write platform appId now checked db.tables content =
    .ok (response, tables) ∧
      after = ⟨tables, db.performed ++ [⟨appId, checked.key, request, response⟩]⟩
  isNew : (appId, checked.key) ∉ db.tables.eventKeys

theorem not_mem_eventKeys (absent : (eventByKey db appId checked.key).isNone = true) :
    (appId, checked.key) ∉ db.eventKeys := by
  intro keyMem
  obtain ⟨event, eventMem, isKey⟩ := List.mem_map.mp keyMem
  rw [Prod.mk.injEq] at isKey
  have notFound := List.find?_eq_none.mp (Option.isNone_iff_eq_none.mp absent) event eventMem
  exact notFound (decide_eq_true isKey)

theorem mutationCommit_of_permitted {db : MutationDb} {content : request.Content}
    (permitted : ((request.write platform appId now checked db.tables content).isOk &&
      (eventByKey db.tables appId checked.key).isNone) = true) :
    MutationCommit platform db
      (performMutation platform appId checked request content now db) appId checked request content
      now := by
  rw [Bool.and_eq_true] at permitted
  obtain ⟨⟨response, tables⟩, writes⟩ := exists_eq_ok permitted.1
  refine ⟨⟨response, tables, writes, ?_⟩, not_mem_eventKeys permitted.2⟩
  rw [performMutation, writes]

theorem MutationCommit.faithful {source db after : MutationDb} {content : request.Content}
    (commit : MutationCommit platform db after appId checked request content now)
    (faithful : source.Faithful db) (reads : request.ReadFrom db.tables appId content) :
    source.Faithful after := by
  obtain ⟨more, extends_⟩ := faithful
  obtain ⟨response, tables, writes, rfl⟩ := commit.writes
  obtain ⟨event, appends, eventOf⟩ := appends_write writes
  have keys : tables.eventKeys = db.tables.eventKeys ++ [(appId, checked.key)] := by
    rw [eventKeys_of_appends appends, List.map_singleton, eventOf.ofApp, eventOf.key]
  refine ⟨more ++ [⟨appId, checked.key, request, response⟩], ?_⟩
  constructor
  · rw [extends_.performed, List.append_assoc]
  · exact keyed_write extends_.keyed reads writes
  · rw [keys, extends_.events, List.map_append, List.append_assoc]
    rfl
  · rw [keys]
    apply List.nodup_append.mpr
    refine ⟨extends_.nodup, List.nodup_singleton _, ?_⟩
    intro key keyMem other otherMem same
    rw [List.mem_singleton.mp otherMem] at same
    exact commit.isNew (same ▸ keyMem)
  · intro id
    have longer : recordHistory (more ++ [⟨appId, checked.key, request, response⟩]) id =
        recordHistory more id ++ recordHistory [⟨appId, checked.key, request, response⟩] id :=
      List.filterMap_append
    rw [longer]
    exact (extends_.lives id).trans (life_write extends_.keyed reads writes id)

theorem MutationCommit.local {db after : MutationDb} {content : request.Content}
    {other : MutationPoint} {held : Held MutationRow}
    (commit : MutationCommit platform db after appId checked request content now)
    (reads : request.ReadFrom db.tables appId content) (atPoint : other.Local db held)
    (disjoint : ¬ held (.app appId)) : other.Local after held := by
  obtain ⟨response, tables, writes, rfl⟩ := commit.writes
  cases other with
  | call | returned | raised => trivial
  | lookUp | read => exact atPoint
  | measure otherId _ _ _ | write otherId _ _ _ | commit otherId _ _ _ _ =>
      obtain ⟨holds, otherReads⟩ := atPoint
      have different : otherId ≠ appId := by
        rintro rfl
        exact disjoint holds
      exact ⟨holds, (sameFor_write different reads writes).readFrom otherReads⟩

/-! ### Points -/

/-- Where a check leads: on, with its result, or to the error that it raised. -/
theorem orRaise_local {α : Type} {result : Except CodeAppError α} {next : α → MutationPoint}
    {db : MutationDb} {held : Held MutationRow}
    (goesOn : ∀ a, result = .ok a → (next a).Local db held) :
    (MutationPoint.orRaise next result).Local db held := by
  cases result with
  | ok a => exact goesOn a rfl
  | error error => trivial

theorem lookUpKey_local {found : Option GeneratedAppEvent} {db : MutationDb}
    {held : Held MutationRow} (holds : held (.app appId)) :
    (lookUpKey platform appId checked request found).Local db held := by
  cases found with
  | none => exact holds
  | some event => exact orRaise_local fun _ _ => trivial

/-- The proof outline of concurrent mutations, seen from a first state. -/
def mutationOutline (platform : Platform) (source : MutationDb) :
    Outline (mutationProtocol platform) fun _ _ => True where
  Global := source.Faithful
  Local db point held := point.Local db held
  start := by
    intro database point starts _
    cases point with
    | call => trivial
    | _ => cases starts
  read := by
    intro database point input next held requested _ atPoint
    cases point with
    | lookUp appId checked request =>
        cases requested
        exact lookUpKey_local atPoint
    | read appId checked request =>
        cases requested
        exact orRaise_local fun content reads => ⟨atPoint, readFrom_of_read reads⟩
    | measure appId checked request content =>
        cases requested
        exact orRaise_local fun _ _ => atPoint
    | _ => cases requested
  lock := by
    intro database point input rows next held requested _ atPoint
    cases point with
    | call appId key request =>
        cases requested
        exact orRaise_local fun _ _ => Or.inl List.mem_cons_self
    | write appId checked request content =>
        cases requested
        exact orRaise_local fun _ _ => ⟨Or.inr atPoint.1, atPoint.2⟩
    | _ => cases requested
  skipLocked := by
    intro database point input candidates next held chosen requested
    cases point <;> cases requested
  rollback := by
    intro database point input next target held requested next_eq
    cases point with
    | returned | raised =>
        cases requested
        cases next_eq
    | _ => cases requested
  refused := by
    intro database point input rows permitted write next refused target held requested refused_eq
    cases point with
    | commit appId checked request content now =>
        cases requested
        cases refused_eq
        exact fun _ _ => trivial
    | _ => cases requested
  commit := by
    intro system session point input rows permitted write next refused commits _ faithful atPoint
    obtain ⟨_, requested, _, isPermitted⟩ := commits
    cases point with
    | commit appId checked request content now =>
        cases requested
        constructor
        · exact (mutationCommit_of_permitted isPermitted).faithful faithful atPoint.2
        · intro target next_eq
          rw [Option.map_eq_some_iff] at next_eq
          obtain ⟨done, _, rfl⟩ := next_eq
          trivial
    | _ => cases requested
  interference := by
    intro system session point input rows permitted write next refused commits _ _ atPoint
      other held otherPoint disjoint
    obtain ⟨_, requested, _, isPermitted⟩ := commits
    cases point with
    | commit appId checked request content now =>
        cases requested
        apply (mutationCommit_of_permitted isPermitted).local atPoint.2 otherPoint
        exact fun holds => (disjoint _ holds).2 atPoint.1
    | _ => cases requested

/-- A commit is by a session at its commit point, which goes on to return. -/
theorem step_commits {system after : System MutationDb MutationRow MutationPoint}
    {event : Event MutationPoint Instant}
    (stepped : system.step (mutationProtocol platform) event = some after) :
    after.database = system.database ∨ ∃ appId checked request content now,
      system.points event.session = some (.commit appId checked request content now) ∧
        MutationCommit platform system.database after.database appId checked request content now ∧
        after.points event.session =
          after.database.performed.getLast?.map fun done => .returned done.response := by
  rcases System.step_database stepped with same |
    ⟨session, point, input, rows, permitted, write, next, refused, rfl, commits, rfl⟩
  · exact Or.inl same
  · apply Or.inr
    obtain ⟨atPoint, requested, _, isPermitted⟩ := commits
    cases point with
    | commit appId checked request content now =>
        cases requested
        refine ⟨appId, checked, request, content, now, atPoint,
          mutationCommit_of_permitted isPermitted, ?_⟩
        exact Function.update_self _ _ _
    | _ => cases requested

end DotBackend.Apps
