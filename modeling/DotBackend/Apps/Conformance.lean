import DotBackend.Apps.Calls
import DotBackend.Apps.Promotion

/-!
# Records conform to the active schema

Whatever is called in whatever order, every record of an app is one that the manifest of
its active revision accepts, and has the size that is stored with it.
-/

namespace DotBackend.Apps

open Data Transition

variable {platform : Platform} {unicode : Unicode} {db after : AppsDb} {appId : Uuid}
  {now : Instant}

/-- Every record conforms to the manifest of the active revision of its app. -/
structure RecordsConform (unicode : Unicode) (db : AppsDb) : Prop where
  known : ∀ revision ∈ db.revisions, revision.id < db.nextId
  keyed : db.RecordsKeyed
  conform : ∀ record ∈ db.records, ∃ manifest, db.activeManifest? record.appId = some manifest ∧
    record.Conforms unicode manifest

/-! ## Reading -/

/-- Revisions that differ in the mark of their seeds have the same manifests. -/
theorem manifest_of_unmarked (same : after.revisions.map GeneratedAppRevision.unmarked =
    db.revisions.map GeneratedAppRevision.unmarked) (id : Uuid) :
    (after.revision? id).map (·.manifest) = (db.revision? id).map (·.manifest) := by
  have look : ∀ tables : AppsDb, (tables.revision? id).map (·.manifest) =
      ((tables.revisions.map GeneratedAppRevision.unmarked).find?
        fun revision => revision.id = id).map (·.manifest) := by
    intro tables
    rw [List.find?_map, Option.map_map]
    rfl
  rw [look, look, same]

theorem validateExistingRecords_eq_ok {manifest : Json}
    (valid : validateExistingRecordsForManifest unicode db appId manifest = .ok ()) :
    ∀ record ∈ db.records, record.appId = appId →
      validateEntityData unicode manifest record.entity record.data = .ok record.data := by
  intro record recordMem ofApp
  have checked := forEach_eq_ok.mp valid record
    (List.mem_filter.mpr ⟨recordMem, decide_eq_true ofApp⟩)
  split at checked
  · rename_i clean accepted
    rwa [validateEntityData_eq accepted] at accepted
  · cases checked

/-- A new revision is found by its identifier, which no other has. -/
theorem revision?_insertRevision {revision : GeneratedAppRevision}
    (known : ∀ row ∈ db.revisions, row.id < db.nextId) (isNext : revision.id = db.nextId) :
    (insertRevision revision db).revision? revision.id = some revision := by
  have absent : db.revisions.find? (fun row => row.id = revision.id) = none := by
    rw [List.find?_eq_none]
    intro old oldMem
    simpa [isNext] using Nat.ne_of_lt (known old oldMem)
  simp only [AppsDb.revision?, insertRevision, List.find?_append, absent, Option.none_or,
    List.find?_singleton, decide_true, if_true]

/-- A revision that was stored before is found as before. -/
theorem revision?_insertRevision_of_some {revision row : GeneratedAppRevision} {id : Uuid}
    (found : db.revision? id = some row) : (insertRevision revision db).revision? id = some row := by
  have foundOld : db.revisions.find? (fun row => row.id = id) = some row := found
  simp only [AppsDb.revision?, insertRevision, List.find?_append, foundOld, Option.some_or]

/-! ## Keys -/

namespace AppsDb.RecordsKeyed

theorem reviseRecord (keyed : db.RecordsKeyed) (recordId : Uuid) (expectedVersion : Int)
    (data : Fields) (userId : Option Uuid) (now : Instant) :
    (reviseRecord appId recordId expectedVersion data userId now db).RecordsKeyed where
  unique := keyed.unique.update _ fun _ => rfl
  known := by
    intro record recordMem
    obtain ⟨old, oldMem, rfl⟩ := Table.mem_update.mp recordMem
    split <;> exact keyed.known old oldMem

theorem removeRecord (keyed : db.RecordsKeyed) (recordId : Uuid) (expectedVersion : Int) :
    (removeRecord appId recordId expectedVersion db).RecordsKeyed where
  unique := keyed.unique.filter _
  known := fun record recordMem => keyed.known record (List.mem_of_mem_filter recordMem)

end AppsDb.RecordsKeyed

/-! ## Steps -/

/-- The schemas of the apps are as they were. -/
structure SameSchemas (db after : AppsDb) : Prop where
  revisions : after.revisions = db.revisions
  deployments : after.deployments = db.deployments
  supply : db.nextId ≤ after.nextId

theorem SameSchemas.activeManifest (same : SameSchemas db after) (appId : Uuid) :
    after.activeManifest? appId = db.activeManifest? appId := by
  simp only [AppsDb.activeManifest?, AppsDb.deployment?, AppsDb.revision?, same.revisions,
    same.deployments]

namespace RecordsConform

/-- Records that stay conform where the schemas stay. -/
theorem of_same (sound : RecordsConform unicode db)
    (known : ∀ revision ∈ after.revisions, revision.id < after.nextId)
    (keyed : after.RecordsKeyed)
    (manifests : ∀ record ∈ db.records, ∀ manifest,
      db.activeManifest? record.appId = some manifest →
        after.activeManifest? record.appId = some manifest)
    (records : ∀ record ∈ after.records, record ∈ db.records ∨
      ∃ manifest, after.activeManifest? record.appId = some manifest ∧
        record.Conforms unicode manifest) : RecordsConform unicode after where
  known := known
  keyed := keyed
  conform := by
    intro record recordMem
    rcases records record recordMem with oldMem | conforms
    · obtain ⟨manifest, active, conforms⟩ := sound.conform record oldMem
      exact ⟨manifest, manifests record oldMem manifest active, conforms⟩
    · exact conforms

theorem of_sameSchemas (sound : RecordsConform unicode db) (same : SameSchemas db after)
    (keyed : after.RecordsKeyed)
    (records : ∀ record ∈ after.records, record ∈ db.records ∨
      ∃ manifest, db.activeManifest? record.appId = some manifest ∧
        record.Conforms unicode manifest) : RecordsConform unicode after := by
  apply sound.of_same
  · rw [same.revisions]
    intro revision revisionMem
    exact lt_of_lt_of_le (sound.known revision revisionMem) same.supply
  · exact keyed
  · intro record _ manifest active
    rw [same.activeManifest]
    exact active
  · simpa only [same.activeManifest] using records

theorem of_apart (sound : RecordsConform unicode db) (apart : Apart db after) :
    RecordsConform unicode after := by
  apply sound.of_sameSchemas
  · exact ⟨apart.revisions, apart.deployments, apart.supply⟩
  · exact sound.keyed.of_eq apart.records apart.supply
  · rw [apart.records]
    exact fun record recordMem => Or.inl recordMem

/-- A promotion of a revision that accepts the records of its app. -/
theorem promoted {revision : GeneratedAppRevision} {expected : Option (Option Uuid)}
    (sound : RecordsConform unicode db) (found : db.revision? revision.id = some revision)
    (promoted : Promoted unicode appId revision expected db after) (supply : db.nextId ≤ after.nextId)
    (valid : ∀ record ∈ db.records, record.appId = appId →
      validateEntityData unicode revision.manifest record.entity record.data = .ok record.data) :
    RecordsConform unicode after := by
  have activeNow : after.activeManifest? appId = some revision.manifest := by
    simp only [AppsDb.activeManifest?, promoted.deployment, Option.bind_some,
      promotedDeployment_active, manifest_of_unmarked promoted.revisions, found, Option.map_some]
  have activeElsewhere : ∀ other, other ≠ appId →
      after.activeManifest? other = db.activeManifest? other := by
    intro other different
    simp only [AppsDb.activeManifest?, promoted.others other different,
      manifest_of_unmarked promoted.revisions]
  obtain ⟨added, records_eq, conform⟩ := promoted.records
  constructor
  · intro row rowMem
    have idMem : row.id ∈ (after.revisions.map GeneratedAppRevision.unmarked).map (·.id) :=
      List.mem_map.mpr ⟨row.unmarked, List.mem_map_of_mem rowMem, rfl⟩
    rw [promoted.revisions, List.map_map] at idMem
    obtain ⟨old, oldMem, sameId⟩ := List.mem_map.mp idMem
    rw [← sameId]
    exact lt_of_lt_of_le (sound.known old oldMem) supply
  · exact promoted.keyed sound.keyed
  · intro record recordMem
    rw [records_eq] at recordMem
    rcases List.mem_append.mp recordMem with oldMem | newMem
    · obtain ⟨manifest, active, conforms⟩ := sound.conform record oldMem
      by_cases ofApp : record.appId = appId
      · exact ⟨revision.manifest, ofApp ▸ activeNow, valid record oldMem ofApp, conforms.measured⟩
      · exact ⟨manifest, activeElsewhere _ ofApp ▸ active, conforms⟩
    · obtain ⟨ofApp, conforms⟩ := conform record newMem
      exact ⟨revision.manifest, ofApp ▸ activeNow, conforms⟩

/-- A new revision, which is not active yet. -/
theorem insertRevision (sound : RecordsConform unicode db) {revision : GeneratedAppRevision}
    (isNext : revision.id = db.nextId) : RecordsConform unicode (insertRevision revision db) := by
  apply sound.of_same
  · intro row rowMem
    rcases List.mem_append.mp rowMem with oldMem | newMem
    · exact Nat.lt_succ_of_lt (sound.known row oldMem)
    · rw [List.mem_singleton.mp newMem, isNext]
      exact Nat.lt_succ_self _
  · exact sound.keyed.of_eq rfl (Nat.le_succ _)
  · intro record _ manifest active
    simp only [AppsDb.activeManifest?, Option.bind_eq_some_iff, Option.map_eq_some_iff] at active ⊢
    obtain ⟨deployment, deployed, row, found, manifest_eq⟩ := active
    exact ⟨deployment, deployed, row, revision?_insertRevision_of_some found, manifest_eq⟩
  · exact fun record recordMem => Or.inl recordMem

/-- A completion promotes a revision that accepts the records. -/
theorem completeBuild {result : BuildResult} {token : String} (sound : RecordsConform unicode db)
    (completed : completeBuild unicode db result token now = .ok after) :
    RecordsConform unicode after := by
  simp only [Apps.completeBuild, bind_eq_ok] at completed
  obtain ⟨job, _, _, _, finished⟩ := completed
  obtain ⟨app, revision, promoted, issued, _, made, valid, promotes, issues, rfl⟩ :=
    finishBuild_eq_ok finished
  obtain ⟨isNext, _, _, manifest_eq, _⟩ := newRevision_eq_ok made
  have stored := sound.insertRevision isNext
  obtain ⟨row, found, promotion⟩ := promoteRevision_eq_ok promotes
  cases (revision?_insertRevision sound.known isNext).symm.trans found
  have afterPromotion : RecordsConform unicode promoted := by
    apply stored.promoted found promotion (promotes_promoteRevision promotes).supply
    rw [manifest_eq]
    exact validateExistingRecords_eq_ok valid
  obtain ⟨tickets, issued_eq⟩ := issueHandoff_frame issues
  have only : QueueOnly promoted (enqueueUserEvent
      ⟨app.userId, app.conversationId, .appBuildCompleted job.id, app.id⟩ issued) := by
    have handed : QueueOnly promoted issued := by
      rw [issued_eq]
      exact ⟨rfl, rfl, rfl, rfl, rfl, le_refl _⟩
    exact handed.trans (queueOnly_enqueueUserEvent _)
  exact afterPromotion.of_apart only.apart

/-- A rollback promotes a stored revision that accepts the records. -/
theorem rollback {userId expectedActiveRevisionId : Uuid} {keyed : Option Checked}
    {revisions : GeneratedAppRevision × GeneratedAppRevision} {response : MutationResponse}
    (sound : RecordsConform unicode db)
    (reads : readRollback db appId expectedActiveRevisionId = .ok revisions)
    (writes : writeRollback unicode appId userId revisions now keyed db = .ok (response, after)) :
    RecordsConform unicode after := by
  obtain ⟨_, _, _, _, _, target_eq, _, _⟩ := readRollback_eq_ok reads
  obtain ⟨promoted, app, deployment, valid, promotes, _, _, _, _, rfl⟩ := writeRollback_eq_ok writes
  obtain ⟨row, found, promotion⟩ := promoteRevision_eq_ok promotes
  cases target_eq.symm.trans found
  have afterPromotion : RecordsConform unicode promoted :=
    sound.promoted found promotion (promotes_promoteRevision promotes).supply
      (validateExistingRecords_eq_ok valid)
  exact afterPromotion.of_sameSchemas ⟨rfl, rfl, le_refl _⟩
    (afterPromotion.keyed.of_eq rfl (le_refl _)) fun record recordMem => Or.inl recordMem

/-- The record that an update revises is the one that was validated. -/
theorem revise {recordId : Uuid} {data : Fields} {manifest : Json}
    {current : GeneratedAppDataRecord} (sound : RecordsConform unicode db)
    (found : db.record? appId recordId = some current)
    (active : db.activeManifest? appId = some manifest)
    (accepted : validateEntityData unicode manifest current.entity data = .ok data)
    (expectedVersion : Int) (userId : Option Uuid) (now : Instant) :
    RecordsConform unicode (reviseRecord appId recordId expectedVersion data userId now db) := by
  obtain ⟨currentMem, sameId, ofApp⟩ := record?_eq_some found
  apply sound.of_sameSchemas
  · exact ⟨rfl, rfl, le_refl _⟩
  · exact sound.keyed.reviseRecord recordId expectedVersion data userId now
  · intro record recordMem
    obtain ⟨old, oldMem, rfl⟩ := Table.mem_update.mp recordMem
    split
    · rename_i selected
      simp only [Bool.and_eq_true, beq_iff_eq] at selected
      have old_eq : old = current :=
        sound.keyed.unique.eq_of_mem oldMem currentMem rfl (by rw [selected.1.1, sameId])
      subst old_eq
      exact Or.inr ⟨manifest, ofApp ▸ active, accepted, rfl⟩
    · exact Or.inl oldMem

/-- A mutation that is performed validates what it stores. -/
theorem perform {request : MutationRequest} {checked : Checked} {response : MutationResponse}
    (sound : RecordsConform platform.toUnicode db)
    (performed : perform platform db appId now request checked = .ok (response, after)) :
    RecordsConform platform.toUnicode after := by
  simp only [Apps.perform, bind_eq_ok] at performed
  obtain ⟨content, reads, _, _, writes⟩ := performed
  cases request with
  | createRecord actor name data =>
      obtain ⟨manifest, active, accepted⟩ := readCreate_eq_ok reads
      cases writes
      apply sound.of_sameSchemas
      · exact ⟨rfl, rfl, Nat.le_succ _⟩
      · exact (sound.keyed.insertRecord rfl).of_eq rfl (le_refl _)
      · intro record recordMem
        rcases List.mem_append.mp recordMem with oldMem | newMem
        · exact Or.inl oldMem
        · rw [List.mem_singleton.mp newMem]
          exact Or.inr ⟨manifest, active, accepted, rfl⟩
  | updateRecord actor recordId expectedVersion data =>
      obtain ⟨manifest, current, active, found, _, accepted⟩ := readUpdate_eq_ok reads
      obtain ⟨_, _, _, _, rfl⟩ := writeUpdate_eq_ok writes
      have revised := sound.revise found active accepted expectedVersion checked.actor.userId now
      exact revised.of_sameSchemas ⟨rfl, rfl, le_refl _⟩ (revised.keyed.of_eq rfl (le_refl _))
        fun record recordMem => Or.inl recordMem
  | deleteRecord actor recordId expectedVersion =>
      obtain ⟨_, _, _, _, rfl⟩ := writeDelete_eq_ok writes
      apply sound.of_sameSchemas
      · exact ⟨rfl, rfl, le_refl _⟩
      · exact (sound.keyed.removeRecord recordId expectedVersion).of_eq rfl (le_refl _)
      · exact fun record recordMem => Or.inl (List.mem_of_mem_filter recordMem)
  | createReminder actor title goal runAt timezone recurrence handle =>
      obtain ⟨created, task, only, _, rfl⟩ := writeReminder_eq_ok writes
      apply sound.of_sameSchemas
      · exact ⟨only.revisions, only.deployments, only.supply⟩
      · exact sound.keyed.of_eq only.records only.supply
      · intro record recordMem
        exact Or.inl (only.records ▸ recordMem)
  | rollBack userId expectedActiveRevisionId => exact sound.rollback reads writes

end RecordsConform

/-- Every call keeps the records conforming. -/
theorem RecordsConform.step {event : AppCall × Instant} (sound : RecordsConform platform.toUnicode db)
    (allowed : apart db event) (stepped : callStep platform db event = some after) :
    RecordsConform platform.toUnicode after := by
  cases callOutcome allowed stepped with
  | answered same => exact same ▸ sound
  | performed _ _ performed => exact sound.perform performed
  | rolledBack reads writes => exact sound.rollback reads writes
  | completed completed => exact sound.completeBuild completed
  | apart apart => exact sound.of_apart apart

/-- Tables without revisions and records. -/
theorem RecordsConform.of_empty (noRevisions : db.revisions = []) (noRecords : db.records = []) :
    RecordsConform unicode db := by
  constructor
  · rw [noRevisions]
    exact fun revision revisionMem => absurd revisionMem List.not_mem_nil
  · constructor
    · rw [noRecords]
      exact List.nodup_nil
    · rw [noRecords]
      exact fun record recordMem => absurd recordMem List.not_mem_nil
  · rw [noRecords]
    exact fun record recordMem => absurd recordMem List.not_mem_nil

/-- In every state that calls reach from tables without revisions, deployments and records,
every record of an app passes the validation against the manifest of its active revision,
and has the size that is stored with it. -/
theorem records_conform {initial later : AppsDb} (noRevisions : initial.revisions = [])
    (noRecords : initial.records = [])
    (run : Run (callStep platform) apart initial later) :
    ∀ record ∈ later.records, record.dataBytes = jsonBytes (.obj record.data) ∧
      ∃ deployment revision, later.deployment? record.appId = some deployment ∧
        later.revision? deployment.activeRevisionId = some revision ∧
        validateEntityData platform.toUnicode revision.manifest record.entity record.data =
          .ok record.data := by
  have initially : RecordsConform platform.toUnicode initial :=
    RecordsConform.of_empty noRevisions noRecords
  have sound : RecordsConform platform.toUnicode later :=
    run.invariant (RecordsConform platform.toUnicode)
      (fun _ _ _ before allowed stepped => before.step allowed stepped) initially
  intro record recordMem
  obtain ⟨manifest, active, accepted, measured⟩ := sound.conform record recordMem
  simp only [AppsDb.activeManifest?, Option.bind_eq_some_iff, Option.map_eq_some_iff] at active
  obtain ⟨deployment, deployed, revision, found, rfl⟩ := active
  exact ⟨measured, deployment, revision, deployed, found, accepted⟩

/-! ## A first build with a seed -/

/-- The schema of an app with one entity. -/
def habitManifest : Json :=
  .obj [("schema_version", .int 1), ("entities", .arr [.obj [("name", .str "habit"),
    ("fields", .obj [("name", .obj [("type", .str "string"), ("required", .bool true)])])]])]

/-- A stage that passed. -/
def passedStage : Json := .obj [("status", .str "passed")]

def habitArtifact : Json :=
  .obj [("browser_bundle", .obj [("format", .str "iife"), ("javascript", .str "start()"),
      ("css", .str ""),
      ("sha256", .str "295695a76388adcf036061d1c230d60d733a9cb35ff7fd6bacce3c99e35bcfed"),
      ("static_html", .str "<main></main>"), ("sdk_version", .str "1")]),
    ("sdk_version", .str "1"),
    ("test_results", .obj [("policy", passedStage), ("typescript_compile", passedStage),
      ("browser_smoke", .obj [("status", .str "passed"),
        ("real_browser", .obj [("ready", .bool true)])])])]

/-- A user, an app, and its first build, which waits for a worker. -/
def habitApp : AppsDb where
  __ := AppsDb.empty
  users := [7]
  conversations := [⟨2, 7, .direct, none, .auto, none, true⟩]
  apps := [⟨1, 7, 2, "habits", "Habits", "", .privateLink, .active, .code, 1⟩]
  jobs := [⟨3, 1, none, none, .queued, [("blueprint", .obj [("title", .str "Habits"),
    ("seed_data", .obj [("habits", .arr [.obj [("name", .str "read")]])])])], none, none, 0, none,
    none, none, none, 0⟩]
  nextId := 10

/-- What a worker hands in for a job. -/
def habitBuild (jobId : Uuid) : BuildResult where
  jobId := jobId
  workerId := "a"
  expectedAttempt := 1
  manifest := habitManifest
  sourceFiles := [("main.tsx", .str "start()")]
  artifactUrl := "/artifacts/habits"
  artifactSha256 := "295695a76388adcf036061d1c230d60d733a9cb35ff7fd6bacce3c99e35bcfed"
  sdkVersion := "1"
  dependencyLock := .obj []
  testResults := .obj []
  artifact := habitArtifact
  handoffBaseUrl := none

/-- The owner, as the chat knows them. -/
def habitOwner : AppActor := ⟨.owner, some 7, none, true⟩

/-- The build is completed, a record is added and changed. -/
def habitCalls : List (AppCall × Instant) :=
  [(.claim "a" 60, 0), (.complete (habitBuild 3) "", 0),
    (.mutate 1 "first" (.createRecord habitOwner "habit" (.obj [("name", .str "swim")])), 0),
    (.mutate 1 "second" (.updateRecord habitOwner 12 1 (.obj [("name", .str "run")])), 0)]

/-- The seed and the record conform. -/
theorem habit_records_conform :
    ∃ later : AppsDb, (later.records.map fun record => (record.id, record.version)) =
        [(11, 1), (12, 2)] ∧
      ∀ record ∈ later.records, record.dataBytes = jsonBytes (.obj record.data) ∧
        ∃ deployment revision, later.deployment? record.appId = some deployment ∧
          later.revision? deployment.activeRevisionId = some revision ∧
          validateEntityData Platform.ascii.toUnicode revision.manifest record.entity record.data =
            .ok record.data := by
  have runs : (execute (callStep Platform.ascii) (fun _ event => event.1.isOwn) habitApp
      habitCalls).any (fun later =>
        (later.records.map fun record => (record.id, record.version)) = [(11, 1), (12, 2)]) =
      true := by
    decide +kernel
  simp only [Option.any_eq_true, decide_eq_true_eq] at runs
  obtain ⟨later, toLater, records⟩ := runs
  refine ⟨later, records, ?_⟩
  apply records_conform _ _ ((run_of_execute toLater).mono apart_of_isOwn)
  · rfl
  · rfl

end DotBackend.Apps
