import DotBackend.Apps.Builds

/-!
# What a promotion does

The specification of `promote_revision`: it swaps the pointer of the deployment, adds seed
records that the promoted manifest accepts, and only on the first deployment of an app
without records.
-/

namespace DotBackend.Apps

open Data

variable {unicode : Unicode} {appId revisionId userId : Uuid} {manifest : Json} {now : Instant}
  {db after : AppsDb}

/-! ## Conforming records -/

/-- A record that a manifest accepts, with the size of its data. -/
structure GeneratedAppDataRecord.Conforms (unicode : Unicode) (manifest : Json)
    (record : GeneratedAppDataRecord) : Prop where
  accepted : validateEntityData unicode manifest record.entity record.data = .ok record.data
  measured : record.dataBytes = jsonBytes (.obj record.data)

/-- Records of an app were added, and every one conforms. -/
def AddsRecords (unicode : Unicode) (appId : Uuid) (manifest : Json) (db after : AppsDb) : Prop :=
  ∃ added, after.records = db.records ++ added ∧
    ∀ record ∈ added, record.appId = appId ∧ record.Conforms unicode manifest

theorem AddsRecords.refl (db : AppsDb) : AddsRecords unicode appId manifest db db :=
  ⟨[], (List.append_nil _).symm, fun _ recordMem => absurd recordMem List.not_mem_nil⟩

theorem AddsRecords.trans {middle : AppsDb} (first : AddsRecords unicode appId manifest db middle)
    (second : AddsRecords unicode appId manifest middle after) :
    AddsRecords unicode appId manifest db after := by
  obtain ⟨firstAdded, first_eq, firstConform⟩ := first
  obtain ⟨secondAdded, second_eq, secondConform⟩ := second
  refine ⟨firstAdded ++ secondAdded, ?_, ?_⟩
  · rw [second_eq, first_eq, List.append_assoc]
  · intro record recordMem
    rcases List.mem_append.mp recordMem with firstMem | secondMem
    · exact firstConform record firstMem
    · exact secondConform record secondMem

theorem addsRecords_insertRecord {name : String} {data clean : Fields} {creator : Option Uuid}
    (accepted : validateEntityData unicode manifest name data = .ok clean) :
    AddsRecords unicode appId manifest db
      (insertRecord (newRecord db appId name clean creator now) db) := by
  refine ⟨_, rfl, ?_⟩
  intro record recordMem
  rw [List.mem_singleton.mp recordMem]
  refine ⟨rfl, ?_, rfl⟩
  have same := validateEntityData_eq accepted
  subst same
  exact accepted

/-- The primary key of records, with the supply it is drawn from. -/
structure AppsDb.RecordsKeyed (db : AppsDb) : Prop where
  unique : Table.UniqueOn (fun record => some record.id) db.records
  known : ∀ record ∈ db.records, record.id < db.nextId

namespace AppsDb.RecordsKeyed

theorem of_eq (keyed : db.RecordsKeyed) (records : after.records = db.records)
    (supply : db.nextId ≤ after.nextId) : after.RecordsKeyed where
  unique := records ▸ keyed.unique
  known := by
    rw [records]
    exact fun record recordMem => lt_of_lt_of_le (keyed.known record recordMem) supply

theorem insertRecord (keyed : db.RecordsKeyed) {record : GeneratedAppDataRecord}
    (isNext : record.id = db.nextId) : (insertRecord record db).RecordsKeyed where
  unique := by
    apply keyed.unique.append
    intro other otherMem
    rw [isNext]
    exact Nat.ne_of_lt (keyed.known other otherMem)
  known := by
    intro other otherMem
    rcases List.mem_append.mp otherMem with oldMem | newMem
    · exact Nat.lt_succ_of_lt (keyed.known other oldMem)
    · rw [List.mem_singleton.mp newMem, isNext]
      exact Nat.lt_succ_self _

end AppsDb.RecordsKeyed

/-- Only records were added, and identifiers drawn. -/
structure SeedsOnly (db after : AppsDb) : Prop where
  deployments : after.deployments = db.deployments
  revisions : after.revisions = db.revisions
  apps : after.apps = db.apps
  keyed : db.RecordsKeyed → after.RecordsKeyed

theorem SeedsOnly.refl (db : AppsDb) : SeedsOnly db db :=
  ⟨rfl, rfl, rfl, fun keyed => keyed⟩

theorem SeedsOnly.trans {middle : AppsDb} (first : SeedsOnly db middle)
    (second : SeedsOnly middle after) : SeedsOnly db after where
  deployments := second.deployments.trans first.deployments
  revisions := second.revisions.trans first.revisions
  apps := second.apps.trans first.apps
  keyed := fun keyed => second.keyed (first.keyed keyed)

theorem seedRecords_adds {name : String} {candidates : List Json}
    (seeded : seedRecords unicode appId userId manifest name now db candidates = .ok after) :
    AddsRecords unicode appId manifest db after ∧ SeedsOnly db after := by
  induction candidates generalizing db with
  | nil =>
      cases seeded
      exact ⟨AddsRecords.refl _, SeedsOnly.refl _⟩
  | cons candidate rest ih =>
      cases candidate with
      | obj raw =>
          simp only [seedRecords, bind_eq_ok] at seeded
          obtain ⟨clean, accepted, _, _, later⟩ := seeded
          obtain ⟨adds, only⟩ := ih later
          have inserts : SeedsOnly db
              (insertRecord (newRecord db appId name clean (some userId) now) db) :=
            ⟨rfl, rfl, rfl, fun keyed => keyed.insertRecord rfl⟩
          exact ⟨(addsRecords_insertRecord accepted).trans adds, inserts.trans only⟩
      | null | bool | int | float | str | arr => exact ih seeded

theorem seedEntities_adds {seedData : Fields} {entities : List Json}
    (seeded : seedEntities unicode appId userId manifest seedData now db entities = .ok after) :
    AddsRecords unicode appId manifest db after ∧ SeedsOnly db after := by
  induction entities generalizing db with
  | nil =>
      cases seeded
      exact ⟨AddsRecords.refl _, SeedsOnly.refl _⟩
  | cons definition rest ih =>
      simp only [seedEntities, bind_eq_ok] at seeded
      obtain ⟨name, _, middle, first, later⟩ := seeded
      have firstAdds : AddsRecords unicode appId manifest db middle ∧ SeedsOnly db middle := by
        unfold seedEntity at first
        split at first
        · exact seedRecords_adds first
        · cases first
          exact ⟨AddsRecords.refl _, SeedsOnly.refl _⟩
      obtain ⟨adds, only⟩ := ih later
      exact ⟨firstAdds.1.trans adds, firstAdds.2.trans only⟩

theorem seedCodeAppRecords_adds {seedData : Fields}
    (seeded : seedCodeAppRecords unicode db appId userId manifest seedData now = .ok after) :
    AddsRecords unicode appId manifest db after ∧ SeedsOnly db after := by
  simp only [seedCodeAppRecords, bind_eq_ok] at seeded
  obtain ⟨_, _, seeded⟩ := seeded
  split at seeded
  · exact seedEntities_adds seeded
  · cases seeded
    exact ⟨AddsRecords.refl _, SeedsOnly.refl _⟩

/-! ## The pointer swap -/

/-- The deployment of an app after a promotion: the pointer moves on, by one version, unless
the revision is active already. -/
def promotedDeployment (appId revisionId : Uuid) :
    Option GeneratedAppDeployment → GeneratedAppDeployment
  | none => ⟨appId, revisionId, none, 1⟩
  | some deployment =>
      if deployment.activeRevisionId = revisionId then deployment
      else deployment.swappedTo revisionId

@[simp]
theorem promotedDeployment_active (current : Option GeneratedAppDeployment) :
    (promotedDeployment appId revisionId current).activeRevisionId = revisionId := by
  cases current with
  | none => rfl
  | some deployment =>
      by_cases isActive : deployment.activeRevisionId = revisionId
      · simp only [promotedDeployment, isActive, if_true]
      · simp only [promotedDeployment, isActive, if_false, GeneratedAppDeployment.swappedTo]

/-- The swap touches the deployment of its app only, when the condition on the active
revision holds. -/
theorem swapDeployment_eq_ok {expected : Option (Option Uuid)}
    (swapped : swapDeployment db appId revisionId expected = .ok after) :
    (∃ deployments, after = { db with deployments := deployments }) ∧
      after.deployment? appId =
        some (promotedDeployment appId revisionId (db.deployment? appId)) ∧
      (∀ other, other ≠ appId → after.deployment? other = db.deployment? other) ∧
      ∀ revision, expected = some revision →
        (db.deployment? appId).map (·.activeRevisionId) = revision := by
  unfold swapDeployment at swapped
  simp only at swapped
  split at swapped
  · cases swapped
  · rename_i asExpected
    have condition : ∀ revision, expected = some revision →
        (db.deployment? appId).map (·.activeRevisionId) = revision := by
      rintro revision rfl
      simpa using asExpected
    split at swapped
    · rename_i none_deployed
      cases swapped
      refine ⟨⟨_, rfl⟩, ?_, ?_, condition⟩
      · have absent : db.deployments.find? (fun row => row.appId = appId) = none := none_deployed
        simp [AppsDb.deployment?, List.find?_append, absent, promotedDeployment]
      · intro other different
        simp [AppsDb.deployment?, List.find?_append, Ne.symm different]
    · rename_i deployment deployed
      split at swapped
      · rename_i isActive
        cases swapped
        refine ⟨⟨_, rfl⟩, ?_, fun _ _ => rfl, condition⟩
        simp [deployed, promotedDeployment, isActive]
      · rename_i notActive
        cases swapped
        have keeps : ∀ row, (GeneratedAppDeployment.swappedTo revisionId row).appId = row.appId :=
          fun _ => rfl
        have look := fun other => db.deployment?_updateDeployment appId other keeps
        refine ⟨⟨_, rfl⟩, (look appId).trans ?_, ?_, condition⟩
        · simp only [deployed, if_true, Option.map_some, promotedDeployment, notActive, if_false]
        · intro other different
          exact (look other).trans (if_neg different)

/-! ## The promotion -/

/-- A revision without the mark of its seeds, which is all that changes of it. -/
def GeneratedAppRevision.unmarked (revision : GeneratedAppRevision) : GeneratedAppRevision :=
  { revision with seedAppliedAt := none }

/-- What `promote_revision` makes of the tables, `revision` being the one it promotes. -/
structure Promoted (unicode : Unicode) (appId : Uuid) (revision : GeneratedAppRevision)
    (expected : Option (Option Uuid)) (db after : AppsDb) : Prop where
  ofApp : revision.appId = appId
  asExpected : ∀ active, expected = some active →
    (db.deployment? appId).map (·.activeRevisionId) = active
  deployment : after.deployment? appId =
    some (promotedDeployment appId revision.id (db.deployment? appId))
  others : ∀ other, other ≠ appId → after.deployment? other = db.deployment? other
  revisions : after.revisions.map GeneratedAppRevision.unmarked =
    db.revisions.map GeneratedAppRevision.unmarked
  apps : after.apps = (describeApp db appId revision).apps
  records : AddsRecords unicode appId revision.manifest db after
  keyed : db.RecordsKeyed → after.RecordsKeyed
  seeded : after.records ≠ db.records → db.deployment? appId = none ∧
    ∀ record ∈ db.records, record.appId ≠ appId

theorem map_unmarked_updateRevision (id : Uuid) (appliedAt : Option Instant) :
    (db.updateRevision id fun row => { row with seedAppliedAt := appliedAt }).revisions.map
      GeneratedAppRevision.unmarked = db.revisions.map GeneratedAppRevision.unmarked := by
  apply Table.map_update_of_keeps GeneratedAppRevision.unmarked
  intro row
  rfl

/-- The seeds of a revision are records that its manifest accepts. -/
theorem consumeSeeds_eq_ok {app : GeneratedApp} {revision : GeneratedAppRevision}
    {isFirstDeployment : Bool}
    (consumed : consumeSeeds unicode db app revision isFirstDeployment now = .ok after) :
    after.deployments = db.deployments ∧ after.apps = db.apps ∧
      after.revisions.map GeneratedAppRevision.unmarked =
        db.revisions.map GeneratedAppRevision.unmarked ∧
      AddsRecords unicode app.id revision.manifest db after ∧
      (db.RecordsKeyed → after.RecordsKeyed) ∧
      (after.records ≠ db.records →
        isFirstDeployment = true ∧ ∀ record ∈ db.records, record.appId ≠ app.id) := by
  unfold consumeSeeds at consumed
  split at consumed
  · cases consumed
    exact ⟨rfl, rfl, rfl, AddsRecords.refl _, fun keyed => keyed, fun changed => absurd rfl changed⟩
  · split at consumed
    · rename_i isFirst
      simp only [bind_eq_ok, pure_eq_ok] at consumed
      obtain ⟨seeded, seeds, rfl⟩ := consumed
      obtain ⟨adds, only⟩ := seedCodeAppRecords_adds seeds
      refine ⟨only.deployments, only.apps, ?_, adds, ?_, fun _ => ?_⟩
      · rw [map_unmarked_updateRevision, only.revisions]
      · exact fun keyed => (only.keyed keyed).of_eq rfl (le_refl _)
      · simpa using isFirst
    · cases consumed
      exact ⟨rfl, rfl, map_unmarked_updateRevision _ _, AddsRecords.refl _,
        fun keyed => keyed.of_eq rfl (le_refl _), fun changed => absurd rfl changed⟩

/-- The specification of `promote_revision`. -/
theorem promoteRevision_eq_ok {expected : Option (Option Uuid)}
    (succeeded : promoteRevision unicode db appId revisionId expected now = .ok after) :
    ∃ revision, db.revision? revisionId = some revision ∧
      Promoted unicode appId revision expected db after := by
  unfold promoteRevision at succeeded
  split at succeeded
  · cases succeeded
  · rename_i revision found
    simp only [bind_eq_ok, require_eq_ok, decide_eq_true_eq] at succeeded
    obtain ⟨_, ofApp, _, _, succeeded⟩ := succeeded
    have sameId : revision.id = revisionId := by simpa using List.find?_some found
    split at succeeded
    · cases succeeded
    · rename_i app foundApp
      have appId_eq : app.id = appId := by simpa using List.find?_some foundApp
      simp only [bind_eq_ok] at succeeded
      obtain ⟨_, _, swapped, swaps, consumes⟩ := succeeded
      obtain ⟨⟨deployments, rfl⟩, pointer, others, asExpected⟩ := swapDeployment_eq_ok swaps
      obtain ⟨sameDeployments, sameApps, sameRevisions, adds, keeps, onlyFirst⟩ :=
        consumeSeeds_eq_ok consumes
      refine ⟨revision, found, ofApp, asExpected, ?_, ?_, sameRevisions, sameApps, ?_, ?_, ?_⟩
      · rw [AppsDb.deployment?, sameDeployments, sameId]
        exact pointer
      · intro other different
        rw [AppsDb.deployment?, sameDeployments]
        exact others other different
      · rw [appId_eq] at adds
        exact adds
      · exact fun keyed => keeps (keyed.of_eq rfl (le_refl _))
      · intro changed
        obtain ⟨isFirst, noRecords⟩ := onlyFirst changed
        rw [appId_eq] at noRecords
        exact ⟨Option.isNone_iff_eq_none.mp isFirst, noRecords⟩

end DotBackend.Apps
