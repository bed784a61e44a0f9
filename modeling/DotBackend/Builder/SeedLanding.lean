import DotBackend.Apps.DeploymentHistory
import DotBackend.Builder.Seeds

/-!
# Where seeds land

The seeds of an entity are looked up under its name, and under its name with an "s" when there
is nothing. Two entities can then read one list, when the name of one is the plural of the
other.
-/

namespace DotBackend.Builder

open Data Channel Apps Transition

/-! ## Keys and rows -/

/-- The key under which the seeds of an entity are looked up in the end. -/
def seedKey (seedData : Fields) (name : String) : String :=
  match Json.lookup seedData name with
  | none | some .null => name ++ "s"
  | some _ => name

/-- The rows of a list; nothing else has rows. -/
def rowsOf : Json → List Json
  | .arr rows => rows
  | _ => []

/-- The rows under a key. -/
def rowsUnder (seedData : Fields) (key : String) : List Json :=
  ((Json.lookup seedData key).map rowsOf).getD []

/-- The number of the rows of all lists. -/
def rowCount (seedData : Fields) : Nat :=
  (seedData.map fun member => (rowsOf member.2).length).sum

section Rows

variable {seedData : Fields} {name : String}

theorem seedCandidates_eq :
    seedCandidates seedData name = Json.lookup seedData (seedKey seedData name) := by
  unfold seedCandidates seedKey
  cases known : Json.lookup seedData name with
  | none => rfl
  | some value => cases value <;> simp [known]

theorem entityCandidates_eq :
    entityCandidates seedData name = (rowsUnder seedData (seedKey seedData name)).take 200 := by
  rw [entityCandidates, seedCandidates_eq, rowsUnder]
  cases Json.lookup seedData (seedKey seedData name) with
  | none => rfl
  | some value => cases value <;> rfl

/-- Rows under different keys are different rows. -/
theorem sum_lookup_le (measure : Json → Nat) {keys : List String} (different : keys.Nodup)
    (fields : Fields) :
    (keys.map fun key => ((Json.lookup fields key).map measure).getD 0).sum ≤
      (fields.map fun member => measure member.2).sum := by
  induction fields generalizing keys with
  | nil => simp [Json.lookup_nil]
  | cons member rest ih =>
      have others : ∀ {keys : List String}, member.1 ∉ keys →
          (keys.map fun key => ((Json.lookup (member :: rest) key).map measure).getD 0) =
            keys.map fun key => ((Json.lookup rest key).map measure).getD 0 := by
        intro keys notMem
        apply List.map_congr_left
        intro key keyMem
        rw [Json.lookup_cons, if_neg]
        rintro rfl
        exact notMem keyMem
      rw [List.map_cons, List.sum_cons]
      by_cases isKey : member.1 ∈ keys
      · have whole := ((List.perm_cons_erase isKey).map fun key =>
          ((Json.lookup (member :: rest) key).map measure).getD 0).sum_eq
        rw [whole, List.map_cons, List.sum_cons, others (different.not_mem_erase),
          Json.lookup_cons, if_pos rfl]
        exact Nat.add_le_add_left (ih (different.erase _)) _
      · rw [others isKey]
        exact Nat.le_trans (ih different) (Nat.le_add_left _ _)

theorem length_entityRows_le :
    (entityRows seedData name).length ≤
      ((Json.lookup seedData (seedKey seedData name)).map fun value =>
        (rowsOf value).length).getD 0 := by
  have taken : (entityRows seedData name).length ≤
      (rowsUnder seedData (seedKey seedData name)).length := by
    rw [entityRows, entityCandidates_eq]
    apply Nat.le_trans (List.length_filterMap_le _ _)
    rw [List.length_take]
    exact Nat.min_le_right _ _
  apply Nat.le_trans taken
  rw [rowsUnder]
  cases Json.lookup seedData (seedKey seedData name) <;> exact Nat.le_refl _

theorem append_s_injective {first second : String} (same : first ++ "s" = second ++ "s") :
    first = second := by
  have texts := congrArg String.toList same
  rw [String.toList_append, String.toList_append] at texts
  exact String.toList_inj.mp (List.append_cancel_right texts)

end Rows

/-! ## Competition -/

/-- An entity has no seeds of its own, and those of its plural, which is an entity too, have
a row. -/
def Competing (seedData : Fields) (names : List String) : Prop :=
  ∃ name ∈ names, name ++ "s" ∈ names ∧
    (Json.lookup seedData name = none ∨ Json.lookup seedData name = some .null) ∧
    ∃ rows raw, Json.lookup seedData (name ++ "s") = some (.arr rows) ∧ .obj raw ∈ rows.take 200

section Competition

variable {seedData : Fields} {names : List String} {first second name : String}

theorem seedKey_of_absent (absent : Json.lookup seedData name = none ∨
    Json.lookup seedData name = some .null) : seedKey seedData name = name ++ "s" := by
  unfold seedKey
  rcases absent with absent | absent <;> rw [absent]

theorem seedKey_cases (seedData : Fields) (name : String) : seedKey seedData name = name ∨
    (seedKey seedData name = name ++ "s" ∧
      (Json.lookup seedData name = none ∨ Json.lookup seedData name = some .null)) := by
  unfold seedKey
  cases known : Json.lookup seedData name with
  | none => simp
  | some value => cases value <;> simp

/-- A row that is read is in the list under the key. -/
theorem exists_rows {row : Fields} (isRow : row ∈ entityRows seedData name) :
    ∃ rows, Json.lookup seedData (seedKey seedData name) = some (.arr rows) ∧
      .obj row ∈ rows.take 200 := by
  rw [entityRows, entityCandidates_eq, seedRows, List.mem_filterMap] at isRow
  rcases isRow with ⟨candidate, candidateMem, isObject⟩
  rw [rowsUnder] at candidateMem
  split at isObject
  · cases isObject
    cases found : Json.lookup seedData (seedKey seedData name) with
    | none => simp [found] at candidateMem
    | some value =>
        cases value with
        | arr rows =>
            rw [found] at candidateMem
            exact ⟨rows, rfl, candidateMem⟩
        | null | bool | int | float | str | obj => simp [found, rowsOf] at candidateMem
  · cases isObject

/-- Different entities that read rows under one key compete. -/
theorem competing_of_sameKey (firstMem : first ∈ names) (secondMem : second ∈ names)
    (different : first ≠ second) (sameKey : seedKey seedData first = seedKey seedData second)
    {row : Fields} (isRow : row ∈ entityRows seedData first) : Competing seedData names := by
  rcases exists_rows isRow with ⟨rows, found, rowMem⟩
  rcases seedKey_cases seedData first with firstKey | ⟨firstKey, firstAbsent⟩
  · rcases seedKey_cases seedData second with secondKey | ⟨secondKey, absent⟩
    · exact absurd (firstKey.symm.trans (sameKey.trans secondKey)) different
    · have plural : first = second ++ "s" := firstKey.symm.trans (sameKey.trans secondKey)
      rw [firstKey, plural] at found
      exact ⟨second, secondMem, plural ▸ firstMem, absent, rows, row, found, rowMem⟩
  · rcases seedKey_cases seedData second with secondKey | ⟨secondKey, _⟩
    · have plural : second = first ++ "s" := secondKey.symm.trans (sameKey.symm.trans firstKey)
      rw [firstKey] at found
      exact ⟨first, firstMem, plural ▸ secondMem, firstAbsent, rows, row, found, rowMem⟩
    · exact absurd (append_s_injective (firstKey.symm.trans (sameKey.trans secondKey))) different

/-- Entities that compete read the same rows. -/
theorem sameKey_of_competing (competing : Competing seedData names) :
    ∃ first ∈ names, ∃ second ∈ names, first ≠ second ∧
      seedKey seedData first = seedKey seedData second ∧
      (∃ row, row ∈ entityRows seedData first) ∧ ∃ row, row ∈ entityRows seedData second := by
  rcases competing with ⟨name, nameMem, pluralMem, absent, rows, raw, found, rawMem⟩
  have key := seedKey_of_absent absent
  have pluralKey : seedKey seedData (name ++ "s") = name ++ "s" := by
    rw [seedKey, found]
  have isRow : ∀ {other}, seedKey seedData other = name ++ "s" →
      raw ∈ entityRows seedData other := by
    intro other otherKey
    rw [entityRows, entityCandidates_eq, otherKey, rowsUnder, found, seedRows, List.mem_filterMap]
    exact ⟨.obj raw, rawMem, rfl⟩
  refine ⟨name, nameMem, name ++ "s", pluralMem, ?_, key.trans pluralKey.symm, ⟨raw, isRow key⟩,
    raw, isRow pluralKey⟩
  intro same
  have lengths := congrArg String.length same
  rw [String.length_append] at lengths
  exact absurd lengths (Nat.ne_of_lt (Nat.lt_succ_self _))

end Competition

/-! ## What is inserted -/

/-- The names in a list of definitions. -/
def definedNames (definitions : List Json) : List String :=
  definitions.filterMap fun definition => match definition.get? "name" with
    | some (.str name) => some name
    | _ => none

/-- The names that a manifest declares. -/
def declaredNames (manifest : Json) : List String :=
  match manifestEntities manifest with
  | .arr definitions => definedNames definitions
  | _ => []

/-- What is stored of a record. -/
def storedRow (record : GeneratedAppDataRecord) : Uuid × String × Fields :=
  (record.appId, record.entity, record.data)

/-- The rows that an entity stores. -/
def entityStores (appId : Uuid) (seedData : Fields) (name : String) :
    List (Uuid × String × Fields) :=
  (entityRows seedData name).map fun row => (appId, name, row)

section Insertion

variable {unicode : Unicode} {db after : AppsDb} {appId userId : Uuid} {manifest : Json}
  {seedData : Fields} {name : String} {now : Instant}

theorem name_of_entity {value : Option Json} (isName : entity value = .ok name) :
    value = some (.str name) := by
  cases value with
  | none => cases isName
  | some value =>
      cases value with
      | str text => rw [(entity_eq_ok.mp isName).2]
      | null | bool | int | float | arr | obj => cases isName

theorem stored_seedRecords {candidates : List Json}
    (seeded : seedRecords unicode appId userId manifest name now db candidates = .ok after) :
    after.records.map storedRow =
      db.records.map storedRow ++ (seedRows candidates).map fun row => (appId, name, row) := by
  induction candidates generalizing db with
  | nil =>
      cases seeded
      exact (List.append_nil _).symm
  | cons candidate rest ih =>
      cases candidate with
      | obj raw =>
          simp only [seedRecords, bind_eq_ok] at seeded
          rcases seeded with ⟨clean, accepted, _, _, later⟩
          rw [ih later, validateEntityData_eq accepted]
          simp [insertRecord, storedRow, newRecord, seedRows]
      | null | bool | int | float | str | arr => exact ih seeded

theorem stored_seedEntities {definitions : List Json}
    (seeded : seedEntities unicode appId userId manifest seedData now db definitions = .ok after) :
    after.records.map storedRow = db.records.map storedRow ++
      (definedNames definitions).flatMap (entityStores appId seedData) := by
  induction definitions generalizing db with
  | nil =>
      cases seeded
      exact (List.append_nil _).symm
  | cons definition rest ih =>
      simp only [seedEntities, bind_eq_ok, seedEntity_eq] at seeded
      rcases seeded with ⟨name, isName, middle, first, later⟩
      have names : definedNames (definition :: rest) = name :: definedNames rest := by
        rw [definedNames, List.filterMap_cons, name_of_entity isName]
        rfl
      rw [ih later, stored_seedRecords first, names, List.flatMap_cons,
        List.append_assoc]
      rfl

theorem stored_seedCodeAppRecords
    (seeded : seedCodeAppRecords unicode db appId userId manifest seedData now = .ok after) :
    after.records.map storedRow = db.records.map storedRow ++
      (declaredNames manifest).flatMap (entityStores appId seedData) := by
  simp only [seedCodeAppRecords, bind_eq_ok] at seeded
  rcases seeded with ⟨_, _, seeded⟩
  rw [declaredNames]
  cases listed : manifestEntities manifest with
  | arr definitions =>
      rw [listed] at seeded
      exact stored_seedEntities seeded
  | null | bool | int | float | str | obj =>
      rw [listed] at seeded
      cases seeded
      exact (List.append_nil _).symm

end Insertion

/-- An accepted list of definitions declares no name twice. -/
theorem nodup_of_validateEntities {seen : List String} {definitions : List Json}
    (valid : validateEntities seen definitions = .ok ()) :
    (definedNames definitions).Nodup ∧ ∀ name ∈ definedNames definitions, name ∉ seen := by
  induction definitions generalizing seen with
  | nil =>
      constructor
      · exact List.nodup_nil
      · intro name nameMem
        cases nameMem
  | cons definition rest ih =>
      cases definition with
      | obj value =>
          simp only [validateEntities, bind_eq_ok, require_eq_ok, decide_eq_true_eq] at valid
          rcases valid with ⟨name, isName, _, isNew, _, _, _, _, _, _, others⟩
          rcases ih others with ⟨different, notSeen⟩
          have named : (Json.obj value).get? "name" = some (.str name) := name_of_entity isName
          have names : definedNames (.obj value :: rest) = name :: definedNames rest := by
            rw [definedNames, List.filterMap_cons, named]
            rfl
          rw [names]
          constructor
          · apply List.nodup_cons.mpr
            constructor
            · intro nameMem
              exact notSeen name nameMem (List.mem_cons_self ..)
            · exact different
          · intro other otherMem
            rcases List.mem_cons.mp otherMem with rfl | otherMem
            · exact isNew
            · intro isSeen
              exact notSeen other otherMem (List.mem_cons_of_mem _ isSeen)
      | null | bool | int | float | str | arr => cases valid

theorem nodup_declaredNames {manifest : Json} (valid : validateManifest manifest = .ok ()) :
    (declaredNames manifest).Nodup := by
  cases manifest with
  | obj fields =>
      simp only [validateManifest, bind_eq_ok] at valid
      rcases valid with ⟨_, _, _, _, _, _, valid⟩
      rw [declaredNames]
      cases listed : manifestEntities (.obj fields) with
      | arr definitions =>
          rw [listed] at valid
          simp only [bind_eq_ok] at valid
          rcases valid with ⟨_, _, valid⟩
          exact (nodup_of_validateEntities valid).1
      | null | bool | int | float | str | obj => exact List.nodup_nil
  | null | bool | int | float | str | arr => cases valid

/-! ## Landing once -/

/-- Records that come from seeds: no list is stored under two entities, and no more records are
stored than there are rows. -/
structure SeedsLandOnce (seedData : Fields) (records : List GeneratedAppDataRecord) : Prop where
  oneEntity : ∀ first ∈ records, ∀ second ∈ records,
    seedKey seedData first.entity = seedKey seedData second.entity → first.entity = second.entity
  count : records.length ≤ rowCount seedData

section Landing

variable {seedData : Fields} {names : List String} {appId : Uuid}
  {records : List GeneratedAppDataRecord}

theorem mem_stored {record : GeneratedAppDataRecord}
    (stored : records.map storedRow = names.flatMap (entityStores appId seedData))
    (recordMem : record ∈ records) :
    record.entity ∈ names ∧ record.data ∈ entityRows seedData record.entity := by
  have rowMem : storedRow record ∈ names.flatMap (entityStores appId seedData) := by
    rw [← stored]
    exact List.mem_map_of_mem recordMem
  rcases List.mem_flatMap.mp rowMem with ⟨name, nameMem, rowMem⟩
  rcases List.mem_map.mp rowMem with ⟨row, isRow, same⟩
  simp only [storedRow, Prod.mk.injEq] at same
  rcases same with ⟨_, rfl, rfl⟩
  exact ⟨nameMem, isRow⟩

theorem exists_stored {name : String} {row : Fields}
    (stored : records.map storedRow = names.flatMap (entityStores appId seedData))
    (nameMem : name ∈ names) (isRow : row ∈ entityRows seedData name) :
    ∃ record ∈ records, record.entity = name := by
  have rowMem : (appId, name, row) ∈ records.map storedRow := by
    rw [stored]
    exact List.mem_flatMap.mpr ⟨name, nameMem, List.mem_map_of_mem isRow⟩
  rcases List.mem_map.mp rowMem with ⟨record, recordMem, same⟩
  simp only [storedRow, Prod.mk.injEq] at same
  exact ⟨record, recordMem, same.2.1⟩

theorem sum_map_filter_pos (measure : String → Nat) (names : List String) :
    (names.map measure).sum =
      ((names.filter fun name => 0 < measure name).map measure).sum := by
  induction names with
  | nil => rfl
  | cons name rest ih =>
      by_cases positive : 0 < measure name
      · simp [positive, ih]
      · simp [ih, Nat.eq_zero_of_not_pos positive]

/-- Entities that read different lists read at most all rows. -/
theorem sum_entityRows_le (different : names.Nodup) (apart : ¬ Competing seedData names) :
    (names.map fun name => (entityRows seedData name).length).sum ≤ rowCount seedData := by
  rw [sum_map_filter_pos]
  have keysDiffer : ((names.filter fun name => 0 < (entityRows seedData name).length).map
      (seedKey seedData)).Nodup := by
    apply List.Nodup.map_on _ (different.filter _)
    intro first firstMem second secondMem sameKey
    rw [List.mem_filter, decide_eq_true_eq] at firstMem secondMem
    by_contra notSame
    rcases List.exists_mem_of_length_pos firstMem.2 with ⟨row, isRow⟩
    exact apart (competing_of_sameKey firstMem.1 secondMem.1 notSame sameKey isRow)
  apply Nat.le_trans _ (sum_lookup_le (fun value => (rowsOf value).length) keysDiffer seedData)
  rw [List.map_map]
  apply List.sum_le_sum
  intro name _
  exact length_entityRows_le

/-- The rows land once exactly if no entities compete. -/
theorem seedsLandOnce_iff (different : names.Nodup)
    (stored : records.map storedRow = names.flatMap (entityStores appId seedData)) :
    SeedsLandOnce seedData records ↔ ¬ Competing seedData names := by
  constructor
  · intro once competing
    rcases sameKey_of_competing competing with
      ⟨first, firstMem, second, secondMem, notSame, sameKey, ⟨_, firstRow⟩, _, secondRow⟩
    rcases exists_stored stored firstMem firstRow with ⟨record, recordMem, rfl⟩
    rcases exists_stored stored secondMem secondRow with ⟨other, otherMem, rfl⟩
    exact notSame (once.oneEntity record recordMem other otherMem sameKey)
  · intro apart
    constructor
    · intro first firstMem second secondMem sameKey
      rcases mem_stored stored firstMem with ⟨firstName, firstRow⟩
      rcases mem_stored stored secondMem with ⟨secondName, _⟩
      by_contra notSame
      exact apart (competing_of_sameKey firstName secondName notSame sameKey firstRow)
    · have lengths := congrArg List.length stored
      rw [List.length_map, List.length_flatMap] at lengths
      rw [lengths]
      simp only [entityStores, List.length_map]
      exact sum_entityRows_le different apart

end Landing

/-! ## First deployments -/

/-- The seeds of a revision are read on a first deployment, once. -/
def SeedsCompete (revision : GeneratedAppRevision) : Prop :=
  revision.seedAppliedAt = none ∧ Competing revision.seedData (declaredNames revision.manifest)

section FirstDeployment

variable {unicode : Unicode} {db after : AppsDb} {appId userId revisionId : Uuid}
  {revision : GeneratedAppRevision} {expected : Option (Option Uuid)} {now : Instant}

/-- The records of an app that had none, after seeding. -/
theorem recordsOf_of_stored {names : List String} {seedData : Fields}
    (noRecords : db.recordsOf appId = [])
    (stored : after.records.map storedRow =
      db.records.map storedRow ++ names.flatMap (entityStores appId seedData)) :
    (after.recordsOf appId).map storedRow = names.flatMap (entityStores appId seedData) := by
  have filtered : ∀ table : AppsDb, (table.recordsOf appId).map storedRow =
      (table.records.map storedRow).filter fun row => row.1 = appId := by
    intro table
    rw [List.filter_map]
    rfl
  have allNew : ∀ row ∈ names.flatMap (entityStores appId seedData), row.1 = appId := by
    intro row rowMem
    rcases List.mem_flatMap.mp rowMem with ⟨name, _, rowMem⟩
    rcases List.mem_map.mp rowMem with ⟨_, _, rfl⟩
    rfl
  rw [filtered, stored, List.filter_append, ← filtered, noRecords, List.map_nil, List.nil_append]
  apply List.filter_eq_self.mpr
  intro row rowMem
  exact decide_eq_true (allNew row rowMem)

/-- What a first deployment stores. -/
theorem stored_of_promoteRevision (found : db.revision? revisionId = some revision)
    (noDeployment : db.deployment? appId = none) (noRecords : db.recordsOf appId = [])
    (promotes : promoteRevision unicode db appId revisionId expected now = .ok after) :
    (revision.seedAppliedAt ≠ none ∧ after.recordsOf appId = []) ∨
      (revision.seedAppliedAt = none ∧ (declaredNames revision.manifest).Nodup ∧
        (after.recordsOf appId).map storedRow =
          (declaredNames revision.manifest).flatMap (entityStores appId revision.seedData)) := by
  rw [promoteRevision, found] at promotes
  simp only [bind_eq_ok] at promotes
  rcases promotes with ⟨_, _, _, _, promotes⟩
  cases foundApp : db.app? appId with
  | none =>
      rw [foundApp] at promotes
      cases promotes
  | some app =>
      have appId_eq : app.id = appId := by simpa using List.find?_some foundApp
      rw [foundApp] at promotes
      simp only [bind_eq_ok] at promotes
      rcases promotes with ⟨_, _, swapped, swaps, consumes⟩
      rcases swapDeployment_eq_ok swaps with ⟨⟨deployments, rfl⟩, _⟩
      rw [consumeSeeds, noDeployment] at consumes
      by_cases isApplied : revision.seedAppliedAt.isSome = true
      · rw [if_pos isApplied] at consumes
        cases consumes
        left
        constructor
        · intro notApplied
          rw [notApplied] at isApplied
          cases isApplied
        · exact noRecords
      · have isEmpty : (db.records.any fun record => record.appId = app.id) = false := by
          rw [appId_eq]
          simpa [AppsDb.recordsOf] using noRecords
        change (if _ then _ else if true && !(db.records.any _) then _ else _) = _ at consumes
        rw [if_neg isApplied, isEmpty, Bool.not_false, Bool.and_true, if_pos rfl] at consumes
        simp only [bind_eq_ok, pure_eq_ok] at consumes
        rcases consumes with ⟨seeded, seeds, rfl⟩
        right
        refine ⟨by simpa using isApplied, ?_, ?_⟩
        · have valid := seeds
          simp only [seedCodeAppRecords, bind_eq_ok] at valid
          rcases valid with ⟨_, valid, _⟩
          exact nodup_declaredNames valid
        · have stored := stored_seedCodeAppRecords seeds
          rw [appId_eq] at stored
          exact recordsOf_of_stored noRecords stored

/-- The first deployment of an app without records stores the rows that each entity reads. It
stores every row under at most one entity, and no more records than rows, exactly if the seeds
are not read by two entities. -/
theorem seeds_land_once_iff (found : db.revision? revisionId = some revision)
    (noDeployment : db.deployment? appId = none) (noRecords : db.recordsOf appId = [])
    (promotes : promoteRevision unicode db appId revisionId expected now = .ok after) :
    (revision.seedAppliedAt = none → (after.recordsOf appId).map storedRow =
      (declaredNames revision.manifest).flatMap (entityStores appId revision.seedData)) ∧
    (SeedsLandOnce revision.seedData (after.recordsOf appId) ↔ ¬ SeedsCompete revision) := by
  rcases stored_of_promoteRevision found noDeployment noRecords promotes with
    ⟨isApplied, none⟩ | ⟨notApplied, different, stored⟩
  · constructor
    · intro notApplied
      exact absurd notApplied isApplied
    · constructor
      · rintro _ ⟨notApplied, _⟩
        exact isApplied notApplied
      · intro _
        rw [none]
        constructor
        · intro first firstMem
          cases firstMem
        · exact Nat.zero_le _
  · constructor
    · intro _
      exact stored
    · rw [seedsLandOnce_iff different stored, SeedsCompete, and_iff_right notApplied]

end FirstDeployment

/-! ## Habits -/

/-- The seeds of the habits, under the plural. -/
def habitSeeds : Fields := [("habits", .arr [.obj [("name", .str "read")]])]

/-- The schema of an app whose second entity has the plural of the first as its name. -/
def rivalManifest : Json :=
  .obj [("schema_version", .int 1), ("entities", .arr (["habit", "habits"].map fun name =>
    .obj [("name", .str name), ("fields", .obj [("name", .obj [("type", .str "string")])])]))]

/-- One row is stored for both entities by the first build. -/
theorem rival_seeds_land_twice :
    ∃ later : AppsDb, Run (callStep Platform.ascii) apart habitApp later ∧
      habitApp.recordsOf 1 = [] ∧
      ¬ SeedsLandOnce habitSeeds (later.recordsOf 1) := by
  have runs : (execute (callStep Platform.ascii) (fun _ event => event.1.isOwn) habitApp
      [(.claim "a" 60, 0), (.complete { habitBuild 3 with manifest := rivalManifest } "", 0)]).any
        (fun later => (later.recordsOf 1).length = 2) = true := by
    decide +kernel
  simp only [Option.any_eq_true, decide_eq_true_eq] at runs
  rcases runs with ⟨later, toLater, twice⟩
  refine ⟨later, (run_of_execute toLater).mono apart_of_isOwn, rfl, ?_⟩
  intro once
  have count := once.count
  rw [twice] at count
  exact absurd count (by decide)

/-- A revision of the habits that was not deployed yet. -/
def firstHabits : GeneratedAppRevision :=
  ⟨5, 1, 1, "Habits", "", .ready, habitManifest, habitSeeds, none, [], habitArtifact, "1"⟩

theorem habit_seeds_land_once :
    ∃ after : AppsDb, after.recordsOf 1 ≠ [] ∧ SeedsLandOnce habitSeeds (after.recordsOf 1) := by
  have found : (insertRevision firstHabits habitApp).revision? 5 = some firstHabits := rfl
  have promotes : (promoteRevision Unicode.ascii (insertRevision firstHabits habitApp) 1 5 none
      0).toOption.any (fun after => after.recordsOf 1 ≠ []) = true := by
    decide +kernel
  cases outcome : promoteRevision Unicode.ascii (insertRevision firstHabits habitApp) 1 5 none
      0 with
  | error error =>
      rw [outcome] at promotes
      cases promotes
  | ok after =>
      rw [outcome] at promotes
      refine ⟨after, of_decide_eq_true promotes, ?_⟩
      apply (seeds_land_once_iff found rfl rfl outcome).2.mpr
      rintro ⟨_, name, nameMem, pluralMem, _⟩
      rw [List.mem_singleton.mp nameMem] at pluralMem
      exact absurd (List.mem_singleton.mp pluralMem) (by decide)

end DotBackend.Builder
