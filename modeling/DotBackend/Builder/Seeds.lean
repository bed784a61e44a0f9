import DotBackend.Builder.Manifests

/-!
# The seeds of a first deployment

Before an app has records, its seeds are inserted entity by entity. Every row has to be valid
for the manifest; the limit of the storage is never reached, since the seeds of one entity are
a part of seeds that are small themselves.
-/

namespace DotBackend.Builder

open Data Channel Apps Agents

section Seeds

variable {unicode : Unicode} {db seeded : AppsDb} {appId userId : Uuid} {manifest : Json}
  {seedData : Fields} {name : String} {now : Instant}

/-! ## Errors -/

theorem raisesOnly_validateEntityData (data : Fields) :
    RaisesOnly IsValidation (validateEntityData unicode manifest name data) := by
  unfold validateEntityData
  split
  · exact raisesOnly_error (isValidation _)
  · apply raisesOnly_bind (raisesOnly_entityFields _)
    intro fields
    apply raisesOnly_bind (raisesOnly_require (isValidation _))
    intro _
    apply raisesOnly_bind (raisesOnly_require (isValidation _))
    intro _
    apply raisesOnly_bind
    · apply raisesOnly_forEach
      intro member
      unfold validateFieldValue
      dsimp only
      split
      · exact raisesOnly_ok ()
      · exact raisesOnly_require (isValidation _)
    · intro _
      apply raisesOnly_bind (raisesOnly_require (isValidation _))
      intro _
      exact raisesOnly_ok _

theorem raisesOnly_seedRecords (candidates : List Json) :
    RaisesOnly IsValidation (seedRecords unicode appId userId manifest name now db candidates) := by
  induction candidates generalizing db with
  | nil => exact raisesOnly_ok _
  | cons candidate rest ih =>
      unfold seedRecords
      split
      · rename_i candidateIsNil
        cases candidateIsNil
      · rename_i raw others same
        cases same
        apply raisesOnly_bind (raisesOnly_validateEntityData _)
        intro clean
        apply raisesOnly_bind (raisesOnly_require (isValidation _))
        intro _
        exact ih
      · rename_i others _ same
        cases same
        exact ih

theorem raisesOnly_seedEntities (definitions : List Json) :
    RaisesOnly IsValidation
      (seedEntities unicode appId userId manifest seedData now db definitions) := by
  induction definitions generalizing db with
  | nil => exact raisesOnly_ok _
  | cons definition rest ih =>
      apply raisesOnly_bind (raisesOnly_entity _)
      intro name
      apply raisesOnly_bind
      · unfold seedEntity
        split
        · exact raisesOnly_seedRecords _
        · exact raisesOnly_ok _
      · intro seeded
        exact ih

theorem raisesOnly_seedCodeAppRecords :
    RaisesOnly IsValidation (seedCodeAppRecords unicode db appId userId manifest seedData now) := by
  apply raisesOnly_bind (raisesOnly_validateManifest _)
  intro _
  split
  · exact raisesOnly_seedEntities _
  · exact raisesOnly_ok _

/-! ## The rows of an entity -/

/-- The bytes of the records of an app. -/
def usedBytes (db : AppsDb) (appId : Uuid) : Nat :=
  ((db.records.filter fun record => record.appId = appId).map (·.dataBytes)).sum

/-- The candidates that are objects. -/
def seedRows (candidates : List Json) : List Fields :=
  candidates.filterMap fun candidate => match candidate with
    | .obj raw => some raw
    | _ => none

def rowBytes (rows : List Fields) : Nat :=
  (rows.map fun row => jsonBytes (.obj row)).sum

theorem usedBytes_insertRecord (data : Fields) (user : Option Uuid) :
    usedBytes (insertRecord (newRecord db appId name data user now) db) appId =
      usedBytes db appId + jsonBytes (.obj data) := by
  simp [usedBytes, insertRecord, newRecord]

theorem rowBytes_seedRows_le (candidates : List Json) :
    rowBytes (seedRows candidates) ≤ (candidates.map Json.byteLength).sum := by
  induction candidates with
  | nil => exact Nat.le_refl 0
  | cons candidate rest ih =>
      rw [List.map_cons, List.sum_cons, seedRows, List.filterMap_cons]
      split
      · exact Nat.le_trans ih (Nat.le_add_left _ _)
      · rename_i raw isRow
        split at isRow
        · cases isRow
          exact Nat.add_le_add_left ih _
        · cases isRow

/-- A row that is accepted. -/
def Accepts (unicode : Unicode) (manifest : Json) (name : String) (row : Fields) : Prop :=
  (validateEntityData unicode manifest name row).isOk = true

theorem accepts_iff {row : Fields} : Accepts unicode manifest name row ↔
    validateEntityData unicode manifest name row = .ok row := by
  constructor
  · intro accepts
    rcases exists_eq_ok accepts with ⟨clean, read⟩
    rw [validateEntityData_eq read] at read
    exact read
  · intro read
    rw [Accepts, read]
    rfl

theorem enforceAppStorageLimit_of_le {bytes : Nat} (fits : usedBytes db appId + bytes ≤ 10000000) :
    enforceAppStorageLimit db appId bytes = .ok () := by
  have within : (decide (bytes = 0) || decide (usedBytes db appId + bytes ≤ 10000000)) = true := by
    rw [decide_eq_true fits, Bool.or_true]
  exact require_eq_ok.mpr within

/-- The rows of an entity are inserted when they fit and are all valid. -/
theorem seedRecords_of_accepts {candidates : List Json}
    (fits : usedBytes db appId + rowBytes (seedRows candidates) ≤ 10000000)
    (accepted : ∀ row ∈ seedRows candidates, Accepts unicode manifest name row) :
    ∃ seeded, seedRecords unicode appId userId manifest name now db candidates = .ok seeded ∧
      usedBytes seeded appId = usedBytes db appId + rowBytes (seedRows candidates) := by
  induction candidates generalizing db with
  | nil => exact ⟨db, rfl, rfl⟩
  | cons candidate rest ih =>
      cases candidate with
      | obj raw =>
          change ∀ row ∈ raw :: seedRows rest, _ at accepted
          change _ + (jsonBytes (.obj raw) + rowBytes (seedRows rest)) ≤ _ at fits
          rcases List.forall_mem_cons.mp accepted with ⟨first, others⟩
          have used : usedBytes (insertRecord (newRecord db appId name raw (some userId) now) db)
              appId = usedBytes db appId + jsonBytes (.obj raw) :=
            usedBytes_insertRecord raw (some userId)
          have room : usedBytes db appId + jsonBytes (.obj raw) ≤ 10000000 := by omega
          have stillFits : usedBytes (insertRecord
              (newRecord db appId name raw (some userId) now) db) appId +
                rowBytes (seedRows rest) ≤ 10000000 := by
            rw [used]
            omega
          rcases ih stillFits others with ⟨seeded, inserts, total⟩
          refine ⟨seeded, ?_, ?_⟩
          · simp only [seedRecords, bind_eq_ok]
            exact ⟨raw, accepts_iff.mp first, (), enforceAppStorageLimit_of_le room, inserts⟩
          · change _ = _ + (jsonBytes (.obj raw) + rowBytes (seedRows rest))
            rw [total, used, Nat.add_assoc]
      | null | bool _ | int _ | float _ | str _ | arr _ => exact ih fits accepted

theorem accepts_of_seedRecords {candidates : List Json}
    (inserted : seedRecords unicode appId userId manifest name now db candidates = .ok seeded) :
    ∀ row ∈ seedRows candidates, Accepts unicode manifest name row := by
  induction candidates generalizing db with
  | nil =>
      intro row none
      cases none
  | cons candidate rest ih =>
      cases candidate with
      | obj raw =>
          simp only [seedRecords, bind_eq_ok] at inserted
          rcases inserted with ⟨clean, read, _, _, later⟩
          have first : Accepts unicode manifest name raw := by
            rw [Accepts, read]
            rfl
          exact List.forall_mem_cons.mpr ⟨first, ih later⟩
      | null | bool _ | int _ | float _ | str _ | arr _ => exact ih inserted

/-! ## Entities -/

/-- The candidates that are read for an entity. -/
def entityCandidates (seedData : Fields) (name : String) : List Json :=
  match seedCandidates seedData name with
  | some (.arr candidates) => candidates.take 200
  | _ => []

/-- The rows that are read for an entity. -/
def entityRows (seedData : Fields) (name : String) : List Fields :=
  seedRows (entityCandidates seedData name)

/-- Every row that is read is valid. -/
def SeedsAccepted (unicode : Unicode) (manifest seedData : Fields) : Prop :=
  ∀ name ∈ entityNames manifest, ∀ row ∈ entityRows seedData name,
    Accepts unicode (.obj manifest) name row

theorem seedEntity_eq : seedEntity unicode appId userId manifest seedData now db name =
    seedRecords unicode appId userId manifest name now db (entityCandidates seedData name) := by
  unfold seedEntity entityCandidates
  cases seedCandidates seedData name with
  | none => rfl
  | some value => cases value <;> rfl

theorem mem_of_seedCandidates {value : Json} (found : seedCandidates seedData name = some value) :
    ∃ key, (key, value) ∈ seedData := by
  have stored : ∀ {key}, Json.lookup seedData key = some value → ∃ key, (key, value) ∈ seedData := by
    intro key found
    rcases Option.map_eq_some_iff.mp found with ⟨member, memberFound, rfl⟩
    exact ⟨member.1, List.mem_of_find?_eq_some memberFound⟩
  unfold seedCandidates at found
  split at found
  · exact stored found
  · exact stored found
  · rename_i known
    cases found
    exact stored known

/-- The seeds of one entity are a part of the seeds. -/
theorem rowBytes_entityRows_le (seedData : Fields) (name : String) :
    rowBytes (entityRows seedData name) ≤ jsonBytes (.obj seedData) := by
  apply Nat.le_trans (rowBytes_seedRows_le _)
  unfold entityCandidates
  split
  · rename_i candidates found
    rcases mem_of_seedCandidates found with ⟨key, stored⟩
    have whole : Json.byteLength (.arr candidates) ≤ jsonBytes (.obj seedData) :=
      Json.byteLength_le_obj stored
    have taken : ((candidates.take 200).map Json.byteLength).sum ≤
        (candidates.map Json.byteLength).sum := by
      rw [← List.take_append_drop 200 (candidates.map Json.byteLength), List.sum_append,
        List.map_take]
      exact Nat.le_add_right _ _
    exact Nat.le_trans taken (Nat.le_trans (Json.sum_byteLength_le_arr candidates) whole)
  · exact Nat.zero_le _

/-- The rows of all entities are inserted when they are valid and the seeds are small. -/
theorem seedEntities_of_accepts {made : List ToolEntity}
    (small : jsonBytes (.obj seedData) ≤ 128000)
    (fits : usedBytes db appId + made.length * 128000 ≤ 10000000)
    (named : ∀ entry ∈ made, entry.Named)
    (accepted : ∀ entry ∈ made, ∀ row ∈ entityRows seedData entry.name,
      Accepts unicode manifest entry.name row) :
    ∃ seeded, seedEntities unicode appId userId manifest seedData now db
      (made.map fun entry => .obj (Json.copyFields entry.definition)) = .ok seeded := by
  induction made generalizing db with
  | nil => exact ⟨db, rfl⟩
  | cons entry rest ih =>
      rw [List.length_cons] at fits
      rcases List.forall_mem_cons.mp named with ⟨firstNamed, restNamed⟩
      rcases List.forall_mem_cons.mp accepted with ⟨first, others⟩
      have part := rowBytes_entityRows_le seedData entry.name
      have room : usedBytes db appId + rowBytes (entityRows seedData entry.name) ≤ 10000000 := by
        omega
      have seeds : ∃ seeded, seedRecords unicode appId userId manifest entry.name now db
          (entityCandidates seedData entry.name) = .ok seeded ∧ usedBytes seeded appId =
            usedBytes db appId + rowBytes (entityRows seedData entry.name) :=
        seedRecords_of_accepts room first
      rcases seeds with ⟨seeded, inserts, used⟩
      have later : usedBytes seeded appId + rest.length * 128000 ≤ 10000000 := by
        rw [used]
        omega
      rcases ih later restNamed others with ⟨final, rest_eq⟩
      refine ⟨final, ?_⟩
      have read : entity ((Json.obj (Json.copyFields entry.definition)).get? "name") =
          .ok entry.name := by
        change entity (Json.lookup _ "name") = _
        rw [lookup_name_copyFields]
        exact entity_eq_ok.mpr ⟨firstNamed.1, rfl⟩
      simp only [List.map_cons, seedEntities, bind_eq_ok, seedEntity_eq]
      exact ⟨entry.name, read, seeded, inserts, rest_eq⟩

theorem accepts_of_seedEntities {made : List ToolEntity}
    (inserted : seedEntities unicode appId userId manifest seedData now db
      (made.map fun entry => .obj (Json.copyFields entry.definition)) = .ok seeded) :
    ∀ entry ∈ made, ∀ row ∈ entityRows seedData entry.name,
      Accepts unicode manifest entry.name row := by
  induction made generalizing db with
  | nil =>
      intro entry none
      cases none
  | cons entry rest ih =>
      simp only [List.map_cons, seedEntities, bind_eq_ok, seedEntity_eq] at inserted
      rcases inserted with ⟨name, read, middle, inserts, later⟩
      change entity (Json.lookup _ "name") = _ at read
      rw [lookup_name_copyFields, entity_eq_ok] at read
      rcases read with ⟨_, rfl⟩
      exact List.forall_mem_cons.mpr ⟨accepts_of_seedRecords inserts, ih later⟩

end Seeds

end DotBackend.Builder
