import DotBackend.Workspaces.CheckedRecords

/-!
# Split expenses refer to participants

Expenses name their payer and those who share them. Whatever is asked of the service, the
names are those of participants of the same module, and no two participants have names that
fold to the same one.
-/

namespace DotBackend.Workspaces

open Data

variable {appId recordId : Uuid} {app : GeneratedApp}

/-- The names in the records of a store. -/
structure Integrity (library : Library) (store : Store) : Prop where
  /-- Whoever an expense names is a participant of the module. -/
  referenced : ∀ expense ∈ store.records, expense.kind = "expense" → ∀ name,
    .str name ∈ mentions expense.data → ∃ participant ∈ store.records,
      IsParticipant expense.appId expense.moduleId participant ∧
      Json.lookup participant.data "name" = some (.str name)
  /-- An expense of a module that splits names its payer and somebody to split it. -/
  split : ∀ app ∈ store.apps, ∀ expense ∈ store.records, expense.appId = app.id →
    expense.kind = "expense" → SplitModule app expense.moduleId → IsSplit expense.data
  /-- Participants have names, and those of a module differ but for case. -/
  named : ∀ participant ∈ store.records, participant.kind = "participant" →
    ∃ name, participant.data = [("name", .str name)]
  distinct : ∀ first ∈ store.records, ∀ second ∈ store.records,
    first.kind = "participant" → IsParticipant first.appId first.moduleId second →
    casefold library (nameText library first.data) = casefold library (nameText library second.data) →
    first = second

/-- The invariant of the store. -/
structure Sound (library : Library) (store : Store) : Prop extends Integrity library store where
  appIds : Table.UniqueOn (fun app => some app.id) store.apps
  apps_lt : ∀ app ∈ store.apps, app.id < store.nextId
  recordIds : Table.UniqueOn (fun record => some record.id) store.records
  records_lt : ∀ record ∈ store.records, record.id < store.nextId
  owners_lt : ∀ record ∈ store.records, record.appId < store.nextId
  legacy : ∀ app ∈ store.apps, LegacyRecords store app

variable {library : Library} {store : Store}

theorem sound_empty : Sound library Store.empty where
  referenced := by
    rintro expense ⟨⟩
  split := by
    rintro app ⟨⟩
  named := by
    rintro participant ⟨⟩
  distinct := by
    rintro first ⟨⟩
  appIds := List.nodup_nil
  apps_lt := by
    rintro app ⟨⟩
  recordIds := List.nodup_nil
  records_lt := by
    rintro record ⟨⟩
  owners_lt := by
    rintro record ⟨⟩
  legacy := by
    rintro app ⟨⟩

/-- The name of a participant. -/
theorem lookup_name {participant : GeneratedAppRecord} {name : String}
    (named : ∃ name, participant.data = [("name", .str name)])
    (isName : strOf library (get participant.data "name") = name) :
    Json.lookup participant.data "name" = some (.str name) := by
  rcases named with ⟨own, data_eq⟩
  rw [data_eq] at isName ⊢
  change own = name at isName
  rw [isName]
  rfl

/-! ## Insertion -/

section Insertion

variable {app : GeneratedApp} {moduleId kind : String} {actorName : Option String} {data : Fields}

/-- Storing a record that fits. -/
theorem Sound.insertRecord (sound : Sound library store) (appMem : app ∈ store.apps)
    (fits : Fits library store.records app none moduleId kind data) :
    Sound library (store.insertRecord app.id moduleId kind actorName data) := by
  have isRecord : ∀ {record : GeneratedAppRecord},
      record ∈ (store.insertRecord app.id moduleId kind actorName data).records ↔
        record ∈ store.records ∨
          record = ⟨store.nextId, app.id, moduleId, kind, actorName, data⟩ := by
    intro record
    simp [Store.insertRecord]
  have grows : store.nextId < (store.insertRecord app.id moduleId kind actorName data).nextId :=
    Nat.lt_succ_self store.nextId
  -- the new participant, if it is one, against the others
  have newName : ∀ other ∈ store.records, kind = "participant" → IsParticipant app.id moduleId other →
      casefold library (nameText library other.data) ≠ casefold library (nameText library data) := by
    intro other otherMem isNew isOther
    rcases fits.participant isNew with ⟨name, data_eq, isNewName⟩
    rw [data_eq]
    exact isNewName other otherMem isOther nofun
  constructor
  · constructor
    · intro expense expenseMem isExpense name isMentioned
      rcases isRecord.mp expenseMem with old | rfl
      · rcases sound.referenced expense old isExpense name isMentioned with ⟨participant, stored, isName⟩
        exact ⟨participant, isRecord.mpr (Or.inl stored), isName⟩
      · rcases fits.expense isExpense name isMentioned with ⟨other, otherMem, isOther, isName⟩
        exact ⟨other, isRecord.mpr (Or.inl otherMem), isOther,
          lookup_name (sound.named other otherMem isOther.2.2) isName⟩
    · intro other otherMem expense expenseMem ofApp isExpense isSplit
      rcases isRecord.mp expenseMem with old | rfl
      · exact sound.split other otherMem expense old ofApp isExpense isSplit
      · have same : other = app := sound.appIds.eq_of_mem otherMem appMem (congrArg some ofApp.symm) rfl
        rw [same] at isSplit
        exact fits.split isExpense isSplit
    · intro participant participantMem isParticipant
      rcases isRecord.mp participantMem with old | rfl
      · exact sound.named participant old isParticipant
      · rcases fits.participant isParticipant with ⟨name, data_eq, _⟩
        exact ⟨name, data_eq⟩
    · intro first firstMem second secondMem isFirst isSecond same
      rcases isRecord.mp firstMem with firstOld | rfl
      · rcases isRecord.mp secondMem with secondOld | rfl
        · exact sound.distinct first firstOld second secondOld isFirst isSecond same
        · rcases isSecond with ⟨sameApp, sameModule, isParticipant⟩
          exact absurd same (newName first firstOld isParticipant ⟨sameApp.symm, sameModule.symm, isFirst⟩)
      · rcases isRecord.mp secondMem with secondOld | rfl
        · exact absurd same.symm (newName second secondOld isFirst isSecond)
        · rfl
  · exact sound.appIds
  · intro other otherMem
    exact (sound.apps_lt other otherMem).trans grows
  · apply sound.recordIds.append
    intro record recordMem
    exact Nat.ne_of_lt (sound.records_lt record recordMem)
  · intro record recordMem
    rcases isRecord.mp recordMem with old | rfl
    · exact (sound.records_lt record old).trans grows
    · exact grows
  · intro record recordMem
    rcases isRecord.mp recordMem with old | rfl
    · exact (sound.owners_lt record old).trans grows
    · exact (sound.apps_lt app appMem).trans grows
  · intro other otherMem record recordMem ofApp legacyModuleId isLegacy
    rcases isRecord.mp recordMem with old | rfl
    · exact sound.legacy other otherMem record old ofApp legacyModuleId isLegacy
    · have same : other = app := sound.appIds.eq_of_mem otherMem appMem (congrArg some ofApp.symm) rfl
      rw [same] at isLegacy
      exact fits.legacy legacyModuleId isLegacy

/-- A new app has no record. -/
theorem Sound.insertApp (sound : Sound library store) (app : GeneratedApp) :
    Sound library (store.insertApp app) := by
  have isApp : ∀ {other : GeneratedApp}, other ∈ (store.insertApp app).apps ↔
      other ∈ store.apps ∨ other = { app with id := store.nextId } := by
    intro other
    simp [Store.insertApp]
  have grows : store.nextId < (store.insertApp app).nextId := Nat.lt_succ_self store.nextId
  have noRecord : ∀ record ∈ store.records, record.appId ≠ store.nextId := by
    intro record recordMem
    exact Nat.ne_of_lt (sound.owners_lt record recordMem)
  constructor
  · constructor
    · exact sound.referenced
    · intro other otherMem expense expenseMem ofApp isExpense isSplit
      rcases isApp.mp otherMem with old | rfl
      · exact sound.split other old expense expenseMem ofApp isExpense isSplit
      · exact absurd ofApp (noRecord expense expenseMem)
    · exact sound.named
    · exact sound.distinct
  · apply sound.appIds.append
    intro other otherMem
    exact Nat.ne_of_lt (sound.apps_lt other otherMem)
  · intro other otherMem
    rcases isApp.mp otherMem with old | rfl
    · exact (sound.apps_lt other old).trans grows
    · exact grows
  · exact sound.recordIds
  · intro record recordMem
    exact (sound.records_lt record recordMem).trans grows
  · intro record recordMem
    exact (sound.owners_lt record recordMem).trans grows
  · intro other otherMem
    rcases isApp.mp otherMem with old | rfl
    · exact sound.legacy other old
    · intro record recordMem ofApp
      exact absurd ofApp (noRecord record recordMem)

end Insertion

/-! ## Edits and deletions -/

section Edits

variable {app : GeneratedApp} {record : GeneratedAppRecord} {cleanData : Fields}

/-- A participant that an expense names is referenced. -/
theorem participantIsReferenced_of_mentions {records : List GeneratedAppRecord}
    {expense : GeneratedAppRecord} {name : String} (expenseMem : expense ∈ records)
    (isExpense : expense.kind = "expense") (sameModule : expense.moduleId = record.moduleId)
    (isName : get record.data "name" = .str name) (isMentioned : .str name ∈ mentions expense.data) :
    participantIsReferenced records record = true := by
  apply List.any_eq_true.mpr
  refine ⟨expense, expenseMem, ?_⟩
  rw [isName, isExpense, sameModule]
  simp only [decide_true, Bool.true_and, Bool.or_eq_true, decide_eq_true_eq]
  rcases List.mem_cons.mp isMentioned with isPayer | inSplit
  · exact Or.inr isPayer.symm
  · left
    rw [get] at inSplit
    cases lookup_eq : Json.lookup expense.data "split_between" with
    | none =>
        rw [lookup_eq] at inSplit
        cases inSplit
    | some value =>
        rw [lookup_eq] at inSplit
        cases value with
        | arr names => exact decide_eq_true inSplit
        | null | bool _ | int _ | float _ | str _ | obj _ => cases inSplit

/-- The records after one of them was edited. -/
theorem mem_edited (sound : Sound library store) (recordMem : record ∈ store.records)
    (cleanData : Fields) (other : GeneratedAppRecord) :
    other ∈ (store.records.map fun other =>
        if other.id = record.id then { other with data := cleanData } else other) ↔
      other = { record with data := cleanData } ∨ (other ∈ store.records ∧ other.id ≠ record.id) := by
  rw [List.mem_map]
  constructor
  · rintro ⟨old, oldMem, rfl⟩
    by_cases isRecord : old.id = record.id
    · have same : old = record :=
        sound.recordIds.eq_of_mem oldMem recordMem (congrArg some isRecord) rfl
      rw [if_pos isRecord, same]
      exact Or.inl rfl
    · rw [if_neg isRecord]
      exact Or.inr ⟨oldMem, isRecord⟩
  · rintro (rfl | ⟨otherMem, differs⟩)
    · exact ⟨record, recordMem, if_pos rfl⟩
    · exact ⟨other, otherMem, if_neg differs⟩

/-- Storing the new data of a record. -/
theorem Sound.edit (sound : Sound library store) (appMem : app ∈ store.apps)
    (recordMem : record ∈ store.records) (ofApp : record.appId = app.id)
    (fits : Fits library store.records app (some record.id) record.moduleId record.kind cleanData)
    (free : record.kind = "participant" → get cleanData "name" ≠ get record.data "name" →
      participantIsReferenced (store.recordsOf app.id) record = false) :
    Sound library { store with
      records := store.records.map fun other =>
        if other.id = record.id then { other with data := cleanData } else other } := by
  have isRecord := mem_edited sound recordMem cleanData
  have newName : ∀ other ∈ store.records, other.id ≠ record.id → record.kind = "participant" →
      IsParticipant app.id record.moduleId other →
      casefold library (nameText library other.data) ≠
        casefold library (nameText library cleanData) := by
    intro other otherMem differs isNew isOther
    rcases fits.participant isNew with ⟨name, data_eq, isNewName⟩
    rw [data_eq]
    exact isNewName other otherMem isOther fun same => differs (Option.some.inj same).symm
  constructor
  · constructor
    · intro expense expenseMem isExpense name isMentioned
      rcases (isRecord expense).mp expenseMem with rfl | ⟨old, differs⟩
      · rcases fits.expense isExpense name isMentioned with ⟨other, otherMem, isOther, isName⟩
        have apart : other.id ≠ record.id := by
          intro sameId
          have same : other = record :=
            sound.recordIds.eq_of_mem otherMem recordMem (congrArg some sameId) rfl
          have kinds := isOther.2.2
          rw [same] at kinds
          exact absurd (kinds.symm.trans isExpense) (by decide)
        refine ⟨other, (isRecord other).mpr (Or.inr ⟨otherMem, apart⟩), ?_,
          lookup_name (sound.named other otherMem isOther.2.2) isName⟩
        exact ⟨isOther.1.trans ofApp.symm, isOther.2⟩
      · rcases sound.referenced expense old isExpense name isMentioned with
          ⟨participant, stored, isParticipant, isName⟩
        by_cases isEdited : participant.id = record.id
        · have same : participant = record :=
            sound.recordIds.eq_of_mem stored recordMem (congrArg some isEdited) rfl
          rw [same] at isParticipant isName
          rcases isParticipant with ⟨sameApp, sameModule, kind⟩
          have name_eq : get record.data "name" = .str name := by
            rw [get, isName]
            rfl
          rcases fits.participant kind with ⟨newName, data_eq, _⟩
          by_cases keeps : get cleanData "name" = get record.data "name"
          · refine ⟨_, (isRecord _).mpr (Or.inl rfl), ⟨sameApp, sameModule, kind⟩, ?_⟩
            have sameName : Json.str newName = .str name := by
              rw [← name_eq, ← keeps, data_eq]
              rfl
            change Json.lookup cleanData "name" = _
            rw [data_eq, ← sameName]
            rfl
          · have referenced := participantIsReferenced_of_mentions
              (mem_recordsOf.mpr ⟨old, sameApp.symm.trans ofApp⟩) isExpense sameModule.symm name_eq
              isMentioned
            rw [free kind keeps] at referenced
            cases referenced
        · exact ⟨participant, (isRecord _).mpr (Or.inr ⟨stored, isEdited⟩), isParticipant, isName⟩
    · intro other otherMem expense expenseMem inApp isExpense isSplit
      rcases (isRecord expense).mp expenseMem with rfl | ⟨old, differs⟩
      · have same : other = app :=
          sound.appIds.eq_of_mem otherMem appMem (congrArg some (inApp.symm.trans ofApp)) rfl
        rw [same] at isSplit
        exact fits.split isExpense isSplit
      · exact sound.split other otherMem expense old inApp isExpense isSplit
    · intro participant participantMem isParticipant
      rcases (isRecord participant).mp participantMem with rfl | ⟨old, differs⟩
      · rcases fits.participant isParticipant with ⟨name, data_eq, _⟩
        exact ⟨name, data_eq⟩
      · exact sound.named participant old isParticipant
    · intro first firstMem second secondMem isFirst isSecond same
      rcases (isRecord first).mp firstMem with rfl | ⟨firstOld, firstDiffers⟩
      · rcases (isRecord second).mp secondMem with rfl | ⟨secondOld, secondDiffers⟩
        · rfl
        · rcases isSecond with ⟨sameApp, isSecond⟩
          exact absurd same.symm (newName second secondOld secondDiffers isFirst
            ⟨sameApp.trans ofApp, isSecond⟩)
      · rcases (isRecord second).mp secondMem with rfl | ⟨secondOld, secondDiffers⟩
        · rcases isSecond with ⟨sameApp, sameModule, isSecond⟩
          exact absurd same (newName first firstOld firstDiffers isSecond
            ⟨sameApp.symm.trans ofApp, sameModule.symm, isFirst⟩)
        · exact sound.distinct first firstOld second secondOld isFirst isSecond same
  · exact sound.appIds
  · exact sound.apps_lt
  · have unique : Table.UniqueOn (fun other => some other.id) (Table.update
        (fun other : GeneratedAppRecord => decide (other.id = record.id))
        (fun other => { other with data := cleanData }) store.records) :=
      sound.recordIds.update _ fun _ => rfl
    simpa [Table.update] using unique
  · intro other otherMem
    rcases (isRecord other).mp otherMem with rfl | ⟨old, _⟩
    · exact sound.records_lt record recordMem
    · exact sound.records_lt other old
  · intro other otherMem
    rcases (isRecord other).mp otherMem with rfl | ⟨old, _⟩
    · exact sound.owners_lt record recordMem
    · exact sound.owners_lt other old
  · intro other otherMem edited editedMem inApp
    rcases (isRecord edited).mp editedMem with rfl | ⟨old, _⟩
    · exact sound.legacy other otherMem record recordMem inApp
    · exact sound.legacy other otherMem edited old inApp

/-- A record that no expense needs is deleted. -/
theorem Sound.delete (sound : Sound library store) (recordMem : record ∈ store.records)
    (free : record.kind = "participant" →
      participantIsReferenced (store.recordsOf record.appId) record = false) :
    Sound library { store with records := store.records.filter (·.id ≠ record.id) } := by
  have isKept : ∀ {other : GeneratedAppRecord}, other ∈ store.records.filter (·.id ≠ record.id) →
      other ∈ store.records := List.mem_of_mem_filter
  constructor
  · constructor
    · intro expense expenseMem isExpense name isMentioned
      rcases sound.referenced expense (isKept expenseMem) isExpense name isMentioned with
        ⟨participant, stored, isParticipant, isName⟩
      refine ⟨participant, ?_, isParticipant, isName⟩
      apply List.mem_filter.mpr
      refine ⟨stored, decide_eq_true ?_⟩
      intro isDeleted
      have same : participant = record :=
        sound.recordIds.eq_of_mem stored recordMem (congrArg some isDeleted) rfl
      rw [same] at isParticipant isName
      rcases isParticipant with ⟨sameApp, sameModule, kind⟩
      have name_eq : get record.data "name" = .str name := by
        rw [get, isName]
        rfl
      have referenced := participantIsReferenced_of_mentions
        (mem_recordsOf.mpr ⟨isKept expenseMem, sameApp.symm⟩) isExpense sameModule.symm name_eq
        isMentioned
      rw [free kind] at referenced
      cases referenced
    · intro app appMem expense expenseMem
      exact sound.split app appMem expense (isKept expenseMem)
    · intro participant participantMem
      exact sound.named participant (isKept participantMem)
    · intro first firstMem second secondMem
      exact sound.distinct first (isKept firstMem) second (isKept secondMem)
  · exact sound.appIds
  · exact sound.apps_lt
  · exact sound.recordIds.filter _
  · intro other otherMem
    exact sound.records_lt other (isKept otherMem)
  · intro other otherMem
    exact sound.owners_lt other (isKept otherMem)
  · intro app appMem other otherMem
    exact sound.legacy app appMem other (isKept otherMem)

end Edits

/-! ## Requests -/

section Requests

variable {after : Store}

theorem load_eq_ok (loaded : store.load appId = .ok app) :
    app ∈ store.apps ∧ app.id = appId := by
  unfold Store.load at loaded
  split at loaded
  · rename_i found find_eq
    cases loaded
    have isApp := List.find?_some find_eq
    exact ⟨List.mem_of_find?_eq_some find_eq, of_decide_eq_true isApp⟩
  · cases loaded

theorem record_eq_ok {record : GeneratedAppRecord}
    (loaded : store.record appId recordId = .ok record) :
    record ∈ store.records ∧ record.appId = appId := by
  unfold Store.record at loaded
  split at loaded
  · rename_i found find_eq
    simp only [bind_eq_ok, pure_eq_ok, require_eq_ok, decide_eq_true_eq] at loaded
    rcases loaded with ⟨_, ofApp, rfl⟩
    exact ⟨List.mem_of_find?_eq_some find_eq, ofApp⟩
  · cases loaded

theorem Sound.createRecord (sound : Sound library store) {moduleId : Option String}
    {kind : String} {data : Fields} {actorName : Json}
    (created : Workspaces.createRecord library store appId moduleId kind data actorName = .ok after) :
    Sound library after := by
  simp only [Workspaces.createRecord, bind_eq_ok, pure_eq_ok, mapError_eq_ok] at created
  rcases created with ⟨app, loaded, _, _, ⟨resolved, cleanData⟩, validated, actor, _, rfl⟩
  rcases load_eq_ok loaded with ⟨appMem, rfl⟩
  exact sound.insertRecord appMem (fits_of_validated (sound.legacy app appMem) validated).1

theorem Sound.updateRecord (sound : Sound library store) {data : Fields}
    (updated : Workspaces.updateRecord library store appId recordId data = .ok after) :
    Sound library after := by
  simp only [Workspaces.updateRecord, bind_eq_ok, pure_eq_ok, mapError_eq_ok, require_eq_ok]
    at updated
  rcases updated with ⟨app, loaded, record, isRecord, _, _, ⟨resolved, cleanData⟩, validated, _,
    free, rfl⟩
  rcases load_eq_ok loaded with ⟨appMem, rfl⟩
  rcases record_eq_ok isRecord with ⟨recordMem, ofApp⟩
  rcases fits_of_validated (sound.legacy app appMem) validated with ⟨fits, isModule⟩
  rw [isModule record.moduleId rfl] at fits
  apply sound.edit appMem recordMem ofApp fits
  intro isParticipant renamed
  simpa [isParticipant, renamed] using free

theorem Sound.deleteRecord (sound : Sound library store)
    (deleted : Workspaces.deleteRecord store appId recordId = .ok after) : Sound library after := by
  simp only [Workspaces.deleteRecord, bind_eq_ok, pure_eq_ok, require_eq_ok] at deleted
  rcases deleted with ⟨app, loaded, record, isRecord, _, free, rfl⟩
  rcases record_eq_ok isRecord with ⟨recordMem, rfl⟩
  apply sound.delete recordMem
  intro isParticipant
  simpa [isParticipant] using free

/-- The participants of a template, which are stored without a check: their names differ. -/
theorem Sound.insertParticipants (isSplitter : app.template = .expenseSplitter)
    {names : List String} (sound : Sound library store) (appMem : app ∈ store.apps)
    (apart : names.Pairwise fun first second => casefold library first ≠ casefold library second)
    (areNew : ∀ name ∈ names, ∀ other ∈ store.records, IsParticipant app.id "expenses" other →
      casefold library (nameText library other.data) ≠ casefold library name) :
    Sound library (names.foldl (fun created name =>
      created.insertRecord app.id "expenses" "participant" none [("name", .str name)]) store) := by
  induction names generalizing store with
  | nil => exact sound
  | cons name names ih =>
      rw [List.pairwise_cons] at apart
      have fits : Fits library store.records app none "expenses" "participant"
          [("name", .str name)] := by
        constructor
        · intro legacyModuleId isLegacy
          rw [isSplitter] at isLegacy
          exact Option.some.inj isLegacy
        · intro _
          refine ⟨name, rfl, ?_⟩
          intro other otherMem isOther _
          exact areNew name List.mem_cons_self other otherMem isOther
        · intro isExpense
          exact absurd isExpense (by decide)
        · intro isExpense
          exact absurd isExpense (by decide)
      apply ih (sound.insertRecord appMem fits) appMem apart.2
      intro later laterMem other otherMem isOther
      rw [Store.insertRecord, List.mem_append, List.mem_singleton] at otherMem
      rcases otherMem with old | rfl
      · exact areNew later (List.mem_cons_of_mem name laterMem) other old isOther
      · exact apart.1 later laterMem

/-- Texts that were made unique differ but for case. -/
theorem pairwise_uniqueTextsFrom {field : String} {maxLength : Nat} {values : List Json}
    {result names : List String}
    (apart : result.Pairwise fun first second => casefold library first ≠ casefold library second)
    (unique : uniqueTextsFrom library field maxLength result values = .ok names) :
    names.Pairwise fun first second => casefold library first ≠ casefold library second := by
  induction values generalizing result with
  | nil =>
      cases unique
      exact apart
  | cons value values ih =>
      simp only [uniqueTextsFrom, bind_eq_ok] at unique
      rcases unique with ⟨found, _, unique⟩
      split at unique
      · exact ih apart unique
      · rename_i isNew
        apply ih _ unique
        rw [List.pairwise_append]
        refine ⟨apart, List.pairwise_singleton _ found, ?_⟩
        intro other otherMem last lastMem same
        rw [List.mem_singleton.mp lastMem] at same
        exact isNew (List.any_eq_true.mpr ⟨other, otherMem, decide_eq_true same⟩)

/-- A new app has the next identifier; one that splits expenses comes with its participants. -/
theorem createGeneratedApp_eq_ok {group : Group} {request : AppRequest}
    (created : Workspaces.createGeneratedApp library store group request = .ok after) :
    ∃ app : GeneratedApp, app.id = store.nextId ∧ app ∈ (store.insertApp app).apps ∧
      (after = store.insertApp app ∨ app.template = .expenseSplitter ∧ ∃ names : List String,
        (names.Pairwise fun first second => casefold library first ≠ casefold library second) ∧
        after = names.foldl (fun created name => created.insertRecord app.id "expenses"
          "participant" none [("name", .str name)]) (store.insertApp app)) := by
  rw [Workspaces.createGeneratedApp, mapError_eq_ok] at created
  split at created
  · cases created
  · rename_i template _
    simp only [bind_eq_ok] at created
    rcases created with ⟨_, _, _, _, title, _, description, _, settings, _, created⟩
    refine ⟨⟨store.nextId, template, title, description, request.theme,
      if group.isSome then "collaborative_link" else request.accessMode, []⟩, rfl,
      List.mem_append_right _ (List.mem_singleton.mpr rfl), ?_⟩
    split at created
    · rename_i isSplitter
      simp only [bind_eq_ok, pure_eq_ok] at created
      rcases created with ⟨names, unique, rfl⟩
      exact Or.inr ⟨isSplitter, names, pairwise_uniqueTextsFrom List.Pairwise.nil unique, rfl⟩
    · cases created
      exact Or.inl rfl

theorem Sound.createGeneratedApp (sound : Sound library store) {group : Group} {request : AppRequest}
    (created : Workspaces.createGeneratedApp library store group request = .ok after) :
    Sound library after := by
  rcases createGeneratedApp_eq_ok created with
    ⟨app, isNext, appMem, rfl | ⟨isSplitter, names, apart, rfl⟩⟩
  · exact sound.insertApp app
  · apply (sound.insertApp app).insertParticipants isSplitter appMem apart
    rintro name _ other otherMem ⟨ofApp, _⟩
    exact absurd (ofApp.trans isNext) (Nat.ne_of_lt (sound.owners_lt other otherMem))

theorem Sound.plantSeed {seed : Seed} (sound : Sound library store)
    (appMem : app ∈ store.apps) (planted : Workspaces.plantSeed library app store seed = .ok after) :
    Sound library after ∧ app ∈ after.apps := by
  simp only [Workspaces.plantSeed, bind_eq_ok, pure_eq_ok] at planted
  rcases planted with ⟨⟨moduleId, cleanData⟩, validated, rfl⟩
  exact ⟨sound.insertRecord appMem (fits_of_validated (sound.legacy app appMem) validated).1, appMem⟩

theorem Sound.plantSeeds {seeds : List Seed} (sound : Sound library store)
    (appMem : app ∈ store.apps)
    (planted : seeds.foldlM (Workspaces.plantSeed library app) store = .ok after) :
    Sound library after := by
  induction seeds generalizing store with
  | nil =>
      cases planted
      exact sound
  | cons seed seeds ih =>
      rw [List.foldlM_cons, bind_eq_ok] at planted
      rcases planted with ⟨next, first, others⟩
      rcases sound.plantSeed appMem first with ⟨nextSound, nextMem⟩
      exact ih nextSound nextMem others

/-- A new workspace holds what is planted in it. -/
theorem createWorkspace_eq_ok {group : Group} {request : WorkspaceRequest}
    (created : createComposableGeneratedApp library store group request = .ok after) :
    ∃ (app : GeneratedApp) (seeds : List Seed), app ∈ (store.insertApp app).apps ∧
      seeds.foldlM (Workspaces.plantSeed library app) (store.insertApp app) = .ok after := by
  rw [createComposableGeneratedApp, mapError_eq_ok] at created
  simp only [bind_eq_ok] at created
  rcases created with ⟨_, _, title, _, description, _, modules, _, seeds, _, planted⟩
  exact ⟨_, _, List.mem_append_right _ (List.mem_singleton.mpr rfl), planted⟩

theorem Sound.createWorkspace (sound : Sound library store) {group : Group}
    {request : WorkspaceRequest}
    (created : createComposableGeneratedApp library store group request = .ok after) :
    Sound library after := by
  rcases createWorkspace_eq_ok created with ⟨app, seeds, appMem, planted⟩
  exact (sound.insertApp app).plantSeeds appMem planted

/-- Every request keeps the invariant. -/
theorem Sound.perform (sound : Sound library store) {request : Request}
    (performed : request.perform library store = .ok after) : Sound library after := by
  cases request with
  | createApp group request => exact sound.createGeneratedApp performed
  | createWorkspace group request => exact sound.createWorkspace performed
  | createRecord appId moduleId kind data actorName => exact sound.createRecord performed
  | updateRecord appId recordId data => exact sound.updateRecord performed
  | deleteRecord appId recordId => exact sound.deleteRecord performed

theorem sound_run (library : Library) (requests : List Request) : Sound library (run library requests) := by
  have fromSound : ∀ {store : Store}, Sound library store → Sound library (requests.foldl
      (fun store request => (request.perform library store).toOption.getD store) store) := by
    induction requests with
    | nil => exact fun sound => sound
    | cons request requests ih =>
        intro store sound
        apply ih
        change Sound library ((request.perform library store).toOption.getD store)
        cases performed : request.perform library store with
        | error error => exact sound
        | ok after => exact sound.perform performed
  exact fromSound sound_empty

/-- Whatever is asked of the service, expenses name participants of their module, and
participants of a module have different names. -/
theorem split_expense_integrity (library : Library) (requests : List Request) :
    Integrity library (run library requests) :=
  (sound_run library requests).toIntegrity

end Requests

end DotBackend.Workspaces
