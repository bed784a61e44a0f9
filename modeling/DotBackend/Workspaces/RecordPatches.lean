import DotBackend.Workspaces.StableRecords

/-!
# Patches of stored records

Every record that is stored is as the checks of its module returned it, and is accepted by them
as it is. An update checks the patched record, so what the patch does not name stays as it was
stored.
-/

namespace DotBackend.Workspaces

open Data

variable {patch : Fields} {appId recordId : Uuid}

/-! ## The module of a record -/

theorem identifier_again {value : Json} {label found : String}
    (isIdentifier : identifier value label = .ok found) :
    identifier (.str found) label = .ok found := by
  cases value with
  | str value =>
      have same := identifier_eq_ok isIdentifier
      rw [← same] at isIdentifier
      exact isIdentifier
  | _ => cases isIdentifier

section Modules

variable {library : Library} {specification : List AppModule} {moduleId : Option String}
  {kind : String} {module : AppModule}

theorem identifier_validateModule {seen : List String} {rawModule : Json}
    (validated : validateModule library seen rawModule = .ok module) :
    identifier (.str module.id) "module id" = .ok module.id := by
  unfold validateModule at validated
  split at validated
  · simp only [bind_eq_ok] at validated
    rcases validated with ⟨_, _, found, isIdentifier, _, _, validated⟩
    split at validated
    · cases validated
    · simp only [bind_eq_ok, pure_eq_ok] at validated
      rcases validated with ⟨_, _, _, _, _, _, rfl⟩
      exact identifier_again isIdentifier
    · cases validated
  · cases validated

theorem identifier_validateModulesFrom {before result : List AppModule} {rawModules : List Json}
    (areIdentifiers : ∀ module ∈ before, identifier (.str module.id) "module id" = .ok module.id)
    (validated : validateModulesFrom library before rawModules = .ok result) :
    ∀ module ∈ result, identifier (.str module.id) "module id" = .ok module.id := by
  induction rawModules generalizing before with
  | nil =>
      cases validated
      exact areIdentifiers
  | cons rawModule rawModules ih =>
      simp only [validateModulesFrom, bind_eq_ok] at validated
      rcases validated with ⟨first, firstOk, validated⟩
      apply ih _ validated
      intro module moduleMem
      rcases List.mem_append.mp moduleMem with earlier | last
      · exact areIdentifiers module earlier
      · rw [List.mem_singleton.mp last]
        exact identifier_validateModule firstOk

/-- The module that was found without an identifier is found by its own. -/
theorem resolveRecordModule_again
    (resolved : resolveRecordModule library specification moduleId kind = .ok module) :
    resolveRecordModule library specification (some module.id) kind = .ok module := by
  cases moduleId with
  | some moduleId =>
      have found := resolved
      simp only [resolveRecordModule, bind_eq_ok] at found
      rcases found with ⟨modules, _, cleanId, isIdentifier, found⟩
      split at found
      · cases found
      · rename_i other find_eq
        simp only [bind_eq_ok, pure_eq_ok] at found
        rcases found with ⟨_, _, rfl⟩
        have isFound := List.find?_some find_eq
        have sameId : other.id = moduleId :=
          (of_decide_eq_true isFound).trans (identifier_eq_ok isIdentifier)
        rw [sameId]
        exact resolved
  | none =>
      simp only [resolveRecordModule, bind_eq_ok] at resolved ⊢
      rcases resolved with ⟨modules, validated, resolved⟩
      have distinct := (modulesFromSpecification_eq_ok validated).2
      split at resolved
      · rename_i only filter_eq
        cases resolved
        have isMatch : module ∈ modules ∧ (module.type.recordValidator library kind).isSome := by
          have inFilter : module ∈ modules.filter fun module =>
              (module.type.recordValidator library kind).isSome := by
            rw [filter_eq]
            exact List.mem_singleton.mpr rfl
          simpa using inFilter
        have isIdentifier : identifier (.str module.id) "module id" = .ok module.id := by
          have all := validated
          simp only [modulesFromSpecification, validateModules, bind_eq_ok] at all
          rcases all with ⟨_, _, all⟩
          exact identifier_validateModulesFrom (List.forall_mem_nil _) all module isMatch.1
        refine ⟨modules, validated, module.id, isIdentifier, ?_⟩
        simp [find?_of_nodup distinct isMatch.1, isMatch.2, require]
      · cases resolved

end Modules

/-! ## Checked data -/

/-- An item of a checklist is settled as well: nothing but its text and its mark is kept. -/
theorem settled_checklistItem : Settled checklistItem where
  again := by
    intro data out validated
    simp only [checklistItem, bind_eq_ok, pure_eq_ok] at validated ⊢
    rcases validated with ⟨completed, _, content, isText, rfl⟩
    exact ⟨completed, rfl, content, text_again isText, rfl⟩
  memberwise := by
    intro data other out otherOut key validated otherValidated same
    simp only [checklistItem, bind_eq_ok, pure_eq_ok] at validated otherValidated
    rcases validated with ⟨completed, isMark, content, isText, rfl⟩
    rcases otherValidated with ⟨otherCompleted, otherMark, otherContent, otherText, rfl⟩
    simp only [Json.lookup_cons]
    by_cases isContent : "text" = key
    · rw [← isContent] at same
      rw [get, same] at isText
      rw [if_pos isContent, if_pos isContent, Except.ok.inj (isText.symm.trans otherText)]
    rw [if_neg isContent, if_neg isContent]
    by_cases isCompleted : "completed" = key
    · rw [← isCompleted] at same
      rw [same] at isMark
      rw [if_pos isCompleted, if_pos isCompleted, Except.ok.inj (isMark.symm.trans otherMark)]
    · rw [if_neg isCompleted, if_neg isCompleted]

/-- Data of a record that can be edited, as its checks accept it. -/
structure IsChecked (library : Library) (app : GeneratedApp) (moduleId kind : String)
    (data : Fields) : Prop where
  workspace : app.template = .workspace → ∃ module,
    resolveRecordModule library app.modules (some moduleId) kind = .ok module ∧
      validateModuleRecord library module kind data = .ok data
  checklist : app.template = .checklist → kind = "item" → checklistItem data = .ok data

section Validated

variable {library : Library} {store : Store} {app : GeneratedApp} {moduleId : Option String}
  {kind resolved : String} {data stored cleanData : Fields} {excluded : Option Uuid}

theorem validateAndResolveRecord_workspace (isWorkspace : app.template = .workspace)
    (validated : validateAndResolveRecord library store app moduleId kind data excluded =
      .ok (resolved, cleanData)) : ∃ module,
    resolveRecordModule library app.modules moduleId kind = .ok module ∧ module.id = resolved ∧
      validateModuleRecord library module kind data = .ok cleanData := by
  simp only [validateAndResolveRecord, isWorkspace, Template.legacyModuleId, bind_eq_ok,
    pure_eq_ok, Prod.mk.injEq] at validated
  rcases validated with ⟨module, found, _, validated, _, _, isModule, rfl⟩
  exact ⟨module, found, isModule, validated⟩

theorem validateAndResolveRecord_checklist (isChecklist : app.template = .checklist)
    (isItem : kind = "item")
    (validated : validateAndResolveRecord library store app moduleId kind data excluded =
      .ok (resolved, cleanData)) : checklistItem data = .ok cleanData := by
  simp only [validateAndResolveRecord, isChecklist, Template.legacyModuleId, bind_eq_ok,
    pure_eq_ok, Prod.mk.injEq, isItem, validateRecord] at validated
  rcases validated with ⟨_, _, _, validated, _, rfl⟩
  exact validated

/-- Data that passed its checks is checked. -/
theorem isChecked_of_validated
    (validated : validateAndResolveRecord library.python store app moduleId kind data excluded =
      .ok (resolved, cleanData)) : IsChecked library.python app resolved kind cleanData where
  workspace := by
    intro isWorkspace
    rcases validateAndResolveRecord_workspace isWorkspace validated with
      ⟨module, found, rfl, accepted⟩
    exact ⟨module, resolveRecordModule_again found,
      (settled_validateModuleRecord library module kind).again accepted⟩
  checklist := by
    intro isChecklist isItem
    exact settled_checklistItem.again
      (validateAndResolveRecord_checklist isChecklist isItem validated)

/-- Where the new data is as stored, the data that is stored instead is as well. -/
theorem IsChecked.lookup_validated {moduleId key : String}
    (checked : IsChecked library.python app moduleId kind stored)
    (editable : app.template = .workspace ∨ (app.template = .checklist ∧ kind = "item"))
    (validated : validateAndResolveRecord library.python store app (some moduleId) kind data
      excluded = .ok (resolved, cleanData))
    (same : Json.lookup data key = Json.lookup stored key) :
    Json.lookup cleanData key = Json.lookup stored key := by
  rcases editable with isWorkspace | ⟨isChecklist, isItem⟩
  · rcases validateAndResolveRecord_workspace isWorkspace validated with
      ⟨module, found, _, validated⟩
    rcases checked.workspace isWorkspace with ⟨storedModule, storedFound, storedChecked⟩
    cases found.symm.trans storedFound
    exact (settled_validateModuleRecord library module kind).memberwise key validated storedChecked
      same
  · exact settled_checklistItem.memberwise key
      (validateAndResolveRecord_checklist isChecklist isItem validated)
      (checked.checklist isChecklist isItem) same

end Validated

/-! ## Patches -/

/-- A patch leaves what it does not name. -/
theorem lookup_merged {key : String} (unnamed : key ∉ patch.map Prod.fst)
    (fields : Fields) : Json.lookup (merged fields patch) key = Json.lookup fields key := by
  induction patch generalizing fields with
  | nil => rfl
  | cons entry patch ih =>
      rw [List.map_cons, List.mem_cons, not_or] at unnamed
      change Json.lookup (merged (Json.assign entry.1 entry.2 fields) patch) key = _
      rw [ih unnamed.2, Json.lookup_assign_of_ne unnamed.1]

/-! ## Runs -/

/-- Every stored record that can be edited is as its checks accept it. -/
def Checked (library : Library) (store : Store) : Prop :=
  ∀ app ∈ store.apps, ∀ record ∈ store.records, record.appId = app.id →
    IsChecked library app record.moduleId record.kind record.data

section Runs

variable {library : Library} {store after : Store} {app : GeneratedApp}

theorem Checked.insertRecord {moduleId kind : String} {actorName : Option String} {data : Fields}
    (checked : Checked library store)
    (unique : Table.UniqueOn (fun app => some app.id) store.apps) (appMem : app ∈ store.apps)
    (isChecked : IsChecked library app moduleId kind data) :
    Checked library (store.insertRecord app.id moduleId kind actorName data) := by
  intro other otherMem record recordMem ofApp
  rw [Store.insertRecord, List.mem_append, List.mem_singleton] at recordMem
  rcases recordMem with old | rfl
  · exact checked other otherMem record old ofApp
  · have same : app = other := unique.eq_of_mem appMem otherMem rfl (congrArg some ofApp.symm)
    rw [← same]
    exact isChecked

theorem Checked.insertApp (sound : Sound library store) (checked : Checked library store)
    (app : GeneratedApp) : Checked library (store.insertApp app) := by
  intro other otherMem record recordMem ofApp
  rw [Store.insertApp, List.mem_append, List.mem_singleton] at otherMem
  rcases otherMem with old | rfl
  · exact checked other old record recordMem ofApp
  · exact absurd ofApp (Nat.ne_of_lt (sound.owners_lt record recordMem))

theorem Checked.createRecord {moduleId : Option String} {kind : String}
    {data : Fields} {actorName : Json} (sound : Sound library.python store)
    (checked : Checked library.python store)
    (created : Workspaces.createRecord library.python store appId moduleId kind data actorName =
      .ok after) : Checked library.python after := by
  simp only [Workspaces.createRecord, bind_eq_ok, pure_eq_ok, mapError_eq_ok] at created
  rcases created with ⟨app, loaded, _, _, ⟨resolved, cleanData⟩, validated, actor, _, rfl⟩
  rcases load_eq_ok loaded with ⟨appMem, rfl⟩
  exact checked.insertRecord sound.appIds appMem (isChecked_of_validated validated)

/-- What an update makes of the store. -/
theorem updateRecord_eq_ok
    (updated : Workspaces.updateRecord library store appId recordId patch = .ok after) :
    ∃ app record resolved cleanData, store.load appId = .ok app ∧
      store.record appId recordId = .ok record ∧
      (app.template = .workspace ∨ (app.template = .checklist ∧ record.kind = "item")) ∧
      validateAndResolveRecord library store app (some record.moduleId) record.kind
        (merged record.data patch) (some record.id) = .ok (resolved, cleanData) ∧
      after = { store with
        records := store.records.map fun other =>
          if other.id = record.id then { other with data := cleanData } else other } := by
  simp only [Workspaces.updateRecord, bind_eq_ok, pure_eq_ok, mapError_eq_ok, require_eq_ok,
    Bool.or_eq_true, Bool.and_eq_true, decide_eq_true_eq] at updated
  rcases updated with ⟨app, loaded, record, isRecord, _, editable, ⟨resolved, cleanData⟩, validated,
    _, _, rfl⟩
  exact ⟨app, record, resolved, cleanData, loaded, isRecord, editable, validated, rfl⟩

/-- The record that was edited is found as it was edited. -/
theorem record_edited {record : GeneratedAppRecord}
    (isRecord : store.record appId recordId = .ok record) (cleanData : Fields) :
    Store.record { store with
      records := store.records.map fun other =>
        if other.id = record.id then { other with data := cleanData } else other } appId recordId =
      .ok { record with data := cleanData } := by
  have sameId : (fun other : GeneratedAppRecord => decide (other.id = recordId)) ∘ (fun other =>
      if other.id = record.id then { other with data := cleanData } else other) =
      fun other => decide (other.id = recordId) := by
    funext other
    rw [Function.comp_apply]
    split <;> rfl
  unfold Store.record at isRecord ⊢
  rw [List.find?_map, sameId]
  cases found : store.records.find? fun other => other.id = recordId with
  | none =>
      rw [found] at isRecord
      cases isRecord
  | some other =>
      rw [found] at isRecord
      simp only [bind_eq_ok, require_eq_ok, pure_eq_ok, decide_eq_true_eq] at isRecord
      rcases isRecord with ⟨_, ofApp, rfl⟩
      simp [require, ofApp, bind, Except.bind, pure, Except.pure]

theorem Checked.updateRecord (sound : Sound library.python store)
    (checked : Checked library.python store)
    (updated : Workspaces.updateRecord library.python store appId recordId patch = .ok after) :
    Checked library.python after := by
  rcases updateRecord_eq_ok updated with
    ⟨app, record, resolved, cleanData, loaded, isRecord, _, validated, rfl⟩
  rcases load_eq_ok loaded with ⟨appMem, rfl⟩
  rcases record_eq_ok isRecord with ⟨recordMem, ofApp⟩
  have isModule := (fits_of_validated (sound.legacy app appMem) validated).2
  have isChecked := isChecked_of_validated validated
  rw [isModule record.moduleId rfl] at isChecked
  intro other otherMem edited editedMem ofOther
  rcases (mem_edited sound recordMem cleanData edited).mp editedMem with rfl | ⟨old, _⟩
  · have same : app = other :=
      sound.appIds.eq_of_mem appMem otherMem rfl (congrArg some (ofOther.symm.trans ofApp))
    rw [← same]
    exact isChecked
  · exact checked other otherMem edited old ofOther

theorem Checked.deleteRecord (checked : Checked library store)
    (deleted : Workspaces.deleteRecord store appId recordId = .ok after) :
    Checked library after := by
  simp only [Workspaces.deleteRecord, bind_eq_ok, pure_eq_ok] at deleted
  rcases deleted with ⟨_, _, record, _, _, _, rfl⟩
  intro app appMem other otherMem ofApp
  exact checked app appMem other (List.mem_of_mem_filter otherMem) ofApp

/-- The participants of a template, which cannot be edited. -/
theorem Checked.insertParticipants {names : List String} (checked : Checked library store)
    (unique : Table.UniqueOn (fun app => some app.id) store.apps) (appMem : app ∈ store.apps)
    (isSplitter : app.template = .expenseSplitter) :
    Checked library (names.foldl (fun created name =>
      created.insertRecord app.id "expenses" "participant" none [("name", .str name)]) store) := by
  induction names generalizing store with
  | nil => exact checked
  | cons name names ih =>
      have notEdited : IsChecked library app "expenses" "participant" [("name", .str name)] := by
        constructor
        · intro isWorkspace
          cases isSplitter.symm.trans isWorkspace
        · intro isChecklist
          cases isSplitter.symm.trans isChecklist
      exact ih (checked.insertRecord unique appMem notEdited) unique appMem

theorem Checked.createGeneratedApp {group : Group} {request : AppRequest}
    (sound : Sound library store) (checked : Checked library store)
    (created : Workspaces.createGeneratedApp library store group request = .ok after) :
    Checked library after := by
  rcases createGeneratedApp_eq_ok created with ⟨app, _, appMem, rfl | ⟨isSplitter, names, _, rfl⟩⟩
  · exact checked.insertApp sound app
  · exact (checked.insertApp sound app).insertParticipants (sound.insertApp app).appIds appMem
      isSplitter

theorem Checked.plantSeeds {seeds : List Seed} (checked : Checked library.python store)
    (unique : Table.UniqueOn (fun app => some app.id) store.apps) (appMem : app ∈ store.apps)
    (planted : seeds.foldlM (Workspaces.plantSeed library.python app) store = .ok after) :
    Checked library.python after := by
  induction seeds generalizing store with
  | nil =>
      cases planted
      exact checked
  | cons seed seeds ih =>
      simp only [List.foldlM_cons, bind_eq_ok, Workspaces.plantSeed, pure_eq_ok] at planted
      rcases planted with ⟨_, ⟨⟨moduleId, cleanData⟩, validated, rfl⟩, others⟩
      exact ih
        (checked.insertRecord unique appMem (isChecked_of_validated validated)) unique appMem others

theorem Checked.createWorkspace {group : Group} {request : WorkspaceRequest}
    (sound : Sound library.python store) (checked : Checked library.python store)
    (created : createComposableGeneratedApp library.python store group request = .ok after) :
    Checked library.python after := by
  rcases createWorkspace_eq_ok created with ⟨app, seeds, appMem, planted⟩
  exact (checked.insertApp sound app).plantSeeds (sound.insertApp app).appIds appMem planted

/-- Every request keeps the records as they are accepted. -/
theorem Checked.perform {request : Request} (sound : Sound library.python store)
    (checked : Checked library.python store)
    (performed : request.perform library.python store = .ok after) :
    Checked library.python after := by
  cases request with
  | createApp group request => exact checked.createGeneratedApp sound performed
  | createWorkspace group request => exact checked.createWorkspace sound performed
  | createRecord appId moduleId kind data actorName => exact checked.createRecord sound performed
  | updateRecord appId recordId data => exact checked.updateRecord sound performed
  | deleteRecord appId recordId => exact checked.deleteRecord performed

theorem checked_run (library : Library) (requests : List Request) :
    Checked library.python (run library.python requests) := by
  have fromChecked : ∀ {store : Store}, Sound library.python store → Checked library.python store →
      Checked library.python (requests.foldl (fun store request =>
        (request.perform library.python store).toOption.getD store) store) := by
    induction requests with
    | nil => exact fun _ checked => checked
    | cons request requests ih =>
        intro store sound checked
        rw [List.foldl_cons]
        cases performed : request.perform library.python store with
        | error error => exact ih sound checked
        | ok after =>
            exact ih (sound.perform performed) (checked.perform sound performed)
  apply fromChecked sound_empty
  rintro app ⟨⟩

end Runs

/-- What a validator of a module returned it accepts again, as it is. So a patch of a stored
record changes what it names and leaves the rest of the record, or is refused. -/
theorem stored_records_stay_valid (library : Library) :
    (∀ (module : AppModule) (kind : String) (data out : Fields),
      validateModuleRecord library.python module kind data = .ok out →
        validateModuleRecord library.python module kind out = .ok out) ∧
    ∀ (requests : List Request) (appId recordId : Uuid) (patch : Fields) (after : Store),
      updateRecord library.python (run library.python requests) appId recordId patch = .ok after →
        ∃ record cleanData, (run library.python requests).record appId recordId = .ok record ∧
          after.record appId recordId = .ok { record with data := cleanData } ∧
          ∀ key ∉ patch.map Prod.fst, Json.lookup cleanData key = Json.lookup record.data key := by
  constructor
  · intro module kind data out validated
    exact (settled_validateModuleRecord library module kind).again validated
  · intro requests appId recordId patch after updated
    rcases updateRecord_eq_ok updated with
      ⟨app, record, resolved, cleanData, loaded, isRecord, editable, validated, rfl⟩
    rcases load_eq_ok loaded with ⟨appMem, rfl⟩
    rcases record_eq_ok isRecord with ⟨recordMem, ofApp⟩
    have checked := checked_run library requests app appMem record recordMem ofApp
    refine ⟨record, cleanData, isRecord, ?_, ?_⟩
    · exact record_edited isRecord cleanData
    · intro key unnamed
      exact checked.lookup_validated editable validated (lookup_merged unnamed record.data)

/-- A workspace with a list of chores and one chore, whose day is given by its week. -/
def choreRequests : List Request :=
  [.createWorkspace none ⟨.str "Chores", .null, "sage", "private_link",
    .arr [.obj [("id", .str "chores"), ("type", .str "todos"), ("title", .str "Chores"),
      ("description", .str ""), ("settings", .obj [("show_completed", .bool true)])]],
    .arr [.obj [("module_id", .str "chores"), ("kind", .str "todo"), ("actor_name", .null),
      ("data", .obj [("text", .str "  Water  plants "), ("completed", .bool false),
        ("due_date", .str "2026-W33-1"), ("assignee", .null), ("priority", .str "low")])]]⟩]

/-- The chore is kept with single spaces and the date of its day, and a patch of its mark changes
neither. -/
theorem stored_records_stay_valid_chores : ∃ record cleanData,
    (run Library.ascii.python choreRequests).record 0 1 = .ok record ∧
      record.data = [("text", .str "Water plants"), ("completed", .bool false),
        ("due_date", .str "2026-08-10"), ("assignee", .null), ("priority", .str "low")] ∧
      validateModuleRecord Library.ascii.python ⟨"chores", .todos, "", "", []⟩ "todo" record.data =
        .ok record.data ∧
      Json.lookup cleanData "text" = some (.str "Water plants") ∧
      Json.lookup cleanData "due_date" = some (.str "2026-08-10") := by
  have isAccepted : (updateRecord Library.ascii.python (run Library.ascii.python choreRequests) 0 1
      [("completed", .bool true)]).isOk = true := by decide
  rcases exists_eq_ok isAccepted with ⟨after, updated⟩
  rcases (stored_records_stay_valid Library.ascii).2 choreRequests 0 1 _ after updated with
    ⟨record, cleanData, isRecord, _, unchanged⟩
  have data_eq : record.data = [("text", .str "Water plants"), ("completed", .bool false),
      ("due_date", .str "2026-08-10"), ("assignee", .null), ("priority", .str "low")] := by
    have stored : ((run Library.ascii.python choreRequests).record 0 1).map (·.data) =
        .ok [("text", .str "Water plants"), ("completed", .bool false),
          ("due_date", .str "2026-08-10"), ("assignee", .null), ("priority", .str "low")] := by
      decide
    rw [isRecord] at stored
    exact Except.ok.inj stored
  refine ⟨record, cleanData, isRecord, data_eq, ?_, ?_, ?_⟩
  · apply (stored_records_stay_valid Library.ascii).1 _ _ record.data
    rw [data_eq]
    decide
  · rw [unchanged "text" (by decide), data_eq]
    rfl
  · rw [unchanged "due_date" (by decide), data_eq]
    rfl

end DotBackend.Workspaces
