import DotBackend.Workspaces.Records
import DotBackend.Data.Table

/-!
# What a checked record refers to

Modules that are validated again keep their identifiers, types and modes, so a record is
checked against the mode its app was built with. Of a record that passed its checks it is
known which names it refers to, and that a participant has a name of its own.
-/

namespace DotBackend.Workspaces

open Data

variable {module : AppModule} {checked modules : List AppModule}

variable {library : Library}

/-! ## Modules -/

/-- A module that is validated again. -/
structure SameModule (module checked : AppModule) : Prop where
  id : checked.id = module.id
  type : checked.type = module.type
  mode : module.type = .expenses → get checked.settings "mode" = get module.settings "mode"
  known : module.type = .expenses →
    get checked.settings "mode" = .str "personal" ∨ get checked.settings "mode" = .str "split"

theorem identifier_eq_ok {value : String} {label found : String}
    (isIdentifier : identifier (.str value) label = .ok found) : found = value := by
  unfold identifier at isIdentifier
  dsimp only at isIdentifier
  split at isIdentifier
  · cases isIdentifier
  · simp only [bind_eq_ok, pure_eq_ok] at isIdentifier
    rcases isIdentifier with ⟨_, _, same⟩
    exact same.symm

theorem ofName_name (type : ModuleType) : ModuleType.ofName type.name = some type := by
  cases type <;> decide

/-- The mode is one of two and kept as it is. -/
theorem mode_expensesSettings {settings cleanSettings : Fields}
    (validated : expensesSettings library settings = .ok cleanSettings) :
    get cleanSettings "mode" = get settings "mode" ∧
      (get settings "mode" = .str "personal" ∨ get settings "mode" = .str "split") := by
  simp only [expensesSettings, bind_eq_ok, require_eq_ok] at validated
  rcases validated with ⟨_, _, currency, _, _, _, _, isMode, validated⟩
  have known : get settings "mode" = .str "personal" ∨ get settings "mode" = .str "split" := by
    simpa [isOneOf] using isMode
  split at validated
  · simp only [bind_eq_ok, pure_eq_ok] at validated
    rcases validated with ⟨budget, _, rfl⟩
    exact ⟨rfl, known⟩
  · simp only [bind_eq_ok, pure_eq_ok] at validated
    rcases validated with ⟨budget, _, rfl⟩
    exact ⟨rfl, known⟩

theorem sameModule_validateModule {checked : AppModule} {seen : List String}
    (validated : validateModule library seen module.toJson = .ok checked) :
    SameModule module checked ∧ checked.id ∉ seen := by
  have isType : ModuleType.ofName (textOf (.str module.type.name)) = some module.type :=
    ofName_name module.type
  simp only [AppModule.toJson, validateModule, bind_eq_ok] at validated
  rcases validated with ⟨_, _, moduleId, isIdentifier, _, isNew, validated⟩
  split at validated
  case h_1 => cases validated
  case h_3 => cases validated
  rename_i type settings isSome areSettings
  cases isType.symm.trans isSome
  cases areSettings
  simp only [bind_eq_ok, pure_eq_ok] at validated
  rcases validated with ⟨title, _, description, _, cleanSettings, settingsOk, rfl⟩
  have same := identifier_eq_ok isIdentifier
  have modes : module.type = .expenses → get cleanSettings "mode" = get module.settings "mode" ∧
      (get module.settings "mode" = .str "personal" ∨ get module.settings "mode" = .str "split") := by
    intro isExpenses
    rw [isExpenses] at settingsOk
    exact mode_expensesSettings settingsOk
  refine ⟨⟨same, rfl, fun isExpenses => (modes isExpenses).1, ?_⟩, by simpa using isNew⟩
  intro isExpenses
  rcases modes isExpenses with ⟨kept, known⟩
  change get cleanSettings "mode" = _ ∨ get cleanSettings "mode" = _
  rw [kept]
  exact known

theorem validateModulesFrom_map_toJson {before result : List AppModule}
    (validated : validateModulesFrom library before (modules.map AppModule.toJson) = .ok result) :
    ∃ checked, result = before ++ checked ∧ List.Forall₂ SameModule modules checked ∧
      ((before.map (·.id)).Nodup → (result.map (·.id)).Nodup) := by
  induction modules generalizing before with
  | nil =>
      cases validated
      exact ⟨[], (List.append_nil _).symm, List.Forall₂.nil, id⟩
  | cons module modules ih =>
      simp only [List.map_cons, validateModulesFrom, bind_eq_ok] at validated
      rcases validated with ⟨first, firstOk, validated⟩
      rcases sameModule_validateModule firstOk with ⟨same, isNew⟩
      rcases ih validated with ⟨checked, rfl, others, distinct⟩
      refine ⟨first :: checked, by simp, List.Forall₂.cons same others, ?_⟩
      intro distinctBefore
      apply distinct
      rw [List.map_append, List.map_singleton, List.nodup_append]
      refine ⟨distinctBefore, List.nodup_singleton first.id, ?_⟩
      rintro id idMem other otherMem rfl
      rw [List.mem_singleton] at otherMem
      rw [otherMem] at idMem
      exact isNew idMem

theorem modulesFromSpecification_eq_ok
    (validated : modulesFromSpecification library modules = .ok checked) :
    List.Forall₂ SameModule modules checked ∧ (checked.map (·.id)).Nodup := by
  simp only [modulesFromSpecification, validateModules, bind_eq_ok] at validated
  rcases validated with ⟨_, _, validated⟩
  rcases validateModulesFrom_map_toJson validated with ⟨found, rfl, same, distinct⟩
  exact ⟨same, distinct List.nodup_nil⟩

/-- Every module comes from a stored one. -/
theorem exists_stored {found : AppModule}
    (same : List.Forall₂ SameModule modules checked) (foundMem : found ∈ checked) :
    ∃ module ∈ modules, SameModule module found := by
  induction same with
  | nil => cases foundMem
  | cons first _ ih =>
      rcases List.mem_cons.mp foundMem with rfl | isLater
      · exact ⟨_, List.mem_cons_self, first⟩
      · rcases ih isLater with ⟨module, moduleMem, isSame⟩
        exact ⟨module, List.mem_cons_of_mem _ moduleMem, isSame⟩

/-- Every stored module is validated. -/
theorem exists_checked (same : List.Forall₂ SameModule modules checked)
    (moduleMem : module ∈ modules) :
    ∃ found ∈ checked, SameModule module found := by
  induction same with
  | nil => cases moduleMem
  | cons first _ ih =>
      rcases List.mem_cons.mp moduleMem with rfl | isLater
      · exact ⟨_, List.mem_cons_self, first⟩
      · rcases ih isLater with ⟨found, foundMem, isSame⟩
        exact ⟨found, List.mem_cons_of_mem _ foundMem, isSame⟩

/-- A module found by its identifier is the validated form of every stored module with it. -/
theorem SameModule.of_id {found : AppModule}
    (same : List.Forall₂ SameModule modules checked) (distinct : (checked.map (·.id)).Nodup)
    (moduleMem : module ∈ modules) (foundMem : found ∈ checked) (sameId : found.id = module.id) :
    SameModule module found := by
  rcases exists_checked same moduleMem with ⟨other, otherMem, isSame⟩
  have isFound : other = found :=
    List.inj_on_of_nodup_map distinct otherMem foundMem (isSame.id.trans sameId.symm)
  rw [← isFound]
  exact isSame

/-- Modules with different identifiers are found by them. -/
theorem find?_of_nodup (distinct : (modules.map (·.id)).Nodup) (moduleMem : module ∈ modules) :
    modules.find? (·.id = module.id) = some module := by
  cases found : modules.find? (·.id = module.id) with
  | none =>
      have absent := List.find?_eq_none.mp found module moduleMem
      exact absurd (decide_eq_true rfl) absent
  | some other =>
      have isFound := List.find?_some found
      have sameId : other.id = module.id := of_decide_eq_true isFound
      rw [List.inj_on_of_nodup_map distinct (List.mem_of_find?_eq_some found) moduleMem sameId]

/-! ## Records -/

/-- The values that an expense refers to participants by. -/
def mentions (data : Fields) : List Json :=
  get data "paid_by" :: match get data "split_between" with
    | .arr names => names
    | _ => []

/-- The module splits its expenses. -/
def SplitModule (app : GeneratedApp) (moduleId : String) : Prop :=
  app.template = .expenseSplitter ∨ (app.template = .workspace ∧ ∃ module ∈ app.modules,
    module.id = moduleId ∧ module.type = .expenses ∧ get module.settings "mode" = .str "split")

/-- An expense with a payer and somebody to split it. -/
def IsSplit (data : Fields) : Prop :=
  ∃ payer split, split ≠ [] ∧ get data "paid_by" = .str payer ∧
    get data "split_between" = texts split

/-- The record is a participant of the module. -/
def IsParticipant (appId : Uuid) (moduleId : String) (record : GeneratedAppRecord) : Prop :=
  record.appId = appId ∧ record.moduleId = moduleId ∧ record.kind = "participant"

/-- What is known of data that passed the checks of a module, next to the records of a store
without the one that is edited. -/
structure Fits (library : Library) (records : List GeneratedAppRecord) (app : GeneratedApp)
    (excluded : Option Uuid) (moduleId kind : String) (data : Fields) : Prop where
  legacy : ∀ legacyModuleId, app.template.legacyModuleId = some legacyModuleId →
    moduleId = legacyModuleId
  participant : kind = "participant" → ∃ name, data = [("name", .str name)] ∧
    ∀ other ∈ records, IsParticipant app.id moduleId other → excluded ≠ some other.id →
      casefold library (nameText library other.data) ≠ casefold library name
  expense : kind = "expense" → ∀ name, .str name ∈ mentions data → ∃ other ∈ records,
    IsParticipant app.id moduleId other ∧ strOf library (get other.data "name") = name
  split : kind = "expense" → SplitModule app moduleId → IsSplit data

theorem mem_participantNames {records : List GeneratedAppRecord} {name : String} :
    name ∈ participantNames library records ↔ ∃ record ∈ records, record.kind = "participant" ∧
      strOf library (get record.data "name") = name := by
  simp [participantNames, and_assoc]

theorem mem_mentions_texts {data : Fields} {payer : Json} {split : List String} {name : String}
    (paidBy : get data "paid_by" = payer) (splitBetween : get data "split_between" = texts split)
    (isMentioned : .str name ∈ mentions data) : payer = .str name ∨ name ∈ split := by
  rw [mentions, paidBy, splitBetween, texts, List.mem_cons] at isMentioned
  rcases isMentioned with isPayer | isSplit
  · exact Or.inl isPayer.symm
  · rcases List.mem_map.mp isSplit with ⟨other, otherMem, same⟩
    cases same
    exact Or.inr otherMem

/-! ## Templates -/

section Templates

variable {records : List GeneratedAppRecord} {template : Template} {data cleanData : Fields}

theorem validateRecord_participant
    (validated : validateRecord library records template "participant" data = .ok cleanData) :
    template = .expenseSplitter ∧ splitterParticipant library records data = .ok cleanData := by
  cases template <;> simp_all [validateRecord]

theorem validateRecord_expense
    (validated : validateRecord library records template "expense" data = .ok cleanData) :
    (template = .budget ∧ budgetExpense library data = .ok cleanData) ∨
      (template = .expenseSplitter ∧ splitterExpense library records data = .ok cleanData) := by
  cases template <;> simp_all [validateRecord]

theorem splitterParticipant_eq_ok
    (validated : splitterParticipant library records data = .ok cleanData) :
    ∃ name, cleanData = [("name", .str name)] ∧ ∀ other ∈ records, other.kind = "participant" →
      casefold library (nameText library other.data) ≠ casefold library name := by
  simp only [splitterParticipant, bind_eq_ok, pure_eq_ok, require_eq_ok] at validated
  rcases validated with ⟨name, _, _, isNew, rfl⟩
  refine ⟨name, rfl, ?_⟩
  intro other otherMem isParticipant
  have differs := List.all_eq_true.mp isNew other
    (List.mem_filter.mpr ⟨otherMem, decide_eq_true isParticipant⟩)
  exact of_decide_eq_true differs

theorem splitterExpense_eq_ok (validated : splitterExpense library records data = .ok cleanData) :
    ∃ payer split, split ≠ [] ∧ get cleanData "paid_by" = .str payer ∧
      get cleanData "split_between" = texts split ∧ payer ∈ participantNames library records ∧
      ∀ name ∈ split, name ∈ participantNames library records := by
  simp only [splitterExpense, bind_eq_ok] at validated
  rcases validated with ⟨payer, _, validated⟩
  split at validated
  · simp only [bind_eq_ok, pure_eq_ok, require_eq_ok, Bool.and_eq_true, decide_eq_true_eq,
      List.all_eq_true] at validated
    rcases validated with ⟨names, _, _, nonempty, _, ⟨payerKnown, splitKnown⟩, amount, _,
      description, _, date, _, rfl⟩
    refine ⟨payer, names.eraseDups, ?_, rfl, rfl, payerKnown, splitKnown⟩
    intro empty
    rw [empty] at nonempty
    cases nonempty
  · cases validated

theorem mentions_budgetExpense (validated : budgetExpense library data = .ok cleanData)
    (name : String) : .str name ∉ mentions cleanData := by
  simp only [budgetExpense, bind_eq_ok, pure_eq_ok] at validated
  rcases validated with ⟨amount, _, category, _, note, _, date, _, rfl⟩
  intro isMentioned
  change Json.str name ∈ [Json.null] at isMentioned
  rw [List.mem_singleton] at isMentioned
  cases isMentioned

end Templates

/-! ## Workspaces -/

section Modules

variable {records : List GeneratedAppRecord} {module : AppModule} {data cleanData settings : Fields}

theorem validator_participant {validator : Fields → Fields → Except String Fields}
    (isValidator : module.type.recordValidator library "participant" = some validator) :
    validator = participantRecord := by
  cases type : module.type <;> simp_all [ModuleType.recordValidator]

theorem validator_expense {validator : Fields → Fields → Except String Fields}
    (isValidator : module.type.recordValidator library "expense" = some validator) :
    module.type = .expenses ∧ validator = expenseRecord library := by
  cases type : module.type <;> simp_all [ModuleType.recordValidator]

theorem participantRecord_eq_ok (validated : participantRecord data settings = .ok cleanData) :
    ∃ name, cleanData = [("name", .str name)] := by
  simp only [participantRecord, bind_eq_ok, pure_eq_ok] at validated
  rcases validated with ⟨_, _, _, _, name, _, rfl⟩
  exact ⟨name, rfl⟩

/-- An expense of a module has names if the module splits, and none if it does not. -/
theorem expenseRecord_eq_ok (validated : expenseRecord library data settings = .ok cleanData) :
    ∃ payer split, get cleanData "paid_by" = orNull payer ∧
      get cleanData "split_between" = texts split ∧
      (get settings "mode" = .str "split" → payer.isSome ∧ split ≠ []) ∧
      (get settings "mode" = .str "personal" → payer = none ∧ split = []) := by
  simp only [expenseRecord, bind_eq_ok] at validated
  rcases validated with ⟨_, _, payer, _, validated⟩
  split at validated
  · simp only [bind_eq_ok, pure_eq_ok, require_eq_ok] at validated
    rcases validated with ⟨split, _, _, ofSplit, _, ofPersonal, amount, _, category, _, note, _,
      date, _, rfl⟩
    refine ⟨payer, split, rfl, rfl, ?_, ?_⟩
    · intro isSplit
      simpa [isSplit] using ofSplit
    · intro isPersonal
      simpa [isPersonal] using ofPersonal
  · cases validated

theorem checkModuleRecords_participant {u : Unit}
    (checked : checkModuleRecords library module records "participant" cleanData = .ok u)
    {name : String} (data_eq : cleanData = [("name", .str name)]) :
    ∀ other ∈ records, other.kind = "participant" →
      casefold library (nameText library other.data) ≠ casefold library name := by
  simp only [checkModuleRecords, bind_eq_ok, require_eq_ok] at checked
  rcases checked with ⟨_, isNew, _⟩
  intro other otherMem isParticipant same
  have sameName : strOf library (get cleanData "name") = name := by
    rw [data_eq]
    rfl
  simp [sameName] at isNew
  rcases isNew other otherMem with notParticipant | differs
  · exact notParticipant isParticipant
  · exact differs same

theorem checkModuleRecords_expense {u : Unit}
    (checked : checkModuleRecords library module records "expense" cleanData = .ok u)
    (isSplit : get module.settings "mode" = .str "split") {split : List String}
    (splitBetween : get cleanData "split_between" = texts split) :
    (∃ payer ∈ participantNames library records, get cleanData "paid_by" = .str payer) ∧
      ∀ name ∈ split, name ∈ participantNames library records := by
  simp only [checkModuleRecords, bind_eq_ok, require_eq_ok] at checked
  rcases checked with ⟨_, _, known⟩
  rw [splitBetween, texts] at known
  simp [isSplit] at known
  exact known

end Modules

/-! ## Both kinds of apps -/

section Fits

variable {store : Store} {app : GeneratedApp} {moduleId : Option String} {kind resolved : String}
  {data cleanData : Fields} {excluded : Option Uuid}

theorem mem_recordsOf {appId : Uuid} {record : GeneratedAppRecord} :
    record ∈ store.recordsOf appId ↔ record ∈ store.records ∧ record.appId = appId := by
  simp [Store.recordsOf]

/-- Records of a template are in its only module. -/
def LegacyRecords (store : Store) (app : GeneratedApp) : Prop :=
  ∀ record ∈ store.records, record.appId = app.id → ∀ legacyModuleId,
    app.template.legacyModuleId = some legacyModuleId → record.moduleId = legacyModuleId

theorem fits_of_template {legacyModuleId : String} (inModule : LegacyRecords store app)
    (isLegacy : app.template.legacyModuleId = some legacyModuleId)
    (validated : validateRecord library (store.recordsOf app.id) app.template kind data =
      .ok cleanData) : Fits library store.records app excluded legacyModuleId kind cleanData where
  legacy := by
    intro other isOther
    exact Option.some.inj (isLegacy.symm.trans isOther)
  participant := by
    rintro rfl
    rcases validateRecord_participant validated with ⟨_, validated⟩
    rcases splitterParticipant_eq_ok validated with ⟨name, data_eq, isNew⟩
    refine ⟨name, data_eq, ?_⟩
    rintro other otherMem ⟨ofApp, _, isParticipant⟩ _
    exact isNew other (mem_recordsOf.mpr ⟨otherMem, ofApp⟩) isParticipant
  expense := by
    rintro rfl name isMentioned
    rcases validateRecord_expense validated with ⟨_, validated⟩ | ⟨_, validated⟩
    · exact absurd isMentioned (mentions_budgetExpense validated name)
    · rcases splitterExpense_eq_ok validated with ⟨payer, split, _, paidBy, splitBetween,
        payerKnown, splitKnown⟩
      have known : name ∈ participantNames library (store.recordsOf app.id) := by
        rcases mem_mentions_texts paidBy splitBetween isMentioned with isPayer | inSplit
        · cases isPayer
          exact payerKnown
        · exact splitKnown name inSplit
      rcases mem_participantNames.mp known with ⟨other, otherMem, isParticipant, isName⟩
      rcases mem_recordsOf.mp otherMem with ⟨stored, ofApp⟩
      exact ⟨other, stored, ⟨ofApp, inModule other stored ofApp _ isLegacy, isParticipant⟩, isName⟩
  split := by
    rintro rfl isSplit
    rcases validateRecord_expense validated with ⟨isBudget, _⟩ | ⟨_, validated⟩
    · rcases isSplit with isSplitter | ⟨isWorkspace, _⟩
      · cases isBudget.symm.trans isSplitter
      · cases isBudget.symm.trans isWorkspace
    · rcases splitterExpense_eq_ok validated with ⟨payer, split, nonempty, paidBy, splitBetween, _⟩
      exact ⟨payer, split, nonempty, paidBy, splitBetween⟩

theorem fits_of_module (isWorkspace : app.template = .workspace)
    (same : ∀ stored ∈ app.modules, stored.id = module.id → SameModule stored module)
    (known : module.type = .expenses →
      get module.settings "mode" = .str "personal" ∨ get module.settings "mode" = .str "split")
    (validated : validateModuleRecord library module kind data = .ok cleanData) {u : Unit}
    (checked : checkModuleRecords library module ((store.recordsOf app.id).filter fun record =>
      record.moduleId = module.id && !excluded.any (record.id = ·)) kind cleanData = .ok u) :
    Fits library store.records app excluded module.id kind cleanData := by
  unfold validateModuleRecord at validated
  cases isValidator : module.type.recordValidator library kind with
  | none =>
      rw [isValidator] at validated
      cases validated
  | some validator =>
      rw [isValidator] at validated
      constructor
      · intro legacyModuleId isLegacy
        rw [isWorkspace] at isLegacy
        cases isLegacy
      · rintro rfl
        rw [validator_participant isValidator] at validated
        rcases participantRecord_eq_ok validated with ⟨name, data_eq⟩
        refine ⟨name, data_eq, ?_⟩
        rintro other otherMem ⟨ofApp, inModule, isParticipant⟩ notExcluded
        apply checkModuleRecords_participant checked data_eq other _ isParticipant
        apply List.mem_filter.mpr
        refine ⟨mem_recordsOf.mpr ⟨otherMem, ofApp⟩, ?_⟩
        cases excluded with
        | none => simpa using inModule
        | some id =>
            have differs : other.id ≠ id := fun isExcluded => notExcluded (congrArg some isExcluded.symm)
            simpa [inModule] using differs
      · rintro rfl name isMentioned
        rcases validator_expense isValidator with ⟨isExpenses, rfl⟩
        rcases expenseRecord_eq_ok validated with ⟨payer, split, paidBy, splitBetween, _, ofPersonal⟩
        rcases known isExpenses with isPersonal | isSplit
        · rcases ofPersonal isPersonal with ⟨rfl, rfl⟩
          rcases mem_mentions_texts paidBy splitBetween isMentioned with isPayer | inSplit
          · cases isPayer
          · cases inSplit
        · rcases checkModuleRecords_expense checked isSplit splitBetween with
            ⟨⟨known, knownMem, isKnown⟩, splitKnown⟩
          have isKnownName : name ∈ participantNames library ((store.recordsOf app.id).filter
              fun record => record.moduleId = module.id && !excluded.any (record.id = ·)) := by
            rcases mem_mentions_texts isKnown splitBetween isMentioned with isPayer | inSplit
            · cases isPayer
              exact knownMem
            · exact splitKnown name inSplit
          rcases mem_participantNames.mp isKnownName with ⟨other, otherMem, isParticipant, isName⟩
          rcases List.mem_filter.mp otherMem with ⟨inApp, selected⟩
          rcases mem_recordsOf.mp inApp with ⟨stored, ofApp⟩
          have inModule : other.moduleId = module.id :=
            of_decide_eq_true (Bool.and_eq_true_iff.mp selected).1
          exact ⟨other, stored, ⟨ofApp, inModule, isParticipant⟩, isName⟩
      · rintro rfl isSplit
        rcases validator_expense isValidator with ⟨isExpenses, rfl⟩
        rcases expenseRecord_eq_ok validated with ⟨payer, split, paidBy, splitBetween, ofSplit, _⟩
        rcases isSplit with isSplitter | ⟨_, stored, storedMem, isStored, storedType, storedMode⟩
        · cases isWorkspace.symm.trans isSplitter
        · have mode := (same stored storedMem isStored).mode storedType
          rcases ofSplit (mode.trans storedMode) with ⟨hasPayer, nonempty⟩
          cases payer with
          | none => cases hasPayer
          | some payer => exact ⟨payer, split, nonempty, paidBy, splitBetween⟩

/-- A module that was resolved by its identifier or by the kind of record. -/
theorem resolveRecordModule_eq_ok {specification : List AppModule}
    (found : resolveRecordModule library specification moduleId kind = .ok module) :
    (∀ stored ∈ specification, stored.id = module.id → SameModule stored module) ∧
      (module.type = .expenses → get module.settings "mode" = .str "personal" ∨
        get module.settings "mode" = .str "split") ∧ ∀ id, moduleId = some id → module.id = id := by
  simp only [resolveRecordModule, bind_eq_ok] at found
  rcases found with ⟨checked, validated, found⟩
  rcases modulesFromSpecification_eq_ok validated with ⟨same, distinct⟩
  have ofMem : module ∈ checked →
      (∀ stored ∈ specification, stored.id = module.id → SameModule stored module) ∧
        (module.type = .expenses → get module.settings "mode" = .str "personal" ∨
          get module.settings "mode" = .str "split") := by
    intro moduleMem
    constructor
    · intro stored storedMem sameId
      exact SameModule.of_id same distinct storedMem moduleMem sameId.symm
    · intro isExpenses
      rcases exists_stored same moduleMem with ⟨stored, _, isSame⟩
      exact isSame.known (isSame.type.symm.trans isExpenses)
  cases moduleId with
  | some id =>
      simp only [bind_eq_ok] at found
      rcases found with ⟨cleanId, isIdentifier, found⟩
      cases find_eq : checked.find? (·.id = cleanId) with
      | none =>
          rw [find_eq] at found
          cases found
      | some other =>
          simp only [find_eq, bind_eq_ok, pure_eq_ok] at found
          rcases found with ⟨_, _, rfl⟩
          have selected := List.find?_some find_eq
          have isFound : other.id = cleanId := of_decide_eq_true selected
          rcases ofMem (List.mem_of_find?_eq_some find_eq) with ⟨first, second⟩
          refine ⟨first, second, ?_⟩
          intro requested isRequested
          cases isRequested
          exact isFound.trans (identifier_eq_ok isIdentifier)
  | none =>
      have moduleMem : module ∈ checked := by
        dsimp only at found
        split at found
        · rename_i other single
          cases found
          have inFilter := List.mem_singleton_self module
          rw [← single] at inFilter
          exact List.mem_of_mem_filter inFilter
        · cases found
      rcases ofMem moduleMem with ⟨first, second⟩
      refine ⟨first, second, ?_⟩
      rintro _ ⟨⟩

/-- What passes the checks fits. -/
theorem fits_of_validated (inModule : LegacyRecords store app)
    (validated : validateAndResolveRecord library store app moduleId kind data excluded =
      .ok (resolved, cleanData)) :
    Fits library store.records app excluded resolved kind cleanData ∧
      ∀ id, moduleId = some id → resolved = id := by
  unfold validateAndResolveRecord at validated
  cases isLegacy : app.template.legacyModuleId with
  | some legacyModuleId =>
      rw [isLegacy] at validated
      simp only [bind_eq_ok, pure_eq_ok, require_eq_ok, Prod.mk.injEq] at validated
      rcases validated with ⟨_, isModule, _, validated, rfl, rfl⟩
      refine ⟨fits_of_template inModule isLegacy validated, ?_⟩
      rintro id rfl
      exact (of_decide_eq_true isModule).symm
  | none =>
      have isWorkspace : app.template = .workspace := by
        cases template : app.template with
        | workspace => rfl
        | budget | expenseSplitter | metricTracker | checklist =>
            rw [template] at isLegacy
            cases isLegacy
      rw [isLegacy] at validated
      simp only [bind_eq_ok, pure_eq_ok, Prod.mk.injEq] at validated
      rcases validated with ⟨module, found, _, validated, _, checked, rfl, rfl⟩
      rcases resolveRecordModule_eq_ok found with ⟨same, known, isModule⟩
      exact ⟨fits_of_module isWorkspace same known validated checked, isModule⟩

end Fits

end DotBackend.Workspaces
