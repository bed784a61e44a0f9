import DotBackend.Workspaces.Specs

/-!
# Apps made of records

An app is one of four templates or a workspace of modules; its records are created, edited
and deleted one at a time. Who may do so is decided before, so a request names any app of
the store.
-/

namespace DotBackend.Workspaces

open Data

/-! ## Rows -/

/-- `GeneratedApp.template`. -/
inductive Template
  | budget | expenseSplitter | metricTracker | checklist | workspace
  deriving DecidableEq

/-- A member of `APP_TEMPLATES`. -/
def Template.ofName : String → Option Template
  | "budget" => some .budget
  | "expense_splitter" => some .expenseSplitter
  | "metric_tracker" => some .metricTracker
  | "checklist" => some .checklist
  | _ => none

/-- A row of `generated_apps` with the modules of its only version; the modules of a template
are never read. -/
structure GeneratedApp where
  id : Uuid
  template : Template
  title : String
  description : String
  theme : String
  accessMode : String
  modules : List AppModule
  deriving DecidableEq

/-- A row of `generated_app_records`. -/
structure GeneratedAppRecord where
  id : Uuid
  appId : Uuid
  moduleId : String
  kind : String
  actorName : Option String
  data : Fields
  deriving DecidableEq

structure Store where
  apps : List GeneratedApp
  records : List GeneratedAppRecord
  nextId : Uuid
  deriving DecidableEq

inductive AppError
  | notFound (message : String)
  | validation (message : String)
  deriving DecidableEq

/-- The records of an app. -/
def Store.recordsOf (store : Store) (appId : Uuid) : List GeneratedAppRecord :=
  store.records.filter (·.appId = appId)

/-- `session.add` of a record. -/
def Store.insertRecord (store : Store) (appId : Uuid) (moduleId kind : String)
    (actorName : Option String) (data : Fields) : Store :=
  { store with
    records := store.records ++ [⟨store.nextId, appId, moduleId, kind, actorName, data⟩]
    nextId := store.nextId + 1 }

/-- `session.add` of an app. -/
def Store.insertApp (store : Store) (app : GeneratedApp) : Store :=
  { store with
    apps := store.apps ++ [{ app with id := store.nextId }]
    nextId := store.nextId + 1 }

/-- `_load_generated_app_bundle`, of an app that may be gone. -/
def Store.load (store : Store) (appId : Uuid) : Except AppError GeneratedApp :=
  match store.apps.find? (·.id = appId) with
  | some app => .ok app
  | none => .error (.notFound "App was not found")

/-! ## Checking a record -/

/-- `str(value)`. -/
def strOf (library : Library) : Json → String
  | .str value => value
  | value => library.str value

/-- `str(data.get("name", ""))`. -/
def nameText (library : Library) (data : Fields) : String :=
  (Json.lookup data "name").elim "" (strOf library)

/-- `{str(record.data.get("name")) for record in records if record.kind == "participant"}`. -/
def participantNames (library : Library) (records : List GeneratedAppRecord) : List String :=
  (records.filter (·.kind = "participant")).map fun record => strOf library (get record.data "name")

/-- The legacy module of a template. -/
def Template.legacyModuleId : Template → Option String
  | .budget => some "expenses"
  | .expenseSplitter => some "expenses"
  | .metricTracker => some "metric"
  | .checklist => some "todos"
  | .workspace => none

/-- `_validate_record`, for an expense of a template. -/
def budgetExpense (library : Library) (data : Fields) : Except String Fields := do
  let amount ← positiveNumber library (get data "amount") "amount"
  let category ← text (get data "category") "category" 60
  let note ← textOrEmpty (get data "note") 200
  let date ← requiredDate library (get data "date")
  pure [("amount", .float amount), ("category", .str category), ("note", .str note),
    ("date", .str date)]

/-- `_validate_record`, for a participant. -/
def splitterParticipant (library : Library) (records : List GeneratedAppRecord) (data : Fields) :
    Except String Fields := do
  let name ← text (get data "name") "name" 80
  require ((records.filter (·.kind = "participant")).all fun record =>
      casefold library (nameText library record.data) ≠ casefold library name)
    "That participant already exists"
  pure [("name", .str name)]

/-- `_validate_record`, for a shared expense. -/
def splitterExpense (library : Library) (records : List GeneratedAppRecord) (data : Fields) :
    Except String Fields := do
  let paidBy ← text (get data "paid_by") "paid_by" 80
  match get data "split_between" with
  | .arr rawSplit => do
      let names ← (rawSplit.take 20).mapM fun name => text name "split participant" 80
      let splitBetween := names.eraseDups
      require (!splitBetween.isEmpty) "Choose at least one person for the split"
      require (paidBy ∈ participantNames library records &&
          splitBetween.all fun name => name ∈ participantNames library records)
        "Expense participants must already exist"
      let amount ← positiveNumber library (get data "amount") "amount"
      let description ← text (get data "description") "description" 160
      let date ← requiredDate library (get data "date")
      pure [("amount", .float amount), ("description", .str description), ("paid_by", .str paidBy),
        ("split_between", texts splitBetween), ("date", .str date)]
  | _ => .error "split_between must be a list"

/-- `_validate_record`, for a measurement. -/
def trackerMeasurement (library : Library) (data : Fields) : Except String Fields := do
  let value ← number library (get data "value") "value"
  let note ← textOrEmpty (get data "note") 200
  let date ← requiredDate library (get data "date")
  pure [("value", .float value), ("note", .str note), ("date", .str date)]

/-- `_validate_record`, for an item of a checklist. -/
def checklistItem (data : Fields) : Except String Fields := do
  let completed ← boolean ((Json.lookup data "completed").getD (.bool false)) "completed"
  let content ← text (get data "text") "text" 240
  pure [("text", .str content), ("completed", .bool completed)]

/-- `_validate_record`. -/
def validateRecord (library : Library) (records : List GeneratedAppRecord) (template : Template)
    (kind : String) (data : Fields) : Except String Fields :=
  match template, kind with
  | .budget, "expense" => budgetExpense library data
  | .expenseSplitter, "participant" => splitterParticipant library records data
  | .expenseSplitter, "expense" => splitterExpense library records data
  | .metricTracker, "measurement" => trackerMeasurement library data
  | .checklist, "item" => checklistItem data
  | _, _ => .error "Record type does not match this app"

/-- The checks of a workspace against the other records of the module. -/
def checkModuleRecords (library : Library) (module : AppModule) (records : List GeneratedAppRecord)
    (kind : String) (data : Fields) : Except String Unit := do
  require (!(kind = "participant" || kind = "guest") || records.all fun record =>
      !(record.kind = kind &&
        casefold library (nameText library record.data) = casefold library (strOf library (get data "name"))))
    ("That " ++ kind ++ " already exists")
  require (!(kind = "expense" && get module.settings "mode" = .str "split") ||
      ((participantNames library records).any (fun name => get data "paid_by" = .str name) &&
        match get data "split_between" with
        | .arr names => names.all fun value =>
            (participantNames library records).any fun name => value = .str name
        | _ => false))
    "Expense participants must already exist"

/-- `_validate_and_resolve_record`; the record that is edited is left out. -/
def validateAndResolveRecord (library : Library) (store : Store) (app : GeneratedApp)
    (moduleId : Option String) (kind : String) (data : Fields) (excluded : Option Uuid) :
    Except String (String × Fields) :=
  match app.template.legacyModuleId with
  | some legacyModuleId => do
      require (moduleId.all (· = legacyModuleId)) "module_id does not belong to this app"
      let cleanData ← validateRecord library (store.recordsOf app.id) app.template kind data
      pure (legacyModuleId, cleanData)
  | none => do
      let module ← resolveRecordModule library app.modules moduleId kind
      let cleanData ← validateModuleRecord library module kind data
      let moduleRecords := (store.recordsOf app.id).filter fun record =>
        record.moduleId = module.id && !excluded.any (record.id = ·)
      checkModuleRecords library module moduleRecords kind cleanData
      pure (module.id, cleanData)

/-! ## Changing records -/

/-- `_create_generated_app_record`. -/
def createRecord (library : Library) (store : Store) (appId : Uuid) (moduleId : Option String)
    (kind : String) (data : Fields) (actorName : Json) : Except AppError Store := do
  let app ← store.load appId
  require ((store.recordsOf appId).length < 10000)
    (.validation "This app has reached its record limit")
  let (resolved, cleanData) ← (validateAndResolveRecord library store app moduleId kind data
    none).mapError .validation
  let actor ← (optionalText actorName 120).mapError .validation
  pure (store.insertRecord appId resolved kind actor cleanData)

/-- `session.get` of a record of the app. -/
def Store.record (store : Store) (appId recordId : Uuid) : Except AppError GeneratedAppRecord :=
  match store.records.find? (·.id = recordId) with
  | some record => do
      require (record.appId = appId) (.notFound "App record was not found")
      pure record
  | none => .error (.notFound "App record was not found")

/-- `_participant_is_referenced`. -/
def participantIsReferenced (records : List GeneratedAppRecord) (participant : GeneratedAppRecord) :
    Bool :=
  let name := get participant.data "name"
  records.any fun expense =>
    expense.kind = "expense" && expense.moduleId = participant.moduleId &&
      ((match Json.lookup expense.data "split_between" with
        | some (.arr names) => decide (name ∈ names)
        | _ => false) || get expense.data "paid_by" = name)

/-- `{**first, **second}`. -/
def merged (first second : Fields) : Fields :=
  second.foldl (fun fields entry => Json.assign entry.1 entry.2 fields) first

/-- `_update_generated_app_record`. -/
def updateRecord (library : Library) (store : Store) (appId recordId : Uuid) (data : Fields) :
    Except AppError Store := do
  let app ← store.load appId
  let record ← store.record appId recordId
  require (app.template = .workspace || (app.template = .checklist && record.kind = "item"))
    (.validation "This record type cannot be edited")
  let (_, cleanData) ← (validateAndResolveRecord library store app (some record.moduleId)
    record.kind (merged record.data data) (some record.id)).mapError .validation
  require (!(record.kind = "participant" && get cleanData "name" ≠ get record.data "name" &&
      participantIsReferenced (store.recordsOf appId) record))
    (.validation "Remove expenses involving this participant before renaming them")
  pure { store with
    records := store.records.map fun other =>
      if other.id = record.id then { other with data := cleanData } else other }

/-- `_delete_generated_app_record`. -/
def deleteRecord (store : Store) (appId recordId : Uuid) : Except AppError Store := do
  let _ ← store.load appId
  let record ← store.record appId recordId
  require (!(record.kind = "participant" &&
      participantIsReferenced (store.recordsOf appId) record))
    (.validation "Remove expenses involving this participant first")
  pure { store with records := store.records.filter (·.id ≠ record.id) }

/-! ## Names in groups -/

/-- A member of the group as `list_conversation_members` lists it, with its name among
`group_app_participant_names` and whatever else it is known as. -/
structure NamedMember where
  name : String
  aliases : List String

/-- Decimal digits and nothing else. -/
def allDigits (library : Library) (text : List Char) : Bool :=
  !text.isEmpty && text.all fun c => (library.decimal c).isSome

/-- `[0-9a-f]`, in both cases. -/
def isHex (c : Char) : Bool :=
  ('0' ≤ c ∧ c ≤ '9') ∨ ('a' ≤ c ∧ c ≤ 'f') ∨ ('A' ≤ c ∧ c ≤ 'F')

/-- `HANDLE_LIKE_PARTICIPANT.search` in a stripped text. -/
def isHandleLike (library : Library) (text : List Char) : Bool :=
  let unsigned := if text.head? = some '+' then text.tail else text
  (allDigits library unsigned && 7 ≤ unsigned.length) || text.contains '@' ||
    ((text.take 8).length = 8 && (text.take 8).all isHex && (text.drop 8).head? = some '-' &&
      27 ≤ (text.drop 9).length && (text.drop 9).all fun c => isHex c || c = '-') ||
    match Text.afterPhrase "member ending".toList none text with
    | some (_, rest) => rest.head?.any Text.isSpace && allDigits library (rest.dropWhile Text.isSpace)
    | none => false

/-- `value.strip().casefold()`. -/
def foldedKey (library : Library) (value : String) : String :=
  String.ofList (Text.casefold library.toUnicode (Text.strip value.toList))

/-- `_unsafe_participant_name`. -/
def unsafeParticipantName (library : Library) (value : String) : Bool :=
  isHandleLike library (Text.strip value.toList) ||
    foldedKey library value = "group member" || foldedKey library value = "everyone"

/-! ## Templates -/

/-- The conversation of a new app: `none` is a private one. -/
abbrev Group := Option (List NamedMember)

structure AppRequest where
  title : Json
  description : Json
  template : String
  theme : String
  accessMode : String
  currency : Json
  unit : Json
  targetNumber : Json
  targetDirection : Option String
  participants : List String

/-- `_template_settings`. -/
def templateSettings (library : Library) (template : Template) (request : AppRequest) :
    Except String Fields := do
  let target := match request.targetNumber with
    | .null => .ok .null
    | target => (number library target "target_number").map .float
  match template with
  | .budget => do
      let currency ← optionalText request.currency 12
      let monthlyBudget ← target
      pure [("currency", .str (library.upper (currency.getD "USD"))),
        ("monthly_budget", monthlyBudget)]
  | .expenseSplitter => do
      let currency ← optionalText request.currency 12
      pure [("currency", .str (library.upper (currency.getD "USD")))]
  | .metricTracker => do
      let direction := match request.targetDirection with
        | none | some "" => "decrease"
        | some direction => direction
      require (direction = "increase" || direction = "decrease")
        "Metric target direction must be increase or decrease"
      let unit ← optionalText request.unit 30
      let target ← target
      pure [("unit", .str (unit.getD "units")), ("target", target), ("direction", .str direction)]
  | .checklist | .workspace => .ok []

def appAccessModes : List String :=
  ["private_link", "collaborative_link"]

/-- The participants of a group's app are its members where a name is missing or unsafe. -/
def groupParticipants (library : Library) (group : Group) (template : Template)
    (participants : List String) : List String :=
  match group with
  | none => participants
  | some members =>
      if template = .expenseSplitter &&
          (participants.isEmpty || participants.any (unsafeParticipantName library)) then
        members.map (·.name)
      else participants

/-- `create_generated_app`. -/
def createGeneratedApp (library : Library) (store : Store) (group : Group) (request : AppRequest) :
    Except AppError Store :=
  Except.mapError .validation do
    match Template.ofName request.template with
    | none => .error "Unsupported app template"
    | some template => do
        require (request.theme ∈ appThemes) "Unsupported app theme"
        require (request.accessMode ∈ appAccessModes) "Unsupported app access mode"
        let accessMode := if group.isSome then "collaborative_link" else request.accessMode
        let participants := groupParticipants library group template request.participants
        let cleanTitle ← text request.title "title" 120
        let cleanDescription ← textOrEmpty request.description 500
        let _ ← templateSettings library template request
        let created := store.insertApp ⟨store.nextId, template, cleanTitle, cleanDescription,
          request.theme, accessMode, []⟩
        if template = .expenseSplitter then do
          -- a participant whose name folds to one that was seen is skipped
          let names ← uniqueTextsFrom library "participant" 80 []
            ((participants.take 20).map .str)
          pure (names.foldl (fun created name =>
            created.insertRecord store.nextId "expenses" "participant" none [("name", .str name)])
            created)
        else pure created

/-! ## Workspaces -/

structure Seed where
  moduleId : String
  kind : String
  actorName : Option String
  data : Fields
  deriving DecidableEq

/-- One record of `_initial_records`. -/
def initialRecord (rawRecord : Json) : Except String Seed :=
  match rawRecord with
  | .obj rawRecord => do
      require (rawRecord.all (fun entry => entry.1 ∈ ["module_id", "kind", "actor_name", "data"]) &&
          ["module_id", "kind", "actor_name", "data"].all fun key =>
            (Json.lookup rawRecord key).isSome)
        "initial records require module_id, kind, actor_name, and data"
      match get rawRecord "module_id", get rawRecord "kind", get rawRecord "data" with
      | .str moduleId, .str kind, .obj data => do
          let actorName ← optionalText (get rawRecord "actor_name") 120
          pure ⟨moduleId, kind, actorName, data⟩
      | .str _, .str _, _ => .error "initial record data must be an object"
      | _, _, _ => .error "initial record module_id and kind must be text"
  | _ => .error "initial records require module_id, kind, actor_name, and data"

/-- `_initial_records`. -/
def initialRecords (rawRecords : Json) : Except String (List Seed) :=
  match rawRecords with
  | .arr rawRecords => do
      require (rawRecords.length ≤ 200) "initial_records must be a list of at most 200 records"
      rawRecords.mapM initialRecord
  | _ => .error "initial_records must be a list of at most 200 records"

/-- A dictionary of names; the first entry of a key counts. -/
abbrev Names := List (String × String)

/-- `names.get(key, default)`. -/
def Names.getOr (names : Names) (key default : String) : String :=
  ((names.find? fun entry => entry.1 = key).map Prod.snd).getD default

/-- `aliases`: a later member takes over the aliases of an earlier one. -/
def aliasesOf (library : Library) (members : List NamedMember) : Names :=
  (members.flatMap fun member => (member.aliases.filter (· ≠ "")).map fun other =>
    (foldedKey library other, member.name)).reverse

/-- The names of `split_between` rewritten; what is no text is dropped. -/
def rewriteSplit (library : Library) (names : List String) (replacements : Names)
    (split : List Json) : List String :=
  (split.flatMap fun rawName => match rawName with
    | .str rawName =>
        let key := foldedKey library rawName
        if key = "everyone" || key = "group member" then names
        else [replacements.getOr key rawName]
    | _ => []).eraseDups

/-- `_rewrite_group_expense_seed`. -/
def rewriteGroupExpenseSeed (library : Library) (moduleId : String) (names : List String)
    (replacements : Names) (seed : Seed) : Seed :=
  if seed.moduleId ≠ moduleId || seed.kind ≠ "expense" then seed
  else
    let paid := match Json.lookup seed.data "paid_by" with
      | some (.str paidBy) =>
          Json.assign "paid_by" (.str (replacements.getOr (foldedKey library paidBy) paidBy)) seed.data
      | _ => seed.data
    let split := match Json.lookup paid "split_between" with
      | some (.arr split) =>
          Json.assign "split_between" (texts (rewriteSplit library names replacements split)) paid
      | _ => paid
    { seed with
      data := split
      actorName := seed.actorName.map fun actorName =>
        replacements.getOr (foldedKey library actorName) actorName }

/-- The kind of seed that stands for the members of the group, and its data. -/
def memberSeed (module : AppModule) : Option (String × (String → Fields)) :=
  if module.type = .expenses && get module.settings "mode" = .str "split" then
    some ("participant", fun name => [("name", .str name)])
  else if module.type = .guestList then
    some ("guest", fun name => [("name", .str name), ("status", .str "invited"),
      ("party_size", .int 1), ("note", .str "")])
  else none

/-- One round of `_replace_group_seed_handles`. -/
def replaceModuleHandles (library : Library) (members : List NamedMember) (result : List Seed)
    (module : AppModule) : List Seed :=
  match memberSeed module with
  | none => result
  | some (kind, makeData) =>
      let names := members.map (·.name)
      let isMatching (seed : Seed) : Bool := seed.moduleId = module.id && seed.kind = kind
      let matching := result.filter isMatching
      -- a handle that no member is known by stands for the member at its place
      let replacements := aliasesOf library members ++
        (matching.zip names).filterMap fun (seed, name) =>
          let rawName := nameText library seed.data
          if isHandleLike library (Text.strip rawName.toList) then some (foldedKey library rawName, name)
          else none
      let rewritten := if module.type = .expenses then
          result.map (rewriteGroupExpenseSeed library module.id names replacements)
        else result
      let hasUnsafeName := matching.any fun seed =>
        unsafeParticipantName library (nameText library seed.data)
      if !matching.isEmpty && !hasUnsafeName then rewritten
      else rewritten.filter (fun seed => !isMatching seed) ++
        names.map fun name => ⟨module.id, kind, none, makeData name⟩

/-- `_replace_group_seed_handles`. -/
def replaceGroupSeedHandles (library : Library) (members : List NamedMember)
    (modules : List AppModule) (seeds : List Seed) : List Seed :=
  modules.foldl (replaceModuleHandles library members) seeds

/-- One seed is checked and stored. -/
def plantSeed (library : Library) (app : GeneratedApp) (store : Store) (seed : Seed) :
    Except String Store := do
  let (moduleId, cleanData) ← validateAndResolveRecord library store app (some seed.moduleId)
    seed.kind seed.data none
  pure (store.insertRecord app.id moduleId seed.kind seed.actorName cleanData)

structure WorkspaceRequest where
  title : Json
  description : Json
  theme : String
  accessMode : String
  modules : Json
  initialRecords : Json

/-- `create_composable_generated_app`: participants are planted before all other seeds. -/
def createComposableGeneratedApp (library : Library) (store : Store) (group : Group)
    (request : WorkspaceRequest) : Except AppError Store :=
  Except.mapError .validation do
    require (request.accessMode ∈ appAccessModes) "Unsupported app access mode"
    let accessMode := if group.isSome then "collaborative_link" else request.accessMode
    let cleanTitle ← text request.title "title" 120
    let cleanDescription ← textOrEmpty request.description 500
    let modules ← buildComposableSpecification library request.theme request.modules
    let cleanSeeds ← initialRecords request.initialRecords
    let seeds := group.elim cleanSeeds fun members =>
      replaceGroupSeedHandles library members modules cleanSeeds
    let app : GeneratedApp := ⟨store.nextId, .workspace, cleanTitle, cleanDescription,
      request.theme, accessMode, modules⟩
    (seeds.filter (·.kind = "participant") ++ seeds.filter (·.kind ≠ "participant")).foldlM
      (plantSeed library app) (store.insertApp app)

/-! ## Runs -/

/-- What is asked of the service, one atomic step each. -/
inductive Request
  | createApp (group : Group) (request : AppRequest)
  | createWorkspace (group : Group) (request : WorkspaceRequest)
  | createRecord (appId : Uuid) (moduleId : Option String) (kind : String) (data : Fields)
      (actorName : Json)
  | updateRecord (appId recordId : Uuid) (data : Fields)
  | deleteRecord (appId recordId : Uuid)

def Request.perform (library : Library) (store : Store) : Request → Except AppError Store
  | createApp group request => createGeneratedApp library store group request
  | createWorkspace group request => createComposableGeneratedApp library store group request
  | createRecord appId moduleId kind data actorName =>
      Workspaces.createRecord library store appId moduleId kind data actorName
  | updateRecord appId recordId data => Workspaces.updateRecord library store appId recordId data
  | deleteRecord appId recordId => Workspaces.deleteRecord store appId recordId

def Store.empty : Store := ⟨[], [], 0⟩

/-- The store after some requests; a request that fails is rolled back. -/
def run (library : Library) (requests : List Request) : Store :=
  requests.foldl (fun store request => (request.perform library store).toOption.getD store)
    Store.empty

end DotBackend.Workspaces
