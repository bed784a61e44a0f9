import DotBackend.Data.Number
import DotBackend.Data.Result
import Mathlib.Data.List.Sort

/-!
# Specifications of composable apps

A workspace is a list of modules, each with settings, and every kind of record belongs to
one type of module. Settings and records come as JSON and are rebuilt from checked values;
whatever is not listed is refused.
-/

namespace DotBackend.Workspaces

open Data

abbrev Fields := List (String × Json)

/-- What the checks use of the standard library besides its Unicode tables. -/
structure Library extends Unicode where
  /-- `str.upper`. -/
  upper : String → String
  /-- `round(float(value), 4)` of a number within the supported range. -/
  round4 : Json → PyFloat
  /-- `date.fromisoformat(value).isoformat()`, with `none` for `ValueError`. -/
  date : String → Option String
  /-- `time.fromisoformat(value).isoformat(timespec="minutes")`, with `none` for `ValueError`. -/
  time : String → Option String
  /-- `ZoneInfo(name)` is found. -/
  knowsZone : String → Bool
  /-- `str(value)` of a value that is no text. -/
  str : Json → String

/-- A library that knows ASCII, rounds nothing and reads texts as they are. -/
def Library.ascii : Library where
  toUnicode := Unicode.ascii
  upper text := String.ofList (text.toList.map Char.toUpper)
  round4
    | .float value => value
    | .int value => if 0 < value then .finite "1.0".toList rfl else .finite "0.0".toList rfl
    | _ => .nan
  date text := some text
  time text := some text
  knowsZone name := name = "UTC"
  str value := String.ofList (Json.dumps value)

/-! ## Checked values -/

/-- `value.get(key)`; a missing member is `None`. -/
def get (fields : Fields) (key : String) : Json :=
  (Json.lookup fields key).getD .null

/-- `_exact_keys`. -/
def exactKeys (value : Fields) (expected : List String) (label : String) : Except String Unit :=
  require (value.all (fun entry => entry.1 ∈ expected) &&
      expected.all fun key => (Json.lookup value key).isSome)
    (label ++ " fields must be exactly: " ++
      if expected.isEmpty then "(none)"
      else ", ".intercalate (expected.insertionSort fun a b => a ≤ b))

/-- `" ".join(value.strip().split())`. -/
def clean (value : String) : String :=
  String.ofList (Text.singleSpaced (Text.strip value.toList))

/-- `_text`. -/
def text (value : Json) (field : String) (maxLength : Nat) : Except String String :=
  match value with
  | .str value => do
      require (clean value ≠ "" && (clean value).length ≤ maxLength)
        (field ++ " must be between 1 and " ++ toString maxLength ++ " characters")
      pure (clean value)
  | _ => .error (field ++ " must be text")

/-- `_optional_text`. -/
def optionalText (value : Json) (maxLength : Nat) : Except String (Option String) :=
  match value with
  | .null => .ok none
  | .str value =>
      if clean value = "" then .ok none
      else do
        require ((clean value).length ≤ maxLength)
          ("Text cannot exceed " ++ toString maxLength ++ " characters")
        pure (some (clean value))
  | _ => .error "Optional value must be text or null"

/-- `_text_or_empty`. -/
def textOrEmpty (value : Json) (maxLength : Nat) : Except String String := do
  let found ← optionalText value maxLength
  pure (found.getD "")

/-- `_boolean`. -/
def boolean (value : Json) (field : String) : Except String Bool :=
  match value with
  | .bool value => .ok value
  | _ => .error (field ++ " must be true or false")

/-- `value in {…}`, for texts. -/
def isOneOf (value : Json) (options : List String) : Bool :=
  options.any fun option => value = .str option

/-- `-1_000_000_000 <= number <= 1_000_000_000`; a huge integer is no float at all. -/
def isSupported : Json → Bool
  | .int value => -1000000000 ≤ value && value ≤ 1000000000
  | .float (.finite digits _) => -1000000000 ≤ finiteValue digits && finiteValue digits ≤ 1000000000
  | _ => false

/-- `_number`. -/
def number (library : Library) (value : Json) (field : String) : Except String PyFloat :=
  match value with
  | .int _ | .float _ => do
      require (isSupported value) (field ++ " is outside the supported range")
      pure (library.round4 value)
  | _ => .error (field ++ " must be a number")

def isPositive : PyFloat → Bool
  | .finite digits _ => 0 < finiteValue digits
  | .infinity negative => !negative
  | .nan => true

/-- `_positive_number`: what is at most zero is refused. -/
def positiveNumber (library : Library) (value : Json) (field : String) : Except String PyFloat := do
  let rounded ← number library value field
  require (isPositive rounded) (field ++ " must be greater than zero")
  pure rounded

/-- `_required_date`. -/
def requiredDate (library : Library) (value : Json) : Except String String :=
  match value with
  | .str value =>
      match library.date value with
      | some date => .ok date
      | none => .error "date must use YYYY-MM-DD"
  | _ => .error "date must use YYYY-MM-DD"

/-- `_optional_date`. -/
def optionalDate (library : Library) (value : Json) : Except String (Option String) :=
  match value with
  | .null => .ok none
  | value => (requiredDate library value).map some

/-- `_optional_time`. -/
def optionalTime (library : Library) (value : Json) : Except String (Option String) :=
  match value with
  | .null => .ok none
  | .str value =>
      match library.time value with
      | some time => .ok (some time)
      | none => .error "time must use HH:MM"
  | _ => .error "time must use HH:MM"

/-- `value.casefold()`. -/
def casefold (library : Library) (value : String) : String :=
  String.ofList (Text.casefold library.toUnicode value.toList)

/-- The loop of `_unique_texts`: the first of the texts that fold to the same one is kept. -/
def uniqueTextsFrom (library : Library) (field : String) (maxLength : Nat) :
    List String → List Json → Except String (List String)
  | result, [] => .ok result
  | result, value :: rest => do
      let found ← text value field maxLength
      if result.any fun other => casefold library other = casefold library found then
        uniqueTextsFrom library field maxLength result rest
      else uniqueTextsFrom library field maxLength (result ++ [found]) rest

/-- `_unique_texts`. -/
def uniqueTexts (library : Library) (values : List Json) (field : String) (maxItems maxLength : Nat) :
    Except String (List String) := do
  require (values.length ≤ maxItems) (field ++ " has too many values")
  uniqueTextsFrom library field maxLength [] values

/-- `_identifier`; both patterns are the same. -/
def identifier (value : Json) (label : String) : Except String String :=
  let refused := label ++ " must start with a letter and contain lowercase letters, " ++
    "numbers, or underscores"
  match value with
  | .str value =>
      match value.toList with
      | [] => .error refused
      | first :: rest => do
          require (('a' ≤ first ∧ first ≤ 'z' : Bool) && rest.length ≤ 39 &&
            rest.all fun c => ('a' ≤ c ∧ c ≤ 'z') ∨ ('0' ≤ c ∧ c ≤ '9') ∨ c = '_') refused
          pure value
  | _ => .error refused

/-- A value that may be missing, as JSON. -/
def orNull (value : Option String) : Json :=
  value.elim .null .str

def texts (values : List String) : Json :=
  .arr (values.map .str)

/-! ## Settings -/

/-- `_empty_settings`. -/
def emptySettings (settings : Fields) : Except String Fields := do
  exactKeys settings [] "module settings"
  pure []

/-- One fact of an overview. -/
def overviewFact (rawFact : Json) : Except String Json :=
  match rawFact with
  | .obj rawFact => do
      exactKeys rawFact ["label", "value"] "overview fact"
      let label ← text (get rawFact "label") "fact label" 60
      let value ← text (get rawFact "value") "fact value" 160
      pure (.obj [("label", .str label), ("value", .str value)])
  | _ => .error "overview facts must be objects"

/-- `_overview_settings`. -/
def overviewSettings (settings : Fields) : Except String Fields := do
  exactKeys settings ["body", "facts"] "overview settings"
  match get settings "facts" with
  | .arr rawFacts => do
      require (rawFacts.length ≤ 8) "overview facts must be a list of at most 8 items"
      let facts ← rawFacts.mapM overviewFact
      let body ← textOrEmpty (get settings "body") 1000
      pure [("body", .str body), ("facts", .arr facts)]
  | _ => .error "overview facts must be a list of at most 8 items"

/-- `_todos_settings`. -/
def todosSettings (settings : Fields) : Except String Fields := do
  exactKeys settings ["show_completed"] "todos settings"
  let showCompleted ← boolean (get settings "show_completed") "show_completed"
  pure [("show_completed", .bool showCompleted)]

/-- `_guest_settings`. -/
def guestSettings (settings : Fields) : Except String Fields := do
  exactKeys settings ["allow_plus_ones"] "guest list settings"
  let allowPlusOnes ← boolean (get settings "allow_plus_ones") "allow_plus_ones"
  pure [("allow_plus_ones", .bool allowPlusOnes)]

/-- `_itinerary_settings`. -/
def itinerarySettings (library : Library) (settings : Fields) : Except String Fields := do
  exactKeys settings ["timezone"] "itinerary settings"
  let timezone ← optionalText (get settings "timezone") 64
  require (timezone.all library.knowsZone) "timezone must be a valid IANA timezone"
  pure [("timezone", orNull timezone)]

/-- `value.isalnum()`. -/
def isAlnum (library : Library) (value : String) : Bool :=
  value ≠ "" && value.toList.all library.alnum

/-- `_expenses_settings`. -/
def expensesSettings (library : Library) (settings : Fields) : Except String Fields := do
  exactKeys settings ["currency", "budget", "mode"] "expenses settings"
  let currency ← (text (get settings "currency") "currency" 12).map library.upper
  require (isAlnum library currency) "currency must contain only letters or numbers"
  let mode := get settings "mode"
  require (isOneOf mode ["personal", "split"]) "expense mode must be personal or split"
  let budget ← match get settings "budget" with
    | .null => .ok .null
    | budget => (positiveNumber library budget "budget").map .float
  pure [("currency", .str currency), ("budget", budget), ("mode", mode)]

/-- `_metric_settings`. -/
def metricSettings (library : Library) (settings : Fields) : Except String Fields := do
  exactKeys settings ["unit", "target", "direction"] "metric settings"
  let direction := get settings "direction"
  require (isOneOf direction ["increase", "decrease"]) "metric direction must be increase or decrease"
  let unit ← text (get settings "unit") "unit" 30
  let target ← match get settings "target" with
    | .null => .ok .null
    | target => (number library target "target").map .float
  pure [("unit", .str unit), ("target", target), ("direction", direction)]

def collectionFieldTypes : List String :=
  ["text", "number", "currency", "date", "time", "select", "boolean"]

/-- One field of a collection, with its key. -/
def collectionField (library : Library) (seen : List String) (rawField : Json) :
    Except String (String × Json) :=
  match rawField with
  | .obj rawField => do
      exactKeys rawField ["key", "label", "type", "required", "options"] "field"
      let fieldKey ← identifier (get rawField "key") "field key"
      require (fieldKey ∉ seen) "collection field keys must be unique"
      let fieldType := get rawField "type"
      require (isOneOf fieldType collectionFieldTypes) "unsupported collection field type"
      match get rawField "options" with
      | .arr rawOptions => do
          let options ← uniqueTexts library rawOptions "option" 20 60
          require (fieldType ≠ .str "select" || !options.isEmpty)
            "select fields require at least one option"
          require (fieldType = .str "select" || options.isEmpty)
            "only select fields may define options"
          let label ← text (get rawField "label") "field label" 60
          let required ← boolean (get rawField "required") "field required"
          pure (fieldKey, .obj [("key", .str fieldKey), ("label", .str label), ("type", fieldType),
            ("required", .bool required), ("options", texts options)])
      | _ => .error "field options must be a list"
  | _ => .error "collection fields must be objects"

/-- The loop over the fields of a collection. -/
def collectionFields (library : Library) :
    List (String × Json) → List Json → Except String (List (String × Json))
  | fields, [] => .ok fields
  | fields, rawField :: rest => do
      let field ← collectionField library (fields.map Prod.fst) rawField
      collectionFields library (fields ++ [field]) rest

/-- `_collection_settings`. -/
def collectionSettings (library : Library) (settings : Fields) : Except String Fields := do
  exactKeys settings ["display", "fields", "primary_field", "currency"] "collection settings"
  let display := get settings "display"
  require (isOneOf display ["list", "table", "cards"]) "collection display must be list, table, or cards"
  match get settings "fields" with
  | .arr rawFields => do
      require (1 ≤ rawFields.length && rawFields.length ≤ 12)
        "collection fields must contain 1 to 12 fields"
      let fields ← collectionFields library [] rawFields
      let primaryField := get settings "primary_field"
      require (primaryField = .null || isOneOf primaryField (fields.map Prod.fst))
        "primary_field must reference a configured field"
      let currency ← optionalText (get settings "currency") 12
      require (currency.all (isAlnum library)) "currency must contain only letters or numbers"
      pure [("display", display), ("fields", .arr (fields.map Prod.snd)),
        ("primary_field", primaryField), ("currency", orNull (currency.map library.upper))]
  | _ => .error "collection fields must contain 1 to 12 fields"

/-! ## Records -/

/-- `_todo_record`. -/
def todoRecord (library : Library) (data : Fields) : Except String Fields := do
  exactKeys data ["text", "completed", "due_date", "assignee", "priority"] "todo"
  let priority := get data "priority"
  require (isOneOf priority ["low", "normal", "high"]) "todo priority must be low, normal, or high"
  let content ← text (get data "text") "text" 240
  let completed ← boolean (get data "completed") "completed"
  let dueDate ← optionalDate library (get data "due_date")
  let assignee ← optionalText (get data "assignee") 80
  pure [("text", .str content), ("completed", .bool completed), ("due_date", orNull dueDate),
    ("assignee", orNull assignee), ("priority", priority)]

/-- `_guest_record`. -/
def guestRecord (data settings : Fields) : Except String Fields := do
  exactKeys data ["name", "status", "party_size", "note"] "guest"
  let status := get data "status"
  require (isOneOf status ["invited", "going", "maybe", "declined"]) "guest status is invalid"
  match get data "party_size" with
  | .int partySize => do
      let maximum : Int := if (get settings "allow_plus_ones").truthy then 20 else 1
      require (1 ≤ partySize && partySize ≤ maximum)
        ("party_size must be between 1 and " ++ toString maximum)
      let name ← text (get data "name") "name" 80
      let note ← textOrEmpty (get data "note") 240
      pure [("name", .str name), ("status", status), ("party_size", .int partySize),
        ("note", .str note)]
  | _ => .error "party_size must be an integer"

/-- `_itinerary_record`; times are compared as texts. -/
def itineraryRecord (library : Library) (data : Fields) : Except String Fields := do
  exactKeys data ["title", "date", "start_time", "end_time", "location", "note", "completed"]
    "itinerary item"
  let startTime ← optionalTime library (get data "start_time")
  let endTime ← optionalTime library (get data "end_time")
  require (startTime.all fun startTime => endTime.all fun endTime => startTime < endTime)
    "end_time must be after start_time"
  let title ← text (get data "title") "title" 160
  let date ← optionalDate library (get data "date")
  let location ← textOrEmpty (get data "location") 160
  let note ← textOrEmpty (get data "note") 500
  let completed ← boolean (get data "completed") "completed"
  pure [("title", .str title), ("date", orNull date), ("start_time", orNull startTime),
    ("end_time", orNull endTime), ("location", .str location), ("note", .str note),
    ("completed", .bool completed)]

/-- `_participant_record`. -/
def participantRecord (data settings : Fields) : Except String Fields := do
  require (get settings "mode" = .str "split") "participants require split expense mode"
  exactKeys data ["name"] "participant"
  let name ← text (get data "name") "name" 80
  pure [("name", .str name)]

/-- `_expense_record`. -/
def expenseRecord (library : Library) (data settings : Fields) : Except String Fields := do
  exactKeys data ["amount", "category", "note", "date", "paid_by", "split_between"] "expense"
  let paidBy ← optionalText (get data "paid_by") 80
  match get data "split_between" with
  | .arr rawSplit => do
      let splitBetween ← uniqueTexts library rawSplit "split participant" 20 80
      require (get settings "mode" ≠ .str "split" || (paidBy.isSome && !splitBetween.isEmpty))
        "split expenses require paid_by and at least one split participant"
      require (get settings "mode" ≠ .str "personal" || (paidBy.isNone && splitBetween.isEmpty))
        "personal expenses cannot include split participants"
      let amount ← positiveNumber library (get data "amount") "amount"
      let category ← text (get data "category") "category" 60
      let note ← textOrEmpty (get data "note") 240
      let date ← requiredDate library (get data "date")
      pure [("amount", .float amount), ("category", .str category), ("note", .str note),
        ("date", .str date), ("paid_by", orNull paidBy), ("split_between", texts splitBetween)]
  | _ => .error "split_between must be a list"

/-- `_measurement_record`. -/
def measurementRecord (library : Library) (data : Fields) : Except String Fields := do
  exactKeys data ["value", "note", "date"] "measurement"
  let value ← number library (get data "value") "value"
  let note ← textOrEmpty (get data "note") 240
  let date ← requiredDate library (get data "date")
  pure [("value", .float value), ("note", .str note), ("date", .str date)]

/-- `_note_record`. -/
def noteRecord (data : Fields) : Except String Fields := do
  exactKeys data ["title", "body", "pinned"] "note"
  let title ← text (get data "title") "title" 120
  let body ← text (get data "body") "body" 5000
  let pinned ← boolean (get data "pinned") "pinned"
  pure [("title", .str title), ("body", .str body), ("pinned", .bool pinned)]

/-- A member of a field of a collection. -/
def fieldMember (field : Json) (key : String) : Json :=
  (Json.get? field key).getD .null

/-- The text of a label or a key. -/
def textOf : Json → String
  | .str value => value
  | _ => ""

/-- `_collection_value`. -/
def collectionValue (library : Library) (value field : Json) : Except String Json :=
  let label := textOf (fieldMember field "label")
  let fieldType := fieldMember field "type"
  match value with
  | .null => do
      require (!(fieldMember field "required").truthy) (label ++ " is required")
      pure .null
  | value =>
      if isOneOf fieldType ["number", "currency"] then (number library value label).map .float
      else if fieldType = .str "boolean" then (boolean value label).map .bool
      else if fieldType = .str "date" then (requiredDate library value).map .str
      else if fieldType = .str "time" then (optionalTime library value).map orNull
      else do
        let found ← text value label 500
        match fieldMember field "options" with
        | .arr options =>
            require (fieldType ≠ .str "select" || isOneOf (.str found) (options.map textOf))
              (label ++ " must use a configured option")
        | _ => .ok ()
        pure (.str found)

/-- `_collection_entry_record`. -/
def collectionEntryRecord (library : Library) (data settings : Fields) : Except String Fields :=
  match get settings "fields" with
  | .arr fields => do
      let fieldOf (key : String) := fields.find? fun field => textOf (fieldMember field "key") = key
      require (data.all fun entry => (fieldOf entry.1).isSome) "collection entry contains unknown fields"
      let values ← data.mapM fun entry =>
        (collectionValue library entry.2 ((fieldOf entry.1).getD .null)).map fun value =>
          (entry.1, value)
      let missing := fields.filter fun field => (fieldMember field "required").truthy &&
        (Json.lookup values (textOf (fieldMember field "key"))).isNone
      require missing.isEmpty ("Missing required collection fields: " ++
        ", ".intercalate (missing.map fun field => textOf (fieldMember field "label")))
      pure values
  | _ => .error "collection entry contains unknown fields"

/-! ## Modules -/

inductive ModuleType
  | overview | todos | guestList | itinerary | expenses | metric | notes | collection
  deriving DecidableEq

namespace ModuleType

def name : ModuleType → String
  | overview => "overview"
  | todos => "todos"
  | guestList => "guest_list"
  | itinerary => "itinerary"
  | expenses => "expenses"
  | metric => "metric"
  | notes => "notes"
  | collection => "collection"

/-- `APP_MODULES.get(name)`. -/
def ofName (value : String) : Option ModuleType :=
  [overview, todos, guestList, itinerary, expenses, metric, notes, collection].find?
    fun type => type.name = value

/-- `settings_validator`. -/
def settingsValidator (library : Library) : ModuleType → Fields → Except String Fields
  | overview => overviewSettings
  | todos => todosSettings
  | guestList => guestSettings
  | itinerary => itinerarySettings library
  | expenses => expensesSettings library
  | metric => metricSettings library
  | notes => emptySettings
  | collection => collectionSettings library

/-- `record_validators.get(kind)`, on the data and the settings. -/
def recordValidator (library : Library) (type : ModuleType) (kind : String) :
    Option (Fields → Fields → Except String Fields) :=
  match type, kind with
  | todos, "todo" => some fun data _ => todoRecord library data
  | guestList, "guest" => some guestRecord
  | itinerary, "itinerary_item" => some fun data _ => itineraryRecord library data
  | expenses, "participant" => some participantRecord
  | expenses, "expense" => some (expenseRecord library)
  | metric, "measurement" => some fun data _ => measurementRecord library data
  | notes, "note" => some fun data _ => noteRecord data
  | collection, "entry" => some (collectionEntryRecord library)
  | _, _ => none

end ModuleType

/-- A module of a specification. -/
structure AppModule where
  id : String
  type : ModuleType
  title : String
  description : String
  settings : Fields
  deriving DecidableEq

/-- The module as it is stored. -/
def AppModule.toJson (module : AppModule) : Json :=
  .obj [("id", .str module.id), ("type", .str module.type.name), ("title", .str module.title),
    ("description", .str module.description), ("settings", .obj module.settings)]

/-- One round of the loop of `validate_modules`. -/
def validateModule (library : Library) (seen : List String) (rawModule : Json) :
    Except String AppModule :=
  match rawModule with
  | .obj rawModule => do
      exactKeys rawModule ["id", "type", "title", "description", "settings"] "module"
      let moduleId ← identifier (get rawModule "id") "module id"
      require (moduleId ∉ seen) "module ids must be unique"
      match ModuleType.ofName (textOf (get rawModule "type")), get rawModule "settings" with
      | none, _ => .error "unsupported app module type"
      | some type, .obj settings => do
          let title ← text (get rawModule "title") "module title" 80
          let description ← textOrEmpty (get rawModule "description") 240
          let cleanSettings ← type.settingsValidator library settings
          pure ⟨moduleId, type, title, description, cleanSettings⟩
      | some _, _ => .error "module settings must be an object"
  | _ => .error "modules must be objects"

/-- The loop of `validate_modules`. -/
def validateModulesFrom (library : Library) : List AppModule → List Json → Except String (List AppModule)
  | modules, [] => .ok modules
  | modules, rawModule :: rest => do
      let module ← validateModule library (modules.map (·.id)) rawModule
      validateModulesFrom library (modules ++ [module]) rest

/-- `validate_modules`. -/
def validateModules (library : Library) (rawModules : Json) : Except String (List AppModule) :=
  match rawModules with
  | .arr rawModules => do
      require (1 ≤ rawModules.length && rawModules.length ≤ 12) "modules must contain 1 to 12 modules"
      validateModulesFrom library [] rawModules
  | _ => .error "modules must contain 1 to 12 modules"

def appThemes : List String :=
  ["coral", "sage", "ocean", "plum", "gold"]

/-- The modules of `build_composable_specification`. -/
def buildComposableSpecification (library : Library) (theme : String) (modules : Json) :
    Except String (List AppModule) := do
  require (theme ∈ appThemes) "Unsupported app theme"
  validateModules library modules

/-- `modules_from_specification` of a stored specification: it is validated again. -/
def modulesFromSpecification (library : Library) (modules : List AppModule) :
    Except String (List AppModule) :=
  validateModules library (.arr (modules.map AppModule.toJson))

/-- `resolve_record_module`. -/
def resolveRecordModule (library : Library) (specification : List AppModule)
    (moduleId : Option String) (kind : String) : Except String AppModule := do
  let modules ← modulesFromSpecification library specification
  match moduleId with
  | some moduleId => do
      let cleanId ← identifier (.str moduleId) "module id"
      match modules.find? (·.id = cleanId) with
      | none => .error "module_id does not belong to this app"
      | some module => do
          require (module.type.recordValidator library kind).isSome
            "Record type does not match this module"
          pure module
  | none =>
      match modules.filter fun module => (module.type.recordValidator library kind).isSome with
      | [module] => .ok module
      | _ => .error "module_id is required for this record type"

/-- `validate_module_record`. -/
def validateModuleRecord (library : Library) (module : AppModule) (kind : String) (data : Fields) :
    Except String Fields :=
  match module.type.recordValidator library kind with
  | none => .error "Record type does not match this module"
  | some validator => validator data module.settings

end DotBackend.Workspaces
