import DotBackend.Apps.Schema
import DotBackend.Data.Sha256

/-!
# Checks on what apps send

Texts, sizes, manifests, and records against a manifest. Every check raises a
validation error that names what it checks.
-/

namespace DotBackend.Apps

open Data

/-! ## Texts -/

/-- `_text`. -/
def text (value : Json) (field : String) (maxLength : Nat) : Except CodeAppError String :=
  match value with
  | .str s =>
      let clean := Text.strip s.toList
      if clean.isEmpty then .error (.validation (field ++ " is required"))
      else if maxLength < clean.length then .error (.validation (field ++ " is too long"))
      else .ok (String.ofList clean)
  | _ => .error (.validation (field ++ " is required"))

/-- `_optional_text`. -/
def optionalText (value : Json) (maxLength : Nat) : Except CodeAppError String :=
  match value with
  | .null => .ok ""
  | .str s => .ok (String.ofList ((Text.strip s.toList).take maxLength))
  | _ => .error (.validation "Text value is invalid")

/-- `_fallback_text`. -/
def fallbackText (value : Json) (fallback : String) (maxLength : Nat) : String :=
  match value with
  | .str s =>
      let clean := Text.strip s.toList
      if clean.isEmpty then fallback else String.ofList (clean.take maxLength)
  | _ => fallback

/-- `_json_object` with an empty default. -/
def jsonObject : Option Json → Fields
  | some (.obj fields) => fields
  | _ => []

/-- `re.fullmatch(r"[0-9a-f]{64}", value)`. -/
def isDigest (value : String) : Bool :=
  value.toList.length = 64 &&
    value.toList.all fun c => ('0' ≤ c ∧ c ≤ '9') ∨ ('a' ≤ c ∧ c ≤ 'f')

/-- `_entity`, for a value that may be missing. -/
def entity (value : Option Json) : Except CodeAppError String :=
  match value with
  | some (.str s) =>
      let named := match s.toList with
        | [] => false
        | first :: rest =>
            (('a' ≤ first ∧ first ≤ 'z') : Bool) && rest.length ≤ 63 &&
              rest.all fun c => ('a' ≤ c ∧ c ≤ 'z') ∨ ('0' ≤ c ∧ c ≤ '9') ∨ c = '_'
      if named then .ok s
      else .error (.validation "Entity and field names must be snake_case identifiers")
  | _ => .error (.validation "Entity and field names must be snake_case identifiers")

/-! ## Sizes -/

/-- `_json_bytes`. -/
def jsonBytes (value : Json) : Nat :=
  Json.byteLength value

/-- `_require_json_size`. -/
def requireJsonSize (value : Json) (field : String) (maxBytes : Nat) : Except CodeAppError Unit :=
  require (jsonBytes value ≤ maxBytes) (.validation (field ++ " is too large"))

/-! ## Requests -/

/-- What `_idempotency_request_hash` encodes. -/
def requestEnvelope (operation : String) (request : Fields) : Json :=
  .obj [("operation", .str operation), ("request", .obj request)]

/-- `_idempotency_request_hash`. -/
def idempotencyRequestHash (operation : String) (request : Fields) : Except CodeAppError String :=
  if Json.allFinite (requestEnvelope operation request) then
    .ok (sha256 (Json.dumps (requestEnvelope operation request)))
  else .error (.validation "Mutation request must contain only JSON values")

/-- `_validated_request_hash`. -/
def validatedRequestHash : Option String → Except CodeAppError (Option String)
  | none => .ok none
  | some value =>
      if isDigest value then .ok (some value)
      else .error (.validation "Idempotency request hash is invalid")

/-! ## Manifests -/

/-- The one capability that a manifest may request. -/
def dotReminderCreateCapability : String := "dot.reminder.create"

/-- `parse_generated_app_capabilities`. -/
def parseGeneratedAppCapabilities (manifest : Json) : Except CodeAppError (List String) :=
  match (manifest.get? "capabilities").getD (.arr []) with
  | .arr raw => do
      require (raw.length ≤ 1) (.validation "Manifest capabilities must be a supported list")
      let names := raw.filterMap fun item => match item with
        | .str name => some name
        | _ => none
      require (names.length = raw.length) (.validation "Manifest capabilities must be strings")
      require (decide names.Nodup) (.validation "Manifest capabilities must be unique")
      require (names.all fun name => name = dotReminderCreateCapability)
        (.validation "Manifest requests an unsupported capability")
      pure names
  | _ => .error (.validation "Manifest capabilities must be a supported list")

/-- `value == 1`, which also holds of `True` and of `1.0`. -/
def equalsOne : Json → Bool
  | .int i => i = 1
  | .bool b => b
  | .float (.finite digits _) => finiteValue digits = 1
  | _ => false

/-- The loop of `_entity_fields` over a list of definitions. -/
def listedFields (result : List (String × Fields)) : List Json →
    Except CodeAppError (List (String × Fields))
  | [] => .ok result
  | .obj definition :: rest => do
      let name ← entity (Json.lookup definition "name")
      require (result.all fun field => field.1 ≠ name)
        (.validation "Entity field names must be unique")
      listedFields (result ++ [(name, definition)]) rest
  | _ :: _ => .error (.validation "Entity field definitions must be objects")

/-- The loop of `_entity_fields` over a dictionary of definitions. -/
def keyedFields : Fields → Except CodeAppError (List (String × Fields))
  | [] => .ok []
  | (name, value) :: rest => do
      let cleanName ← entity (some (.str name))
      match value with
      | .obj definition => do
          let others ← keyedFields rest
          pure ((cleanName, definition) :: others)
      | _ => .error (.validation "Entity field definitions must be objects")

/-- `_entity_fields`: the fields of an entity in order. -/
def entityFields (definition : Fields) : Except CodeAppError (List (String × Fields)) :=
  match (Json.lookup definition "fields").getD (.obj []) with
  | .obj fields => keyedFields fields
  | .arr fields => listedFields [] fields
  | _ => .error (.validation "Entity fields must be an object or list")

/-- The kinds of fields. -/
def fieldKinds : List String :=
  ["string", "text", "number", "integer", "money", "currency", "boolean", "date", "datetime",
    "email", "url", "enum", "relation", "object", "array"]

/-- The checks of `_validate_manifest` on one field. -/
def validateFieldKind (definition : Fields) : Except CodeAppError Unit :=
  match Json.lookup definition "type" with
  | some (.str kind) =>
      require (kind ∈ fieldKinds) (.validation "Unsupported entity field type")
  | _ => .error (.validation "Unsupported entity field type")

/-- The loop of `_validate_manifest` over the entities. -/
def validateEntities (seen : List String) : List Json → Except CodeAppError Unit
  | [] => .ok ()
  | .obj value :: rest => do
      let name ← entity (Json.lookup value "name")
      require (name ∉ seen) (.validation "Entity names must be unique")
      let fields ← entityFields value
      require (fields.length ≤ 64) (.validation "An entity can have at most 64 fields")
      forEach (fun field => validateFieldKind field.2) fields
      validateEntities (name :: seen) rest
  | _ :: _ => .error (.validation "Entity definitions must be objects")

/-- `manifest.get("entities", [])`. -/
def manifestEntities (manifest : Json) : Json :=
  (manifest.get? "entities").getD (.arr [])

/-- `_validate_manifest`. -/
def validateManifest (manifest : Json) : Except CodeAppError Unit :=
  match manifest with
  | .obj _ => do
      require ((manifest.get? "schema_version").any equalsOne)
        (.validation "Unsupported manifest schema_version")
      discard (parseGeneratedAppCapabilities manifest)
      requireJsonSize manifest "Manifest" 64000
      match manifestEntities manifest with
      | .arr entities => do
          require (entities.length ≤ 24) (.validation "Manifest requires at most 24 entities")
          validateEntities [] entities
      | _ => .error (.validation "Manifest requires at most 24 entities")
  | _ => .error (.validation "Manifest must be an object")

/-! ## Records -/

/-- `re.fullmatch(r"\d{4}-\d{2}-\d{2}", value)`. -/
def isDate (unicode : Unicode) (value : List Char) : Bool :=
  match value with
  | [y1, y2, y3, y4, '-', m1, m2, '-', d1, d2] =>
      [y1, y2, y3, y4, m1, m2, d1, d2].all fun c => (unicode.decimal c).isSome
  | _ => false

/-- The table of `_validate_field_value`. -/
def isOfKind (unicode : Unicode) (kind : String) (value : Json) : Bool :=
  let isText := match value with
    | .str _ => true
    | _ => false
  let isInteger := match value with
    | .int _ => true
    | _ => false
  let isNumber := match value with
    | .int _ | .float _ => true
    | _ => false
  if kind ∈ ["string", "text", "currency", "email", "url", "enum", "relation", "datetime"] then
    isText
  else if kind ∈ ["number", "money"] then isNumber
  else if kind = "integer" then isInteger
  else match kind, value with
    | "boolean", .bool _ => true
    | "object", .obj _ => true
    | "array", .arr _ => true
    | "date", .str s => isDate unicode s.toList
    | _, _ => false

/-- `_validate_field_value`. -/
def validateFieldValue (unicode : Unicode) (name kind : String) (value : Json) :
    Except CodeAppError Unit :=
  if value = .null then .ok ()
  else require (isOfKind unicode kind value)
    (.validation ("Field " ++ name ++ " must be " ++ kind))

/-- `field["type"]`, a string in every valid manifest. -/
def fieldKind (definition : Fields) : String :=
  match Json.lookup definition "type" with
  | some (.str kind) => kind
  | _ => ""

/-- `", ".join(sorted(names))`. -/
def joinSorted (names : List String) : String :=
  ", ".intercalate (names.insertionSort fun a b => a ≤ b)

/-- The definition that `_validate_entity_data` selects. -/
def entityDefinition (manifest : Json) (name : String) : Option Fields :=
  match manifestEntities manifest with
  | .arr entities => entities.findSome? fun item => match item with
      | .obj definition =>
          if Json.lookup definition "name" = some (.str name) then some definition else none
      | _ => none
  | _ => none

/-- `_validate_entity_data`; the result has the members of the data in their order. -/
def validateEntityData (unicode : Unicode) (manifest : Json) (name : String) (data : Fields) :
    Except CodeAppError Fields :=
  match entityDefinition manifest name with
  | none => .error (.validation "Entity is not declared by the active revision")
  | some definition => do
      let fields ← entityFields definition
      let unknown := (data.map Prod.fst).filter fun key => fields.all fun field => field.1 ≠ key
      require unknown.isEmpty (.validation ("Unknown fields: " ++ joinSorted unknown))
      let missing := (fields.filter fun field =>
        Json.lookup field.2 "required" = some (.bool true) &&
          ((Json.lookup data field.1).getD .null = .null : Bool)).map Prod.fst
      require missing.isEmpty (.validation ("Missing required fields: " ++ joinSorted missing))
      forEach (fun member =>
        let kind := ((fields.find? fun field => field.1 = member.1).map fun field =>
          fieldKind field.2).getD ""
        validateFieldValue unicode member.1 kind member.2) data
      requireJsonSize (.obj data) "Record data" 16000
      pure data

/-- A record that is accepted is stored as it is. -/
theorem validateEntityData_eq {unicode : Unicode} {manifest : Json} {name : String}
    {data clean : Fields} (accepted : validateEntityData unicode manifest name data = .ok clean) :
    clean = data := by
  unfold validateEntityData at accepted
  split at accepted
  · cases accepted
  · simp only [bind_eq_ok, pure_eq_ok] at accepted
    obtain ⟨fields, _, _, _, _, _, _, _, _, _, same⟩ := accepted
    exact same.symm

end DotBackend.Apps
