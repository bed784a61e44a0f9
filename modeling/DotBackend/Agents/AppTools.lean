import DotBackend.Apps.Creation
import DotBackend.Apps.Mutations

/-!
# The tools that build apps

What the agent asks for when it creates or revises a custom app: the arguments of a tool call
are checked, and put together to a blueprint for the first build, or to a request for a
revision.
-/

namespace DotBackend.Agents

open Data Channel Apps

/-- What a tool raises: a `ValueError`, the `TypeError` of a value that cannot be hashed, or
an exception of the service. -/
inductive ToolError
  | value (message : String)
  | unhashable
  | service (error : CodeAppError)
  deriving DecidableEq

structure ToolContext where
  userId : Uuid
  conversationId : Uuid
  agentRunId : Option Uuid
  toolCallId : Option String
  deliveryProvider : Option String
  deriving DecidableEq

/-- A call of the service. -/
def callService {α : Type} : Except CodeAppError α → Except ToolError α
  | .ok result => .ok result
  | .error error => .error (.service error)

theorem callService_eq_ok {α : Type} {called : Except CodeAppError α} {result : α} :
    callService called = .ok result ↔ called = .ok result := by
  cases called with
  | ok a => rw [callService, Except.ok.injEq, Except.ok.injEq]
  | error error => simp [callService]

/-! ## The identity of a call -/

/-- `_agent_tool_idempotency_key`. -/
def agentToolIdempotencyKey (context : ToolContext) : Option String :=
  match context.agentRunId, context.toolCallId with
  | some run, some call =>
      some ("agent-tool:" ++ sha256 (uuidText run ++ ':' :: call.toList))
  | _, _ => none

/-- `_agent_tool_request_hash`. -/
def agentToolRequestHash (context : ToolContext) (toolName : String) (arguments : Fields) :
    Except ToolError String :=
  let envelope : Json := .obj [("tool_name", .str toolName), ("user_id", uuidJson context.userId),
    ("conversation_id", uuidJson context.conversationId), ("arguments", .obj arguments)]
  if Json.allFinite envelope then .ok (sha256 (Json.dumps envelope))
  else .error (.value "Out of range float values are not JSON compliant")

/-! ## Arguments -/

/-- `arguments.get(name)`. -/
def argument (arguments : Fields) (name : String) : Json :=
  (Json.lookup arguments name).getD .null

/-- `_uuid_argument`. -/
def uuidArgument (unicode : Unicode) (value : Json) (field : String) : Except ToolError Uuid :=
  let parsed := match value with
    | .str s => parseUuid unicode s.toList
    | .int i => parseUuid unicode (Json.intText i)
    | _ => none
  match parsed with
  | some id => .ok id
  | none => .error (.value (field ++ " must be a valid ID"))

/-- `_required_string_argument`. -/
def requiredStringArgument (value : Json) (field : String) (maxLength : Nat) :
    Except ToolError String :=
  match value with
  | .str s => do
      let clean := Text.strip s.toList
      require (!clean.isEmpty) (.value (field ++ " must be a non-empty string"))
      require (clean.length ≤ maxLength) (.value (field ++ " is too long"))
      pure (String.ofList clean)
  | _ => .error (.value (field ++ " must be a non-empty string"))

/-- `_optional_string_argument`. -/
def optionalStringArgument (value : Json) (field : String) (maxLength : Nat)
    (allowEmpty : Bool) : Except ToolError (Option String) :=
  match value with
  | .null => .ok none
  | .str s => do
      let clean := Text.strip s.toList
      require (!clean.isEmpty || allowEmpty) (.value (field ++ " must not be empty"))
      require (clean.length ≤ maxLength) (.value (field ++ " is too long"))
      pure (some (String.ofList clean))
  | _ => .error (.value (field ++ " must be a string or null"))

/-- `_json_object_argument`. -/
def jsonObjectArgument (platform : Platform) (value : Json) (field : String) (maxLength : Nat) :
    Except ToolError Fields :=
  match value with
  | .str s =>
      if (Text.strip s.toList).isEmpty || (maxLength < s.length : Bool) then
        .error (.value (field ++ " must be bounded JSON text"))
      else
        match platform.loads s.toList with
        | some (.obj decoded) => .ok decoded
        | some _ => .error (.value (field ++ " JSON must be an object"))
        | none => .error (.value (field ++ " must contain valid JSON"))
  | _ => .error (.value (field ++ " must be bounded JSON text"))

/-- `_optional_json_object_argument`. -/
def optionalJsonObjectArgument (platform : Platform) (value : Json) (field : String)
    (maxLength : Nat) : Except ToolError (Option Fields) :=
  match value with
  | .null => .ok none
  | value => do
      let decoded ← jsonObjectArgument platform value field maxLength
      pure (some decoded)

/-! ## Entities -/

/-- The kinds of fields that a new app may have. -/
def toolFieldKinds : List String :=
  ["string", "number", "integer", "boolean", "date", "datetime", "object", "array"]

/-- `field_type not in {...}`. -/
def toolFieldKind (value : Json) : Except ToolError String :=
  match value with
  | .str kind => if kind ∈ toolFieldKinds then .ok kind
      else .error (.value "unsupported entity field type")
  | .arr _ | .obj _ => .error .unhashable
  | _ => .error (.value "unsupported entity field type")

/-- The inner loop of `_code_app_entities`. -/
def toolEntityFields (fields : Fields) : List Json → Except ToolError Fields
  | [] => .ok fields
  | .obj raw :: rest =>
      match argument raw "name" with
      | .str name => do
          require (fields.all fun field => field.1 ≠ name)
            (.value "field names must be unique snake_case identifiers")
          let kind ← toolFieldKind (argument raw "type")
          match argument raw "required" with
          | .bool required =>
              toolEntityFields (fields ++
                [(name, .obj [("type", .str kind), ("required", .bool required)])]) rest
          | _ => .error (.value "field required must be true or false")
      | _ => .error (.value "field names must be unique snake_case identifiers")
  | _ :: _ => .error (.value "each entity field must be an object")

/-- The body of the outer loop of `_code_app_entities`. -/
def toolEntity (seen : List String) (raw : Fields) : Except ToolError (String × Json) :=
  match argument raw "name" with
  | .str name => do
      require (!name.isEmpty && name ∉ seen)
        (.value "entity names must be unique snake_case identifiers")
      match argument raw "description" with
      | .str description =>
          match argument raw "fields" with
          | .arr rawFields => do
              require (rawFields.length ≤ 32)
                (.value "entity fields must be a list of at most 32 items")
              let fields ← toolEntityFields [] rawFields
              pure (name, .obj [("name", .str name), ("description", .str description),
                ("fields", .obj fields)])
          | _ => .error (.value "entity fields must be a list of at most 32 items")
      | _ => .error (.value "entity description must be text")
  | _ => .error (.value "entity names must be unique snake_case identifiers")

/-- The outer loop of `_code_app_entities`. -/
def toolEntities (seen : List String) : List Json → Except ToolError (List Json)
  | [] => .ok []
  | .obj raw :: rest => do
      let (name, made) ← toolEntity seen raw
      let others ← toolEntities (name :: seen) rest
      pure (made :: others)
  | _ :: _ => .error (.value "each entity must be an object")

/-- `_code_app_entities`. -/
def codeAppEntities (value : Json) : Except ToolError (List Json) :=
  match value with
  | .arr raw => do
      require (raw.length ≤ 24) (.value "entities must be a list of at most 24 items")
      toolEntities [] raw
  | _ => .error (.value "entities must be a list of at most 24 items")

/-! ## Creating -/

/-- The grants of a new app. -/
def toolCapabilities (value : Json) : Except ToolError (List Json) :=
  match value with
  | .arr items => do
      require (items.all fun item => item = .str dotReminderCreateCapability)
        (.value "capabilities must contain only supported explicit grants")
      require (items.length ≤ 1)
        (.value "capabilities contains duplicate or excessive grants")
      pure items
  | _ => .error (.value "capabilities must contain only supported explicit grants")

/-- The seeds of a new app. -/
def toolSeedData (platform : Platform) (value : Json) : Except ToolError Fields :=
  match value with
  | .str raw =>
      match platform.loads raw.toList with
      | some (.obj seedData) => .ok seedData
      | some _ => .error (.value "seed_data JSON must be an object")
      | none => .error (.value "seed_data must contain valid JSON")
  | _ => .error (.value "seed_data must be JSON text")

/-- The words of `_app_accent`. -/
def palette : List (String × String) :=
  [("sage", "sage"), ("green", "sage"), ("ocean", "ocean"), ("blue", "ocean"), ("plum", "plum"),
    ("purple", "plum"), ("sky", "sky")]

/-- `_app_accent`. -/
def appAccent (unicode : Unicode) (visualDirection : Json) : Except ToolError String :=
  match visualDirection with
  | .str direction =>
      let normalized := Text.casefold unicode direction.toList
      .ok (((palette.find? fun entry => Text.occurs entry.1.toList normalized).map Prod.snd).getD
        "coral")
  | _ => .error (.value "visual_direction is required")

/-- The manifest of a new app. -/
def toolManifest (entities capabilities : List Json) : Fields :=
  [("schema_version", .int 1), ("entities", .arr entities), ("capabilities", .arr capabilities)]

/-- The blueprint of a new app. -/
def toolBlueprint (arguments : Fields) (accent : String) (manifest seedData : Fields) : Fields :=
  [("title", argument arguments "title"), ("description", argument arguments "description"),
    ("purpose", argument arguments "purpose"), ("layout", .str "custom_workspace"),
    ("accent", .str accent), ("manifest", .obj manifest), ("seed_data", .obj seedData),
    ("product_brief", argument arguments "product_brief"),
    ("visual_direction", argument arguments "visual_direction")]

/-- The seeds of a group have its title and the names of its members, as
`group_app_participant_names` gives them. -/
def groupSeedData (conversation : Conversation) (participants : List String) (seedData : Fields) :
    Fields :=
  if conversation.kind = .group then
    Json.assign "group" (.obj [("title", optionJson conversation.title),
      ("participants", .arr (participants.map .str))]) seedData
  else seedData

/-- Who an app belongs to that is created in a conversation. -/
def appOwnerId (db : AppsDb) (context : ToolContext) (conversation : Conversation) :
    Except ToolError Uuid :=
  if conversation.kind = .direct then do
    require (conversation.userId = context.userId)
      (.value "conversation does not belong to this user")
    pure context.userId
  else do
    require (context.userId ∈ db.users && db.members.any fun member =>
        member.conversationId = conversation.id && member.status = .active &&
          member.userId = some context.userId)
      (.value "user is not an active member of this group")
    pure conversation.userId

/-- What `CreateGeneratedAppTool.execute` asks of the service. -/
def creationOf (platform : Platform) (db : AppsDb) (context : ToolContext) (arguments : Fields)
    (participants : List String) (appBaseUrl : String) : Except ToolError CreationRequest :=
  match db.conversation? context.conversationId with
  | none => .error (.value "conversation was not found")
  | some conversation => do
      let ownerId ← appOwnerId db context conversation
      let entities ← codeAppEntities (argument arguments "entities")
      let capabilities ← toolCapabilities (argument arguments "capabilities")
      let seedData ← toolSeedData platform (argument arguments "seed_data")
      let accent ← appAccent platform.toUnicode (argument arguments "visual_direction")
      let hash ← agentToolRequestHash context "create_personal_app" arguments
      pure {
        userId := ownerId
        conversationId := context.conversationId
        requesterUserId := some context.userId
        title := argument arguments "title"
        description := argument arguments "description"
        request := [("blueprint", .obj (toolBlueprint arguments accent
          (toolManifest entities capabilities)
          (groupSeedData conversation participants seedData)))]
        accessMode := argument arguments "access_mode"
        deliveryProvider := context.deliveryProvider
        appUrl := none
        idempotencyKey := agentToolIdempotencyKey context
        appBaseUrl := some appBaseUrl
        idempotencyRequestHash := some hash }

/-- `CreateGeneratedAppTool.execute`. -/
def createGeneratedApp (platform : Platform) (db : AppsDb) (context : ToolContext)
    (arguments : Fields) (participants : List String) (appBaseUrl publicId raw : String)
    (now : Instant) : Except ToolError (GeneratedApp × GeneratedAppBuildJob × AppsDb) := do
  let creation ← creationOf platform db context arguments participants appBaseUrl
  callService (createCodeAppBuild db creation publicId raw now)

/-! ## Revising -/

/-- `_require_direct_conversation`. -/
def requireDirectConversation (db : AppsDb) (context : ToolContext) : Except ToolError Unit := do
  require ((db.conversation? context.conversationId).any fun conversation =>
      conversation.kind = .direct && conversation.userId = context.userId)
    (.value "this private account action is only available in the user's direct chat")
  require (context.userId ∈ db.users) (.value "user account was not found")

/-- What `ReviseCustomAppTool.execute` asks of the service. -/
def revisionOf (platform : Platform) (db : AppsDb) (context : ToolContext) (arguments : Fields) :
    Except ToolError OwnedRevisionRequest := do
  let appId ← uuidArgument platform.toUnicode (argument arguments "app_id") "app_id"
  let changeRequest ← requiredStringArgument (argument arguments "change_request")
    "change_request" 4000
  let title ← optionalStringArgument (argument arguments "title") "title" 120 false
  let description ← optionalStringArgument (argument arguments "description") "description" 500 true
  let visualDirection ← optionalStringArgument (argument arguments "visual_direction")
    "visual_direction" 200 false
  let manifest ← optionalJsonObjectArgument platform (argument arguments "manifest_json")
    "manifest_json" 32000
  let seedData ← optionalJsonObjectArgument platform (argument arguments "seed_data_json")
    "seed_data_json" 32000
  requireDirectConversation db context
  let hash ← agentToolRequestHash context "revise_custom_app" arguments
  pure {
    userId := context.userId
    appId := appId
    revisionRequest := changeRequest
    title := title
    description := description
    visualDirection := visualDirection
    manifest := manifest.map .obj
    seedData := seedData
    deliveryProvider := preferredDeliveryProvider db context.conversationId
    appUrl := none
    idempotencyKey := agentToolIdempotencyKey context
    idempotencyRequestHash := some hash }

/-- `ReviseCustomAppTool.execute`. -/
def reviseCustomApp (platform : Platform) (db : AppsDb) (context : ToolContext)
    (arguments : Fields) (now : Instant) :
    Except ToolError (GeneratedAppBuildJob × AppsDb) := do
  let request ← revisionOf platform db context arguments
  callService (queueOwnedCodeAppRevision platform.toUnicode db request now)

end DotBackend.Agents
