import DotBackend.Data.Equality
import DotBackend.Transition.Run
import Mathlib.Data.List.Perm.Basic

/-!
# The record view of the app runtime

A generated app asks its host for records through a bridge: each request waits in a map under its
id until a response names it or its timer fires. A mounted `useRecords` hook refreshes when its
query changes and when an action changes records, and writes each answer when it arrives. Nothing
tells an answer to an earlier refresh from one to the last, so that what is shown is the last answer
exactly as long as no earlier one arrives after it.
-/

namespace DotBackend.Builder

open Data Transition

/-! ## Requests -/

/-- An `Error` that a promise is rejected with. -/
structure RuntimeFailure where
  name : String
  message : String
  deriving DecidableEq

def runtimeError (value : Json) : RuntimeFailure :=
  match value.get? "message" with
  | some (.str message) =>
      match value.get? "code" with
      | some (.str code) => ⟨code, message⟩
      | _ => ⟨"DotAppRuntimeError", message⟩
  | _ => ⟨"Error", "Dot couldn't complete that app action"⟩

/-- The code that awaits the promise of a request. -/
inductive Awaiting
  /-- A refresh of the hook. -/
  | refresh
  | runAction (operation : String) (args : Json)
  /-- Any other caller, such as another hook. -/
  | other
  deriving DecidableEq

/-- What a promise is settled with. -/
abbrev Settlement := Except RuntimeFailure Json

/-- The arguments of the hook. -/
structure RecordsQuery where
  entity : String
  limit : Int
  offset : Int
  deriving DecidableEq

def maxRecordPageSize : Int := 100

/-- The query that the hook asks with. -/
def clampQuery (entity : String) (limit offset : Option Int) : RecordsQuery :=
  ⟨entity, min maxRecordPageSize (max 1 (limit.getD 50)), max 0 (offset.getD 0)⟩

/-- The state of the hook. -/
structure RecordView where
  records : List Json
  recordMeta : Json
  loading : Bool
  error : Option RuntimeFailure
  deriving DecidableEq

/-- The runtime of an app with one hook: its view and query, the entity that it listens to, and the
requests that are pending. Besides, the ids that were ever issued, those of the refreshes of the
hook, in their order, and what promises were settled with, in the order in which they were. -/
structure AppRuntime where
  query : RecordsQuery
  subscribed : Option String
  view : RecordView
  pending : List (String × Awaiting)
  issued : List String
  refreshes : List String
  settled : List (String × Settlement)
  deriving DecidableEq

/-- Before the first effect of the hook. -/
def initialRuntime : AppRuntime where
  query := clampQuery "" none none
  subscribed := none
  view := ⟨[], .obj [], true, none⟩
  pending := []
  issued := []
  refreshes := []
  settled := []

namespace AppRuntime

/-- `bridgeRequest`: the request is pending from now on. -/
def bridgeRequest (requestId : String) (awaiting : Awaiting) (runtime : AppRuntime) : AppRuntime :=
  { runtime with
    pending := runtime.pending ++ [(requestId, awaiting)]
    issued := runtime.issued ++ [requestId] }

/-- `refresh`, up to its request. -/
def refresh (requestId : String) (runtime : AppRuntime) : AppRuntime :=
  let runtime := { runtime with
    view := { runtime.view with loading := true, error := none }
    refreshes := runtime.refreshes ++ [requestId] }
  runtime.bridgeRequest requestId .refresh

/-- `invalidateRecords`: the hook is refreshed if it listens. -/
def invalidateRecords (entity : Option Json) (newId : String) (runtime : AppRuntime) :
    AppRuntime :=
  match entity with
  | some (.str name) => if runtime.subscribed = some name then runtime.refresh newId else runtime
  | _ => if runtime.subscribed.isSome then runtime.refresh newId else runtime

end AppRuntime

/-- The records of an answer to a refresh. -/
def recordsOf (result : Json) : List Json :=
  match result.get? "data" with
  | some (.arr data) => data
  | _ =>
      match result with
      | .arr items => items
      | _ => []

/-- `envelope?.meta ?? {}`. -/
def metaOf (result : Json) : Json :=
  match result.get? "meta" with
  | none | some .null => .obj []
  | some value => value

namespace AppRuntime

/-- What the awaiting code does when its promise is settled. -/
def proceed (awaiting : Awaiting) (settlement : Settlement) (newId : String)
    (runtime : AppRuntime) : AppRuntime :=
  match awaiting, settlement with
  | .refresh, .ok result =>
      { runtime with
        view := { runtime.view with
          records := recordsOf result, recordMeta := metaOf result, loading := false } }
  | .refresh, .error failure =>
      { runtime with view := { runtime.view with error := some failure, loading := false } }
  | .runAction operation args, .ok _ =>
      if operation ∈ ["records.create", "records.update", "records.delete"] then
        runtime.invalidateRecords
          (if operation = "records.create" then args.get? "entity" else none) newId
      else runtime
  | .runAction _ _, .error _ => runtime
  | .other, _ => runtime

/-- The code that awaits a pending request. -/
def awaiting? (requestId : String) (runtime : AppRuntime) : Option Awaiting :=
  (runtime.pending.find? fun entry => entry.1 = requestId).map Prod.snd

/-- Settle the promise of a request, if it is pending. -/
def settle (requestId : String) (settlement : Settlement) (newId : String)
    (runtime : AppRuntime) : AppRuntime :=
  match runtime.awaiting? requestId with
  | none => runtime
  | some awaiting =>
      let runtime := { runtime with
        pending := runtime.pending.filter fun entry => entry.1 ≠ requestId
        settled := runtime.settled ++ [(requestId, settlement)] }
      runtime.proceed awaiting settlement newId

end AppRuntime

/-! ## Events -/

/-- What a message says that is a response of the host. -/
def answerOf (fromParent : Bool) (data : Json) : Option (String × Settlement) :=
  if fromParent = true ∧ data.get? "protocol_version" = some (.int 1) ∧
    data.get? "type" = some (.str "dot.app.response") then
    match data.get? "request_id" with
    | some (.str requestId) =>
        if data.get? "ok" = some (.bool true) then
          some (requestId, .ok ((data.get? "result").getD .null))
        else some (requestId, .error (runtimeError ((data.get? "error").getD .null)))
    | _ => none
  else none

/-- What happens to the runtime. Each event that may issue a request has the id that it is given. -/
inductive RuntimeEvent
  /-- The hook is mounted, or its query has changed. -/
  | effect (entity : String) (limit offset : Option Int) (newId : String)
  /-- The app calls the `refresh` of the hook. -/
  | refresh (newId : String)
  | runAction (operation : String) (args : Json) (newId : String)
  /-- Another request of the app. -/
  | request (newId : String)
  | receive (fromParent : Bool) (data : Json) (newId : String)
  | timeout (requestId newId : String)

/-- The id that an event may give to a request. -/
def RuntimeEvent.newId : RuntimeEvent → String
  | .effect _ _ _ newId | .refresh newId | .runAction _ _ newId | .request newId
  | .receive _ _ newId | .timeout _ newId => newId

/-- One event. New ids are not used before, an effect needs a new query, and a timer fires only
while its request is pending. -/
def runtimeStep (runtime : AppRuntime) (event : RuntimeEvent) : Option AppRuntime :=
  if event.newId ∈ runtime.issued then none
  else match event with
    | .effect entity limit offset newId =>
        let query := clampQuery entity limit offset
        if runtime.subscribed.isSome ∧ runtime.query = query then none
        else some ({ runtime with query, subscribed := some entity }.refresh newId)
    | .refresh newId => if runtime.subscribed.isSome then some (runtime.refresh newId) else none
    | .runAction operation args newId =>
        some (runtime.bridgeRequest newId (.runAction operation args))
    | .request newId => some (runtime.bridgeRequest newId .other)
    | .receive fromParent data newId =>
        match answerOf fromParent data with
        | some (requestId, settlement) => some (runtime.settle requestId settlement newId)
        | none => some runtime
    | .timeout requestId newId =>
        if (runtime.awaiting? requestId).isSome then
          some (runtime.settle requestId (.error ⟨"Error", "Dot app action timed out"⟩) newId)
        else none

end DotBackend.Builder
