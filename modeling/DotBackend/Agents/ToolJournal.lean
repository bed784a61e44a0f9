import DotBackend.Data.Equality
import DotBackend.Data.Table
import DotBackend.Transaction.Tokens

/-!
# The journal of tool calls

`ToolRegistry.execute` on a tool whose calls are journaled: a call claims its row, or
reclaims it once the lease of another claimant is over, runs the tool under a heartbeat that
renews the lease, and settles the row. A crash also stands for a cancelled call, and for an
error of the database or of the heartbeat that escapes. The history columns record which
random claimants were drawn, who claimed which call, and which results were stored; the
service does not read them.
-/

namespace DotBackend.Agents

open Data Transaction Transition

/-- `_JOURNALED_GENERATED_APP_TOOLS`. -/
def journaledGeneratedAppTools : List String :=
  ["create_personal_app", "add_custom_app_record", "update_custom_app_record",
    "delete_custom_app_record", "revise_custom_app", "rollback_custom_app"]

/-- `_TOOL_CALL_LEASE`. -/
def toolCallLease : Int :=
  30 * 1000000

inductive ToolCallStatus
  | running
  | completed
  | failed
  deriving DecidableEq

/-- The columns of the unique constraint. -/
structure CallKey where
  agentRunId : Uuid
  externalCallId : String
  deriving DecidableEq

structure AgentToolCall where
  agentRunId : Uuid
  externalCallId : String
  toolName : String
  arguments : Json
  output : Json
  status : ToolCallStatus
  attempts : Nat
  claimedBy : Option Nat
  leaseExpiresAt : Option Instant
  deriving DecidableEq

/-- What `execute` returns: the output, and whether the tool succeeded. -/
structure ToolResult where
  output : Json
  succeeded : Bool
  deriving DecidableEq

/-- The arguments of `execute`; the context carries the identity. -/
structure ToolCall where
  agentRunId : Uuid
  toolCallId : String
  name : String
  arguments : Json
  deriving DecidableEq

def ToolCall.key (call : ToolCall) : CallKey :=
  ⟨call.agentRunId, call.toolCallId⟩

namespace AgentToolCall

def key (row : AgentToolCall) : CallKey :=
  ⟨row.agentRunId, row.externalCallId⟩

/-- `_validate_journal_call` accepts the row. -/
def validFor (row : AgentToolCall) (call : ToolCall) : Bool :=
  row.toolName = call.name && row.arguments.equals call.arguments

/-- `_journal_result`; a running call has none. -/
def journalResult (row : AgentToolCall) : Option ToolResult :=
  match row.status with
  | .running => none
  | .completed => some ⟨row.output, true⟩
  | .failed => some ⟨row.output, false⟩

/-- The lease is over. -/
def leaseOver (row : AgentToolCall) (now : Instant) : Bool :=
  row.leaseExpiresAt.all fun expires => expires ≤ now

/-- The row after another claimant took it over. -/
def reclaimed (claimant : Nat) (now : Instant) (row : AgentToolCall) : AgentToolCall :=
  { row with
    claimedBy := some claimant
    leaseExpiresAt := some (now + toolCallLease)
    attempts := row.attempts + 1 }

def renewed (now : Instant) (row : AgentToolCall) : AgentToolCall :=
  { row with leaseExpiresAt := some (now + toolCallLease) }

def settled (result : ToolResult) (row : AgentToolCall) : AgentToolCall :=
  { row with
    output := result.output
    status := if result.succeeded then .completed else .failed
    claimedBy := none
    leaseExpiresAt := none }

end AgentToolCall

/-- The row that a first claim adds. -/
def ToolCall.row (call : ToolCall) (claimant : Nat) (now : Instant) : AgentToolCall where
  agentRunId := call.agentRunId
  externalCallId := call.toolCallId
  toolName := call.name
  arguments := call.arguments
  output := .obj []
  status := .running
  attempts := 1
  claimedBy := some claimant
  leaseExpiresAt := some (now + toolCallLease)

/-- The table of calls, and the history. -/
structure JournalDb where
  calls : List AgentToolCall
  /-- The number of claimants drawn. -/
  claimants : Nat
  /-- The claims that were committed, the newest first. -/
  claims : List (CallKey × Nat)
  /-- The results that were stored. -/
  results : List (CallKey × ToolResult)
  deriving DecidableEq

def JournalDb.empty : JournalDb :=
  ⟨[], 0, [], []⟩

namespace JournalDb

/-- The row of a call. -/
def call? (db : JournalDb) (key : CallKey) : Option AgentToolCall :=
  db.calls.find? fun row => row.key = key

/-- An `UPDATE` of the row of a call. -/
def updateCall (db : JournalDb) (key : CallKey) (change : AgentToolCall → AgentToolCall) :
    JournalDb :=
  { db with calls := Table.update (fun row => row.key == key) change db.calls }

/-- The row is still running under the lease that was read. -/
def reclaimable (db : JournalDb) (key : CallKey) (lease : Option Instant) : Bool :=
  (db.call? key).any fun row => row.status = .running && row.leaseExpiresAt = lease

/-- The row is still running under the claimant. -/
def renewable (db : JournalDb) (key : CallKey) (claimant : Nat) : Bool :=
  (db.call? key).any fun row => row.status = .running && row.claimedBy = some claimant

/-- `uuid4` draws a claimant. -/
def draw (db : JournalDb) : JournalDb :=
  { db with claimants := db.claimants + 1 }

def insertCall (call : ToolCall) (claimant : Nat) (now : Instant) (db : JournalDb) : JournalDb :=
  { db with
    calls := db.calls ++ [call.row claimant now]
    claims := (call.key, claimant) :: db.claims }

def reclaimCall (call : ToolCall) (claimant : Nat) (now : Instant) (db : JournalDb) :
    JournalDb :=
  { db.updateCall call.key (AgentToolCall.reclaimed claimant now) with
    claims := (call.key, claimant) :: db.claims }

def renewCall (call : ToolCall) (now : Instant) (db : JournalDb) : JournalDb :=
  db.updateCall call.key (AgentToolCall.renewed now)

def settleCall (call : ToolCall) (result : ToolResult) (db : JournalDb) : JournalDb :=
  { db.updateCall call.key (AgentToolCall.settled result) with
    results := (call.key, result) :: db.results }

/-- The results that were stored for a call. -/
def resultsOf (db : JournalDb) (key : CallKey) : List ToolResult :=
  (db.results.filter fun entry => entry.1 = key).map Prod.snd

/-- The claimant of the newest claim of a call. -/
def newestClaim (db : JournalDb) (key : CallKey) : Option Nat :=
  (db.claims.find? fun claim => claim.1 = key).map Prod.snd

/-- A claimant whose claim of a call was taken over. -/
def Overtaken (db : JournalDb) (key : CallKey) (claimant : Nat) : Prop :=
  (key, claimant) ∈ db.claims ∧ db.newestClaim key ≠ some claimant

end JournalDb

/-! ## The program -/

/-- What a session reads from outside the database at one point: the clock, whether it is
time for the heartbeat, and what the tool returned or raised. -/
structure ToolInput where
  now : Instant
  beats : Bool
  outcome : Except String Json

/-- The program points. -/
inductive CallPoint
  | execute (call : ToolCall)
  | select (call : ToolCall) (claimant : Nat)
  | insert (call : ToolCall) (claimant : Nat) (now : Instant)
  | reclaim (call : ToolCall) (claimant : Nat) (now : Instant) (lease : Option Instant)
  | work (call : ToolCall) (claimant : Nat)
  | finish (call : ToolCall) (claimant : Nat) (result : ToolResult)
  | settle (call : ToolCall) (claimant : Nat) (result : ToolResult)
  | returned (call : ToolCall) (result : ToolResult)
  | raised (call : ToolCall)
  deriving DecidableEq

/-- What `execute` makes of the outcome of the tool. -/
def toolResult : Except String Json → ToolResult
  | .ok output => ⟨.obj [("ok", .bool true), ("result", output)], true⟩
  | .error error =>
      ⟨.obj [("ok", .bool false), ("error", .str (String.ofList (error.toList.take 1000)))], false⟩

/-- `_start_tool_call`, with the row that it reads. -/
def startToolCall (call : ToolCall) (claimant : Nat) (now : Instant) :
    Option AgentToolCall → CallPoint
  | none => .insert call claimant now
  | some row =>
      if row.validFor call then
        match row.journalResult with
        | some result => .returned call result
        | none =>
            if row.leaseOver now then .reclaim call claimant now row.leaseExpiresAt
            else .select call claimant
      else .raised call

/-- `_finish_tool_call`, with the row that it locked. -/
def finishToolCall (call : ToolCall) (claimant : Nat) (result : ToolResult) :
    Option AgentToolCall → CallPoint
  | none => .raised call
  | some row =>
      match row.journalResult with
      | some stored => .returned call stored
      | none => if row.claimedBy = some claimant then .settle call claimant result
          else .raised call

/-- What a session requests at a point. -/
def CallPoint.request : CallPoint → ToolInput → Request JournalDb CallKey CallPoint
  | .execute call, _ =>
      .commit (fun _ => []) (fun _ => true) JournalDb.draw
        (fun db => some (.select call db.claimants)) none
  | .select call claimant, input =>
      .read fun db => startToolCall call claimant input.now (db.call? call.key)
  | .insert call claimant now, _ =>
      .commit (fun _ => []) (fun db => (db.call? call.key).isNone)
        (JournalDb.insertCall call claimant now) (fun _ => some (.work call claimant))
        (some (.select call claimant))
  | .reclaim call claimant now lease, _ =>
      .commit (fun db => if db.reclaimable call.key lease then [call.key] else [])
        (fun db => db.reclaimable call.key lease) (JournalDb.reclaimCall call claimant now)
        (fun _ => some (.work call claimant)) (some (.select call claimant))
  | .work call claimant, input =>
      if input.beats then
        .commit (fun db => if db.renewable call.key claimant then [call.key] else [])
          (fun db => db.renewable call.key claimant) (JournalDb.renewCall call input.now)
          (fun _ => some (.work call claimant)) (some (.work call claimant))
      else .rollback (some (.finish call claimant (toolResult input.outcome)))
  | .finish call claimant result, _ =>
      .lock (fun _ => [call.key]) fun db =>
        finishToolCall call claimant result (db.call? call.key)
  | .settle call _ result, _ =>
      .commit (fun _ => [call.key]) (fun _ => true) (JournalDb.settleCall call result)
        (fun _ => some (.returned call result)) none
  -- the session is closed when `execute` returns or raises
  | .returned _ _, _ | .raised _, _ => .rollback none

/-- Calls of registered tools that are journaled. -/
def CallPoint.isEntry (registered : List String) : CallPoint → Bool
  | .execute call => registered.contains call.name && journaledGeneratedAppTools.contains call.name
  | _ => false

def toolJournal (registered : List String) : Protocol JournalDb CallKey CallPoint ToolInput where
  starts := CallPoint.isEntry registered
  request := CallPoint.request

/-- The call that a session executes. -/
def CallPoint.call : CallPoint → ToolCall
  | .execute call | .select call _ | .insert call _ _ | .reclaim call _ _ _ | .work call _
  | .finish call _ _ | .settle call _ _ | .returned call _ | .raised call => call

/-- The claimant that a session has drawn. -/
def CallPoint.claimant : CallPoint → Option Nat
  | .select _ claimant | .insert _ claimant _ | .reclaim _ claimant _ _ | .work _ claimant
  | .finish _ claimant _ | .settle _ claimant _ => some claimant
  | .execute _ | .returned _ _ | .raised _ => none

/-- A session that has not claimed its call yet. -/
def CallPoint.unclaimed : CallPoint → Bool
  | .select _ _ | .insert _ _ _ | .reclaim _ _ _ _ => true
  | _ => false

/-- Claimants are drawn by one session each and spent by its claim. -/
def claimantLedger : Ledger JournalDb CallPoint where
  token := CallPoint.claimant
  unspent := CallPoint.unclaimed
  drawn := JournalDb.claimants
  spent db := db.claims.map Prod.snd

end DotBackend.Agents
