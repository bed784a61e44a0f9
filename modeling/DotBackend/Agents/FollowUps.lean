import DotBackend.Agents.Service
import DotBackend.Transition.Run

/-!
# Dispatching a follow-up

A follow-up that is due wakes the agent, unless the user wrote in the meantime. Workers and
the transactions that store what users write take their turns statement by statement. Under
`READ COMMITTED` a statement reads what is committed; only the bulk cancellation and the
claim lock the row. The lock of the conversation is left out: nothing here relies on one
worker waiting for another.
-/

namespace DotBackend.Agents

open Data Channel Transition

/-! ## Rows -/

inductive FollowUpStatus
  | pending | processing | completed | cancelled | failed
  deriving DecidableEq

/-- A row of `agent_follow_ups`. -/
structure FollowUp where
  id : Uuid
  userId : Uuid
  conversationId : Uuid
  deliveryProvider : Option String
  cancelOnUserMessage : Bool
  createdAt : Instant
  status : FollowUpStatus
  attempts : Nat
  dueAt : Instant
  lockedAt : Option Instant
  deriving DecidableEq

/-- Two minutes. -/
def followUpStaleAfter : Int :=
  120000000

/-- The condition of `_claim_follow_up`. -/
def FollowUp.isEligible (maxAttempts : Nat) (now : Instant) (row : FollowUp) : Bool :=
  ((row.status = .pending && row.dueAt ≤ now) || (row.status = .failed && row.dueAt ≤ now) ||
    (row.status = .processing && row.lockedAt.any (· ≤ now - followUpStaleAfter))) &&
  row.attempts < maxAttempts

/-- `_claim_follow_up`. -/
def FollowUp.claim (now : Instant) (row : FollowUp) : FollowUp :=
  { row with status := .processing, attempts := row.attempts + 1, lockedAt := some now }

/-- The condition of `cancel_pending_follow_ups`. -/
def FollowUp.isPending (row : FollowUp) : Bool :=
  (row.status = .pending || row.status = .processing) && row.cancelOnUserMessage

/-- The values of `cancel_pending_follow_ups` and of `_cancel_follow_up`. -/
def FollowUp.cancel (row : FollowUp) : FollowUp :=
  { row with status := .cancelled, lockedAt := none }

/-- The values of `_complete_follow_up`. -/
def FollowUp.complete (row : FollowUp) : FollowUp :=
  { row with status := .completed, lockedAt := none }

/-- The values of `_retry_follow_up`. -/
def FollowUp.retry (now : Instant) (row : FollowUp) : FollowUp :=
  { row with
    status := .failed
    lockedAt := none
    dueAt := now + (min (2 ^ max row.attempts 1) 300 : Nat) * 1000000 }

/-- The `UPDATE` of a session sets the columns that differ from what it read. -/
def FollowUp.flush (read changed current : FollowUp) : FollowUp :=
  { current with
    status := if changed.status = read.status then current.status else changed.status
    dueAt := if changed.dueAt = read.dueAt then current.dueAt else changed.dueAt
    lockedAt := if changed.lockedAt = read.lockedAt then current.lockedAt else changed.lockedAt }

/-- `_should_cancel`. -/
def shouldCancel (db : ChatDb) (optedOut : Bool) (row : FollowUp) : Bool :=
  (db.user? row.userId).isNone || optedOut || (row.cancelOnUserMessage &&
    db.messages.any fun message => message.conversationId = row.conversationId &&
      message.direction = .inbound && row.createdAt < message.createdAt)

/-- The key of `run_follow_up_turn`. -/
def FollowUp.messageKey (row : FollowUp) : String :=
  "benji:follow-up:" ++ String.ofList (uuidText row.id)

/-- The wake of `run_follow_up_turn`. -/
def followUpWake (row : FollowUp) (channelId : Option Uuid) : Wake where
  conversationId := row.conversationId
  userId := row.userId
  triggerMessageId := none
  purpose := .followUp
  wakeType := "scheduled_follow_up"
  sourceChannel := "follow_up"
  sourceBindingId := channelId
  idempotencyKey := row.messageKey
  requiredAppUrl := none

/-! ## Workers -/

/-- What a worker reads from outside the tables. -/
structure FollowUpInputs where
  now : Instant
  /-- A call or a statement raises. -/
  fails : Bool
  optedOut : Bool
  hasProvider : Bool
  /-- The channels of the conversation in the order of their last update. -/
  latest : List ConversationChannel → Option ConversationChannel
  automatedReplies : Bool
  hasClient : Bool
  wake : WakeInputs

/-- How a worker ends; it leaves its work or an exception handler. -/
inductive Settlement
  | complete
  | cancel
  /-- The handler of `AgentWakeCancelled`. -/
  | wakeCancelled
  /-- The handler of every other exception. -/
  | retry
  deriving DecidableEq

/-- `_complete_follow_up`, `_cancel_follow_up` and `_retry_follow_up` change the row that they
read, or return. -/
def Settlement.change (now : Instant) (row : FollowUp) : Settlement → Option FollowUp
  | .complete => if row.status = .cancelled then none else some row.complete
  | .cancel | .wakeCancelled => if row.status = .completed then none else some row.cancel
  | .retry => if row.status = .cancelled then none else some (row.retry now)

/-- Where a worker stands in `dispatch_due_follow_up`. -/
inductive FollowUpPoint
  | claimed
  /-- The follow-up is not to be cancelled. -/
  | checked
  /-- In `run_follow_up_turn`, before the earlier turn is looked up. -/
  | running (channelId : Option Uuid)
  /-- Before the transaction that opens the run. -/
  | opening (channelId : Option Uuid)
  | generating (channelId : Option Uuid)
  /-- The last transaction of the turn has seen that the follow-up is not cancelled. -/
  | guarded (channelId : Option Uuid) (inputs : WakeInputs) (result : AgentResult)
  | delivering
  | settling (settlement : Settlement)
  /-- The row was read and its change is not written yet. -/
  | writing (settlement : Settlement) (read changed : FollowUp)

/-- Where an exception leads from a settlement. -/
def Settlement.raised : Settlement → Option FollowUpPoint
  | .complete | .cancel => some (.settling .retry)
  | .wakeCancelled | .retry => none

/-! ## Replies -/

/-- A transaction that stores what a user wrote: the message is inserted, then the follow-ups
are cancelled. -/
structure InboundTransaction where
  message : Message
  /-- `cancel_pending_follow_ups` has run. -/
  hasCancelled : Bool

/-- A follow-up, the tables, the workers and the transactions of replies. -/
structure FollowUpSystem where
  row : FollowUp
  db : ChatDb
  workers : Nat → Option FollowUpPoint
  inbounds : Nat → Option InboundTransaction
  /-- The transaction whose bulk cancellation has changed the row; it holds the lock. -/
  lockedBy : Option Nat

namespace FollowUpSystem

def moveTo (system : FollowUpSystem) (worker : Nat) (point : Option FollowUpPoint) :
    FollowUpSystem :=
  { system with workers := Function.update system.workers worker point }

/-- A reply that is committed or rolled back. -/
def closeInbound (system : FollowUpSystem) (transaction : Nat) : FollowUpSystem :=
  { system with
    inbounds := Function.update system.inbounds transaction none
    lockedBy := if system.lockedBy = some transaction then none else system.lockedBy }

end FollowUpSystem

/-- The provider and the channel of a follow-up that is not to be cancelled. -/
def resolveFollowUp (row : FollowUp) (db : ChatDb) (inputs : FollowUpInputs) : FollowUpPoint :=
  let channel := row.deliveryProvider.bind fun provider =>
    inputs.latest (db.channels.filter fun channel =>
      channel.conversationId = row.conversationId && channel.provider = provider &&
        channel.isActive)
  if inputs.fails || !inputs.hasProvider then .settling .retry
  else match row.deliveryProvider with
    | none => .running none
    | some provider =>
        if channel.isNone then .settling .cancel
        else if provider = "linq" then
          if !inputs.automatedReplies then .settling .cancel
          else if !inputs.hasClient then .settling .retry
          else .running (channel.map (·.id))
        else .settling .retry

/-- One statement or transaction of a worker; `none` where it waits for the lock of the row. -/
def advanceFollowUp (system : FollowUpSystem) (worker : Nat) (inputs : FollowUpInputs) :
    FollowUpPoint → Option FollowUpSystem
  | .claimed => some (system.moveTo worker (some
      (if inputs.fails then .settling .retry
      else if shouldCancel system.db inputs.optedOut system.row then .settling .cancel
      else .checked)))
  | .checked => some (system.moveTo worker (some (resolveFollowUp system.row system.db inputs)))
  | .running channelId => some (system.moveTo worker (some
      (if inputs.fails then .settling .retry
      else match loadExistingTurn system.db "follow_up" system.row.messageKey with
        | some _ => .delivering
        | none => .opening channelId)))
  | .opening channelId =>
      if inputs.fails || (system.db.conversation? system.row.conversationId).isNone ||
          (system.db.user? system.row.userId).isNone then
        some (system.moveTo worker (some (.settling .retry)))
      else if system.row.status = .cancelled then
        some (system.moveTo worker (some (.settling .wakeCancelled)))
      else
        let run : AgentRun :=
          ⟨inputs.wake.runId, system.row.conversationId, system.row.userId, none⟩
        some ({ system with db := system.db.insertRun run }.moveTo worker
          (some (.generating channelId)))
  | .generating channelId => some (system.moveTo worker (some
      (match if inputs.fails then .error .integrity else inputs.wake.result with
        | .error _ => .settling .retry
        | .ok result =>
            if system.row.status = .cancelled then .settling .wakeCancelled
            else .guarded channelId inputs.wake result)))
  | .guarded channelId wake result =>
      match if inputs.fails then .error .integrity
          else persistTurn (followUpWake system.row channelId) wake none result system.db with
      | .error _ => some (system.moveTo worker (some (.settling .retry)))
      | .ok (db, _) => some ({ system with db := db }.moveTo worker (some .delivering))
  | .delivering => some (system.moveTo worker (some
      (if inputs.fails then .settling .retry else .settling .complete)))
  | .settling settlement => some (system.moveTo worker
      (if inputs.fails then settlement.raised
      else (settlement.change inputs.now system.row).map fun changed =>
        .writing settlement system.row changed))
  | .writing settlement read changed =>
      if inputs.fails then some (system.moveTo worker settlement.raised)
      else if system.lockedBy.isSome then none
      else some ({ system with row := FollowUp.flush read changed system.row }.moveTo worker none)

inductive FollowUpStep
  | claim (worker : Nat) (now : Instant)
  | advance (worker : Nat) (inputs : FollowUpInputs)
  | crash (worker : Nat)
  | begin (transaction : Nat) (message : Message)
  | cancel (transaction : Nat)
  | commit (transaction : Nat)
  | rollback (transaction : Nat)
  /-- Another part of the service commits. -/
  | other (db : ChatDb)

/-- The messages of a follow-up. -/
def followUpMessages (row : FollowUp) (db : ChatDb) : List Message :=
  db.messages.filter fun message =>
    message.sourceChannel = "follow_up" ∧ Message.hasTurnKey row.messageKey message

/-- A message that a user sent to the conversation of a follow-up. -/
def FollowUp.isReply (row : FollowUp) (message : Message) : Bool :=
  message.conversationId = row.conversationId && message.direction = .inbound

/-- Another part of the service stores no message of the follow-up, changes none and removes no
reply. -/
def keepsFollowUp (row : FollowUp) (before after : ChatDb) : Bool :=
  followUpMessages row after = followUpMessages row before &&
    before.messages.all fun message => !row.isReply message || message ∈ after.messages

/-- A step of the system. -/
def followUpStep (maxAttempts : Nat) (system : FollowUpSystem) :
    FollowUpStep → Option FollowUpSystem
  | .claim worker now =>
      -- A row that is locked is skipped.
      if (system.workers worker).isNone && system.lockedBy.isNone &&
          system.row.isEligible maxAttempts now then
        some ({ system with row := system.row.claim now }.moveTo worker (some .claimed))
      else none
  | .advance worker inputs => (system.workers worker).bind (advanceFollowUp system worker inputs)
  | .crash worker => (system.workers worker).map fun _ => system.moveTo worker none
  | .begin transaction message =>
      -- What a user wrote has no key of its own.
      if (system.inbounds transaction).isNone && system.row.isReply message &&
          message.idempotencyKey.isNone then
        some { system with
          inbounds := Function.update system.inbounds transaction (some ⟨message, false⟩) }
      else none
  | .cancel transaction =>
      match system.inbounds transaction with
      | some ⟨message, false⟩ =>
          -- The committed row still fits, so the statement waits for the lock.
          if system.lockedBy.isSome then none
          else some { system with
            inbounds := Function.update system.inbounds transaction (some ⟨message, true⟩)
            lockedBy := if system.row.isPending then some transaction else none }
      | _ => none
  | .commit transaction =>
      match system.inbounds transaction with
      | some ⟨message, true⟩ =>
          match system.db.insertMessage message with
          | .error _ => none
          | .ok db => some ({ system with
              db := db
              row := if system.lockedBy = some transaction then system.row.cancel
                else system.row }.closeInbound transaction)
      | _ => none
  | .rollback transaction => (system.inbounds transaction).map fun _ =>
      system.closeInbound transaction
  | .other db => if keepsFollowUp system.row system.db db then some { system with db := db }
      else none

end DotBackend.Agents
