import DotBackend.Channel.Schema
import DotBackend.Data.Columns
import DotBackend.Transaction.ReadCommitted

/-!
# Deliveries of outbound messages

An attempt to deliver the replies of a turn takes them in order: it creates the delivery of
a reply or finds it by its key, asks whether it still needs to be sent, sends it under the
key, and records the result. Each of these is a transaction of its own. The provider tells
of the life cycle of a message by webhooks. The history columns record what the provider
accepted and what was reported about the deliveries; the service does not read them.
-/

namespace DotBackend.Channel

open Data Transaction

variable {point : DeliveryPoint} {input : DeliveryInput}

/-! ## Rows -/

inductive DeliveryStatus
  | pending | sent | delivered | read | failed
  deriving DecidableEq

/-- The order that `_advance_delivery_status` goes by. -/
def DeliveryStatus.order : DeliveryStatus → Nat
  | .pending | .failed => 0
  | .sent => 1
  | .delivered => 2
  | .read => 3

structure MessageDelivery where
  id : Uuid
  messageId : Uuid
  channelId : Uuid
  provider : String
  externalId : Option String
  idempotencyKey : Option String
  status : DeliveryStatus
  sentAt : Option Instant
  deliveredAt : Option Instant
  readAt : Option Instant
  deriving DecidableEq

/-- `MESSAGE_LIFECYCLE_EVENTS`. -/
inductive LifecycleEventType
  | sent | delivered | read | failed
  deriving DecidableEq

/-- The status that an event tells of. -/
def LifecycleEventType.status : LifecycleEventType → DeliveryStatus
  | .sent => .sent
  | .delivered => .delivered
  | .read => .read
  | .failed => .failed

/-- A lifecycle event: the texts under `id` and `idempotency_key` unless they are empty, and
the instant under the key of its type. -/
structure LifecycleEvent where
  type : LifecycleEventType
  externalId : Option String
  idempotencyKey : Option String
  at_ : Option Instant
  deriving DecidableEq

/-- The event names the delivery by one of its identifiers. -/
def LifecycleEvent.names (event : LifecycleEvent) (delivery : MessageDelivery) : Bool :=
  (event.externalId.isSome && delivery.externalId = event.externalId) ||
    (event.idempotencyKey.isSome && delivery.idempotencyKey = event.idempotencyKey)

/-- What is reported of a delivery: the status told of, the provider and the event of a
webhook, and the delivery that it was applied to. -/
structure Report where
  status : DeliveryStatus
  webhook : Option (String × LifecycleEvent)
  applied : Option Uuid
  deriving DecidableEq

structure PersistedReply where
  messageId : Uuid
  text : String
  deriving DecidableEq

/-- The arguments of `deliver_linq_replies`. -/
structure Turn where
  replies : List PersistedReply
  channelId : Uuid
  idempotencyKey : String
  deriving DecidableEq

structure DeliveryDb where
  messages : List Message
  channels : List ConversationChannel
  deliveries : List MessageDelivery
  nextId : Uuid
  /-- The messages that the provider accepted, by key, in order. -/
  accepted : List (String × String)
  reports : List Report
  deriving DecidableEq

def linq : String := "linq"

/-- `delivery_key`. -/
def Turn.deliveryKey (turn : Turn) (ordinal : Nat) : String :=
  if ordinal = 0 then turn.idempotencyKey
  else turn.idempotencyKey ++ ":" ++ toString ordinal

namespace DeliveryDb

/-- `session.get(MessageDelivery, id)`. -/
def delivery? (db : DeliveryDb) (id : Uuid) : Option MessageDelivery :=
  db.deliveries.find? fun delivery => delivery.id = id

/-- The delivery under an idempotency key. -/
def keyed? (db : DeliveryDb) (provider key : String) : Option MessageDelivery :=
  db.deliveries.find? fun delivery =>
    delivery.provider = provider ∧ delivery.idempotencyKey = some key

/-- The delivery that an event names. -/
def named? (db : DeliveryDb) (provider : String) (event : LifecycleEvent) :
    Option MessageDelivery :=
  db.deliveries.find? fun delivery => delivery.provider = provider && event.names delivery

/-- The channel belongs to the conversation of the message. -/
def channelMatches (db : DeliveryDb) (messageId channelId : Uuid) : Bool :=
  (db.messages.find? fun message => message.id = messageId).any fun message =>
    (db.channels.find? fun channel => channel.id = channelId).any fun channel =>
      message.conversationId = channel.conversationId

/-- An `UPDATE` of one row. -/
def updateDelivery (db : DeliveryDb) (id : Uuid) (change : MessageDelivery → MessageDelivery) :
    DeliveryDb :=
  { db with deliveries := Table.update (fun delivery => delivery.id == id) change db.deliveries }

/-- The provider has accepted a message under the key. -/
def hasAccepted (db : DeliveryDb) (key : String) : Bool :=
  db.accepted.any fun message => message.1 = key

end DeliveryDb

/-! ## Changes of a row -/

namespace MessageDelivery

/-- `_advance_delivery_status`. -/
def advance (target : DeliveryStatus) (delivery : MessageDelivery) : MessageDelivery :=
  if delivery.status.order ≤ target.order then { delivery with status := target } else delivery

/-- The assignments of `apply_message_lifecycle_event`. -/
def applyEvent (event : LifecycleEvent) (now : Instant) (delivery : MessageDelivery) :
    MessageDelivery :=
  let named := { delivery with
    externalId := if delivery.externalId.isNone then event.externalId else delivery.externalId }
  match event.type with
  | .sent =>
      { named.advance .sent with sentAt := delivery.sentAt <|> event.at_ <|> some now }
  | .delivered =>
      { named.advance .delivered with
        deliveredAt := delivery.deliveredAt <|> event.at_ <|> some now }
  | .read => { named.advance .read with readAt := delivery.readAt <|> event.at_ <|> some now }
  | .failed =>
      if delivery.status ≠ .delivered ∧ delivery.status ≠ .read then
        { named with status := .failed }
      else named

/-- The assignments of `mark_outbound_failed`. -/
def markFailed (delivery : MessageDelivery) : MessageDelivery :=
  if delivery.status ≠ .delivered ∧ delivery.status ≠ .read then
    { delivery with status := .failed }
  else delivery

/-- The assignments of `mark_outbound_sent`. -/
def markSent (externalId : Option String) (now : Instant) (delivery : MessageDelivery) :
    MessageDelivery :=
  { delivery with
    externalId := externalId <|> delivery.externalId
    status := if delivery.status = .pending ∨ delivery.status = .failed then .sent
      else delivery.status
    sentAt := delivery.sentAt <|> some now }

/-- The stored row after the assignments to a row that was loaded before. -/
def merge (loaded assigned stored : MessageDelivery) : MessageDelivery :=
  { stored with
    externalId := mergeColumn loaded.externalId assigned.externalId stored.externalId
    status := mergeColumn loaded.status assigned.status stored.status
    sentAt := mergeColumn loaded.sentAt assigned.sentAt stored.sentAt
    deliveredAt := mergeColumn loaded.deliveredAt assigned.deliveredAt stored.deliveredAt
    readAt := mergeColumn loaded.readAt assigned.readAt stored.readAt }

/-- `_delivery_needs_send`, for a row that was found. -/
def needsSend (delivery : MessageDelivery) : Bool :=
  delivery.status = .pending || delivery.status = .failed

end MessageDelivery

/-! ## The transactions -/

/-- How a call of `send_chat_message` ends: with the identifier in its response, or with an
exception, whether or not the provider has accepted the message. -/
inductive SendResult
  | returned (externalId : Option String)
  | raised (accepted : Bool)
  deriving DecidableEq

/-- What a session reads from outside the database at one point. -/
structure DeliveryInput where
  now : Instant
  result : SendResult

/-- The program points. -/
inductive DeliveryPoint
  | createDelivery (turn : Turn) (ordinal : Nat)
  | insertDelivery (turn : Turn) (ordinal : Nat) (reply : PersistedReply)
  | needsSend (turn : Turn) (ordinal : Nat) (reply : PersistedReply) (id : Uuid)
  | sendMessage (turn : Turn) (ordinal : Nat) (reply : PersistedReply) (id : Uuid)
  | markFailed (id : Uuid)
  | writeFailed (loaded : MessageDelivery)
  | markSent (turn : Turn) (ordinal : Nat) (id : Uuid) (externalId : Option String)
  | writeSent (turn : Turn) (ordinal : Nat) (loaded : MessageDelivery)
      (externalId : Option String) (now : Instant)
  | lifecycle (provider : String) (event : LifecycleEvent)
  | writeLifecycle (provider : String) (event : LifecycleEvent) (loaded : MessageDelivery)
      (now : Instant)
  | ignoreLifecycle (provider : String) (event : LifecycleEvent)
  | finished
  deriving DecidableEq

/-- `create_outbound_delivery`, with what it reads. -/
def startDelivery (turn : Turn) (ordinal : Nat) (db : DeliveryDb) : DeliveryPoint :=
  match turn.replies[ordinal]? with
  | none => .finished
  | some reply =>
      match db.keyed? linq (turn.deliveryKey ordinal) with
      | some existing => .needsSend turn ordinal reply existing.id
      | none =>
          if db.channelMatches reply.messageId turn.channelId then
            .insertDelivery turn ordinal reply
          else .finished

/-- `_delivery_needs_send`, with the row that it reads. -/
def afterNeedsSend (turn : Turn) (ordinal : Nat) (reply : PersistedReply) (id : Uuid) :
    Option MessageDelivery → DeliveryPoint
  | none => .sendMessage turn ordinal reply id
  | some delivery =>
      if delivery.needsSend then .sendMessage turn ordinal reply id
      else .createDelivery turn (ordinal + 1)

def insertDelivery (turn : Turn) (ordinal : Nat) (reply : PersistedReply) (db : DeliveryDb) :
    DeliveryDb :=
  { db with
    deliveries := db.deliveries ++ [{
      id := db.nextId
      messageId := reply.messageId
      channelId := turn.channelId
      provider := linq
      externalId := none
      idempotencyKey := some (turn.deliveryKey ordinal)
      status := .pending
      sentAt := none
      deliveredAt := none
      readAt := none }]
    nextId := db.nextId + 1 }

/-- The provider takes one message under a key. -/
def acceptMessage (key text : String) (db : DeliveryDb) : DeliveryDb :=
  if db.hasAccepted key then db else { db with accepted := db.accepted ++ [(key, text)] }

/-- A settled delivery: the assignments to the row that was loaded, and the report. -/
def writeDelivery (loaded assigned : MessageDelivery) (report : Report) (db : DeliveryDb) :
    DeliveryDb :=
  { db.updateDelivery loaded.id (loaded.merge assigned) with reports := db.reports ++ [report] }

/-- The constraint on external identifiers, when an identifier is written. -/
def externalIdFree (loaded assigned : MessageDelivery) (db : DeliveryDb) : Bool :=
  assigned.externalId = loaded.externalId || assigned.externalId.isNone ||
    db.deliveries.all fun other =>
      other.id = loaded.id || !(other.provider = loaded.provider &&
        other.externalId = assigned.externalId)

/-- The commit of a settled delivery. -/
def settleDelivery (loaded assigned : MessageDelivery) (report : Report)
    (next : Option DeliveryPoint) : Request DeliveryDb Uuid DeliveryPoint :=
  .commit (fun _ => [loaded.id])
    (fun db => (db.delivery? loaded.id).isSome && externalIdFree loaded assigned db)
    (writeDelivery loaded assigned report) (fun _ => next) none

/-- What a session requests at a point. -/
def deliveryRequest : DeliveryPoint → DeliveryInput → Request DeliveryDb Uuid DeliveryPoint
  | .createDelivery turn ordinal, _ => .read (startDelivery turn ordinal)
  | .insertDelivery turn ordinal reply, _ =>
      .commit (fun _ => []) (fun db => (db.keyed? linq (turn.deliveryKey ordinal)).isNone)
        (insertDelivery turn ordinal reply)
        (fun db => some (.needsSend turn ordinal reply (db.nextId - 1))) none
  | .needsSend turn ordinal reply id, _ =>
      .read fun db => afterNeedsSend turn ordinal reply id (db.delivery? id)
  | .sendMessage turn ordinal reply id, input =>
      match input.result with
      | .returned externalId =>
          .commit (fun _ => []) (fun _ => true)
            (acceptMessage (turn.deliveryKey ordinal) reply.text)
            (fun _ => some (.markSent turn ordinal id externalId)) none
      | .raised true =>
          .commit (fun _ => []) (fun _ => true)
            (acceptMessage (turn.deliveryKey ordinal) reply.text)
            (fun _ => some (.markFailed id)) none
      | .raised false => .rollback (some (.markFailed id))
  | .markFailed id, _ =>
      .read fun db => (db.delivery? id).elim .finished .writeFailed
  | .writeFailed loaded, _ =>
      settleDelivery loaded loaded.markFailed ⟨.failed, none, some loaded.id⟩ none
  | .markSent turn ordinal id externalId, input =>
      .read fun db => (db.delivery? id).elim (.createDelivery turn (ordinal + 1)) fun loaded =>
        .writeSent turn ordinal loaded externalId input.now
  | .writeSent turn ordinal loaded externalId now, _ =>
      settleDelivery loaded (loaded.markSent externalId now) ⟨.sent, none, some loaded.id⟩
        (some (.createDelivery turn (ordinal + 1)))
  | .lifecycle provider event, input =>
      .read fun db => (db.named? provider event).elim (.ignoreLifecycle provider event)
        fun loaded => .writeLifecycle provider event loaded input.now
  | .writeLifecycle provider event loaded now, _ =>
      settleDelivery loaded (loaded.applyEvent event now)
        ⟨event.type.status, some (provider, event), some loaded.id⟩ none
  | .ignoreLifecycle provider event, _ =>
      .commit (fun _ => []) (fun _ => true)
        (fun db => { db with
          reports := db.reports ++ [⟨event.type.status, some (provider, event), none⟩] })
        (fun _ => none) none
  | .finished, _ => .rollback none

/-- The transactions of the service, from the points at which a session may start. -/
def deliveryProtocol (starts : DeliveryPoint → Bool) :
    Protocol DeliveryDb Uuid DeliveryPoint DeliveryInput where
  starts := starts
  request := deliveryRequest

/-! ## The commits -/

/-- The commits that settle a delivery: what was loaded, what is assigned, the report and
where the session goes on. -/
inductive Settling : DeliveryPoint → MessageDelivery → MessageDelivery → Report →
    Option DeliveryPoint → Prop
  | failed {loaded : MessageDelivery} :
      Settling (.writeFailed loaded) loaded loaded.markFailed ⟨.failed, none, some loaded.id⟩ none
  | sent {turn : Turn} {ordinal : Nat} {loaded : MessageDelivery} {externalId : Option String}
      {now : Instant} :
      Settling (.writeSent turn ordinal loaded externalId now) loaded
        (loaded.markSent externalId now) ⟨.sent, none, some loaded.id⟩
        (some (.createDelivery turn (ordinal + 1)))
  | lifecycle {provider : String} {event : LifecycleEvent} {loaded : MessageDelivery}
      {now : Instant} :
      Settling (.writeLifecycle provider event loaded now) loaded (loaded.applyEvent event now)
        ⟨event.type.status, some (provider, event), some loaded.id⟩ none

/-- The commits of the protocol. -/
inductive DeliveryWriting : DeliveryPoint → DeliveryInput → (DeliveryDb → List Uuid) →
    (DeliveryDb → Bool) → (DeliveryDb → DeliveryDb) → (DeliveryDb → Option DeliveryPoint) → Prop
  | settle {point : DeliveryPoint} {input : DeliveryInput} {loaded assigned : MessageDelivery}
      {report : Report} {next : Option DeliveryPoint} :
      Settling point loaded assigned report next →
      DeliveryWriting point input (fun _ => [loaded.id])
        (fun db => (db.delivery? loaded.id).isSome && externalIdFree loaded assigned db)
        (writeDelivery loaded assigned report) (fun _ => next)
  | insert {turn : Turn} {ordinal : Nat} {reply : PersistedReply} {input : DeliveryInput} :
      DeliveryWriting (.insertDelivery turn ordinal reply) input (fun _ => [])
        (fun db => (db.keyed? linq (turn.deliveryKey ordinal)).isNone)
        (insertDelivery turn ordinal reply)
        (fun db => some (.needsSend turn ordinal reply (db.nextId - 1)))
  | returned {turn : Turn} {ordinal : Nat} {reply : PersistedReply} {id : Uuid}
      {input : DeliveryInput} {externalId : Option String} : input.result = .returned externalId →
      DeliveryWriting (.sendMessage turn ordinal reply id) input (fun _ => []) (fun _ => true)
        (acceptMessage (turn.deliveryKey ordinal) reply.text)
        (fun _ => some (.markSent turn ordinal id externalId))
  | raised {turn : Turn} {ordinal : Nat} {reply : PersistedReply} {id : Uuid}
      {input : DeliveryInput} :
      DeliveryWriting (.sendMessage turn ordinal reply id) input (fun _ => []) (fun _ => true)
        (acceptMessage (turn.deliveryKey ordinal) reply.text) (fun _ => some (.markFailed id))
  | ignore {provider : String} {event : LifecycleEvent} {input : DeliveryInput} :
      DeliveryWriting (.ignoreLifecycle provider event) input (fun _ => []) (fun _ => true)
        (fun db => { db with
          reports := db.reports ++ [⟨event.type.status, some (provider, event), none⟩] })
        (fun _ => none)

/-- Every commit of the protocol is one of these, and a refused one ends the session. -/
theorem writing_of_commit {rows : DeliveryDb → List Uuid} {permitted : DeliveryDb → Bool}
    {write : DeliveryDb → DeliveryDb} {next : DeliveryDb → Option DeliveryPoint}
    {refused : Option DeliveryPoint}
    (requested : deliveryRequest point input = .commit rows permitted write next refused) :
    DeliveryWriting point input rows permitted write next ∧ refused = none := by
  cases point with
  | insertDelivery turn ordinal reply =>
      cases requested
      exact ⟨DeliveryWriting.insert, rfl⟩
  | sendMessage turn ordinal reply id =>
      rw [deliveryRequest] at requested
      split at requested
      · rename_i returned
        cases requested
        exact ⟨DeliveryWriting.returned returned, rfl⟩
      · cases requested
        exact ⟨DeliveryWriting.raised, rfl⟩
      · cases requested
  | writeFailed loaded =>
      cases requested
      exact ⟨DeliveryWriting.settle Settling.failed, rfl⟩
  | writeSent turn ordinal loaded externalId now =>
      cases requested
      exact ⟨DeliveryWriting.settle Settling.sent, rfl⟩
  | writeLifecycle provider event loaded now =>
      cases requested
      exact ⟨DeliveryWriting.settle Settling.lifecycle, rfl⟩
  | ignoreLifecycle provider event =>
      cases requested
      exact ⟨DeliveryWriting.ignore, rfl⟩
  | createDelivery | needsSend | markFailed | markSent | lifecycle | finished => cases requested

/-! ## The other requests -/

/-- Where a session goes on after it read. -/
inductive DeliveryReading (db : DeliveryDb) : DeliveryPoint → DeliveryPoint → Prop
  | finished {point : DeliveryPoint} : DeliveryReading db point .finished
  | existing {turn : Turn} {ordinal : Nat} {reply : PersistedReply} {row : MessageDelivery} :
      turn.replies[ordinal]? = some reply → db.keyed? linq (turn.deliveryKey ordinal) = some row →
      DeliveryReading db (.createDelivery turn ordinal) (.needsSend turn ordinal reply row.id)
  | missing {turn : Turn} {ordinal : Nat} {reply : PersistedReply} :
      turn.replies[ordinal]? = some reply →
      DeliveryReading db (.createDelivery turn ordinal) (.insertDelivery turn ordinal reply)
  | send {turn : Turn} {ordinal : Nat} {reply : PersistedReply} {id : Uuid} :
      DeliveryReading db (.needsSend turn ordinal reply id) (.sendMessage turn ordinal reply id)
  | skip {turn : Turn} {ordinal : Nat} {reply : PersistedReply} {id : Uuid}
      {row : MessageDelivery} : db.delivery? id = some row → row.needsSend = false →
      DeliveryReading db (.needsSend turn ordinal reply id) (.createDelivery turn (ordinal + 1))
  | failed {id : Uuid} {loaded : MessageDelivery} : db.delivery? id = some loaded →
      DeliveryReading db (.markFailed id) (.writeFailed loaded)
  | sent {turn : Turn} {ordinal : Nat} {id : Uuid} {externalId : Option String}
      {loaded : MessageDelivery} {now : Instant} : db.delivery? id = some loaded →
      DeliveryReading db (.markSent turn ordinal id externalId)
        (.writeSent turn ordinal loaded externalId now)
  | gone {turn : Turn} {ordinal : Nat} {id : Uuid} {externalId : Option String} :
      DeliveryReading db (.markSent turn ordinal id externalId)
        (.createDelivery turn (ordinal + 1))
  | lifecycle {provider : String} {event : LifecycleEvent} {loaded : MessageDelivery}
      {now : Instant} : db.named? provider event = some loaded →
      DeliveryReading db (.lifecycle provider event) (.writeLifecycle provider event loaded now)
  | ignore {provider : String} {event : LifecycleEvent} :
      DeliveryReading db (.lifecycle provider event) (.ignoreLifecycle provider event)

theorem reading_startDelivery (turn : Turn) (ordinal : Nat) (db : DeliveryDb) :
    DeliveryReading db (.createDelivery turn ordinal) (startDelivery turn ordinal db) := by
  unfold startDelivery
  split
  · exact DeliveryReading.finished
  · rename_i reply isReply
    split
    · rename_i row found
      exact DeliveryReading.existing isReply found
    · split
      · exact DeliveryReading.missing isReply
      · exact DeliveryReading.finished

theorem reading_afterNeedsSend (turn : Turn) (ordinal : Nat) (reply : PersistedReply) (id : Uuid)
    (db : DeliveryDb) :
    DeliveryReading db (.needsSend turn ordinal reply id)
      (afterNeedsSend turn ordinal reply id (db.delivery? id)) := by
  cases found : db.delivery? id with
  | none => exact DeliveryReading.send
  | some row =>
      rw [afterNeedsSend]
      split
      · exact DeliveryReading.send
      · rename_i notNeeded
        exact DeliveryReading.skip found (Bool.not_eq_true _ |>.mp notNeeded)

theorem reading_of_read {next : DeliveryDb → DeliveryPoint}
    (requested : deliveryRequest point input = .read next)
    (db : DeliveryDb) : DeliveryReading db point (next db) := by
  cases point with
  | createDelivery turn ordinal =>
      cases requested
      exact reading_startDelivery turn ordinal db
  | needsSend turn ordinal reply id =>
      cases requested
      exact reading_afterNeedsSend turn ordinal reply id db
  | sendMessage turn ordinal reply id =>
      rw [deliveryRequest] at requested
      split at requested <;> cases requested
  | markFailed id =>
      cases requested
      dsimp only
      cases found : db.delivery? id with
      | none => exact DeliveryReading.finished
      | some row => exact DeliveryReading.failed found
  | markSent turn ordinal id externalId =>
      cases requested
      dsimp only
      cases found : db.delivery? id with
      | none => exact DeliveryReading.gone
      | some row => exact DeliveryReading.sent found
  | lifecycle provider event =>
      cases requested
      dsimp only
      cases found : db.named? provider event with
      | none => exact DeliveryReading.ignore
      | some row => exact DeliveryReading.lifecycle found
  | insertDelivery | writeFailed | writeSent | writeLifecycle | ignoreLifecycle | finished =>
      cases requested

/-- No transaction of the protocol takes a lock before it commits. -/
theorem request_ne_lock {rows : DeliveryDb → List Uuid} {next : DeliveryDb → DeliveryPoint} :
    deliveryRequest point input ≠ .lock rows next := by
  intro requested
  cases point with
  | sendMessage turn ordinal reply id =>
      rw [deliveryRequest] at requested
      split at requested <;> cases requested
  | _ => cases requested

theorem request_ne_skipLocked {candidates : DeliveryDb → List Uuid}
    {next : Option Uuid → DeliveryDb → DeliveryPoint} :
    deliveryRequest point input ≠ .skipLocked candidates next := by
  intro requested
  cases point with
  | sendMessage turn ordinal reply id =>
      rw [deliveryRequest] at requested
      split at requested <;> cases requested
  | _ => cases requested

/-- An attempt goes on after a call that failed. -/
theorem next_of_rollback {target : DeliveryPoint}
    (requested : deliveryRequest point input = .rollback (some target)) :
    ∃ id, target = .markFailed id := by
  cases point with
  | sendMessage turn ordinal reply id =>
      rw [deliveryRequest] at requested
      split at requested
      · cases requested
      · cases requested
      · cases requested
        exact ⟨id, rfl⟩
  | _ => cases requested

/-! ## Identities -/

/-- The primary key of the table, and the supply of fresh keys. -/
structure DeliveryDb.Keyed (db : DeliveryDb) : Prop where
  unique : Table.UniqueOn (fun delivery => some delivery.id) db.deliveries
  known : ∀ delivery ∈ db.deliveries, delivery.id < db.nextId

/-- The columns of a delivery that no transaction assigns. -/
structure MessageDelivery.SameIdentity (first second : MessageDelivery) : Prop where
  id : second.id = first.id
  messageId : second.messageId = first.messageId
  channelId : second.channelId = first.channelId
  provider : second.provider = first.provider
  idempotencyKey : second.idempotencyKey = first.idempotencyKey

namespace MessageDelivery.SameIdentity

variable {first second third : MessageDelivery}

theorem refl : first.SameIdentity first :=
  ⟨rfl, rfl, rfl, rfl, rfl⟩

theorem trans (before : first.SameIdentity second) (after : second.SameIdentity third) :
    first.SameIdentity third where
  id := after.id.trans before.id
  messageId := after.messageId.trans before.messageId
  channelId := after.channelId.trans before.channelId
  provider := after.provider.trans before.provider
  idempotencyKey := after.idempotencyKey.trans before.idempotencyKey

/-- Merging assigns none of these columns. -/
theorem merge (loaded assigned stored : MessageDelivery) :
    stored.SameIdentity (loaded.merge assigned stored) :=
  ⟨rfl, rfl, rfl, rfl, rfl⟩

end MessageDelivery.SameIdentity

namespace DeliveryDb

variable {db : DeliveryDb} {row : MessageDelivery} {id : Uuid}

theorem of_delivery? (found : db.delivery? id = some row) : row ∈ db.deliveries ∧ row.id = id :=
  ⟨List.mem_of_find?_eq_some found, by simpa using List.find?_some found⟩

theorem Keyed.delivery?_eq (keyed : db.Keyed) (rowMem : row ∈ db.deliveries) :
    db.delivery? row.id = some row :=
  keyed.unique.find?_eq_some rowMem

theorem Keyed.eq_of_mem (keyed : db.Keyed) {other : MessageDelivery}
    (rowMem : row ∈ db.deliveries) (otherMem : other ∈ db.deliveries)
    (sameId : row.id = other.id) : row = other :=
  keyed.unique.eq_of_mem rowMem otherMem rfl (by rw [sameId])

/-- A row after an update is an old row of another key, or the changed row. -/
theorem mem_updateDelivery {change : MessageDelivery → MessageDelivery}
    (rowMem : row ∈ (db.updateDelivery id change).deliveries) :
    (row ∈ db.deliveries ∧ row.id ≠ id) ∨
      ∃ old ∈ db.deliveries, old.id = id ∧ row = change old := by
  rcases Table.mem_update_cases rowMem with ⟨old, oldMem, isTarget, rfl⟩ | ⟨oldMem, isOther⟩
  · exact Or.inr ⟨old, oldMem, by simpa using isTarget, rfl⟩
  · exact Or.inl ⟨oldMem, by simpa using isOther⟩

@[simp]
theorem acceptMessage_deliveries {key text : String} :
    (acceptMessage key text db).deliveries = db.deliveries := by
  unfold acceptMessage
  split <;> rfl

@[simp]
theorem acceptMessage_nextId {key text : String} : (acceptMessage key text db).nextId = db.nextId := by
  unfold acceptMessage
  split <;> rfl

@[simp]
theorem acceptMessage_reports {key text : String} :
    (acceptMessage key text db).reports = db.reports := by
  unfold acceptMessage
  split <;> rfl

end DeliveryDb

/-- What every commit keeps: rows stay with their identity, and new rows are under new
keys. -/
structure KeepsDeliveries (before after : DeliveryDb) : Prop where
  keyed : after.Keyed
  supply : before.nextId ≤ after.nextId
  stays : ∀ row ∈ before.deliveries, ∃ later ∈ after.deliveries, row.SameIdentity later
  origin : ∀ later ∈ after.deliveries,
    (∃ row ∈ before.deliveries, row.SameIdentity later) ∨ before.nextId ≤ later.id

namespace KeepsDeliveries

variable {before middle after : DeliveryDb}

/-- A commit that writes no delivery. -/
theorem of_same (keyed : before.Keyed) (sameRows : after.deliveries = before.deliveries)
    (sameSupply : after.nextId = before.nextId) : KeepsDeliveries before after where
  keyed := by
    constructor
    · rw [sameRows]
      exact keyed.unique
    · rw [sameRows, sameSupply]
      exact keyed.known
  supply := by rw [sameSupply]
  stays := by
    intro row rowMem
    rw [sameRows]
    exact ⟨row, rowMem, MessageDelivery.SameIdentity.refl⟩
  origin := by
    intro later laterMem
    rw [sameRows] at laterMem
    exact Or.inl ⟨later, laterMem, MessageDelivery.SameIdentity.refl⟩

theorem trans (first : KeepsDeliveries before middle) (second : KeepsDeliveries middle after) :
    KeepsDeliveries before after where
  keyed := second.keyed
  supply := le_trans first.supply second.supply
  stays := by
    intro row rowMem
    obtain ⟨between, betweenMem, firstSame⟩ := first.stays row rowMem
    obtain ⟨later, laterMem, secondSame⟩ := second.stays between betweenMem
    exact ⟨later, laterMem, firstSame.trans secondSame⟩
  origin := by
    intro later laterMem
    rcases second.origin later laterMem with ⟨between, betweenMem, secondSame⟩ | isNew
    · rcases first.origin between betweenMem with ⟨row, rowMem, firstSame⟩ | isNew
      · exact Or.inl ⟨row, rowMem, firstSame.trans secondSame⟩
      · apply Or.inr
        rwa [secondSame.id]
    · exact Or.inr (le_trans first.supply isNew)

theorem settle (keyed : before.Keyed) (loaded assigned : MessageDelivery) (report : Report) :
    KeepsDeliveries before (writeDelivery loaded assigned report before) where
  keyed := by
    constructor
    · exact keyed.unique.update _ fun _ => rfl
    · intro row rowMem
      rcases DeliveryDb.mem_updateDelivery rowMem with ⟨oldMem, _⟩ | ⟨old, oldMem, _, rfl⟩
      · exact keyed.known row oldMem
      · exact keyed.known old oldMem
  supply := le_refl _
  stays := by
    intro row rowMem
    refine ⟨_, Table.mem_update.mpr ⟨row, rowMem, rfl⟩, ?_⟩
    split
    · exact MessageDelivery.SameIdentity.merge loaded assigned row
    · exact MessageDelivery.SameIdentity.refl
  origin := by
    intro later laterMem
    rcases DeliveryDb.mem_updateDelivery laterMem with ⟨oldMem, _⟩ | ⟨old, oldMem, _, rfl⟩
    · exact Or.inl ⟨later, oldMem, MessageDelivery.SameIdentity.refl⟩
    · exact Or.inl ⟨old, oldMem, MessageDelivery.SameIdentity.merge loaded assigned old⟩

theorem insert (keyed : before.Keyed) (turn : Turn) (ordinal : Nat) (reply : PersistedReply) :
    KeepsDeliveries before (insertDelivery turn ordinal reply before) where
  keyed := by
    constructor
    · exact keyed.unique.append fun other otherMem sameId =>
        absurd (keyed.known other otherMem) (by simp [sameId])
    · intro row rowMem
      rcases List.mem_append.mp rowMem with oldMem | newMem
      · exact Nat.lt_succ_of_lt (keyed.known row oldMem)
      · rw [List.mem_singleton.mp newMem]
        exact Nat.lt_succ_self before.nextId
  supply := Nat.le_succ before.nextId
  stays row rowMem :=
    ⟨row, List.mem_append_left _ rowMem, MessageDelivery.SameIdentity.refl⟩
  origin := by
    intro later laterMem
    rcases List.mem_append.mp laterMem with oldMem | newMem
    · exact Or.inl ⟨later, oldMem, MessageDelivery.SameIdentity.refl⟩
    · rw [List.mem_singleton.mp newMem]
      exact Or.inr (le_refl before.nextId)

/-- Every commit of the protocol keeps the identities. -/
theorem of_writing {rows : DeliveryDb → List Uuid} {permitted : DeliveryDb → Bool}
    {write : DeliveryDb → DeliveryDb} {next : DeliveryDb → Option DeliveryPoint}
    (writing : DeliveryWriting point input rows permitted write next) (keyed : before.Keyed) :
    KeepsDeliveries before (write before) := by
  cases writing with
  | settle _ => exact settle keyed _ _ _
  | insert => exact insert keyed _ _ _
  | returned _ | raised =>
      exact of_same keyed DeliveryDb.acceptMessage_deliveries DeliveryDb.acceptMessage_nextId
  | ignore => exact of_same keyed rfl rfl

end KeepsDeliveries

end DotBackend.Channel
