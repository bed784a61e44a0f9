import DotBackend.Channel.DeliveryStatuses

/-!
# The order of the replies

Attempts to deliver one turn race each other and the webhooks of the provider. An attempt
passes a reply only when it has sent it or the status of its delivery tells that the
provider has it, and such a status is only stored once the provider has accepted the
message. So the provider accepts the replies in their order, each at most once.
-/

namespace DotBackend.Channel

open Data Transition Transaction

variable {ordinal count : Nat} {reply : PersistedReply} {loaded assigned : MessageDelivery}
  {messageIds : String → String}

/-! ## Keys of replies -/

theorem toString_injective {first second : Nat} (same : toString first = toString second) :
    first = second := by
  have digits : Nat.toDigits 10 first = Nat.toDigits 10 second := by
    rw [← Nat.toList_repr, ← Nat.toList_repr]
    exact congrArg String.toList same
  calc
    first = Nat.ofDigitChars 10 (Nat.toDigits 10 first) 0 := Nat.ofDigitChars_ten_toDigits.symm
    _ = Nat.ofDigitChars 10 (Nat.toDigits 10 second) 0 := by rw [digits]
    _ = second := Nat.ofDigitChars_ten_toDigits

namespace Turn

variable {turn : Turn}

theorem deliveryKey_toList (later : ordinal ≠ 0) :
    (turn.deliveryKey ordinal).toList =
      turn.idempotencyKey.toList ++ ':' :: (toString ordinal).toList := by
  rw [deliveryKey, if_neg later, String.toList_append, String.toList_append, List.append_assoc]
  rfl

/-- Replies of a turn are sent under different keys. -/
theorem deliveryKey_injective {first second : Nat}
    (same : turn.deliveryKey first = turn.deliveryKey second) : first = second := by
  have sameChars := congrArg String.toList same
  by_cases firstZero : first = 0
  · by_cases secondZero : second = 0
    · rw [firstZero, secondZero]
    · rw [deliveryKey_toList secondZero, firstZero] at sameChars
      have longer := congrArg List.length sameChars
      simp [deliveryKey] at longer
  · by_cases secondZero : second = 0
    · rw [deliveryKey_toList firstZero, secondZero] at sameChars
      have longer := congrArg List.length sameChars
      simp [deliveryKey] at longer
    · rw [deliveryKey_toList firstZero, deliveryKey_toList secondZero] at sameChars
      have sameDigits := List.append_cancel_left sameChars
      apply toString_injective
      exact String.toList_injective (List.cons.inj sameDigits).2

/-- What the provider has accepted of a turn after some replies: their keys and texts. -/
def firstReplies (turn : Turn) (count : Nat) : List (String × String) :=
  (turn.replies.take count).mapIdx fun ordinal reply => (turn.deliveryKey ordinal, reply.text)

theorem firstReplies_zero : turn.firstReplies 0 = [] := rfl

theorem firstReplies_succ (isReply : turn.replies[count]? = some reply) :
    turn.firstReplies (count + 1) =
      turn.firstReplies count ++ [(turn.deliveryKey count, reply.text)] := by
  have inside : count < turn.replies.length := (List.getElem?_eq_some_iff.mp isReply).1
  rw [firstReplies, List.take_add_one, isReply, Option.toList_some, List.mapIdx_append,
    List.mapIdx_singleton, List.length_take, min_eq_left (le_of_lt inside), Nat.zero_add]
  rfl

theorem mem_firstReplies {message : String × String} :
    message ∈ turn.firstReplies count ↔ ∃ ordinal < count, ∃ reply,
      turn.replies[ordinal]? = some reply ∧ message = (turn.deliveryKey ordinal, reply.text) := by
  rw [firstReplies, List.mem_mapIdx]
  constructor
  · rintro ⟨ordinal, inside, rfl⟩
    rw [List.length_take] at inside
    refine ⟨ordinal, lt_of_lt_of_le inside (min_le_left _ _), turn.replies[ordinal], ?_, ?_⟩
    · exact List.getElem?_eq_getElem (lt_of_lt_of_le inside (min_le_right _ _))
    · rw [List.getElem_take]
  · rintro ⟨ordinal, below, reply, isReply, rfl⟩
    rw [List.getElem?_eq_some_iff] at isReply
    obtain ⟨inside, rfl⟩ := isReply
    refine ⟨ordinal, by rw [List.length_take]; exact lt_min below inside, ?_⟩
    rw [List.getElem_take]

/-- No reply is among them twice. -/
theorem firstReplies_nodup (count : Nat) : ((turn.firstReplies count).map (·.1)).Nodup := by
  apply List.nodup_iff_injective_getElem.mpr
  intro first second same
  simp only [firstReplies, List.getElem_map, List.getElem_mapIdx] at same
  exact Fin.ext (deliveryKey_injective same)

end Turn

/-! ## The provider -/

/-- What a webhook says of a turn is true: if it names a reply by its key or by the
identifier of its message, then the provider has accepted it, and the identifier that comes
with a key is that of its message. -/
def Truthful (turn : Turn) (messageIds : String → String) (db : DeliveryDb)
    (event : LifecycleEvent) : Prop :=
  ∀ ordinal < turn.replies.length,
    (event.idempotencyKey = some (turn.deliveryKey ordinal) →
      db.hasAccepted (turn.deliveryKey ordinal) = true ∧
        ∀ externalId, event.externalId = some externalId →
          externalId = messageIds (turn.deliveryKey ordinal)) ∧
    (event.externalId = some (messageIds (turn.deliveryKey ordinal)) →
      db.hasAccepted (turn.deliveryKey ordinal) = true)

/-- The provider answers a call with the identifier that it gave to the message of the key,
if with any, and its webhooks are truthful. -/
def fromProvider (turn : Turn) (messageIds : String → String)
    (system : System DeliveryDb Uuid DeliveryPoint) : Event DeliveryPoint DeliveryInput → Prop
  | .advance session input =>
      (∀ sent ordinal reply id externalId,
        system.points session = some (.sendMessage sent ordinal reply id) →
          input.result = .returned (some externalId) →
            externalId = messageIds (sent.deliveryKey ordinal)) ∧
      ∀ provider event loaded now,
        system.points session = some (.writeLifecycle provider event loaded now) →
          Truthful turn messageIds system.database event
  | _ => True

/-- Sessions are attempts to deliver the turn, and webhooks. -/
def Turn.isAttempt (turn : Turn) : DeliveryPoint → Bool
  | .createDelivery attempted 0 => attempted = turn
  | .lifecycle _ _ => true
  | _ => false

/-! ## The invariant -/

/-- The provider has accepted every reply before an ordinal. -/
def AcceptedBelow (turn : Turn) (db : DeliveryDb) (ordinal : Nat) : Prop :=
  ∀ earlier < ordinal, earlier < turn.replies.length →
    db.hasAccepted (turn.deliveryKey earlier) = true

/-- The delivery of the reply at an ordinal. -/
def DeliveryOf (turn : Turn) (ordinal : Nat) (row : MessageDelivery) : Prop :=
  row.provider = linq ∧ row.idempotencyKey = some (turn.deliveryKey ordinal)

/-- The provider has accepted the first replies in order; the delivery of a reply belongs to
its message, tells of an arrival only when the provider has accepted it, and carries no
other identifier than that of its message. -/
structure InOrder (turn : Turn) (messageIds : String → String)
    (others : List (String × String)) (db : DeliveryDb) : Prop where
  keyed : db.Keyed
  accepted : ∃ count ≤ turn.replies.length, db.accepted = others ++ turn.firstReplies count
  rows : ∀ row ∈ db.deliveries, ∀ ordinal reply, turn.replies[ordinal]? = some reply →
    DeliveryOf turn ordinal row → row.messageId = reply.messageId ∧
      (0 < row.status.order → db.hasAccepted (turn.deliveryKey ordinal) = true) ∧
      ∀ externalId, row.externalId = some externalId →
        externalId = messageIds (turn.deliveryKey ordinal)

/-- What commits keep: identities, and what was accepted. -/
structure Accepts (before after : DeliveryDb) : Prop where
  keeps : KeepsDeliveries before after
  accepted : ∀ key, before.hasAccepted key = true → after.hasAccepted key = true

/-- A row that is the delivery of the reply at an ordinal. -/
def HasDelivery (turn : Turn) (db : DeliveryDb) (ordinal : Nat) (id : Uuid) : Prop :=
  ∃ row ∈ db.deliveries, row.id = id ∧ DeliveryOf turn ordinal row

/-- What a session relies on at a point. -/
def AttemptStage (turn : Turn) (messageIds : String → String) (db : DeliveryDb) :
    DeliveryPoint → Prop
  | .createDelivery attempted ordinal => attempted = turn ∧ AcceptedBelow turn db ordinal
  | .insertDelivery attempted ordinal reply =>
      attempted = turn ∧ AcceptedBelow turn db ordinal ∧ turn.replies[ordinal]? = some reply
  | .needsSend attempted ordinal reply id | .sendMessage attempted ordinal reply id =>
      attempted = turn ∧ AcceptedBelow turn db ordinal ∧ turn.replies[ordinal]? = some reply ∧
        HasDelivery turn db ordinal id
  | .markSent attempted ordinal id externalId =>
      attempted = turn ∧ AcceptedBelow turn db (ordinal + 1) ∧ HasDelivery turn db ordinal id ∧
        ∀ given, externalId = some given → given = messageIds (turn.deliveryKey ordinal)
  | .writeSent attempted ordinal loaded externalId _ =>
      attempted = turn ∧ AcceptedBelow turn db (ordinal + 1) ∧
        HasDelivery turn db ordinal loaded.id ∧
        ∀ given, externalId = some given → given = messageIds (turn.deliveryKey ordinal)
  | .writeLifecycle _ event loaded _ =>
      event.names loaded = true ∧ (∃ row ∈ db.deliveries, loaded.SameIdentity row) ∧
        ∀ ordinal < turn.replies.length, DeliveryOf turn ordinal loaded →
          ∀ externalId, loaded.externalId = some externalId →
            externalId = messageIds (turn.deliveryKey ordinal)
  | _ => True

section

variable {turn : Turn} {messageIds : String → String} {others : List (String × String)}
  {db before after : DeliveryDb} {point target : DeliveryPoint} {ordinal : Nat} {id : Uuid}

theorem AcceptedBelow.keeps (below : AcceptedBelow turn before ordinal)
    (accepts : Accepts before after) : AcceptedBelow turn after ordinal :=
  fun earlier isEarlier inside => accepts.accepted _ (below earlier isEarlier inside)

theorem AcceptedBelow.succ (below : AcceptedBelow turn db ordinal)
    (next : db.hasAccepted (turn.deliveryKey ordinal) = true) :
    AcceptedBelow turn db (ordinal + 1) := by
  intro earlier isEarlier inside
  rcases Nat.lt_succ_iff_lt_or_eq.mp isEarlier with isBefore | rfl
  · exact below earlier isBefore inside
  · exact next

theorem HasDelivery.keeps (has : HasDelivery turn before ordinal id)
    (accepts : Accepts before after) : HasDelivery turn after ordinal id := by
  obtain ⟨row, rowMem, rfl, isLinq, isKey⟩ := has
  obtain ⟨later, laterMem, same⟩ := accepts.keeps.stays row rowMem
  exact ⟨later, laterMem, same.id, same.provider.trans isLinq, same.idempotencyKey.trans isKey⟩

/-- A commit of another session keeps the assertion at a point. -/
theorem AttemptStage.keeps (stage : AttemptStage turn messageIds before point)
    (accepts : Accepts before after) : AttemptStage turn messageIds after point := by
  cases point with
  | createDelivery attempted ordinal => exact ⟨stage.1, stage.2.keeps accepts⟩
  | insertDelivery attempted ordinal reply =>
      obtain ⟨isTurn, below, isReply⟩ := stage
      exact ⟨isTurn, below.keeps accepts, isReply⟩
  | needsSend attempted ordinal reply id | sendMessage attempted ordinal reply id =>
      obtain ⟨isTurn, below, isReply, has⟩ := stage
      exact ⟨isTurn, below.keeps accepts, isReply, has.keeps accepts⟩
  | markSent attempted ordinal id externalId | writeSent attempted ordinal loaded externalId now =>
      obtain ⟨isTurn, below, has, isGiven⟩ := stage
      exact ⟨isTurn, below.keeps accepts, has.keeps accepts, isGiven⟩
  | writeLifecycle provider event loaded now =>
      obtain ⟨named, ⟨row, rowMem, same⟩, isMessage⟩ := stage
      obtain ⟨later, laterMem, laterSame⟩ := accepts.keeps.stays row rowMem
      exact ⟨named, ⟨later, laterMem, same.trans laterSame⟩, isMessage⟩
  | lifecycle | markFailed | writeFailed | ignoreLifecycle | finished => exact True.intro

/-- The status of a delivery that needs no sending tells of a message that was sent. -/
theorem MessageDelivery.order_pos {row : MessageDelivery} (notNeeded : row.needsSend = false) :
    0 < row.status.order := by
  rw [needsSend] at notNeeded
  cases status : row.status with
  | pending | failed => simp [status] at notNeeded
  | sent | delivered | read => decide

/-- A webhook that found the delivery of a reply: the provider has accepted the reply, and an
identifier that the delivery does not have yet is that of its message. -/
theorem Truthful.found {event : LifecycleEvent} (truthful : Truthful turn messageIds db event)
    (named : event.names loaded = true)
    (inside : ordinal < turn.replies.length) (isDelivery : DeliveryOf turn ordinal loaded)
    (isMessage : ∀ externalId, loaded.externalId = some externalId →
      externalId = messageIds (turn.deliveryKey ordinal)) :
    db.hasAccepted (turn.deliveryKey ordinal) = true ∧
      (loaded.externalId = none → ∀ externalId, event.externalId = some externalId →
        externalId = messageIds (turn.deliveryKey ordinal)) := by
  obtain ⟨byKey, byId⟩ := truthful ordinal inside
  simp only [LifecycleEvent.names, Bool.or_eq_true, Bool.and_eq_true, decide_eq_true_eq] at named
  rcases named with ⟨isSome, sameId⟩ | ⟨_, sameKey⟩
  · obtain ⟨externalId, isGiven⟩ := Option.isSome_iff_exists.mp isSome
    have isOwn := isMessage externalId (sameId.trans isGiven)
    rw [isOwn] at isGiven
    refine ⟨byId isGiven, ?_⟩
    intro noId
    rw [sameId, isGiven] at noId
    cases noId
  · obtain ⟨isAccepted, isOwn⟩ := byKey (sameKey.symm.trans isDelivery.2)
    exact ⟨isAccepted, fun _ => isOwn⟩

/-- Reading establishes the assertion at the next point. -/
theorem DeliveryReading.stage (reading : DeliveryReading db point target)
    (inOrder : InOrder turn messageIds others db) (stage : AttemptStage turn messageIds db point) :
    AttemptStage turn messageIds db target := by
  cases reading with
  | finished | failed _ | ignore => exact True.intro
  | lifecycle found =>
      have loadedMem := List.mem_of_find?_eq_some found
      have matched := List.find?_some found
      simp only [Bool.and_eq_true] at matched
      refine ⟨matched.2, ⟨_, loadedMem, MessageDelivery.SameIdentity.refl⟩, ?_⟩
      intro ordinal inside isDelivery
      exact (inOrder.rows _ loadedMem ordinal _ (List.getElem?_eq_getElem inside) isDelivery).2.2
  | existing isReply found =>
      obtain ⟨rfl, below⟩ := stage
      have isDelivery := List.find?_some found
      simp only [decide_eq_true_eq] at isDelivery
      exact ⟨rfl, below, isReply, _, List.mem_of_find?_eq_some found, rfl, isDelivery⟩
  | missing isReply =>
      obtain ⟨rfl, below⟩ := stage
      exact ⟨rfl, below, isReply⟩
  | send => exact stage
  | @skip _ _ _ _ found isFound notNeeded =>
      obtain ⟨rfl, below, isReply, row, rowMem, sameId, isDelivery⟩ := stage
      obtain ⟨foundMem, foundId⟩ := DeliveryDb.of_delivery? isFound
      rw [inOrder.keyed.eq_of_mem rowMem foundMem (sameId.trans foundId.symm)] at isDelivery
      have isAccepted := (inOrder.rows found foundMem _ _ isReply isDelivery).2.1
        (MessageDelivery.order_pos notNeeded)
      exact ⟨rfl, below.succ isAccepted⟩
  | sent found =>
      obtain ⟨isTurn, below, has, isGiven⟩ := stage
      rw [← (DeliveryDb.of_delivery? found).2] at has
      exact ⟨isTurn, below, has, isGiven⟩
  | gone => exact ⟨stage.1, stage.2.1⟩

end

/-! ## Commits -/

section

variable {turn : Turn} {messageIds : String → String} {others : List (String × String)}
  {db : DeliveryDb} {point : DeliveryPoint}

/-- The messages of the turn are not among those that were accepted before. -/
def NotAmong (turn : Turn) (others : List (String × String)) : Prop :=
  ∀ ordinal < turn.replies.length, ∀ message ∈ others, message.1 ≠ turn.deliveryKey ordinal

/-- A status that tells of an arrival was stored, or is reported. -/
theorem Settling.order_merged {stored : MessageDelivery} {report : Report}
    {next : Option DeliveryPoint} (settling : Settling point loaded assigned report next)
    (arrived : 0 < (loaded.merge assigned stored).status.order) :
    0 < stored.status.order ∨ report.status ≠ .failed := by
  by_cases isFailure : report.status = .failed
  · apply Or.inl
    have merged : (loaded.merge assigned stored).status =
        mergeColumn loaded.status (DeliveryStatus.failed.told loaded.status) stored.status := by
      rw [← isFailure, ← settling.status_assigned.1]
      rfl
    rw [merged] at arrived
    have toldOr : DeliveryStatus.failed.told loaded.status = .failed ∨
        DeliveryStatus.failed.told loaded.status = loaded.status := DeliveryStatus.told_eq_or
    rcases toldOr with failed | same
    · rw [failed] at arrived
      rcases mergeColumn_stored_or_assigned loaded.status .failed stored.status with
        isStored | isAssigned
      · rwa [isStored] at arrived
      · rw [isAssigned] at arrived
        exact absurd arrived (Nat.lt_irrefl 0)
    · rwa [same, mergeColumn_unassigned] at arrived
  · exact Or.inr isFailure

/-- The identifier of a delivery after a settlement was stored, or is new with it. -/
theorem externalId_merged {stored : MessageDelivery} {externalId : String}
    (merged : (loaded.merge assigned stored).externalId = some externalId) :
    stored.externalId = some externalId ∨
      (assigned.externalId = some externalId ∧ assigned.externalId ≠ loaded.externalId) := by
  change mergeColumn loaded.externalId assigned.externalId stored.externalId = some externalId
    at merged
  by_cases same : assigned.externalId = loaded.externalId
  · rw [same, mergeColumn_unassigned] at merged
    exact Or.inl merged
  · rw [mergeColumn_assigned same] at merged
    exact Or.inr ⟨merged, same⟩

theorem MessageDelivery.externalId_markFailed :
    loaded.markFailed.externalId = loaded.externalId := by
  unfold markFailed
  split <;> rfl

theorem MessageDelivery.externalId_applyEvent {event : LifecycleEvent} {now : Instant}
     : (loaded.applyEvent event now).externalId =
      if loaded.externalId.isNone then event.externalId else loaded.externalId := by
  unfold applyEvent
  cases event.type with
  | sent | delivered | read =>
      dsimp only [advance]
      split <;> rfl
  | failed =>
      dsimp only
      split <;> rfl

/-- A settlement that tells of an arrival, or records an identifier, of the delivery of a
reply: the provider has accepted the reply, and it is the identifier of its message. -/
theorem Settling.isTrue {stored : MessageDelivery} {report : Report}
    {next : Option DeliveryPoint} (settling : Settling point loaded assigned report next)
    (keyed : db.Keyed)
    (truthful : ∀ provider event loaded now, point = .writeLifecycle provider event loaded now →
      Truthful turn messageIds db event)
    (stage : AttemptStage turn messageIds db point) (storedMem : stored ∈ db.deliveries)
    (sameId : stored.id = loaded.id) (inside : ordinal < turn.replies.length)
    (isDelivery : DeliveryOf turn ordinal stored) :
    (report.status ≠ .failed → db.hasAccepted (turn.deliveryKey ordinal) = true) ∧
      ∀ externalId, assigned.externalId = some externalId →
        assigned.externalId ≠ loaded.externalId →
          externalId = messageIds (turn.deliveryKey ordinal) := by
  cases settling with
  | failed =>
      constructor
      · intro noFailure
        exact absurd rfl noFailure
      · intro externalId _ isNew
        exact absurd MessageDelivery.externalId_markFailed isNew
  | @sent _ sentOrdinal _ given _ =>
      obtain ⟨rfl, below, ⟨row, rowMem, rowId, rowDelivery⟩, isGiven⟩ := stage
      cases keyed.eq_of_mem rowMem storedMem (rowId.trans sameId.symm)
      have sameKey := Option.some.inj (rowDelivery.2.symm.trans isDelivery.2)
      have sameOrdinal := Turn.deliveryKey_injective sameKey
      subst sameOrdinal
      constructor
      · intro _
        exact below sentOrdinal (Nat.lt_succ_self sentOrdinal) inside
      · intro externalId isAssigned isNew
        cases given with
        | none => exact absurd rfl isNew
        | some given =>
            cases isAssigned
            exact isGiven externalId rfl
  | lifecycle =>
      obtain ⟨named, ⟨row, rowMem, same⟩, isMessage⟩ := stage
      cases keyed.eq_of_mem rowMem storedMem (same.id.trans sameId.symm)
      have ofLoaded : DeliveryOf turn ordinal loaded :=
        ⟨same.provider.symm.trans isDelivery.1, same.idempotencyKey.symm.trans isDelivery.2⟩
      obtain ⟨isAccepted, isGiven⟩ := (truthful _ _ _ _ rfl).found named inside ofLoaded
        (isMessage ordinal inside ofLoaded)
      refine ⟨fun _ => isAccepted, ?_⟩
      intro externalId isAssigned isNew
      rw [MessageDelivery.externalId_applyEvent] at isAssigned isNew
      by_cases noId : loaded.externalId.isNone = true
      · rw [if_pos noId] at isAssigned
        exact isGiven (Option.isNone_iff_eq_none.mp noId) externalId isAssigned
      · rw [if_neg noId] at isNew
        exact absurd rfl isNew

theorem Accepts.of_same_accepted {after : DeliveryDb} (keeps : KeepsDeliveries db after)
    (same : after.accepted = db.accepted) : Accepts db after := by
  refine ⟨keeps, ?_⟩
  intro key isAccepted
  rw [DeliveryDb.hasAccepted, same]
  exact isAccepted

theorem InOrder.settle {loaded assigned : MessageDelivery} {report : Report}
    {next : Option DeliveryPoint} (inOrder : InOrder turn messageIds others db)
    (settling : Settling point loaded assigned report next)
    (truthful : ∀ provider event loaded now, point = .writeLifecycle provider event loaded now →
      Truthful turn messageIds db event)
    (stage : AttemptStage turn messageIds db point) :
    InOrder turn messageIds others (writeDelivery loaded assigned report db) where
  keyed := (KeepsDeliveries.settle inOrder.keyed loaded assigned report).keyed
  accepted := inOrder.accepted
  rows := by
    intro row rowMem ordinal reply isReply isDelivery
    rcases DeliveryDb.mem_updateDelivery rowMem with ⟨oldMem, _⟩ | ⟨stored, storedMem, sameId, rfl⟩
    · exact inOrder.rows row oldMem ordinal reply isReply isDelivery
    · have ofStored : DeliveryOf turn ordinal stored := isDelivery
      obtain ⟨isMessage, wasAccepted, wasMessage⟩ :=
        inOrder.rows stored storedMem ordinal reply isReply ofStored
      obtain ⟨isAccepted, isNewMessage⟩ := settling.isTrue inOrder.keyed truthful stage
        storedMem sameId (List.getElem?_eq_some_iff.mp isReply).1 ofStored
      refine ⟨isMessage, ?_, ?_⟩
      · intro arrived
        rcases settling.order_merged arrived with wasThere | noFailure
        · exact wasAccepted wasThere
        · exact isAccepted noFailure
      · intro externalId merged
        rcases externalId_merged merged with wasStored | ⟨isAssigned, isNew⟩
        · exact wasMessage externalId wasStored
        · exact isNewMessage externalId isAssigned isNew

theorem InOrder.insert {ordinal : Nat} {reply : PersistedReply}
    (inOrder : InOrder turn messageIds others db) (isReply : turn.replies[ordinal]? = some reply) :
    InOrder turn messageIds others (insertDelivery turn ordinal reply db) where
  keyed := (KeepsDeliveries.insert inOrder.keyed turn ordinal reply).keyed
  accepted := inOrder.accepted
  rows := by
    intro row rowMem other otherReply isOther isDelivery
    rcases List.mem_append.mp rowMem with oldMem | newMem
    · exact inOrder.rows row oldMem other otherReply isOther isDelivery
    · rw [List.mem_singleton.mp newMem] at isDelivery ⊢
      have sameOrdinal := Turn.deliveryKey_injective (Option.some.inj isDelivery.2)
      subst sameOrdinal
      rw [isReply] at isOther
      cases isOther
      refine ⟨rfl, ?_, ?_⟩
      · intro arrived
        exact absurd arrived (Nat.lt_irrefl 0)
      · rintro externalId ⟨⟩

/-- What was accepted of the turn is told by the count. -/
theorem hasAccepted_iff (notAmong : NotAmong turn others)
    (accepted : db.accepted = others ++ turn.firstReplies count)
    (isReply : turn.replies[ordinal]? = some reply) :
    db.hasAccepted (turn.deliveryKey ordinal) = true ↔ ordinal < count := by
  simp only [DeliveryDb.hasAccepted, accepted, List.any_eq_true, decide_eq_true_eq,
    List.mem_append]
  constructor
  · rintro ⟨message, isOther | isFirst, sameKey⟩
    · exact absurd sameKey
        (notAmong ordinal (List.getElem?_eq_some_iff.mp isReply).1 message isOther)
    · obtain ⟨earlier, below, other, _, rfl⟩ := Turn.mem_firstReplies.mp isFirst
      rwa [← Turn.deliveryKey_injective sameKey]
  · intro below
    exact ⟨(turn.deliveryKey ordinal, reply.text),
      Or.inr (Turn.mem_firstReplies.mpr ⟨ordinal, below, reply, isReply, rfl⟩), rfl⟩

/-- The provider takes a reply whose predecessors it has all accepted: it accepts the next
reply, or has this one already. -/
theorem InOrder.accept (inOrder : InOrder turn messageIds others db)
    (notAmong : NotAmong turn others)
    (below : AcceptedBelow turn db ordinal) (isReply : turn.replies[ordinal]? = some reply) :
    InOrder turn messageIds others (acceptMessage (turn.deliveryKey ordinal) reply.text db) ∧
      Accepts db (acceptMessage (turn.deliveryKey ordinal) reply.text db) ∧
      (acceptMessage (turn.deliveryKey ordinal) reply.text db).hasAccepted
        (turn.deliveryKey ordinal) = true := by
  by_cases isAccepted : db.hasAccepted (turn.deliveryKey ordinal) = true
  · rw [acceptMessage, if_pos isAccepted]
    exact ⟨inOrder, ⟨KeepsDeliveries.of_same inOrder.keyed rfl rfl, fun _ => id⟩, isAccepted⟩
  · have inside := (List.getElem?_eq_some_iff.mp isReply).1
    obtain ⟨count, within, accepted⟩ := inOrder.accepted
    have isNext : count = ordinal := by
      have notBelow := mt (hasAccepted_iff notAmong accepted isReply).mpr isAccepted
      by_cases same : count = ordinal
      · exact same
      · have isEarlier : count < ordinal := by omega
        have isCount := List.getElem?_eq_getElem (lt_trans isEarlier inside)
        exact absurd ((hasAccepted_iff notAmong accepted isCount).mp
          (below count isEarlier (lt_trans isEarlier inside))) (Nat.lt_irrefl count)
    subst isNext
    have accepts : Accepts db (acceptMessage (turn.deliveryKey count) reply.text db) := by
      refine ⟨KeepsDeliveries.of_same inOrder.keyed DeliveryDb.acceptMessage_deliveries
        DeliveryDb.acceptMessage_nextId, ?_⟩
      intro key wasAccepted
      rw [acceptMessage, if_neg isAccepted]
      simp only [DeliveryDb.hasAccepted, List.any_append, Bool.or_eq_true]
      exact Or.inl wasAccepted
    refine ⟨⟨accepts.keeps.keyed, ?_, ?_⟩, accepts, ?_⟩
    · refine ⟨count + 1, inside, ?_⟩
      rw [acceptMessage, if_neg isAccepted, Turn.firstReplies_succ isReply]
      dsimp only
      rw [accepted, List.append_assoc]
    · intro row rowMem other otherReply isOther isDelivery
      rw [DeliveryDb.acceptMessage_deliveries] at rowMem
      obtain ⟨isMessage, wasAccepted, wasMessage⟩ :=
        inOrder.rows row rowMem other otherReply isOther isDelivery
      exact ⟨isMessage, fun arrived => accepts.accepted _ (wasAccepted arrived), wasMessage⟩
    · rw [acceptMessage, if_neg isAccepted]
      simp [DeliveryDb.hasAccepted]

end

/-- A commit at a point whose assertion holds, with a provider that tells the truth. -/
theorem DeliveryWriting.inOrder {turn : Turn} {others : List (String × String)}
    {system : System DeliveryDb Uuid DeliveryPoint}
    {session : Nat} {point : DeliveryPoint} {input : DeliveryInput}
    {rows : DeliveryDb → List Uuid} {permitted : DeliveryDb → Bool}
    {write : DeliveryDb → DeliveryDb} {next : DeliveryDb → Option DeliveryPoint}
    (writing : DeliveryWriting point input rows permitted write next)
    (atPoint : system.points session = some point)
    (allowed : fromProvider turn messageIds system (.advance session input))
    (notAmong : NotAmong turn others) (inOrder : InOrder turn messageIds others system.database)
    (stage : AttemptStage turn messageIds system.database point) :
    InOrder turn messageIds others (write system.database) ∧
      Accepts system.database (write system.database) ∧
      ∀ target, next (write system.database) = some target →
        AttemptStage turn messageIds (write system.database) target := by
  cases writing with
  | @settle _ _ loaded assigned report _ settling =>
      have accepts : Accepts system.database (writeDelivery loaded assigned report system.database) :=
        Accepts.of_same_accepted (KeepsDeliveries.settle inOrder.keyed loaded assigned report) rfl
      have truthful : ∀ provider event loaded now,
          point = .writeLifecycle provider event loaded now →
            Truthful turn messageIds system.database event := by
        rintro provider event row now rfl
        exact allowed.2 provider event row now atPoint
      refine ⟨inOrder.settle settling truthful stage, accepts, ?_⟩
      rintro target target_eq
      cases settling with
      | failed | lifecycle => cases target_eq
      | sent =>
          cases target_eq
          exact ⟨stage.1, stage.2.1.keeps accepts⟩
  | @insert sent ordinal reply input =>
      obtain ⟨rfl, below, isReply⟩ := stage
      have accepts : Accepts system.database (insertDelivery sent ordinal reply system.database) :=
        Accepts.of_same_accepted (KeepsDeliveries.insert inOrder.keyed sent ordinal reply) rfl
      refine ⟨inOrder.insert isReply, accepts, ?_⟩
      rintro target ⟨⟩
      exact ⟨rfl, below.keeps accepts, isReply, _,
        List.mem_append_right _ (List.mem_singleton_self _), rfl, rfl, rfl⟩
  | @returned sent ordinal reply id input externalId isReturned =>
      obtain ⟨rfl, below, isReply, has⟩ := stage
      obtain ⟨isInOrder, accepts, isAccepted⟩ := inOrder.accept notAmong below isReply
      refine ⟨isInOrder, accepts, ?_⟩
      rintro target ⟨⟩
      refine ⟨rfl, (below.keeps accepts).succ isAccepted, has.keeps accepts, ?_⟩
      rintro given rfl
      exact allowed.1 sent ordinal reply id given atPoint isReturned
  | raised =>
      obtain ⟨rfl, below, isReply, _⟩ := stage
      obtain ⟨isInOrder, accepts, _⟩ := inOrder.accept notAmong below isReply
      refine ⟨isInOrder, accepts, ?_⟩
      rintro target ⟨⟩
      exact True.intro
  | ignore =>
      refine ⟨⟨⟨inOrder.keyed.unique, inOrder.keyed.known⟩, inOrder.accepted, inOrder.rows⟩,
        Accepts.of_same_accepted (KeepsDeliveries.of_same inOrder.keyed rfl rfl) rfl, ?_⟩
      rintro target ⟨⟩

/-! ## Runs -/

/-- The proof outline of the attempts to deliver a turn. -/
def orderOutline (turn : Turn) (messageIds : String → String) (others : List (String × String))
    (notAmong : NotAmong turn others) :
    Outline (deliveryProtocol turn.isAttempt) (fromProvider turn messageIds) where
  Global := InOrder turn messageIds others
  Local db point _ := AttemptStage turn messageIds db point
  start := by
    intro database point mayStart _
    cases point with
    | createDelivery attempted ordinal =>
        cases ordinal with
        | zero => exact ⟨of_decide_eq_true mayStart, fun _ isBelow => absurd isBelow (Nat.not_lt_zero _)⟩
        | succ => cases mayStart
    | lifecycle => exact True.intro
    | _ => cases mayStart
  read := by
    intro database point input next held requested inOrder stage
    exact (reading_of_read requested database).stage inOrder stage
  lock requested := absurd requested request_ne_lock
  skipLocked requested := absurd requested request_ne_skipLocked
  rollback := by
    intro database point input next target held requested target_eq _ _
    subst target_eq
    obtain ⟨id, rfl⟩ := next_of_rollback requested
    exact True.intro
  refused := by
    intro database point input rows permitted write next refused target held requested
      target_eq _ _
    rw [(writing_of_commit requested).2] at target_eq
    cases target_eq
  commit := by
    intro system session point input rows permitted write next refused commits allowed
      inOrder stage
    obtain ⟨isInOrder, _, own⟩ := (writing_of_commit commits.requested).1.inOrder
      commits.at_point allowed notAmong inOrder stage
    exact ⟨isInOrder, own⟩
  interference := by
    intro system session point input rows permitted write next refused commits allowed
      inOrder stage other held otherStage _
    obtain ⟨_, accepts, _⟩ := (writing_of_commit commits.requested).1.inOrder
      commits.at_point allowed notAmong inOrder stage
    exact otherStage.keeps accepts

theorem InOrder.begin {turn : Turn} {db : DeliveryDb}
    (keyed : db.Keyed) (undelivered : ∀ ordinal < turn.replies.length,
      ∀ row ∈ db.deliveries, ¬ DeliveryOf turn ordinal row) :
    InOrder turn messageIds db.accepted db where
  keyed := keyed
  accepted := ⟨0, Nat.zero_le _, by rw [Turn.firstReplies_zero, List.append_nil]⟩
  rows := by
    intro row rowMem ordinal reply isReply isDelivery
    exact absurd isDelivery
      (undelivered ordinal (List.getElem?_eq_some_iff.mp isReply).1 row rowMem)

theorem keeps_of_step {turn : Turn} {others : List (String × String)}
    {notAmong : NotAmong turn others}
    {before after : System DeliveryDb Uuid DeliveryPoint} {event : Event DeliveryPoint DeliveryInput}
    (sound : (orderOutline turn messageIds others notAmong).Sound before)
    (stepped : System.step (deliveryProtocol turn.isAttempt) before event = some after) :
    KeepsDeliveries before.database after.database := by
  have inOrder : InOrder turn messageIds others before.database := sound.global
  rcases System.step_database stepped with same | ⟨session, point, input, rows, permitted,
    write, next, refused, rfl, commits, written⟩
  · rw [same]
    exact KeepsDeliveries.of_same inOrder.keyed rfl rfl
  · rw [written]
    exact KeepsDeliveries.of_writing (writing_of_commit commits.requested).1 inOrder.keyed

/-- However the attempts to deliver a turn and the webhooks interleave, fail and crash: the
provider has accepted the first replies of the turn in their order, each once; the delivery
under the key of a reply belongs to the message of that reply, carries no other identifier
than that of this message, and stays with it. -/
theorem replies_accepted_in_order {turn : Turn} {messageIds : String → String} {db : DeliveryDb}
    {earlier later : System DeliveryDb Uuid DeliveryPoint} (keyed : db.Keyed)
    (notAmong : NotAmong turn db.accepted)
    (undelivered : ∀ ordinal < turn.replies.length, ∀ row ∈ db.deliveries,
      ¬ DeliveryOf turn ordinal row)
    (started : Run (System.step (deliveryProtocol turn.isAttempt)) (fromProvider turn messageIds)
      (System.idle db) earlier)
    (continued : Run (System.step (deliveryProtocol turn.isAttempt)) (fromProvider turn messageIds)
      earlier later) :
    (∃ count ≤ turn.replies.length,
      later.database.accepted = db.accepted ++ turn.firstReplies count ∧
        ((turn.firstReplies count).map (·.1)).Nodup) ∧
    (∀ row ∈ later.database.deliveries, ∀ ordinal reply, turn.replies[ordinal]? = some reply →
      DeliveryOf turn ordinal row → row.messageId = reply.messageId ∧
        ∀ externalId, row.externalId = some externalId →
          externalId = messageIds (turn.deliveryKey ordinal)) ∧
    ∀ row ∈ earlier.database.deliveries, ∃ stays ∈ later.database.deliveries,
      row.SameIdentity stays := by
  have idle : (orderOutline turn messageIds db.accepted notAmong).Sound (System.idle db) :=
    Outline.sound_idle (InOrder.begin keyed undelivered)
  have sound := idle.run started
  have laterSound := sound.run continued
  have inOrder : InOrder turn messageIds db.accepted later.database := laterSound.global
  refine ⟨?_, ?_, ?_⟩
  · obtain ⟨count, within, accepted⟩ := inOrder.accepted
    exact ⟨count, within, accepted, turn.firstReplies_nodup count⟩
  · intro row rowMem ordinal reply isReply isDelivery
    obtain ⟨isMessage, _, isOwn⟩ := inOrder.rows row rowMem ordinal reply isReply isDelivery
    exact ⟨isMessage, isOwn⟩
  · have kept : (orderOutline turn messageIds db.accepted notAmong).Sound later ∧
        KeepsDeliveries earlier.database later.database := by
      apply continued.invariant (fun system =>
        (orderOutline turn messageIds db.accepted notAmong).Sound system ∧
          KeepsDeliveries earlier.database system.database)
      · rintro before event after ⟨soundBefore, keeps⟩ allowed stepped
        exact ⟨soundBefore.step allowed stepped, keeps.trans (keeps_of_step soundBefore stepped)⟩
      · have earlierInOrder : InOrder turn messageIds db.accepted earlier.database := sound.global
        exact ⟨sound, KeepsDeliveries.of_same earlierInOrder.keyed rfl rfl⟩
    exact kept.2.stays

/-! ## An attempt that crashes -/

def twoReplies : Turn :=
  ⟨[⟨10, "hey"⟩, ⟨11, "there"⟩], 20, "turn-1"⟩

def outboundMessage (id : Uuid) (content : String) : Message where
  id := id
  conversationId := 1
  userId := 7
  senderUserId := none
  sourceBindingId := none
  sourceChannel := linq
  sourceExternalId := none
  idempotencyKey := none
  responseGroupId := none
  responseOrdinal := none
  direction := .outbound
  status := .completed
  content := content
  rawPayload := []
  createdAt := 0

/-- A turn that is stored, without deliveries. -/
def undeliveredTurn : DeliveryDb where
  messages := [outboundMessage 10 "hey", outboundMessage 11 "there"]
  channels := [⟨20, 1, linq, "chat-1", none, true⟩]
  deliveries := []
  nextId := 0
  accepted := []
  reports := []

/-- The provider names a message after its key. -/
def messageIdOf (key : String) : String :=
  "message-" ++ key

/-- The first reply was delivered. -/
def firstDelivered : LifecycleEvent :=
  deliveredEvent (some (messageIdOf "turn-1")) (some "turn-1")

/-- Calls fail or answer with the identifier of the message; the only webhook is about the
first reply, once it was accepted. -/
def honest (system : System DeliveryDb Uuid DeliveryPoint) :
    Event DeliveryPoint DeliveryInput → Bool
  | .advance session input =>
      match system.points session with
      | some (.sendMessage sent ordinal _ _) =>
          input.result = .returned (some (messageIdOf (sent.deliveryKey ordinal))) ||
            input.result = .raised true
      | some (.writeLifecycle _ event _ _) =>
          event = firstDelivered && system.database.hasAccepted "turn-1"
      | _ => true
  | _ => true

theorem fromProvider_of_honest {system : System DeliveryDb Uuid DeliveryPoint}
    {event : Event DeliveryPoint DeliveryInput} (isHonest : honest system event = true) :
    fromProvider twoReplies messageIdOf system event := by
  cases event with
  | start | crash => exact True.intro
  | advance session input =>
      constructor
      · intro sent ordinal reply id externalId atPoint isReturned
        simp only [honest, atPoint, isReturned, Bool.or_eq_true, decide_eq_true_eq,
          SendResult.returned.injEq, Option.some.injEq, reduceCtorEq, or_false] at isHonest
        exact isHonest
      · intro provider event loaded now atPoint
        simp only [honest, atPoint, Bool.and_eq_true, decide_eq_true_eq] at isHonest
        obtain ⟨rfl, isAccepted⟩ := isHonest
        intro ordinal inside
        have byOrdinal : ordinal = 0 ∨ ordinal = 1 := by
          have : twoReplies.replies.length = 2 := rfl
          omega
        rcases byOrdinal with rfl | rfl
        · exact ⟨fun _ => ⟨isAccepted, fun externalId same => (Option.some.inj same).symm⟩,
            fun _ => isAccepted⟩
        · exact ⟨fun named => absurd named (by decide), fun named => absurd named (by decide)⟩

def attemptTick (session : Nat) (result : SendResult) : Event DeliveryPoint DeliveryInput :=
  .advance session ⟨0, result⟩

/-- An attempt sends the first reply and crashes; a webhook tells of its arrival; a second
attempt goes on with the second reply, and its call fails although the provider has the
message. -/
theorem crashed_attempt_is_continued :
    ∃ earlier later : System DeliveryDb Uuid DeliveryPoint,
      later.database.accepted = [("turn-1", "hey"), ("turn-1:1", "there")] ∧
      (later.database.deliveries.map fun row => row.status) = [.delivered, .failed] ∧
      (∃ count ≤ twoReplies.replies.length,
        later.database.accepted = undeliveredTurn.accepted ++ twoReplies.firstReplies count ∧
          ((twoReplies.firstReplies count).map (·.1)).Nodup) ∧
      (∀ row ∈ later.database.deliveries, ∀ ordinal reply,
        twoReplies.replies[ordinal]? = some reply → DeliveryOf twoReplies ordinal row →
          row.messageId = reply.messageId ∧ ∀ externalId, row.externalId = some externalId →
            externalId = messageIdOf (twoReplies.deliveryKey ordinal)) ∧
      ∀ row ∈ earlier.database.deliveries, ∃ stays ∈ later.database.deliveries,
        row.SameIdentity stays := by
  have runs : (execute (System.step (deliveryProtocol twoReplies.isAttempt)) honest
      (System.idle undeliveredTurn)
      (.start 1 (.createDelivery twoReplies 0) ::
        List.replicate 4 (attemptTick 1 (.returned (some (messageIdOf "turn-1")))) ++
        [.crash 1, .start 2 (.lifecycle linq firstDelivered), attemptTick 2 (.raised true),
          attemptTick 2 (.raised true)])).any (fun earlier =>
      (execute (System.step (deliveryProtocol twoReplies.isAttempt)) honest earlier
        (.start 3 (.createDelivery twoReplies 0) ::
          List.replicate 8 (attemptTick 3 (.raised true)))).any fun later =>
        later.database.accepted = [("turn-1", "hey"), ("turn-1:1", "there")] &&
        (later.database.deliveries.map fun row => row.status) = [.delivered, .failed]) = true := by
    decide
  simp only [Option.any_eq_true, Bool.and_eq_true, decide_eq_true_eq] at runs
  rcases runs with ⟨earlier, toEarlier, later, toLater, accepted, statuses⟩
  have keyed : undeliveredTurn.Keyed := ⟨by decide, by decide⟩
  have notAmong : NotAmong twoReplies undeliveredTurn.accepted := fun _ _ message messageMem =>
    absurd messageMem List.not_mem_nil
  have undelivered : ∀ ordinal < twoReplies.replies.length,
      ∀ row ∈ undeliveredTurn.deliveries, ¬ DeliveryOf twoReplies ordinal row :=
    fun _ _ row rowMem => absurd rowMem List.not_mem_nil
  exact ⟨earlier, later, accepted, statuses,
    replies_accepted_in_order keyed notAmong undelivered
      ((run_of_execute toEarlier).mono fun _ _ => fromProvider_of_honest)
      ((run_of_execute toLater).mono fun _ _ => fromProvider_of_honest)⟩

end DotBackend.Channel
