import DotBackend.Agents.AnnouncedApps
import DotBackend.Agents.FollowUps

/-!
# Follow-ups after a reply

A reply is to silence a follow-up: the bulk cancellation marks the row, workers check for a
newer message when they begin, and the turn looks at the row twice. None of these reads
holds a lock until the messages of the follow-up are committed, and a row that has failed is
not marked. A reply silences the follow-up when no worker is past its last look and one of
the marks will stop every worker that is left.
-/

namespace DotBackend.Agents

open Data Channel Transition

/-! ## Where workers stand -/

namespace FollowUpPoint

/-- Nothing but a failure keeps the worker from storing the messages. -/
def isGuarded : FollowUpPoint → Bool
  | .guarded .. => true
  | _ => false

/-- The worker has found no newer message, and the turn has yet to look at the row. -/
def hasPassed : FollowUpPoint → Bool
  | .checked | .running _ | .opening _ | .generating _ => true
  | _ => false

/-- The worker will change the status of the row to one that is not `CANCELLED`. -/
def overwrites : FollowUpPoint → Bool
  | .writing _ read changed => changed.status ≠ read.status && changed.status ≠ .cancelled
  | _ => false

/-- The worker is on its way to a turn. -/
def isBeforeTurn (point : FollowUpPoint) : Bool :=
  match point with
  | .claimed => true
  | _ => point.hasPassed

end FollowUpPoint

/-- No worker is at a point of a kind. -/
def FollowUpSystem.NoneAt (system : FollowUpSystem) (kind : FollowUpPoint → Bool) : Prop :=
  ∀ worker point, system.workers worker = some point → kind point = false

/-- A reply that is newer than the follow-up is stored. -/
def FollowUpSystem.HasNewerReply (system : FollowUpSystem) : Prop :=
  ∃ message ∈ system.db.messages, system.row.isReply message = true ∧
    system.row.createdAt < message.createdAt

def FollowUpSystem.hasSpoken (system : FollowUpSystem) : Prop :=
  followUpMessages system.row system.db ≠ []

/-- What stops every worker that has not stored the messages. -/
inductive Silenced (maxAttempts : Nat) (system : FollowUpSystem) : Prop
  | spoken (messages : system.hasSpoken)
  | cancelled (guarded : system.NoneAt FollowUpPoint.isGuarded)
      (status : system.row.status = .cancelled) (writes : system.NoneAt FollowUpPoint.overwrites)
  | newer (guarded : system.NoneAt FollowUpPoint.isGuarded) (reply : system.HasNewerReply)
      (passed : system.NoneAt FollowUpPoint.hasPassed)
  | exhausted (guarded : system.NoneAt FollowUpPoint.isGuarded)
      (attempts : maxAttempts ≤ system.row.attempts)
      (before : system.NoneAt FollowUpPoint.isBeforeTurn)

/-- The condition on a reply, before it is committed. -/
inductive Silences (maxAttempts : Nat) (system : FollowUpSystem) (transaction : Nat)
    (message : Message) : Prop
  | spoken (messages : system.hasSpoken)
  | cancelled (guarded : system.NoneAt FollowUpPoint.isGuarded)
      (status : system.lockedBy = some transaction ∨ system.row.status = .cancelled)
      (writes : system.NoneAt FollowUpPoint.overwrites)
  | newer (guarded : system.NoneAt FollowUpPoint.isGuarded)
      (reply : system.row.createdAt < message.createdAt ∨ system.HasNewerReply)
      (passed : system.NoneAt FollowUpPoint.hasPassed)
  | exhausted (guarded : system.NoneAt FollowUpPoint.isGuarded)
      (attempts : maxAttempts ≤ system.row.attempts)
      (before : system.NoneAt FollowUpPoint.isBeforeTurn)

/-! ## What a worker does -/

/-- How a point that a worker reaches comes from the point before it. -/
structure Follows (system : FollowUpSystem) (point reached : FollowUpPoint) : Prop where
  guarded : reached.isGuarded = true →
    point.hasPassed = true ∧ system.row.status ≠ .cancelled
  passed : reached.hasPassed = true → point.hasPassed = true ∨
    (point = .claimed ∧ (system.row.cancelOnUserMessage = true → ¬ system.HasNewerReply))
  overwrites : reached.overwrites = true → system.row.status ≠ .cancelled
  notClaimed : reached ≠ .claimed

/-- What one step of a worker does. -/
inductive Advances (system : FollowUpSystem) (worker : Nat) (point : FollowUpPoint) :
    FollowUpSystem → Prop
  | goes (db : ChatDb) (next : Option FollowUpPoint) (same : db.messages = system.db.messages)
      (follows : ∀ reached, next = some reached → Follows system point reached) :
      Advances system worker point ({ system with db := db }.moveTo worker next)
  | stores {channelId : Option Uuid} {wake : WakeInputs} {result : AgentResult} (db : ChatDb)
      (turn : PersistedTurn) (isGuarded : point.isGuarded = true)
      (stored : persistTurn (followUpWake system.row channelId) wake none result system.db =
        .ok (db, turn)) :
      Advances system worker point ({ system with db := db }.moveTo worker (some .delivering))
  | writes {settlement : Settlement} (read changed : FollowUp)
      (isWriting : point = .writing settlement read changed) (unlocked : system.lockedBy = none) :
      Advances system worker point
        ({ system with row := FollowUp.flush read changed system.row }.moveTo worker none)

theorem follows_settling {system : FollowUpSystem} {point : FollowUpPoint}
    (settlement : Settlement) : Follows system point (.settling settlement) :=
  ⟨nofun, nofun, nofun, nofun⟩

theorem follows_raised {system : FollowUpSystem} {point reached : FollowUpPoint}
    {settlement : Settlement} (raised : settlement.raised = some reached) :
    Follows system point reached := by
  cases settlement with
  | complete =>
      cases raised
      exact follows_settling _
  | cancel =>
      cases raised
      exact follows_settling _
  | wakeCancelled => cases raised
  | retry => cases raised

/-- A change that a settlement makes to a row that is cancelled leaves the status. -/
theorem Settlement.change_status {now : Instant} {row changed : FollowUp} {settlement : Settlement}
    (isChange : settlement.change now row = some changed)
    (overwrites : changed.status ≠ row.status ∧ changed.status ≠ .cancelled) :
    row.status ≠ .cancelled := by
  intro cancelled
  cases settlement with
  | complete => simp [change, cancelled] at isChange
  | cancel =>
      simp only [change, cancelled, reduceCtorEq, if_false, Option.some.injEq] at isChange
      rw [← isChange] at overwrites
      exact overwrites.2 rfl
  | wakeCancelled =>
      simp only [change, cancelled, reduceCtorEq, if_false, Option.some.injEq] at isChange
      rw [← isChange] at overwrites
      exact overwrites.2 rfl
  | retry => simp [change, cancelled] at isChange

theorem not_hasNewerReply {system : FollowUpSystem} {optedOut : Bool}
    (goesOn : shouldCancel system.db optedOut system.row = false)
    (cancels : system.row.cancelOnUserMessage = true) : ¬ system.HasNewerReply := by
  rintro ⟨message, mem, isReply, newer⟩
  have found : (system.db.messages.any fun message =>
      message.conversationId = system.row.conversationId && message.direction = .inbound &&
        system.row.createdAt < message.createdAt) = true := by
    rw [List.any_eq_true]
    refine ⟨message, mem, ?_⟩
    rw [FollowUp.isReply] at isReply
    rw [isReply, Bool.true_and]
    exact decide_eq_true newer
  rw [shouldCancel, cancels, found] at goesOn
  simp at goesOn

theorem resolveFollowUp_cases (row : FollowUp) (db : ChatDb) (inputs : FollowUpInputs) :
    (∃ settlement, resolveFollowUp row db inputs = .settling settlement) ∨
      ∃ channelId, resolveFollowUp row db inputs = .running channelId := by
  unfold resolveFollowUp
  dsimp only
  split
  · exact Or.inl ⟨_, rfl⟩
  · split
    · exact Or.inr ⟨_, rfl⟩
    · split
      · exact Or.inl ⟨_, rfl⟩
      · split
        · split
          · exact Or.inl ⟨_, rfl⟩
          · split
            · exact Or.inl ⟨_, rfl⟩
            · exact Or.inr ⟨_, rfl⟩
        · exact Or.inl ⟨_, rfl⟩

/-- A worker that goes on without storing anything. -/
theorem Advances.going {system : FollowUpSystem} {worker : Nat} {point reached : FollowUpPoint}
    (follows : Follows system point reached) :
    Advances system worker point (system.moveTo worker (some reached)) := by
  apply Advances.goes system.db (some reached) rfl
  rintro _ ⟨⟩
  exact follows

theorem Advances.settling {system : FollowUpSystem} {worker : Nat} {point : FollowUpPoint}
    (settlement : Settlement) :
    Advances system worker point (system.moveTo worker (some (.settling settlement))) :=
  Advances.going (follows_settling settlement)

theorem Advances.leaving {system : FollowUpSystem} {worker : Nat} {point : FollowUpPoint}
    {settlement : Settlement} :
    Advances system worker point (system.moveTo worker settlement.raised) :=
  Advances.goes system.db settlement.raised rfl fun _ raised => follows_raised raised

/-- The worker has not yet looked for a newer message, or has found none before. -/
theorem follows_passed {system : FollowUpSystem} {point reached : FollowUpPoint}
    (passed : point.hasPassed = true) (notGuarded : reached.isGuarded = false)
    (quiet : reached.overwrites = false) (notClaimed : reached ≠ .claimed) :
    Follows system point reached where
  guarded isGuarded := by
    rw [notGuarded] at isGuarded
    cases isGuarded
  passed _ := Or.inl passed
  overwrites writes := by
    rw [quiet] at writes
    cases writes
  notClaimed := notClaimed

theorem advanceFollowUp_eq_some {system after : FollowUpSystem} {worker : Nat}
    {inputs : FollowUpInputs} {point : FollowUpPoint}
    (advanced : advanceFollowUp system worker inputs point = some after) :
    Advances system worker point after := by
  cases point with
  | claimed =>
      cases advanced
      split
      · exact Advances.settling .retry
      · split
        · exact Advances.settling .cancel
        · rename_i goesOn
          rw [Bool.not_eq_true] at goesOn
          exact Advances.going
            ⟨nofun, fun _ => Or.inr ⟨rfl, not_hasNewerReply goesOn⟩, nofun, nofun⟩
  | checked =>
      cases advanced
      rcases resolveFollowUp_cases system.row system.db inputs with
        ⟨settlement, resolved⟩ | ⟨channelId, resolved⟩
      · rw [resolved]
        exact Advances.settling settlement
      · rw [resolved]
        exact Advances.going (follows_passed rfl rfl rfl nofun)
  | running channelId =>
      cases advanced
      split
      · exact Advances.settling .retry
      · split
        · exact Advances.going ⟨nofun, nofun, nofun, nofun⟩
        · exact Advances.going (follows_passed rfl rfl rfl nofun)
  | opening channelId =>
      simp only [advanceFollowUp] at advanced
      split at advanced
      · cases advanced
        exact Advances.settling .retry
      · split at advanced
        · cases advanced
          exact Advances.settling .wakeCancelled
        · cases advanced
          have opened : ∀ run : AgentRun, (system.db.insertRun run).messages = system.db.messages :=
            fun _ => rfl
          apply Advances.goes _ _ (opened _)
          rintro _ ⟨⟩
          exact follows_passed rfl rfl rfl nofun
  | generating channelId =>
      cases advanced
      split
      · exact Advances.settling .retry
      · split
        · exact Advances.settling .wakeCancelled
        · rename_i notCancelled
          exact Advances.going ⟨fun _ => ⟨rfl, notCancelled⟩, nofun, nofun, nofun⟩
  | guarded channelId wake result =>
      simp only [advanceFollowUp] at advanced
      split at advanced
      · cases advanced
        exact Advances.settling .retry
      · rename_i db turn stored
        cases advanced
        split at stored
        · cases stored
        · exact Advances.stores db turn rfl stored
  | delivering =>
      cases advanced
      split
      · exact Advances.settling .retry
      · exact Advances.settling .complete
  | settling settlement =>
      cases advanced
      split
      · exact Advances.leaving
      · apply Advances.goes _ _ rfl
        intro reached isReached
        obtain ⟨changed, isChange, rfl⟩ := Option.map_eq_some_iff.mp isReached
        refine ⟨nofun, nofun, ?_, nofun⟩
        intro overwrites
        simp only [FollowUpPoint.overwrites, Bool.and_eq_true, decide_eq_true_eq] at overwrites
        exact Settlement.change_status isChange overwrites
  | writing settlement read changed =>
      simp only [advanceFollowUp] at advanced
      split at advanced
      · cases advanced
        exact Advances.leaving
      · split at advanced
        · cases advanced
        · rename_i unlocked
          cases advanced
          exact Advances.writes read changed rfl (Option.not_isSome_iff_eq_none.mp unlocked)

/-! ## What every step preserves -/

/-- A follow-up that replies cancel; what it has said begins with the row of its key. -/
structure FollowUpSound (system : FollowUpSystem) : Prop where
  cancels : system.row.cancelOnUserMessage = true
  keyed : system.hasSpoken → ∃ message ∈ followUpMessages system.row system.db,
    message.idempotencyKey = some system.row.messageKey

/-- A step stores no message of the follow-up, and its identity stays. -/
structure Quiet (system after : FollowUpSystem) : Prop where
  identity : after.row.id = system.row.id ∧ after.row.conversationId = system.row.conversationId ∧
    after.row.createdAt = system.row.createdAt ∧
    after.row.cancelOnUserMessage = system.row.cancelOnUserMessage
  messages : followUpMessages after.row after.db = followUpMessages system.row system.db

theorem mem_followUpMessages {row : FollowUp} {db : ChatDb} {message : Message} :
    message ∈ followUpMessages row db ↔ message ∈ db.messages ∧
      message.sourceChannel = "follow_up" ∧
        Message.hasTurnKey row.messageKey message = true := by
  simp [followUpMessages]

theorem messageKey_congr {row other : FollowUp} (same : other.id = row.id) :
    other.messageKey = row.messageKey :=
  congrArg (fun id => "benji:follow-up:" ++ String.ofList (uuidText id)) same

theorem followUpMessages_congr {row other : FollowUp} {db after : ChatDb} (same : other.id = row.id)
    (messages : after.messages = db.messages) :
    followUpMessages other after = followUpMessages row db := by
  rw [followUpMessages, followUpMessages, messageKey_congr same, messages]

/-- The turn of a follow-up begins with the row of its key. -/
theorem persistTurn_keyed {row : FollowUp} {channelId : Option Uuid} {wake : WakeInputs}
    {result : AgentResult} {db after : ChatDb} {turn : PersistedTurn}
    (stored : persistTurn (followUpWake row channelId) wake none result db = .ok (after, turn)) :
    ∃ message rest, after.messages = db.messages ++ message :: rest ∧
      message.sourceChannel = "follow_up" ∧ message.idempotencyKey = some row.messageKey := by
  obtain ⟨messages_eq, -⟩ := persistTurn_eq_ok stored
  unfold persistTurn at stored
  simp only at stored
  split at stored
  · cases stored
  · rename_i nonempty
    have hasText : cleanMessages (followUpWake row channelId).requiredAppUrl result ≠ [] :=
      fun nothing => nonempty ⟨nothing, rfl⟩
    obtain ⟨text, rest, texts⟩ := List.exists_cons_of_ne_nil hasText
    simp only [turnMessages, selectedReaction, Option.bind_none, Option.toList_none, List.map_nil,
      List.nil_append, turnBubbles, texts, bubbleMessages] at messages_eq
    exact ⟨_, _, messages_eq, rfl, rfl⟩

/-- A second turn breaks the key of the first. -/
theorem persistTurn_once {row : FollowUp} {channelId : Option Uuid} {wake : WakeInputs}
    {result : AgentResult} {db after : ChatDb} {turn : PersistedTurn}
    (stored : persistTurn (followUpWake row channelId) wake none result db = .ok (after, turn))
    {earlier : Message} (mem : earlier ∈ db.messages) (channel : earlier.sourceChannel = "follow_up")
    (key : earlier.idempotencyKey = some row.messageKey) : False := by
  obtain ⟨message, rest, messages_eq, sameChannel, sameKey⟩ := persistTurn_keyed stored
  have unique := after.messages_valid.idempotency
  rw [messages_eq, Table.UniqueOn, List.filterMap_append, List.nodup_append] at unique
  have old : ("follow_up", row.messageKey) ∈ db.messages.filterMap
      fun message => message.idempotencyKey.map fun key => (message.sourceChannel, key) := by
    rw [List.mem_filterMap]
    exact ⟨earlier, mem, by rw [key, channel]; rfl⟩
  have new : ("follow_up", row.messageKey) ∈ (message :: rest).filterMap
      fun message => message.idempotencyKey.map fun key => (message.sourceChannel, key) := by
    rw [List.mem_filterMap]
    exact ⟨message, List.mem_cons_self, by rw [sameKey, sameChannel]; rfl⟩
  exact unique.2.2 _ old _ new rfl

theorem Quiet.hasSpoken {system after : FollowUpSystem} (quiet : Quiet system after)
    (spoken : system.hasSpoken) : after.hasSpoken := by
  rw [FollowUpSystem.hasSpoken, quiet.messages]
  exact spoken

theorem FollowUpSound.quiet {system after : FollowUpSystem} (sound : FollowUpSound system)
    (quiet : Quiet system after) : FollowUpSound after where
  cancels := by
    rw [quiet.identity.2.2.2]
    exact sound.cancels
  keyed spoken := by
    rw [FollowUpSystem.hasSpoken, quiet.messages] at spoken
    rw [quiet.messages, messageKey_congr quiet.identity.1]
    exact sound.keyed spoken

theorem Quiet.of_identity {system after : FollowUpSystem}
    (identity : after.row.id = system.row.id ∧
      after.row.conversationId = system.row.conversationId ∧
      after.row.createdAt = system.row.createdAt ∧
      after.row.cancelOnUserMessage = system.row.cancelOnUserMessage)
    (messages : after.db.messages = system.db.messages) : Quiet system after where
  identity := identity
  messages := followUpMessages_congr identity.1 messages

theorem Quiet.of_same {system after : FollowUpSystem} (row : after.row = system.row)
    (messages : after.db.messages = system.db.messages) : Quiet system after := by
  apply Quiet.of_identity _ messages
  rw [row]
  exact ⟨rfl, rfl, rfl, rfl⟩

theorem NoneAt.update {system after : FollowUpSystem} {kind : FollowUpPoint → Bool} {worker : Nat}
    {next : Option FollowUpPoint}
    (workers : after.workers = Function.update system.workers worker next)
    (none : system.NoneAt kind) (allowed : ∀ point, next = some point → kind point = false) :
    after.NoneAt kind := by
  intro other point stands
  rw [workers] at stands
  by_cases same : other = worker
  · rw [same, Function.update_self] at stands
    exact allowed point stands
  · rw [Function.update_of_ne same] at stands
    exact none other point stands

theorem NoneAt.leave {system after : FollowUpSystem} {kind : FollowUpPoint → Bool} {worker : Nat}
    (workers : after.workers = Function.update system.workers worker none)
    (noneAt : system.NoneAt kind) : after.NoneAt kind := by
  apply NoneAt.update workers noneAt
  rintro _ ⟨⟩

/-- What a step leaves in place of what silences a follow-up. -/
theorem Silenced.congr {maxAttempts : Nat} {system after : FollowUpSystem}
    (silenced : Silenced maxAttempts system) (row : after.row = system.row)
    (messages : after.db.messages = system.db.messages) (workers : after.workers = system.workers) :
    Silenced maxAttempts after := by
  have noneAt : ∀ kind, system.NoneAt kind → after.NoneAt kind := by
    intro kind none worker point stands
    rw [workers] at stands
    exact none worker point stands
  cases silenced with
  | spoken spoken => exact Silenced.spoken ((Quiet.of_same row messages).hasSpoken spoken)
  | cancelled guarded status writes =>
      exact Silenced.cancelled (noneAt _ guarded) (row ▸ status) (noneAt _ writes)
  | newer guarded reply passed =>
      apply Silenced.newer (noneAt _ guarded) _ (noneAt _ passed)
      rw [FollowUpSystem.HasNewerReply, row, messages]
      exact reply
  | exhausted guarded attempts before =>
      exact Silenced.exhausted (noneAt _ guarded) (row ▸ attempts) (noneAt _ before)

theorem Follows.notGuarded {system : FollowUpSystem} {point reached : FollowUpPoint}
    (follows : Follows system point reached)
    (stopped : point.hasPassed = false ∨ system.row.status = .cancelled) :
    reached.isGuarded = false := by
  rw [← Bool.not_eq_true]
  intro isGuarded
  obtain ⟨passed, notCancelled⟩ := follows.guarded isGuarded
  rcases stopped with notPassed | cancelled
  · rw [notPassed] at passed
    cases passed
  · exact notCancelled cancelled

theorem FollowUpPoint.notPassed_of_notBefore {point : FollowUpPoint}
    (notBefore : point.isBeforeTurn = false) : point.hasPassed = false ∧ point ≠ .claimed := by
  cases point with
  | claimed => cases notBefore
  | _ => exact ⟨notBefore, nofun⟩

theorem flush_cancelled {row read changed : FollowUp} {settlement : Settlement}
    (status : row.status = .cancelled)
    (notOverwritten : (FollowUpPoint.writing settlement read changed).overwrites = false) :
    (FollowUp.flush read changed row).status = .cancelled := by
  simp only [FollowUpPoint.overwrites, Bool.and_eq_false_iff, decide_eq_false_iff_not, not_not]
    at notOverwritten
  rw [FollowUp.flush]
  rcases notOverwritten with unchanged | isCancelled
  · rw [if_pos unchanged]
    exact status
  · simp only [isCancelled, status, ite_self]

/-- A silenced follow-up stays silenced while its workers go on. -/
theorem Silenced.goes {maxAttempts : Nat} {system : FollowUpSystem} {worker : Nat}
    {point : FollowUpPoint} {db : ChatDb} {next : Option FollowUpPoint}
    (silenced : Silenced maxAttempts system) (sound : FollowUpSound system)
    (stands : system.workers worker = some point) (same : db.messages = system.db.messages)
    (follows : ∀ reached, next = some reached → Follows system point reached) :
    Quiet system ({ system with db := db }.moveTo worker next) ∧
      Silenced maxAttempts ({ system with db := db }.moveTo worker next) := by
  have quiet : Quiet system ({ system with db := db }.moveTo worker next) :=
    Quiet.of_same rfl same
  refine ⟨quiet, ?_⟩
  cases silenced with
  | spoken spoken => exact Silenced.spoken (quiet.hasSpoken spoken)
  | cancelled guarded status writes =>
      apply Silenced.cancelled
      · apply NoneAt.update rfl guarded
        intro reached isReached
        exact (follows reached isReached).notGuarded (Or.inr status)
      · exact status
      · apply NoneAt.update rfl writes
        intro reached isReached
        rw [← Bool.not_eq_true]
        intro overwrites
        exact (follows reached isReached).overwrites overwrites status
  | newer guarded reply passed =>
      have notPassed := passed worker point stands
      apply Silenced.newer
      · apply NoneAt.update rfl guarded
        intro reached isReached
        exact (follows reached isReached).notGuarded (Or.inl notPassed)
      · obtain ⟨message, mem, isNewer⟩ := reply
        exact ⟨message, same ▸ mem, isNewer⟩
      · apply NoneAt.update rfl passed
        intro reached isReached
        rw [← Bool.not_eq_true]
        intro nowPassed
        rcases (follows reached isReached).passed nowPassed with before | ⟨-, noReply⟩
        · rw [notPassed] at before
          cases before
        · exact noReply sound.cancels reply
  | exhausted guarded attempts before =>
      obtain ⟨notPassed, notClaimed⟩ :=
        FollowUpPoint.notPassed_of_notBefore (before worker point stands)
      apply Silenced.exhausted
      · apply NoneAt.update rfl guarded
        intro reached isReached
        exact (follows reached isReached).notGuarded (Or.inl notPassed)
      · exact attempts
      · apply NoneAt.update rfl before
        intro reached isReached
        have reachedNotPassed : reached.hasPassed = false := by
          rw [← Bool.not_eq_true]
          intro nowPassed
          rcases (follows reached isReached).passed nowPassed with wasPassed | ⟨isClaimed, -⟩
          · rw [notPassed] at wasPassed
            cases wasPassed
          · exact notClaimed isClaimed
        have reachedNotClaimed := (follows reached isReached).notClaimed
        cases reached with
        | claimed => exact absurd rfl reachedNotClaimed
        | _ => exact reachedNotPassed

/-- A silenced follow-up stores no messages. -/
theorem Silenced.not_stored {maxAttempts : Nat} {system : FollowUpSystem} {worker : Nat}
    {point : FollowUpPoint} {channelId : Option Uuid} {wake : WakeInputs} {result : AgentResult}
    {db : ChatDb} {turn : PersistedTurn} (silenced : Silenced maxAttempts system)
    (sound : FollowUpSound system) (stands : system.workers worker = some point)
    (isGuarded : point.isGuarded = true)
    (stored : persistTurn (followUpWake system.row channelId) wake none result system.db =
      .ok (db, turn)) : False := by
  have notGuarded : system.NoneAt FollowUpPoint.isGuarded → False := by
    intro guarded
    rw [guarded worker point stands] at isGuarded
    cases isGuarded
  cases silenced with
  | spoken spoken =>
      obtain ⟨message, mem, key⟩ := sound.keyed spoken
      obtain ⟨isStored, channel, -⟩ := mem_followUpMessages.mp mem
      exact persistTurn_once stored isStored channel key
  | cancelled guarded _ _ => exact notGuarded guarded
  | newer guarded _ _ => exact notGuarded guarded
  | exhausted guarded _ _ => exact notGuarded guarded

/-- The change of a settlement does not take the cancellation back. -/
theorem Silenced.writes {maxAttempts : Nat} {system : FollowUpSystem} {worker : Nat}
    {settlement : Settlement} {read changed : FollowUp} (silenced : Silenced maxAttempts system)
    (stands : system.workers worker = some (.writing settlement read changed)) :
    Quiet system ({ system with row := FollowUp.flush read changed system.row }.moveTo worker none) ∧
      Silenced maxAttempts
        ({ system with row := FollowUp.flush read changed system.row }.moveTo worker none) := by
  have quiet : Quiet system
      ({ system with row := FollowUp.flush read changed system.row }.moveTo worker none) :=
    Quiet.of_identity ⟨rfl, rfl, rfl, rfl⟩ rfl
  refine ⟨quiet, ?_⟩
  cases silenced with
  | spoken spoken => exact Silenced.spoken (quiet.hasSpoken spoken)
  | cancelled guarded status writes =>
      have notOverwritten := writes worker _ stands
      apply Silenced.cancelled
      · exact NoneAt.leave rfl guarded
      · exact flush_cancelled status notOverwritten
      · exact NoneAt.leave rfl writes
  | newer guarded reply passed =>
      apply Silenced.newer
      · exact NoneAt.leave rfl guarded
      · exact reply
      · exact NoneAt.leave rfl passed
  | exhausted guarded attempts before =>
      apply Silenced.exhausted
      · exact NoneAt.leave rfl guarded
      · exact attempts
      · exact NoneAt.leave rfl before

/-- A silenced follow-up stores nothing more, and stays silenced. -/
theorem Silenced.advance {maxAttempts : Nat} {system after : FollowUpSystem} {worker : Nat}
    {point : FollowUpPoint} (silenced : Silenced maxAttempts system) (sound : FollowUpSound system)
    (stands : system.workers worker = some point) (advances : Advances system worker point after) :
    Quiet system after ∧ Silenced maxAttempts after := by
  cases advances with
  | goes db next same follows => exact silenced.goes sound stands same follows
  | stores db turn isGuarded stored =>
      exact absurd (silenced.not_stored sound stands isGuarded stored) not_false
  | writes read changed isWriting unlocked =>
      subst isWriting
      exact silenced.writes stands

theorem Silenced.claim {maxAttempts : Nat} {system : FollowUpSystem} {worker : Nat} {now : Instant}
    (silenced : Silenced maxAttempts system)
    (eligible : system.row.isEligible maxAttempts now = true) :
    Quiet system ({ system with row := system.row.claim now }.moveTo worker (some .claimed)) ∧
      Silenced maxAttempts
        ({ system with row := system.row.claim now }.moveTo worker (some .claimed)) := by
  have quiet : Quiet system
      ({ system with row := system.row.claim now }.moveTo worker (some .claimed)) :=
    Quiet.of_identity ⟨rfl, rfl, rfl, rfl⟩ rfl
  refine ⟨quiet, ?_⟩
  simp only [FollowUp.isEligible, Bool.and_eq_true, Bool.or_eq_true, decide_eq_true_eq] at eligible
  obtain ⟨status, attemptsLeft⟩ := eligible
  cases silenced with
  | spoken spoken => exact Silenced.spoken (quiet.hasSpoken spoken)
  | cancelled guarded cancelled writes =>
      rw [cancelled] at status
      simp at status
  | newer guarded reply passed =>
      apply Silenced.newer
      · apply NoneAt.update rfl guarded
        rintro _ ⟨⟩
        rfl
      · exact reply
      · apply NoneAt.update rfl passed
        rintro _ ⟨⟩
        rfl
  | exhausted guarded attempts before => omega

/-- A reply has no key. -/
def RepliesUnkeyed (system : FollowUpSystem) : Prop :=
  ∀ transaction inbound, system.inbounds transaction = some inbound →
    inbound.message.idempotencyKey = none ∧ system.row.isReply inbound.message = true

theorem followUpMessages_reply {row : FollowUp} {db after : ChatDb} {message : Message}
    (inserted : db.insertMessage message = .ok after) (unkeyed : message.idempotencyKey = none) :
    followUpMessages row after = followUpMessages row db := by
  obtain ⟨messages_eq, -⟩ := ChatDb.insertMessage_eq_ok inserted
  have notFound : Message.hasTurnKey row.messageKey message = false := by
    rw [Message.hasTurnKey, unkeyed]
    rfl
  simp [followUpMessages, messages_eq, notFound]

/-- What a committed reply leaves. -/
def committed (system : FollowUpSystem) (transaction : Nat) (db : ChatDb) : FollowUpSystem :=
  { system with
    db := db
    row := if system.lockedBy = some transaction then system.row.cancel else system.row
    }.closeInbound transaction

theorem committed_identity (system : FollowUpSystem) (transaction : Nat) (db : ChatDb) :
    (committed system transaction db).row.id = system.row.id ∧
      (committed system transaction db).row.conversationId = system.row.conversationId ∧
      (committed system transaction db).row.createdAt = system.row.createdAt ∧
      (committed system transaction db).row.cancelOnUserMessage =
        system.row.cancelOnUserMessage ∧
      (committed system transaction db).row.attempts = system.row.attempts := by
  unfold committed FollowUpSystem.closeInbound
  dsimp only
  split
  · exact ⟨rfl, rfl, rfl, rfl, rfl⟩
  · exact ⟨rfl, rfl, rfl, rfl, rfl⟩

theorem committed_status {system : FollowUpSystem} {transaction : Nat} {db : ChatDb}
    (cancelled : system.lockedBy = some transaction ∨ system.row.status = .cancelled) :
    (committed system transaction db).row.status = .cancelled := by
  unfold committed FollowUpSystem.closeInbound
  dsimp only
  by_cases locked : system.lockedBy = some transaction
  · rw [if_pos locked]
    rfl
  · rw [if_neg locked]
    exact cancelled.resolve_left locked

theorem committed_quiet {system : FollowUpSystem} {transaction : Nat} {message : Message}
    {db : ChatDb} (inserted : system.db.insertMessage message = .ok db)
    (unkeyed : message.idempotencyKey = none) : Quiet system (committed system transaction db) := by
  obtain ⟨id, conversationId, createdAt, cancels, -⟩ := committed_identity system transaction db
  constructor
  · exact ⟨id, conversationId, createdAt, cancels⟩
  · rw [followUpMessages_congr id rfl]
    exact followUpMessages_reply inserted unkeyed

theorem Quiet.isReply {system after : FollowUpSystem} (quiet : Quiet system after)
    (message : Message) : after.row.isReply message = system.row.isReply message := by
  rw [FollowUp.isReply, FollowUp.isReply, quiet.identity.2.1]

theorem Quiet.hasNewerReply {system after : FollowUpSystem} (quiet : Quiet system after)
    (kept : ∀ message ∈ system.db.messages, system.row.isReply message = true →
      message ∈ after.db.messages) (reply : system.HasNewerReply) : after.HasNewerReply := by
  obtain ⟨message, mem, isReply, newer⟩ := reply
  refine ⟨message, kept message mem isReply, ?_, ?_⟩
  · rw [quiet.isReply]
    exact isReply
  · rw [quiet.identity.2.2.1]
    exact newer

/-- A reply silences a follow-up when it is committed under the condition. -/
theorem Silences.commit {maxAttempts : Nat} {system : FollowUpSystem} {transaction : Nat}
    {message : Message} {db : ChatDb} (silences : Silences maxAttempts system transaction message)
    (inserted : system.db.insertMessage message = .ok db)
    (unkeyed : message.idempotencyKey = none) (isReply : system.row.isReply message = true) :
    Silenced maxAttempts (committed system transaction db) := by
  have quiet : Quiet system (committed system transaction db) := committed_quiet inserted unkeyed
  obtain ⟨messages_eq, -⟩ := ChatDb.insertMessage_eq_ok inserted
  cases silences with
  | spoken spoken => exact Silenced.spoken (quiet.hasSpoken spoken)
  | cancelled guarded status writes =>
      apply Silenced.cancelled
      · exact guarded
      · exact committed_status status
      · exact writes
  | newer guarded reply passed =>
      apply Silenced.newer
      · exact guarded
      · rcases reply with newer | earlier
        · refine ⟨message, ?_, ?_, ?_⟩
          · change message ∈ db.messages
            rw [messages_eq]
            exact List.mem_append_right _ (List.mem_singleton_self message)
          · rw [quiet.isReply]
            exact isReply
          · rw [quiet.identity.2.2.1]
            exact newer
        · apply quiet.hasNewerReply _ earlier
          intro other mem _
          change other ∈ db.messages
          rw [messages_eq]
          exact List.mem_append_left _ mem
      · exact passed
  | exhausted guarded attempts before =>
      apply Silenced.exhausted
      · exact guarded
      · rw [(committed_identity system transaction db).2.2.2.2]
        exact attempts
      · exact before

theorem Silenced.silences {maxAttempts : Nat} {system : FollowUpSystem} {transaction : Nat}
    {message : Message} (silenced : Silenced maxAttempts system) :
    Silences maxAttempts system transaction message := by
  cases silenced with
  | spoken spoken => exact Silences.spoken spoken
  | cancelled guarded status writes => exact Silences.cancelled guarded (Or.inr status) writes
  | newer guarded reply passed => exact Silences.newer guarded (Or.inr reply) passed
  | exhausted guarded attempts before => exact Silences.exhausted guarded attempts before

/-! ## Steps -/

/-- What a step does. -/
inductive FollowUpStepped (maxAttempts : Nat) (system : FollowUpSystem) : FollowUpSystem → Prop
  | claims (worker : Nat) (now : Instant)
      (eligible : system.row.isEligible maxAttempts now = true) :
      FollowUpStepped maxAttempts system
        ({ system with row := system.row.claim now }.moveTo worker (some .claimed))
  | advances {after : FollowUpSystem} {worker : Nat} {point : FollowUpPoint}
      (stands : system.workers worker = some point) (advances : Advances system worker point after) :
      FollowUpStepped maxAttempts system after
  /-- A transaction of a reply goes on or is rolled back. -/
  | waits {after : FollowUpSystem} (row : after.row = system.row) (db : after.db = system.db)
      (workers : after.workers = system.workers)
      (inbounds : ∀ transaction inbound, after.inbounds transaction = some inbound →
        (∃ earlier, system.inbounds transaction = some earlier ∧
          earlier.message = inbound.message) ∨
        (inbound.message.idempotencyKey = none ∧ system.row.isReply inbound.message = true)) :
      FollowUpStepped maxAttempts system after
  | commits (transaction : Nat) {message : Message} (db : ChatDb)
      (inFlight : system.inbounds transaction = some ⟨message, true⟩)
      (inserted : system.db.insertMessage message = .ok db) :
      FollowUpStepped maxAttempts system (committed system transaction db)
  | others (db : ChatDb) (keeps : keepsFollowUp system.row system.db db = true) :
      FollowUpStepped maxAttempts system { system with db := db }

theorem inbound_of_update {inbounds : Nat → Option InboundTransaction} {changed other : Nat}
    {next : Option InboundTransaction} {inbound : InboundTransaction}
    (found : Function.update inbounds changed next other = some inbound) :
    next = some inbound ∧ other = changed ∨ inbounds other = some inbound := by
  by_cases same : other = changed
  · rw [same, Function.update_self] at found
    exact Or.inl ⟨found, same⟩
  · rw [Function.update_of_ne same] at found
    exact Or.inr found

theorem followUpStep_eq_some {maxAttempts : Nat} {system after : FollowUpSystem}
    {step : FollowUpStep} (stepped : followUpStep maxAttempts system step = some after) :
    FollowUpStepped maxAttempts system after := by
  cases step with
  | claim worker now =>
      simp only [followUpStep] at stepped
      split at stepped
      · rename_i allowed
        cases stepped
        rw [Bool.and_eq_true] at allowed
        exact FollowUpStepped.claims worker now allowed.2
      · cases stepped
  | advance worker inputs =>
      obtain ⟨point, stands, advanced⟩ := Option.bind_eq_some_iff.mp stepped
      exact FollowUpStepped.advances stands (advanceFollowUp_eq_some advanced)
  | crash worker =>
      obtain ⟨point, stands, rfl⟩ := Option.map_eq_some_iff.mp stepped
      apply FollowUpStepped.advances stands
      apply Advances.goes system.db none rfl
      rintro _ ⟨⟩
  | begin transaction message =>
      simp only [followUpStep] at stepped
      split at stepped
      · rename_i allowed
        cases stepped
        rw [Bool.and_eq_true, Bool.and_eq_true] at allowed
        refine FollowUpStepped.waits rfl rfl rfl ?_
        intro other inbound found
        rcases inbound_of_update found with ⟨isNew, -⟩ | earlier
        · cases isNew
          exact Or.inr ⟨Option.isNone_iff_eq_none.mp allowed.2, allowed.1.2⟩
        · exact Or.inl ⟨inbound, earlier, rfl⟩
      · cases stepped
  | cancel transaction =>
      simp only [followUpStep] at stepped
      split at stepped
      · rename_i message inFlight
        split at stepped
        · cases stepped
        · cases stepped
          refine FollowUpStepped.waits rfl rfl rfl ?_
          intro other inbound found
          rcases inbound_of_update found with ⟨isNew, rfl⟩ | earlier
          · cases isNew
            exact Or.inl ⟨_, inFlight, rfl⟩
          · exact Or.inl ⟨inbound, earlier, rfl⟩
      · cases stepped
  | commit transaction =>
      simp only [followUpStep] at stepped
      split at stepped
      · rename_i message inFlight
        split at stepped
        · cases stepped
        · rename_i db inserted
          cases stepped
          exact FollowUpStepped.commits transaction db inFlight inserted
      · cases stepped
  | rollback transaction =>
      obtain ⟨inbound, inFlight, rfl⟩ := Option.map_eq_some_iff.mp stepped
      refine FollowUpStepped.waits rfl rfl rfl ?_
      intro other found isFound
      rcases inbound_of_update isFound with ⟨isNew, -⟩ | earlier
      · cases isNew
      · exact Or.inl ⟨found, earlier, rfl⟩
  | other db =>
      simp only [followUpStep] at stepped
      split at stepped
      · rename_i keeps
        cases stepped
        exact FollowUpStepped.others db keeps
      · cases stepped

/-- What every step preserves, silenced or not. -/
theorem FollowUpSound.step {maxAttempts : Nat} {system after : FollowUpSystem}
    (sound : FollowUpSound system) (unkeyed : RepliesUnkeyed system)
    (stepped : FollowUpStepped maxAttempts system after) :
    FollowUpSound after ∧ RepliesUnkeyed after := by
  cases stepped with
  | claims worker now eligible =>
      exact ⟨sound.quiet (Quiet.of_identity ⟨rfl, rfl, rfl, rfl⟩ rfl), unkeyed⟩
  | advances stands advances =>
      cases advances with
      | goes db next same follows => exact ⟨sound.quiet (Quiet.of_same rfl same), unkeyed⟩
      | stores db turn isGuarded stored =>
          refine ⟨⟨sound.cancels, fun _ => ?_⟩, unkeyed⟩
          obtain ⟨message, rest, messages_eq, channel, key⟩ := persistTurn_keyed stored
          refine ⟨message, ?_, key⟩
          apply mem_followUpMessages.mpr
          refine ⟨?_, channel, ?_⟩
          · change message ∈ db.messages
            rw [messages_eq]
            simp
          · rw [hasTurnKey_of_key key]
            exact Bool.or_eq_true_iff.mpr (Or.inl (decide_eq_true rfl))
      | writes read changed isWriting unlocked =>
          exact ⟨sound.quiet (Quiet.of_identity ⟨rfl, rfl, rfl, rfl⟩ rfl), unkeyed⟩
  | waits row db workers inbounds =>
      refine ⟨sound.quiet (Quiet.of_same row (db ▸ rfl)), ?_⟩
      intro transaction inbound found
      rw [row]
      rcases inbounds transaction inbound found with ⟨earlier, inFlight, same⟩ | isNew
      · rw [← same]
        exact unkeyed transaction earlier inFlight
      · exact isNew
  | commits transaction db inFlight inserted =>
      obtain ⟨noKey, -⟩ := unkeyed _ _ inFlight
      have quiet : Quiet system (committed system transaction db) := committed_quiet inserted noKey
      refine ⟨sound.quiet quiet, ?_⟩
      intro other inbound found
      rcases inbound_of_update found with ⟨isNew, -⟩ | earlier
      · cases isNew
      · rw [quiet.isReply]
        exact unkeyed other inbound earlier
  | others db keeps =>
      simp only [keepsFollowUp, Bool.and_eq_true, decide_eq_true_eq] at keeps
      exact ⟨sound.quiet ⟨⟨rfl, rfl, rfl, rfl⟩, keeps.1⟩, unkeyed⟩

/-- A silenced follow-up stays silenced, whatever happens. -/
theorem Silenced.step {maxAttempts : Nat} {system after : FollowUpSystem}
    (silenced : Silenced maxAttempts system) (sound : FollowUpSound system)
    (unkeyed : RepliesUnkeyed system) (stepped : FollowUpStepped maxAttempts system after) :
    Quiet system after ∧ Silenced maxAttempts after := by
  cases stepped with
  | claims worker now eligible => exact silenced.claim eligible
  | advances stands advances => exact silenced.advance sound stands advances
  | waits row db workers inbounds =>
      have messages : after.db.messages = system.db.messages := by rw [db]
      exact ⟨Quiet.of_same row messages, silenced.congr row messages workers⟩
  | commits transaction db inFlight inserted =>
      obtain ⟨noKey, isReply⟩ := unkeyed _ _ inFlight
      exact ⟨committed_quiet inserted noKey, silenced.silences.commit inserted noKey isReply⟩
  | others db keeps =>
      simp only [keepsFollowUp, Bool.and_eq_true, decide_eq_true_eq, List.all_eq_true,
        Bool.or_eq_true, Bool.not_eq_true'] at keeps
      have quiet : Quiet system { system with db := db } := ⟨⟨rfl, rfl, rfl, rfl⟩, keeps.1⟩
      refine ⟨quiet, ?_⟩
      cases silenced with
      | spoken spoken => exact Silenced.spoken (quiet.hasSpoken spoken)
      | cancelled guarded status writes => exact Silenced.cancelled guarded status writes
      | newer guarded reply passed =>
          apply Silenced.newer
          · exact guarded
          · apply quiet.hasNewerReply _ reply
            intro message mem isReply
            rcases keeps.2 message mem with notReply | kept
            · rw [isReply] at notReply
              cases notReply
            · exact kept
          · exact passed
      | exhausted guarded attempts before => exact Silenced.exhausted guarded attempts before

/-! ## Whole runs -/

/-- A follow-up before its first dispatch; replies may be under way. -/
structure NewFollowUp (system : FollowUpSystem) : Prop where
  pending : system.row.status = .pending
  cancels : system.row.cancelOnUserMessage = true
  noMessages : followUpMessages system.row system.db = []
  noWorkers : ∀ worker, system.workers worker = none
  unlocked : system.lockedBy = none
  replies : RepliesUnkeyed system

theorem FollowUpSound.run {maxAttempts : Nat} {start system : FollowUpSystem}
    (isNew : NewFollowUp start)
    (run : Run (followUpStep maxAttempts) (fun _ _ => True) start system) :
    FollowUpSound system ∧ RepliesUnkeyed system := by
  induction run with
  | refl =>
      refine ⟨⟨isNew.cancels, ?_⟩, isNew.replies⟩
      intro spoken
      exact absurd isNew.noMessages spoken
  | tail _ _ stepped ih =>
      obtain ⟨sound, unkeyed⟩ := ih
      exact sound.step unkeyed (followUpStep_eq_some stepped)

/-- After a follow-up is silenced, no run adds a message to it. -/
theorem Silenced.run {maxAttempts : Nat} {system after : FollowUpSystem}
    (silenced : Silenced maxAttempts system) (sound : FollowUpSound system)
    (unkeyed : RepliesUnkeyed system)
    (run : Run (followUpStep maxAttempts) (fun _ _ => True) system after) :
    Silenced maxAttempts after ∧ FollowUpSound after ∧ RepliesUnkeyed after ∧
      followUpMessages after.row after.db = followUpMessages system.row system.db := by
  induction run with
  | refl => exact ⟨silenced, sound, unkeyed, rfl⟩
  | tail _ _ stepped ih =>
      obtain ⟨silencedThere, soundThere, unkeyedThere, messages⟩ := ih
      have effect := followUpStep_eq_some stepped
      obtain ⟨soundNext, unkeyedNext⟩ := soundThere.step unkeyedThere effect
      obtain ⟨quiet, silencedNext⟩ := silencedThere.step soundThere unkeyedThere effect
      exact ⟨silencedNext, soundNext, unkeyedNext, quiet.messages.trans messages⟩

/-- When a reply that silences a follow-up is committed, no run adds a message to the follow-up,
whether it is dispatched, has failed and is retried, or is dispatched twice. -/
theorem no_follow_up_after_reply {maxAttempts : Nat} {start before after later : FollowUpSystem}
    {transaction : Nat} {inbound : InboundTransaction} (isNew : NewFollowUp start)
    (run : Run (followUpStep maxAttempts) (fun _ _ => True) start before)
    (inFlight : before.inbounds transaction = some inbound)
    (silences : Silences maxAttempts before transaction inbound.message)
    (replied : followUpStep maxAttempts before (.commit transaction) = some after)
    (continued : Run (followUpStep maxAttempts) (fun _ _ => True) after later) :
    followUpMessages later.row later.db = followUpMessages before.row before.db := by
  obtain ⟨sound, unkeyed⟩ := FollowUpSound.run isNew run
  obtain ⟨noKey, isReply⟩ := unkeyed transaction inbound inFlight
  obtain ⟨soundAfter, unkeyedAfter⟩ := sound.step unkeyed (followUpStep_eq_some replied)
  simp only [followUpStep, inFlight] at replied
  split at replied
  · rename_i found
    cases found
    split at replied
    · cases replied
    · rename_i db inserted
      cases replied
      have quiet : Quiet before (committed before transaction db) := committed_quiet inserted noKey
      have silenced : Silenced maxAttempts (committed before transaction db) :=
        silences.commit inserted noKey isReply
      exact (silenced.run soundAfter unkeyedAfter continued).2.2.2.trans quiet.messages
  · cases replied

/-! ## A reply while the model works, and one that comes too late -/

def dueFollowUp : FollowUp where
  id := 5
  userId := 1
  conversationId := 2
  deliveryProvider := none
  cancelOnUserMessage := true
  createdAt := 0
  status := .pending
  attempts := 0
  dueAt := 10
  lockedAt := none

def dueFollowUpSystem : FollowUpSystem :=
  ⟨dueFollowUp, replayDb, fun _ => none, fun _ => none, none⟩

def followUpInputs : FollowUpInputs where
  now := 30
  fails := false
  optedOut := false
  hasProvider := true
  latest := List.head?
  automatedReplies := true
  hasClient := true
  wake := replayInputs 10 ["still there?"]

/-- What the user writes in the meantime. -/
def userReply : Message where
  id := 100
  conversationId := 2
  userId := 1
  senderUserId := some 1
  sourceBindingId := none
  sourceChannel := "linq"
  sourceExternalId := some "m"
  idempotencyKey := none
  responseGroupId := none
  responseOrdinal := none
  direction := .inbound
  status := .received
  content := "yes"
  rawPayload := []
  createdAt := 20

/-- A worker takes some steps before the reply marks the row. -/
def untilReply (steps : Nat) : List FollowUpStep :=
  .claim 0 10 :: List.replicate steps (.advance 0 followUpInputs) ++ [.begin 0 userReply, .cancel 0]

def executeFollowUp : FollowUpSystem → List FollowUpStep → Option FollowUpSystem :=
  execute (followUpStep 3) fun _ _ => true

theorem run_of_executeFollowUp {source target : FollowUpSystem} {steps : List FollowUpStep}
    (executed : executeFollowUp source steps = some target) :
    Run (followUpStep 3) (fun _ _ => True) source target :=
  (run_of_execute executed).mono fun _ _ _ => True.intro

theorem newFollowUp_due : NewFollowUp dueFollowUpSystem where
  pending := rfl
  cancels := rfl
  noMessages := rfl
  noWorkers _ := rfl
  unlocked := rfl
  replies _ _ found := nomatch found

/-- The model works and the reply has marked the row. -/
def generatingFollowUp : FollowUpSystem :=
  let claimed := { dueFollowUpSystem with row := dueFollowUp.claim 10 }.moveTo 0 (some .claimed)
  let opening := ((claimed.moveTo 0 (some .checked)).moveTo 0 (some (.running none))).moveTo 0
    (some (.opening none))
  let generating := { opening with db := replayDb.insertRun ⟨10, 2, 1, none⟩ }.moveTo 0
    (some (.generating none))
  { generating with
    inbounds := Function.update
      (Function.update dueFollowUpSystem.inbounds 0 (some ⟨userReply, false⟩)) 0
      (some ⟨userReply, true⟩)
    lockedBy := some 0 }

theorem run_generatingFollowUp :
    Run (followUpStep 3) (fun _ _ => True) dueFollowUpSystem generatingFollowUp := by
  have executed : executeFollowUp dueFollowUpSystem (untilReply 4) = some generatingFollowUp := rfl
  exact run_of_executeFollowUp executed

theorem noneAt_generatingFollowUp {kind : FollowUpPoint → Bool}
    (allowed : kind (.generating none) = false) : generatingFollowUp.NoneAt kind := by
  intro worker point stands
  by_cases isFirst : worker = 0
  · subst isFirst
    cases stands
    exact allowed
  · simp [generatingFollowUp, FollowUpSystem.moveTo, isFirst, dueFollowUpSystem] at stands

/-- The states after a reply is committed and after the worker has gone on. -/
def afterReply (system : FollowUpSystem) (steps : Nat) : Option (FollowUpSystem × FollowUpSystem) :=
  (followUpStep 3 system (.commit 0)).bind fun after =>
    (executeFollowUp after (List.replicate steps (.advance 0 followUpInputs))).map fun later =>
      (after, later)

theorem runs_of_afterReply {system after later : FollowUpSystem} {steps : Nat}
    (reached : afterReply system steps = some (after, later)) :
    followUpStep 3 system (.commit 0) = some after ∧
      Run (followUpStep 3) (fun _ _ => True) after later := by
  obtain ⟨middle, replied, continued⟩ := Option.bind_eq_some_iff.mp reached
  obtain ⟨last, executed, pair_eq⟩ := Option.map_eq_some_iff.mp continued
  cases pair_eq
  exact ⟨replied, run_of_executeFollowUp executed⟩

theorem no_follow_up_after_timely_reply : ∃ after later : FollowUpSystem,
    followUpStep 3 generatingFollowUp (.commit 0) = some after ∧
      Run (followUpStep 3) (fun _ _ => True) after later ∧ later.row.status = .cancelled ∧
      later.workers 0 = none ∧ followUpMessages later.row later.db = [] := by
  have executed : (afterReply generatingFollowUp 3).any
      (fun (_, later) => later.row.status = .cancelled && (later.workers 0).isNone) = true := by
    decide
  rw [Option.any_eq_true] at executed
  obtain ⟨⟨after, later⟩, reached, ended⟩ := executed
  obtain ⟨replied, continued⟩ := runs_of_afterReply reached
  rw [Bool.and_eq_true, decide_eq_true_eq, Option.isNone_iff_eq_none] at ended
  have silences : Silences 3 generatingFollowUp 0 userReply :=
    Silences.cancelled (noneAt_generatingFollowUp rfl) (Or.inl rfl) (noneAt_generatingFollowUp rfl)
  have inFlight : generatingFollowUp.inbounds 0 = some ⟨userReply, true⟩ := rfl
  exact ⟨after, later, replied, continued, ended.1, ended.2,
    no_follow_up_after_reply newFollowUp_due run_generatingFollowUp inFlight silences replied
      continued⟩

/-- The worker has looked at the row for the last time when the reply is committed. -/
theorem follow_up_after_late_reply : ∃ before after later : FollowUpSystem,
    Run (followUpStep 3) (fun _ _ => True) dueFollowUpSystem before ∧
      before.inbounds 0 = some ⟨userReply, true⟩ ∧
      followUpStep 3 before (.commit 0) = some after ∧
      Run (followUpStep 3) (fun _ _ => True) after later ∧
      followUpMessages before.row before.db = [] ∧ followUpMessages later.row later.db ≠ [] := by
  have executed : (executeFollowUp dueFollowUpSystem (untilReply 5)).any (fun before =>
      (before.inbounds 0).any (fun inbound => inbound.message = userReply && inbound.hasCancelled) &&
        followUpMessages before.row before.db = [] &&
        (afterReply before 1).any
          fun (_, later) => followUpMessages later.row later.db ≠ []) = true := by
    decide
  rw [Option.any_eq_true] at executed
  obtain ⟨before, reachedBefore, facts⟩ := executed
  simp only [Bool.and_eq_true, Option.any_eq_true, decide_eq_true_eq] at facts
  obtain ⟨⟨⟨⟨message, hasCancelled⟩, inFlight, isReply, isMarked⟩, nothing⟩, ⟨after, later⟩,
    reached, spoken⟩ := facts
  dsimp only at isReply isMarked
  subst isReply isMarked
  obtain ⟨replied, continued⟩ := runs_of_afterReply reached
  exact ⟨before, after, later, run_of_executeFollowUp reachedBefore, inFlight, replied, continued,
    nothing, spoken⟩

end DotBackend.Agents
