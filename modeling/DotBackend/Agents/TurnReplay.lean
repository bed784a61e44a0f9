import DotBackend.Agents.TurnMessages
import DotBackend.Transition.Run

/-!
# Replayed turns

A wake that runs again under its key returns the turn it stored. The rows are found by a
`LIKE` pattern made of the key, and the key is not escaped: an underscore or a percent
sign in it finds rows of other keys, a backslash loses rows of its own. Where no key finds
a row of another wake, every turn is replayed as it was.
-/

namespace DotBackend.Agents

open Data Channel Transition

variable {wake : Wake} {inputs : WakeInputs} {unicode : Unicode} {db : ChatDb} {system : TurnSystem}

/-! ## Which rows a key finds -/

/-- The pattern of a key finds the rows that have a part behind another key. -/
def findsLater (key other : String) : Bool :=
  Text.like (key ++ ":%").toList other.toList ||
    Text.like (key ++ ":").toList (other ++ ":").toList

/-- A key finds some row of a turn of another key with some parts. -/
def finds (key other : String) (parts : List String) : Bool :=
  Text.like (key ++ ":%").toList other.toList ||
    (!parts.isEmpty && Text.like (key ++ ":").toList (other ++ ":").toList) ||
      parts.any fun part => key = other ++ ":" ++ part

theorem colon_ordinary : Text.Ordinary ':' := by
  unfold Text.Ordinary
  decide

theorem like_later_iff {key other part : String} (noColon : ':' ∉ part.toList) :
    Text.like (key ++ ":%").toList (other ++ ":" ++ part).toList = true ↔
      findsLater key other = true := by
  have pattern_eq : (key ++ ":%").toList = key.toList ++ [':', '%'] := by simp
  have stem_eq : (key ++ ":").toList = key.toList ++ [':'] := by simp
  have front_eq : (other ++ ":").toList = other.toList ++ [':'] := by simp
  have text_eq : (other ++ ":" ++ part).toList = other.toList ++ ':' :: part.toList := by simp
  rw [findsLater, Bool.or_eq_true, pattern_eq, stem_eq, front_eq, text_eq]
  constructor
  · exact Text.like_separated colon_ordinary noColon
  · rintro (other_found | prefix_found)
    · obtain ⟨a, b, other_eq, matched⟩ :=
        (Text.like_append_percent colon_ordinary key.toList).mp other_found
      rw [Text.like_append_percent colon_ordinary]
      exact ⟨a, b ++ ':' :: part.toList, by rw [other_eq, List.append_assoc], matched⟩
    · rw [Text.like_append_percent colon_ordinary]
      exact ⟨other.toList ++ [':'], part.toList, by simp, prefix_found⟩

theorem hasTurnKey_of_key {key stored : String} {message : Message}
    (key_eq : message.idempotencyKey = some stored) :
    Message.hasTurnKey key message =
      (decide (stored = key) || Text.like (key ++ ":%").toList stored.toList) := by
  rw [Message.hasTurnKey, key_eq, Option.any_some]

/-- A key that finds no row of a turn of another key. -/
theorem not_hasTurnKey {target : Option String}
    {result : AgentResult} {key : String} (differs : key ≠ wake.idempotencyKey)
    (notFound : finds key wake.idempotencyKey (turnParts wake target result) = false)
    {message : Message} (messageMem : message ∈ turnMessages wake inputs target result) :
    Message.hasTurnKey key message = false := by
  simp only [finds, Bool.or_eq_false_iff, Bool.and_eq_false_iff, List.any_eq_false,
    decide_eq_true_eq, Bool.not_eq_false'] at notFound
  obtain ⟨⟨notFirst, notPrefix⟩, notEqual⟩ := notFound
  rcases key_of_mem_turnMessages messageMem with first | ⟨part, partMem, later⟩
  · rw [hasTurnKey_of_key first, decide_eq_false (Ne.symm differs), notFirst, Bool.or_false]
  · have hasParts : (turnParts wake target result).isEmpty = false := by
      cases parts_eq : turnParts wake target result with
      | nil => simp [parts_eq] at partMem
      | cons head tail => rfl
    have prefixUnmatched := notPrefix.resolve_left (by simp [hasParts])
    have unmatched : Text.like (key ++ ":%").toList
        (wake.idempotencyKey ++ ":" ++ part).toList = false := by
      rw [← Bool.not_eq_true, like_later_iff (colon_notMem_laterParts partMem), findsLater,
        notFirst, prefixUnmatched]
      simp
    rw [hasTurnKey_of_key later, decide_eq_false (Ne.symm (notEqual part partMem)), unmatched,
      Bool.or_false]

/-- A wake finds all rows of its own turn, unless its key escapes a part of itself. -/
theorem hasTurnKey_own {target : Option String}
    {result : AgentResult}
    (own : turnParts wake target result ≠ [] →
      findsLater wake.idempotencyKey wake.idempotencyKey = true)
    {message : Message} (messageMem : message ∈ turnMessages wake inputs target result) :
    Message.hasTurnKey wake.idempotencyKey message = true := by
  rcases key_of_mem_turnMessages messageMem with first | ⟨part, partMem, later⟩
  · rw [hasTurnKey_of_key first, decide_eq_true rfl, Bool.true_or]
  · have matched : Text.like (wake.idempotencyKey ++ ":%").toList
        (wake.idempotencyKey ++ ":" ++ part).toList = true :=
      (like_later_iff (colon_notMem_laterParts partMem)).mpr (own (List.ne_nil_of_mem partMem))
    rw [hasTurnKey_of_key later, matched, Bool.or_true]

/-! ## Wakes that overlap -/

/-- The transaction that opens the run of a wake: the run and the message to react to. -/
def openRun (unicode : Unicode) (wake : Wake) (runId : Uuid) (db : ChatDb) :
    Except TurnError (ChatDb × Option String) :=
  match db.conversation? wake.conversationId, db.user? wake.userId with
  | some conversation, some _ =>
      let trigger := wake.triggerMessageId.bind db.message?
      let channel := wake.sourceBindingId.bind fun id =>
        db.channels.find? fun channel => channel.id = id
      .ok (db.insertRun ⟨runId, wake.conversationId, wake.userId, wake.triggerMessageId⟩,
        directImessageReactionTarget unicode conversation channel trigger)
  | _, _ => .error .agentRowsGone

theorem runAgentWake_of_existing {turn : PersistedTurn}
    (existing : loadExistingTurn db wake.sourceChannel wake.idempotencyKey = some turn) :
    runAgentWake unicode wake inputs db = .ok (db, turn) := by
  rw [runAgentWake, existing]

/-- A wake that waits for the model. -/
structure RunningWake where
  wake : Wake
  reactionTarget : Option String

/-- A turn that a wake persisted, with its rows. -/
structure StoredTurn where
  wake : Wake
  reactionTarget : Option String
  result : AgentResult
  messages : List Message
  turn : PersistedTurn

/-- The database, the wakes in flight, the keys used on each channel and the turns that
were persisted. -/
structure TurnSystem where
  db : ChatDb
  running : List RunningWake
  used : List (String × String)
  turns : List StoredTurn

inductive TurnEvent
  /-- A wake takes the lock of its conversation, looks for its turn and opens a run. -/
  | wake (wake : Wake) (runId : Uuid)
  /-- The model of the conversation's wake is done, or something was raised. -/
  | finish (conversationId : Uuid) (inputs : WakeInputs)
  /-- Another part of the service stores a message. -/
  | store (message : Message)

/-- The wake takes the lock, unless the conversation's last wake is still running. The
address of an app that is required is not blank. -/
def startWake (unicode : Unicode) (system : TurnSystem) (wake : Wake) (runId : Uuid) :
    Option TurnSystem :=
  if (system.running.any fun other => other.wake.conversationId = wake.conversationId) ||
      wake.requiredAppUrl.any fun url => (Text.strip url).isEmpty then none
  else
    let used := (wake.sourceChannel, wake.idempotencyKey) :: system.used
    match loadExistingTurn system.db wake.sourceChannel wake.idempotencyKey with
    | some _ => some { system with used := used }
    | none =>
        match openRun unicode wake runId system.db with
        | .ok (db, target) =>
            some { system with db := db, running := system.running ++ [⟨wake, target⟩], used := used }
        | .error _ => some { system with used := used }

/-- The result of the runner, which accepts no other reaction. -/
def acceptedResult (inputs : WakeInputs) : Except TurnError AgentResult := do
  let result ← inputs.result
  if result.reaction.all (· ∈ reactionTypes) then .ok result
  else .error (.raised "Conversation output reaction was invalid")

/-- The wake is over and frees the lock; what it raised is rolled back. -/
def finishWake (system : TurnSystem) (conversationId : Uuid) (inputs : WakeInputs) :
    Option TurnSystem :=
  match system.running.find? fun other => other.wake.conversationId = conversationId with
  | none => none
  | some ended =>
      let freed := { system with
        running := system.running.filter fun other => other.wake.conversationId ≠ conversationId }
      match acceptedResult inputs with
      | .error _ => some freed
      | .ok result =>
          match persistTurn ended.wake inputs ended.reactionTarget result system.db with
          | .error _ => some freed
          | .ok (db, turn) =>
              some { freed with
                db := db
                turns := system.turns ++ [⟨ended.wake, ended.reactionTarget, result,
                  turnMessages ended.wake inputs ended.reactionTarget result, turn⟩] }

def turnStep (unicode : Unicode) (system : TurnSystem) : TurnEvent → Option TurnSystem
  | .wake wake runId => startWake unicode system wake runId
  | .finish conversationId inputs => finishWake system conversationId inputs
  | .store message =>
      match system.db.insertMessage message with
      | .ok db => some { system with db := db }
      | .error _ => none

/-! ## Keys that stay apart -/

/-- What one step has to keep: no wake runs under the key of another, no key finds a row
of another wake's turn or of another part of the service, a key with later rows finds
them, and the clock does not go back while a turn is stored. -/
def KeysApart (system : TurnSystem) : TurnEvent → Prop
  | .wake wake _ =>
      (∀ other ∈ system.running, other.wake.sourceChannel = wake.sourceChannel →
        other.wake.idempotencyKey ≠ wake.idempotencyKey) ∧
      ∀ stored ∈ system.turns, stored.wake.sourceChannel = wake.sourceChannel →
        wake.idempotencyKey ≠ stored.wake.idempotencyKey →
          finds wake.idempotencyKey stored.wake.idempotencyKey
            (turnParts stored.wake stored.reactionTarget stored.result) = false
  | .finish conversationId inputs =>
      ∀ ended ∈ system.running, ended.wake.conversationId = conversationId →
        ∀ result ∈ (acceptedResult inputs).toOption,
          let parts := turnParts ended.wake ended.reactionTarget result
          ClockForward inputs (cleanMessages ended.wake.requiredAppUrl result) ∧
          (parts ≠ [] →
            findsLater ended.wake.idempotencyKey ended.wake.idempotencyKey = true) ∧
          ∀ key ∈ system.used, key.1 = ended.wake.sourceChannel →
            key.2 ≠ ended.wake.idempotencyKey →
              finds key.2 ended.wake.idempotencyKey parts = false
  | .store message =>
      (∀ other ∈ system.running, message.sourceChannel = other.wake.sourceChannel →
        Message.hasTurnKey other.wake.idempotencyKey message = false) ∧
      ∀ stored ∈ system.turns, message.sourceChannel = stored.wake.sourceChannel →
        Message.hasTurnKey stored.wake.idempotencyKey message = false

instance (system : TurnSystem) (event : TurnEvent) : Decidable (KeysApart system event) :=
  match event with
  | .wake _ _ => inferInstanceAs (Decidable (_ ∧ _))
  | .finish _ _ => inferInstanceAs (Decidable (∀ ended ∈ system.running, _))
  | .store _ => inferInstanceAs (Decidable (_ ∧ _))

/-- The rows that a wake's look-up selects. -/
def foundRows (db : ChatDb) (wake : Wake) : List Message :=
  db.messages.filter fun message =>
    message.sourceChannel = wake.sourceChannel ∧ Message.hasTurnKey wake.idempotencyKey message

theorem existingTurnMessages_eq (db : ChatDb) (wake : Wake) :
    existingTurnMessages db wake.sourceChannel wake.idempotencyKey =
      Table.orderBy Message.beforeInTurn (foundRows db wake) :=
  rfl

/-- What holds between the steps of wakes whose keys stay apart. -/
structure Replayable (system : TurnSystem) : Prop where
  /-- Nothing is stored under the key of a wake that waits for the model. -/
  waiting : ∀ other ∈ system.running, foundRows system.db other.wake = []
  apart : system.running.Pairwise fun first second =>
    first.wake.sourceChannel = second.wake.sourceChannel →
      first.wake.idempotencyKey ≠ second.wake.idempotencyKey
  runningUsed : ∀ other ∈ system.running,
    (other.wake.sourceChannel, other.wake.idempotencyKey) ∈ system.used
  runningSound : ∀ other ∈ system.running,
    other.wake.requiredAppUrl ≠ some [] ∧ other.reactionTarget ≠ some ""
  turnsUsed : ∀ stored ∈ system.turns,
    (stored.wake.sourceChannel, stored.wake.idempotencyKey) ∈ system.used
  /-- A turn's key finds its rows and no others. -/
  found : ∀ stored ∈ system.turns, stored.messages ≠ [] →
    foundRows system.db stored.wake = stored.messages
  /-- Another key finds none of them. -/
  notFound : ∀ stored ∈ system.turns, ∀ key ∈ system.used, key.1 = stored.wake.sourceChannel →
    key.2 ≠ stored.wake.idempotencyKey → ∀ message ∈ stored.messages,
      Message.hasTurnKey key.2 message = false
  sorted : ∀ stored ∈ system.turns,
    stored.messages.Pairwise fun a b => Message.beforeInTurn a b = true
  rebuilt : ∀ stored ∈ system.turns, rebuildTurn stored.messages = stored.turn
  rows : ∀ stored ∈ system.turns, ∃ inputs : WakeInputs,
    stored.messages = turnMessages stored.wake inputs stored.reactionTarget stored.result

/-! ## One step -/

/-- Rows that a wake's look-up does not select. -/
theorem foundRows_of_append {after : ChatDb} {more : List Message}
    (messages_eq : after.messages = db.messages ++ more)
    (unmatched : ∀ message ∈ more, message.sourceChannel = wake.sourceChannel →
      Message.hasTurnKey wake.idempotencyKey message = false) :
    foundRows after wake = foundRows db wake := by
  have noMore : more.filter (fun message => decide (message.sourceChannel = wake.sourceChannel ∧
      Message.hasTurnKey wake.idempotencyKey message)) = [] := by
    rw [List.filter_eq_nil_iff]
    intro message messageMem
    simp only [decide_eq_true_eq, not_and, Bool.not_eq_true]
    exact unmatched message messageMem
  rw [foundRows, messages_eq, List.filter_append, noMore, List.append_nil]
  rfl

theorem foundRows_congr {after : ChatDb} (same : after.messages = db.messages) (wake : Wake) :
    foundRows after wake = foundRows db wake := by
  rw [foundRows, same]
  rfl

theorem loadExistingTurn_eq_none
    (none_eq : loadExistingTurn db wake.sourceChannel wake.idempotencyKey = none) :
    foundRows db wake = [] := by
  rw [loadExistingTurn_eq, existingTurnMessages_eq] at none_eq
  split at none_eq
  · rename_i isEmpty
    rw [List.eq_nil_iff_forall_not_mem]
    intro message messageMem
    rw [List.isEmpty_iff, List.eq_nil_iff_forall_not_mem] at isEmpty
    exact isEmpty message (Table.mem_orderBy.mpr messageMem)
  · cases none_eq

theorem openRun_eq_ok {runId : Uuid} {after : ChatDb}
    {target : Option String} (opened : openRun unicode wake runId db = .ok (after, target)) :
    after.messages = db.messages ∧ target ≠ some "" := by
  unfold openRun at opened
  split at opened
  · cases opened
    refine ⟨rfl, ?_⟩
    unfold directImessageReactionTarget
    split
    · split
      · intro blank
        have isSelected := Option.filter_eq_some_iff.mp blank
        simp at isSelected
      · simp
    · simp
  · cases opened

theorem Replayable.start {unicode : Unicode} {system after : TurnSystem} {wake : Wake}
    {runId : Uuid} (replayable : Replayable system)
    (apart : KeysApart system (.wake wake runId))
    (started : startWake unicode system wake runId = some after) : Replayable after := by
  obtain ⟨runningApart, turnsApart⟩ := apart
  unfold startWake at started
  split at started
  · cases started
  rename_i mayStart
  simp only [Bool.or_eq_true, not_or, Bool.not_eq_true] at mayStart
  -- A key that is used anew finds no row of the turns that are stored.
  have notFound : ∀ stored ∈ system.turns,
      ∀ key ∈ (wake.sourceChannel, wake.idempotencyKey) :: system.used,
        key.1 = stored.wake.sourceChannel → key.2 ≠ stored.wake.idempotencyKey →
          ∀ message ∈ stored.messages, Message.hasTurnKey key.2 message = false := by
    intro stored storedMem key keyMem sameChannel differs message messageMem
    rcases List.mem_cons.mp keyMem with rfl | earlier
    · obtain ⟨inputs, rows_eq⟩ := replayable.rows stored storedMem
      rw [rows_eq] at messageMem
      exact not_hasTurnKey differs (turnsApart stored storedMem sameChannel.symm differs) messageMem
    · exact replayable.notFound stored storedMem key earlier sameChannel differs message messageMem
  have unchanged : Replayable
      { system with used := (wake.sourceChannel, wake.idempotencyKey) :: system.used } :=
    { replayable with
      runningUsed := fun other otherMem =>
        List.mem_cons_of_mem _ (replayable.runningUsed other otherMem)
      turnsUsed := fun stored storedMem =>
        List.mem_cons_of_mem _ (replayable.turnsUsed stored storedMem)
      notFound := notFound }
  split at started
  · cases started
    exact unchanged
  · rename_i fresh
    split at started
    · rename_i db target opened
      cases started
      obtain ⟨messages_eq, hasTarget⟩ := openRun_eq_ok opened
      have hasUrl : wake.requiredAppUrl ≠ some [] := by
        intro blank
        rw [blank] at mayStart
        exact absurd mayStart.2 (by decide)
      exact { unchanged with
        waiting := by
          intro other otherMem
          rw [foundRows_congr messages_eq]
          rcases List.mem_append.mp otherMem with earlier | new
          · exact replayable.waiting other earlier
          · rw [List.mem_singleton.mp new]
            exact loadExistingTurn_eq_none fresh
        apart := by
          rw [List.pairwise_append]
          refine ⟨replayable.apart, List.pairwise_singleton _ _, ?_⟩
          intro other otherMem new newMem
          rw [List.mem_singleton.mp newMem]
          exact runningApart other otherMem
        runningUsed := by
          intro other otherMem
          rcases List.mem_append.mp otherMem with earlier | new
          · exact List.mem_cons_of_mem _ (replayable.runningUsed other earlier)
          · rw [List.mem_singleton.mp new]
            exact List.mem_cons_self
        runningSound := by
          intro other otherMem
          rcases List.mem_append.mp otherMem with earlier | new
          · exact replayable.runningSound other earlier
          · rw [List.mem_singleton.mp new]
            exact ⟨hasUrl, hasTarget⟩
        found := by
          intro stored storedMem hasRows
          rw [foundRows_congr messages_eq]
          exact replayable.found stored storedMem hasRows }
    · cases started
      exact unchanged

theorem Replayable.store {message : Message} (replayable : Replayable system)
    (apart : KeysApart system (.store message))
    (inserted : system.db.insertMessage message = .ok db) :
    Replayable { system with db := db } := by
  obtain ⟨runningApart, turnsApart⟩ := apart
  obtain ⟨messages_eq, -⟩ := ChatDb.insertMessage_eq_ok inserted
  exact { replayable with
    waiting := by
      intro other otherMem
      rw [foundRows_of_append messages_eq]
      · exact replayable.waiting other otherMem
      · intro row rowMem
        rw [List.mem_singleton.mp rowMem]
        exact runningApart other otherMem
    found := by
      intro stored storedMem hasRows
      rw [foundRows_of_append messages_eq]
      · exact replayable.found stored storedMem hasRows
      · intro row rowMem
        rw [List.mem_singleton.mp rowMem]
        exact turnsApart stored storedMem }

/-- The wake that ends leaves the list of the running ones. -/
theorem Replayable.free (replayable : Replayable system)
    (conversationId : Uuid) :
    Replayable { system with
      running := system.running.filter fun other => other.wake.conversationId ≠ conversationId } :=
  { replayable with
    waiting := fun other otherMem => replayable.waiting other (List.mem_filter.mp otherMem).1
    apart := replayable.apart.filter _
    runningUsed := fun other otherMem =>
      replayable.runningUsed other (List.mem_filter.mp otherMem).1
    runningSound := fun other otherMem =>
      replayable.runningSound other (List.mem_filter.mp otherMem).1 }

theorem acceptedResult_eq_ok {result : AgentResult}
    (accepted : acceptedResult inputs = .ok result) :
    ∀ kind, result.reaction = some kind → kind ∈ reactionTypes := by
  obtain ⟨returned, -, checked⟩ := bind_eq_ok.mp accepted
  split at checked
  · rename_i known
    cases checked
    intro kind kind_eq
    rw [kind_eq] at known
    simpa using known
  · cases checked

/-- Two running wakes of one key are the same. -/
theorem Replayable.eq_of_key (replayable : Replayable system)
    {first second : RunningWake} (firstMem : first ∈ system.running)
    (secondMem : second ∈ system.running)
    (sameChannel : first.wake.sourceChannel = second.wake.sourceChannel)
    (sameKey : first.wake.idempotencyKey = second.wake.idempotencyKey) : first = second := by
  have same : ∀ a ∈ system.running, ∀ b ∈ system.running,
      a.wake.sourceChannel = b.wake.sourceChannel →
        a.wake.idempotencyKey = b.wake.idempotencyKey → a = b := by
    apply List.Pairwise.forall_of_forall_of_flip
    · intro other _ _ _
      rfl
    · apply replayable.apart.imp
      intro a b apart channels keys
      exact absurd keys (apart channels)
    · apply replayable.apart.imp
      intro a b apart channels keys
      exact absurd keys.symm (apart channels.symm)
  exact same first firstMem second secondMem sameChannel sameKey

theorem Replayable.finish {after : TurnSystem} {conversationId : Uuid}
    (replayable : Replayable system)
    (apart : KeysApart system (.finish conversationId inputs))
    (finished : finishWake system conversationId inputs = some after) : Replayable after := by
  unfold finishWake at finished
  split at finished
  · cases finished
  rename_i ended selected
  have endedMem : ended ∈ system.running := List.mem_of_find?_eq_some selected
  have endedHere : ended.wake.conversationId = conversationId := by
    simpa using List.find?_some selected
  simp only at finished
  split at finished
  · cases finished
    exact replayable.free conversationId
  rename_i result accepted
  split at finished
  · cases finished
    exact replayable.free conversationId
  rename_i db turn persisted
  cases finished
  obtain ⟨forward, own, others⟩ := apart ended endedMem endedHere result (by rw [accepted]; rfl)
  obtain ⟨hasUrl, hasTarget⟩ := replayable.runningSound ended endedMem
  obtain ⟨messages_eq, -⟩ := persistTurn_eq_ok persisted
  have notFoundBy : ∀ key ∈ system.used, key.1 = ended.wake.sourceChannel →
      key.2 ≠ ended.wake.idempotencyKey →
        ∀ message ∈ turnMessages ended.wake inputs ended.reactionTarget result,
          Message.hasTurnKey key.2 message = false := by
    intro key keyMem sameChannel differs message messageMem
    exact not_hasTurnKey differs (others key keyMem sameChannel differs) messageMem
  -- The rows of the turn are new to every other wake.
  have unmatched : ∀ wake : Wake, (wake.sourceChannel, wake.idempotencyKey) ∈ system.used →
      (wake.sourceChannel = ended.wake.sourceChannel →
        wake.idempotencyKey ≠ ended.wake.idempotencyKey) →
      ∀ message ∈ turnMessages ended.wake inputs ended.reactionTarget result,
        message.sourceChannel = wake.sourceChannel →
          Message.hasTurnKey wake.idempotencyKey message = false := by
    intro wake isUsed differs message messageMem sameChannel
    have channel_eq : wake.sourceChannel = ended.wake.sourceChannel :=
      sameChannel.symm.trans (channel_of_mem_turnMessages messageMem)
    exact notFoundBy _ isUsed channel_eq (differs channel_eq) message messageMem
  have ownFound : foundRows db ended.wake =
      turnMessages ended.wake inputs ended.reactionTarget result := by
    have earlier : system.db.messages.filter (fun message =>
        decide (message.sourceChannel = ended.wake.sourceChannel ∧
          Message.hasTurnKey ended.wake.idempotencyKey message)) = [] :=
      replayable.waiting ended endedMem
    rw [foundRows, messages_eq, List.filter_append, earlier, List.nil_append, List.filter_eq_self]
    intro message messageMem
    exact decide_eq_true
      ⟨channel_of_mem_turnMessages messageMem, hasTurnKey_own own messageMem⟩
  exact { replayable.free conversationId with
    waiting := by
      intro other otherMem
      obtain ⟨wasRunning, elsewhere⟩ := List.mem_filter.mp otherMem
      rw [foundRows_of_append messages_eq]
      · exact replayable.waiting other wasRunning
      · apply unmatched other.wake (replayable.runningUsed other wasRunning)
        intro sameChannel sameKey
        rw [replayable.eq_of_key wasRunning endedMem sameChannel sameKey, endedHere] at elsewhere
        simp at elsewhere
    turnsUsed := by
      intro stored storedMem
      rcases List.mem_append.mp storedMem with earlier | new
      · exact replayable.turnsUsed stored earlier
      · rw [List.mem_singleton.mp new]
        exact replayable.runningUsed ended endedMem
    found := by
      intro stored storedMem hasRows
      rcases List.mem_append.mp storedMem with earlier | new
      · rw [foundRows_of_append messages_eq]
        · exact replayable.found stored earlier hasRows
        · apply unmatched stored.wake (replayable.turnsUsed stored earlier)
          intro sameChannel sameKey
          -- A wake with a stored turn does not run again.
          have none := replayable.waiting ended endedMem
          rw [foundRows, ← sameChannel, ← sameKey] at none
          exact hasRows ((replayable.found stored earlier hasRows).symm.trans none)
      · rw [List.mem_singleton.mp new]
        exact ownFound
    notFound := by
      intro stored storedMem
      rcases List.mem_append.mp storedMem with earlier | new
      · exact replayable.notFound stored earlier
      · rw [List.mem_singleton.mp new]
        exact notFoundBy
    sorted := by
      intro stored storedMem
      rcases List.mem_append.mp storedMem with earlier | new
      · exact replayable.sorted stored earlier
      · rw [List.mem_singleton.mp new]
        exact turnMessages_sorted forward
    rebuilt := by
      intro stored storedMem
      rcases List.mem_append.mp storedMem with earlier | new
      · exact replayable.rebuilt stored earlier
      · rw [List.mem_singleton.mp new]
        exact rebuildTurn_turnMessages hasUrl hasTarget (acceptedResult_eq_ok accepted) persisted
    rows := by
      intro stored storedMem
      rcases List.mem_append.mp storedMem with earlier | new
      · exact replayable.rows stored earlier
      · rw [List.mem_singleton.mp new]
        exact ⟨inputs, rfl⟩ }

theorem Replayable.step {after : TurnSystem} {event : TurnEvent}
    (replayable : Replayable system) (apart : KeysApart system event)
    (stepped : turnStep unicode system event = some after) : Replayable after := by
  cases event with
  | wake wake runId => exact replayable.start apart stepped
  | finish conversationId inputs => exact replayable.finish apart stepped
  | store message =>
      rw [turnStep] at stepped
      split at stepped
      · rename_i db inserted
        cases stepped
        exact replayable.store apart inserted
      · cases stepped

/-! ## Whole runs -/

/-- Before the first wake. -/
def idleTurns (db : ChatDb) : TurnSystem where
  db := db
  running := []
  used := []
  turns := []

theorem replayable_idle (db : ChatDb) : Replayable (idleTurns db) where
  waiting := by simp [idleTurns]
  apart := List.Pairwise.nil
  runningUsed := by simp [idleTurns]
  runningSound := by simp [idleTurns]
  turnsUsed := by simp [idleTurns]
  found := by simp [idleTurns]
  notFound := by simp [idleTurns]
  sorted := by simp [idleTurns]
  rebuilt := by simp [idleTurns]
  rows := by simp [idleTurns]

/-- Every turn with rows is returned to each later call of its key, which changes nothing
whatever the model would have said, and no other key that was used loads one of them. -/
structure ReplaysTurns (unicode : Unicode) (system : TurnSystem) : Prop where
  replayed : ∀ stored ∈ system.turns, stored.messages ≠ [] → ∀ wake : Wake,
    wake.sourceChannel = stored.wake.sourceChannel →
      wake.idempotencyKey = stored.wake.idempotencyKey → ∀ inputs : WakeInputs,
        runAgentWake unicode wake inputs system.db = .ok (system.db, stored.turn)
  unmixed : ∀ stored ∈ system.turns, ∀ key : String,
    (stored.wake.sourceChannel, key) ∈ system.used → key ≠ stored.wake.idempotencyKey →
      ∀ message ∈ existingTurnMessages system.db stored.wake.sourceChannel key,
        message ∉ stored.messages

theorem Replayable.replays (replayable : Replayable system)
    (unicode : Unicode) : ReplaysTurns unicode system where
  replayed := by
    intro stored storedMem hasRows wake sameChannel sameKey inputs
    apply runAgentWake_of_existing
    have rows_eq : existingTurnMessages system.db stored.wake.sourceChannel
        stored.wake.idempotencyKey = stored.messages := by
      rw [existingTurnMessages_eq, replayable.found stored storedMem hasRows]
      exact (replayable.sorted stored storedMem).insertionSort_eq
    rw [sameChannel, sameKey, loadExistingTurn_eq, rows_eq, if_neg (by simpa using hasRows),
      replayable.rebuilt stored storedMem]
  unmixed := by
    intro stored storedMem key isUsed differs message messageMem isStored
    rw [existingTurnMessages, Table.mem_orderBy, List.mem_filter, decide_eq_true_eq] at messageMem
    have notMatched := replayable.notFound stored storedMem _ isUsed rfl differs message isStored
    rw [messageMem.2.2] at notMatched
    cases notMatched

/-- While the keys of a channel stay apart, turns are replayed and never mixed. -/
theorem turns_are_replayed {unicode : Unicode} {db : ChatDb} {system : TurnSystem}
    (run : Run (turnStep unicode) KeysApart (idleTurns db) system) : ReplaysTurns unicode system :=
  (run.invariant Replayable
    (fun _ _ _ replayable apart stepped => replayable.step apart stepped)
    (replayable_idle db)).replays unicode

/-! ## Two conversations -/

theorem messagesValid_nil : MessagesValid [] := by decide

/-- Two direct conversations of one user. -/
def replayDb : ChatDb where
  users := [{ id := 1, displayName := none, onboarded := true }]
  conversations := [2, 3].map fun id => {
    id := id, userId := 1, kind := .direct, title := none, responseMode := .auto,
    groupOwnerSource := none, isActive := true }
  members := []
  channels := []
  agentRuns := []
  messages := []
  messages_valid := messagesValid_nil

def replayWake (conversationId : Uuid) (key : String) : Wake where
  conversationId := conversationId
  userId := 1
  triggerMessageId := none
  purpose := .conversation
  wakeType := "user_message"
  sourceChannel := "linq"
  sourceBindingId := none
  idempotencyKey := key
  requiredAppUrl := none

def replayInputs (firstId : Uuid) (texts : List String) : WakeInputs where
  runId := firstId
  result := .ok { messages := texts.map String.toList, responseId := "r", toolCalls := [],
                  reaction := none }
  responseGroupId := firstId
  messageId i := firstId + i
  clock _ := 0

/-- One wake in each conversation, the second with a text of two bubbles. -/
def replayEvents (firstKey secondKey : String) : List TurnEvent :=
  [.wake (replayWake 2 firstKey) 10, .finish 2 (replayInputs 10 ["hi"]),
    .wake (replayWake 3 secondKey) 20, .finish 3 (replayInputs 20 ["one", "two"])]

/-- A key of the channel loads a row of another key's turn. -/
def mixes (system : TurnSystem) : Bool :=
  system.turns.any fun stored => system.used.any fun key =>
    key.1 = stored.wake.sourceChannel && key.2 ≠ stored.wake.idempotencyKey &&
      (existingTurnMessages system.db stored.wake.sourceChannel key.2).any
        fun message => message ∈ stored.messages

theorem not_replaysTurns_of_mixes (mixed : mixes system = true) :
    ¬ ReplaysTurns unicode system := by
  intro replays
  simp only [mixes, List.any_eq_true, Bool.and_eq_true, decide_eq_true_eq] at mixed
  obtain ⟨stored, storedMem, ⟨channel, key⟩, isUsed, ⟨sameChannel, differs⟩, message, loaded,
    isStored⟩ := mixed
  simp only at sameChannel
  subst sameChannel
  exact replays.unmixed stored storedMem key isUsed differs message loaded isStored

/-- Two event ids without a wildcard. -/
theorem turns_are_replayed_plain_keys :
    ∃ system, system.turns.length = 2 ∧ ReplaysTurns Unicode.ascii system := by
  have executed : (execute (turnStep Unicode.ascii)
      (fun system event => decide (KeysApart system event)) (idleTurns replayDb)
      (replayEvents "benji:evt-1:agent" "benji:evt-2:agent")).any
        (fun system => system.turns.length = 2) = true := by
    decide +kernel
  rw [Option.any_eq_true] at executed
  obtain ⟨system, reached, twoTurns⟩ := executed
  have run := (run_of_execute reached).mono fun _ _ => of_decide_eq_true
  exact ⟨system, by simpa using twoTurns, turns_are_replayed run⟩

/-- The underscore of the first event id stands for a character of the second. -/
theorem wildcard_key_mixes_turns :
    ∃ system, Run (turnStep Unicode.ascii) (fun _ _ => True) (idleTurns replayDb) system ∧
      ¬ ReplaysTurns Unicode.ascii system := by
  have executed : (execute (turnStep Unicode.ascii) (fun _ _ => true) (idleTurns replayDb)
      (replayEvents "benji:evt_1:agent" "benji:evtA1:agent")).any mixes = true := by
    decide +kernel
  rw [Option.any_eq_true] at executed
  obtain ⟨system, reached, mixed⟩ := executed
  exact ⟨system, (run_of_execute reached).mono fun _ _ _ => True.intro,
    not_replaysTurns_of_mixes mixed⟩

end DotBackend.Agents
