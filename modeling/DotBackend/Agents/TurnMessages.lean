import DotBackend.Agents.TrustedLinks
import DotBackend.Data.LikePatterns

/-!
# The messages of a turn

What a turn stores, and what it is rebuilt from: the reaction and the bubbles carry keys
made of the key of the wake, and the rows that a key finds are put in order and read
back.
-/

namespace DotBackend.Agents

open Data Channel

variable {wake : Wake} {inputs : WakeInputs} {bubble : List Char} {ordinal : Nat}

/-! ## What is stored -/

/-- The reaction that a turn records: the one the model chose, when there is a message to
react to. -/
def selectedReaction (reactionTarget : Option String) (result : AgentResult) :
    Option (String × String) :=
  reactionTarget.bind fun target => result.reaction.map fun kind => (target, kind)

/-- The rows of the bubbles of a turn. -/
def turnBubbles (wake : Wake) (inputs : WakeInputs) (result : AgentResult) : List Message :=
  bubbleMessages wake inputs
    (turnPayload inputs result.responseId ++ [("wake_type", .str wake.wakeType)]) 0
    (cleanMessages wake.requiredAppUrl result)

/-- The rows of a turn, in the order in which they are stored. -/
def turnMessages (wake : Wake) (inputs : WakeInputs) (reactionTarget : Option String)
    (result : AgentResult) : List Message :=
  ((selectedReaction reactionTarget result).toList.map fun (target, kind) =>
      reactionMessage wake inputs result.responseId target kind) ++ turnBubbles wake inputs result

/-- The turn that a list of rows is read as. -/
def rebuildTurn (messages : List Message) : PersistedTurn where
  replies := (messages.filter (·.content ≠ "")).map Message.asReply
  onboardingCompleted := false
  reaction := messages.findSome? Message.reaction?

theorem loadExistingTurn_eq (db : ChatDb) (sourceChannel key : String) :
    loadExistingTurn db sourceChannel key =
      if (existingTurnMessages db sourceChannel key).isEmpty then none
      else some (rebuildTurn (existingTurnMessages db sourceChannel key)) :=
  rfl

/-- A turn that is persisted stores its rows, or has none. -/
theorem persistTurn_eq_ok {target : Option String}
    {result : AgentResult} {db after : ChatDb} {turn : PersistedTurn}
    (stored : persistTurn wake inputs target result db = .ok (after, turn)) :
    after.messages = db.messages ++ turnMessages wake inputs target result ∧
      after.agentRuns = db.agentRuns ∧
      turn.onboardingCompleted = false ∧
      turn.replies = (turnBubbles wake inputs result).map Message.asReply ∧
      turn.reaction = (selectedReaction target result).map fun (target, kind) =>
        ⟨inputs.messageId 0, target, kind⟩ := by
  unfold persistTurn at stored
  simp only at stored
  split at stored
  · rename_i nothing
    have noReaction : selectedReaction target result = none := nothing.2
    split at stored
    · cases stored
      simp [turnMessages, turnBubbles, noReaction, nothing.1, bubbleMessages]
    · cases stored
  · obtain ⟨middle, inserted, returned⟩ := bind_eq_ok.mp stored
    obtain ⟨messages_eq, runs_eq⟩ := ChatDb.insertMessages_eq_ok inserted
    cases returned
    exact ⟨messages_eq, runs_eq, rfl, rfl, rfl⟩

/-! ## Bubbles have a text -/

theorem substituteFrom_ne_nil {pattern : Text.Pattern} (replaces : ∀ before text length replacement,
    pattern before text = some (length, replacement) → replacement ≠ [])
    (before : Option Char) {text : List Char} (hasText : text ≠ []) :
    Text.substituteFrom pattern 0 before text ≠ [] := by
  cases text with
  | nil => exact absurd rfl hasText
  | cons c rest =>
      rw [Text.substituteFrom]
      split
      · rename_i length replacement found
        simp [replaces _ _ _ _ found]
      · simp

theorem httpUrl_replaces {url : List Char} (hasUrl : url ≠ []) (before : Option Char)
    (text : List Char) (length : Nat) (replacement : List Char)
    (found : httpUrl url before text = some (length, replacement)) : replacement ≠ [] := by
  unfold httpUrl at found
  split at found
  · cases found
  · simp only at found
    split at found
    · cases found
    · cases found
      exact hasUrl

theorem prepareTextBubbles_ne_nil {messages : List (List Char)}
    (bubbleMem : bubble ∈ prepareTextBubbles messages) : bubble ≠ [] := by
  have clean : bubble ∈ cleanParagraphs messages := List.mem_of_mem_take bubbleMem
  simpa using (List.mem_filter.mp clean).2

theorem prepareAppCompletionBubbles_ne_nil {messages : List (List Char)} {url : List Char}
    (hasUrl : url ≠ []) (bubbleMem : bubble ∈ prepareAppCompletionBubbles messages url) :
    bubble ≠ [] := by
  have substituted : ∀ text ∈ (prepareTextBubbles messages).map (Text.substitute (httpUrl url)),
      text ≠ [] := by
    intro text textMem
    obtain ⟨source, sourceMem, rfl⟩ := List.mem_map.mp textMem
    exact substituteFrom_ne_nil (httpUrl_replaces hasUrl) none
      (prepareTextBubbles_ne_nil sourceMem)
  unfold prepareAppCompletionBubbles at bubbleMem
  simp only at bubbleMem
  split at bubbleMem
  · exact substituted bubble bubbleMem
  · rcases List.mem_append.mp bubbleMem with earlier | last
    · exact substituted bubble (List.mem_of_mem_take earlier)
    · rw [List.mem_singleton.mp last]
      exact hasUrl

/-- No bubble of a turn is empty, when the required address is not. -/
theorem cleanMessages_ne_nil {requiredAppUrl : Option (List Char)} {result : AgentResult}
    (hasUrl : requiredAppUrl ≠ some []) (bubbleMem : bubble ∈ cleanMessages requiredAppUrl result) :
    bubble ≠ [] := by
  cases requiredAppUrl with
  | none =>
      rw [cleanMessages_none] at bubbleMem
      exact prepareTextBubbles_ne_nil bubbleMem
  | some url =>
      apply prepareAppCompletionBubbles_ne_nil _ bubbleMem
      rintro rfl
      exact hasUrl rfl

/-! ## What a turn is read back as -/

theorem content_of_mem_bubbleMessages {payload : List (String × Json)} {bubbles : List (List Char)}
    {message : Message} (messageMem : message ∈ bubbleMessages wake inputs payload ordinal bubbles)
    (hasText : ∀ bubble ∈ bubbles, bubble ≠ []) : message.content ≠ "" := by
  have contentMem := List.mem_map_of_mem (f := fun message => message.content.toList) messageMem
  rw [bubbleMessages_contents] at contentMem
  intro blank
  apply hasText _ contentMem
  simp [blank]

theorem reaction_of_mem_bubbleMessages {responseId : String} {bubbles : List (List Char)}
    {message : Message}
    (messageMem : message ∈ bubbleMessages wake inputs
      (turnPayload inputs responseId ++ [("wake_type", .str wake.wakeType)]) ordinal bubbles) :
    Message.reaction? message = none := by
  induction bubbles generalizing ordinal with
  | nil => exact absurd messageMem List.not_mem_nil
  | cons text rest ih =>
      rcases List.mem_cons.mp messageMem with rfl | later
      · simp [Message.reaction?, outboundMessage, turnPayload, Json.lookup]
      · exact ih later

/-- The reactions that the service accepts from the model. -/
def reactionTypes : List String :=
  ["like", "love", "laugh", "emphasize", "question"]

theorem reactionMessage_reaction {responseId target kind : String}
    (hasTarget : target ≠ "") (hasKind : kind ≠ "") :
    Message.reaction? (reactionMessage wake inputs responseId target kind) =
      some ⟨inputs.messageId 0, target, kind⟩ := by
  simp [Message.reaction?, reactionMessage, outboundMessage, turnPayload, Json.lookup, hasTarget,
    hasKind]

/-- The rows of a turn are read back as the turn. -/
theorem rebuildTurn_turnMessages {target : Option String}
    {result : AgentResult} {db after : ChatDb} {turn : PersistedTurn}
    (hasUrl : wake.requiredAppUrl ≠ some []) (hasTarget : target ≠ some "")
    (accepted : ∀ kind, result.reaction = some kind → kind ∈ reactionTypes)
    (stored : persistTurn wake inputs target result db = .ok (after, turn)) :
    rebuildTurn (turnMessages wake inputs target result) = turn := by
  obtain ⟨-, -, completed_eq, replies_eq, reaction_eq⟩ := persistTurn_eq_ok stored
  have bubblesKept : (turnBubbles wake inputs result).filter (·.content ≠ "") =
      turnBubbles wake inputs result := by
    rw [List.filter_eq_self]
    intro message messageMem
    exact decide_eq_true (content_of_mem_bubbleMessages messageMem fun bubble bubbleMem =>
      cleanMessages_ne_nil hasUrl bubbleMem)
  have bubblesSilent : (turnBubbles wake inputs result).findSome? Message.reaction? = none := by
    rw [List.findSome?_eq_none_iff]
    intro message messageMem
    exact reaction_of_mem_bubbleMessages messageMem
  obtain ⟨replies, completed, reaction⟩ := turn
  cases completed_eq
  cases replies_eq
  cases reaction_eq
  cases selected : selectedReaction target result with
  | none =>
      simp only [rebuildTurn, turnMessages, selected, Option.toList_none, List.map_nil,
        List.nil_append, bubblesKept, bubblesSilent]
  | some chosen =>
      obtain ⟨reactedTo, kind⟩ := chosen
      obtain ⟨found, target_eq, chosenKind⟩ := Option.bind_eq_some_iff.mp selected
      obtain ⟨_, kind_eq, pair_eq⟩ := Option.map_eq_some_iff.mp chosenKind
      cases pair_eq
      have nonemptyTarget : reactedTo ≠ "" := fun blank => hasTarget (by rw [target_eq, blank])
      have nonemptyKind : kind ≠ "" := by
        intro blank
        have isAccepted := accepted kind kind_eq
        rw [blank] at isAccepted
        exact absurd isAccepted (by decide)
      have blankContent : (reactionMessage wake inputs result.responseId reactedTo kind).content =
          "" := rfl
      simp only [rebuildTurn, turnMessages, selected, Option.toList_some, List.map_cons,
        List.map_nil, List.cons_append, List.nil_append, List.filter_cons, blankContent,
        bubblesKept, List.findSome?_cons, reactionMessage_reaction nonemptyTarget nonemptyKind]
      simp

/-! ## Order -/

/-- The clock did not go back while the rows of a turn were stored. -/
def ClockForward (inputs : WakeInputs) (bubbles : List (List Char)) : Prop :=
  ∀ ordinal < bubbles.length, inputs.clock ordinal ≤ inputs.clock (ordinal + 1)

instance (inputs : WakeInputs) (bubbles : List (List Char)) :
    Decidable (ClockForward inputs bubbles) :=
  inferInstanceAs (Decidable (∀ ordinal < bubbles.length, _))

/-- The bubbles that are left from an ordinal on come after what was stored before. -/
theorem bubbleMessages_sorted {payload : List (String × Json)} {bubbles : List (List Char)}
    (forward : ∀ i, ordinal ≤ i → i < ordinal + bubbles.length →
      inputs.clock i ≤ inputs.clock (i + 1)) :
    (bubbleMessages wake inputs payload ordinal bubbles).Pairwise
        (fun a b => Message.beforeInTurn a b = true) ∧
      ∀ message ∈ bubbleMessages wake inputs payload ordinal bubbles,
        inputs.clock ordinal ≤ message.createdAt ∧
          ∃ i : Int, (ordinal : Int) ≤ i ∧ message.responseOrdinal = some i := by
  induction bubbles generalizing ordinal with
  | nil => exact ⟨List.Pairwise.nil, by simp [bubbleMessages]⟩
  | cons text rest ih =>
      have first : inputs.clock ordinal ≤ inputs.clock (ordinal + 1) :=
        forward ordinal le_rfl (by simp)
      have restForward : ∀ i, ordinal + 1 ≤ i → i < ordinal + 1 + rest.length →
          inputs.clock i ≤ inputs.clock (i + 1) := by
        intro i notBefore inRange
        apply forward i (by omega)
        rw [List.length_cons]
        omega
      obtain ⟨restSorted, restLater⟩ := ih restForward
      constructor
      · rw [bubbleMessages, List.pairwise_cons]
        refine ⟨?_, restSorted⟩
        intro message messageMem
        obtain ⟨later, i, notBefore, ordinal_eq⟩ := restLater message messageMem
        rcases lt_or_eq_of_le later with after | same
        · simp [Message.beforeInTurn, outboundMessage, after]
        · have inOrder : (ordinal : Int) ≤ i := by omega
          simp [Message.beforeInTurn, outboundMessage, same, ordinal_eq, inOrder]
      · intro message messageMem
        rcases List.mem_cons.mp messageMem with rfl | later
        · exact ⟨first, ordinal, le_rfl, rfl⟩
        · obtain ⟨notEarlier, i, notBefore, ordinal_eq⟩ := restLater message later
          exact ⟨first.trans notEarlier, i, by omega, ordinal_eq⟩

theorem turnMessages_sorted {target : Option String}
    {result : AgentResult}
    (forward : ClockForward inputs (cleanMessages wake.requiredAppUrl result)) :
    (turnMessages wake inputs target result).Pairwise
      fun a b => Message.beforeInTurn a b = true := by
  have bubblesForward : ∀ i, 0 ≤ i →
      i < 0 + (cleanMessages wake.requiredAppUrl result).length →
        inputs.clock i ≤ inputs.clock (i + 1) := by
    intro i _ inRange
    exact forward i (by omega)
  obtain ⟨sorted, later⟩ : (turnBubbles wake inputs result).Pairwise
      (fun a b => Message.beforeInTurn a b = true) ∧
        ∀ message ∈ turnBubbles wake inputs result, inputs.clock 0 ≤ message.createdAt ∧
          ∃ i : Int, ((0 : Nat) : Int) ≤ i ∧ message.responseOrdinal = some i :=
    bubbleMessages_sorted bubblesForward
  unfold turnMessages
  cases selectedReaction target result with
  | none => exact sorted
  | some chosen =>
      rw [Option.toList_some, List.map_cons, List.map_nil, List.cons_append, List.nil_append,
        List.pairwise_cons]
      refine ⟨?_, sorted⟩
      intro message messageMem
      obtain ⟨notEarlier, i, notNegative, ordinal_eq⟩ := later message messageMem
      rcases lt_or_eq_of_le notEarlier with after | same
      · simp [Message.beforeInTurn, reactionMessage, outboundMessage, after]
      · have inOrder : (-1 : Int) ≤ i := by omega
        simp [Message.beforeInTurn, reactionMessage, outboundMessage, same, ordinal_eq, inOrder]

/-! ## Keys -/

/-- What stands behind the separator in the keys of the rows after the first bubble. -/
def laterParts (reacts : Bool) (bubbles : Nat) : List String :=
  (if reacts then ["reaction"] else []) ++
    (List.range (bubbles - 1)).map fun i => String.ofList (Nat.toDigits 10 (i + 1))

/-- The parts of the keys of a turn. -/
def turnParts (wake : Wake) (target : Option String) (result : AgentResult) : List String :=
  laterParts (selectedReaction target result).isSome
    (cleanMessages wake.requiredAppUrl result).length

theorem colon_notMem_laterParts {reacts : Bool} {bubbles : Nat} {part : String}
    (partMem : part ∈ laterParts reacts bubbles) : ':' ∉ part.toList := by
  rcases List.mem_append.mp partMem with reaction | ordinal
  · split at reaction
    · rw [List.mem_singleton.mp reaction]
      decide
    · exact absurd reaction List.not_mem_nil
  · obtain ⟨i, -, rfl⟩ := List.mem_map.mp ordinal
    intro colon
    rw [String.toList_ofList] at colon
    have isDigit := Nat.isDigit_of_mem_toDigits (by decide) (by decide) colon
    exact absurd isDigit (by decide)

theorem key_of_mem_bubbleMessages {payload : List (String × Json)} {bubbles : List (List Char)}
    {message : Message} (messageMem : message ∈ bubbleMessages wake inputs payload ordinal bubbles) :
    ∃ i, ordinal ≤ i ∧ i < ordinal + bubbles.length ∧
      message.idempotencyKey = some (bubbleKey wake.idempotencyKey i) := by
  induction bubbles generalizing ordinal with
  | nil => exact absurd messageMem List.not_mem_nil
  | cons text rest ih =>
      rcases List.mem_cons.mp messageMem with rfl | later
      · exact ⟨ordinal, le_rfl, by simp, rfl⟩
      · obtain ⟨i, notBefore, inRange, key_eq⟩ := ih later
        refine ⟨i, by omega, ?_, key_eq⟩
        rw [List.length_cons]
        omega

/-- The key of a row is the key of the wake, or has one of the parts behind it. -/
theorem key_of_mem_turnMessages {target : Option String}
    {result : AgentResult} {message : Message}
    (messageMem : message ∈ turnMessages wake inputs target result) :
    message.idempotencyKey = some wake.idempotencyKey ∨
      ∃ part ∈ turnParts wake target result,
        message.idempotencyKey = some (wake.idempotencyKey ++ ":" ++ part) := by
  rcases List.mem_append.mp messageMem with reaction | bubble
  · obtain ⟨⟨reactedTo, kind⟩, chosen, rfl⟩ := List.mem_map.mp reaction
    rw [Option.mem_toList] at chosen
    refine Or.inr ⟨"reaction", ?_, ?_⟩
    · simp [turnParts, laterParts, Option.mem_def.mp chosen]
    · simp [reactionMessage, outboundMessage, String.append_assoc]
  · obtain ⟨i, -, inRange, key_eq⟩ := key_of_mem_bubbleMessages bubble
    rw [bubbleKey] at key_eq
    split at key_eq
    · exact Or.inl key_eq
    · refine Or.inr ⟨_, ?_, key_eq⟩
      apply List.mem_append_right
      rw [List.mem_map]
      refine ⟨i - 1, ?_, ?_⟩
      · rw [List.mem_range]
        omega
      · rw [Nat.sub_add_cancel (by omega)]

theorem channel_of_mem_bubbleMessages {payload : List (String × Json)} {bubbles : List (List Char)}
    {message : Message} (messageMem : message ∈ bubbleMessages wake inputs payload ordinal bubbles) :
    message.sourceChannel = wake.sourceChannel := by
  induction bubbles generalizing ordinal with
  | nil => exact absurd messageMem List.not_mem_nil
  | cons text rest ih =>
      rcases List.mem_cons.mp messageMem with rfl | later
      · rfl
      · exact ih later

/-- The rows of a turn are rows of its channel. -/
theorem channel_of_mem_turnMessages {target : Option String}
    {result : AgentResult} {message : Message}
    (messageMem : message ∈ turnMessages wake inputs target result) :
    message.sourceChannel = wake.sourceChannel := by
  rcases List.mem_append.mp messageMem with reaction | bubble
  · obtain ⟨_, -, rfl⟩ := List.mem_map.mp reaction
    rfl
  · exact channel_of_mem_bubbleMessages bubble

end DotBackend.Agents
