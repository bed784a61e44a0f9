import DotBackend.Agents.AppTools
import DotBackend.Agents.Service
import DotBackend.Apps.Schema

/-!
# Rounds of tool calls

A run of the agent asks the model, executes the tools that the model asks for, and hands their
outputs to the model with the next request. The provider and the tools act on a world that
the runner does not know. The history of a run, which the runner does not read, tells for each
request what was handed on with it and which calls were executed after it.
-/

namespace DotBackend.Agents

open Data Apps

/-- What a run of the agent raises. -/
inductive RunnerError
  /-- `AgentRunError`. -/
  | agentRun (message : String)
  | value (message : String)
  /-- An exception of the provider or of the registry of tools. -/
  | outside (message : String)
  deriving DecidableEq

structure FollowUpProposal where
  goal : List Char
  dueAfterSeconds : Int
  deriving DecidableEq

inductive LanguageAction
  | keep | set
  deriving DecidableEq

inductive LanguagePreference
  | auto | english | arabicScript | egyptianFranco
  deriving DecidableEq

structure LanguagePreferenceProposal where
  action : LanguageAction
  mode : LanguagePreference
  deriving DecidableEq

structure ConversationOutput where
  messages : List (List Char)
  followUp : Option FollowUpProposal
  languagePreference : Option LanguagePreferenceProposal
  reaction : Option String
  deriving DecidableEq

/-! ## The parts -/

def languageAction? : Option Json → Option LanguageAction
  | some (.str "keep") => some .keep
  | some (.str "set") => some .set
  | _ => none

def languagePreference? : Option Json → Option LanguagePreference
  | some (.str "auto") => some .auto
  | some (.str "english") => some .english
  | some (.str "arabic_script") => some .arabicScript
  | some (.str "egyptian_franco") => some .egyptianFranco
  | _ => none

/-- `LanguagePreferenceProposal.model_validate`; other fields are forbidden. -/
def languagePreferenceProposal? : Json → Option LanguagePreferenceProposal
  | .obj fields =>
      if fields.all fun field => field.1 = "action" || field.1 = "mode" then do
        let action ← languageAction? (Json.lookup fields "action")
        let mode ← languagePreference? (Json.lookup fields "mode")
        pure ⟨action, mode⟩
      else none
  | _ => none

/-- `_parse_language_preference`. -/
def parseLanguagePreference :
    Option Json → Except RunnerError (Option LanguagePreferenceProposal)
  | none | some .null => .ok none
  | some value =>
      match languagePreferenceProposal? value with
      | none => .error (.value "Conversation output language preference was invalid")
      | some proposal => .ok (some proposal)

/-- `parse_reaction`. -/
def parseReaction : Option Json → Except RunnerError (Option String)
  | none | some .null => .ok none
  | some (.obj fields) =>
      match Json.lookup fields "type" with
      | some (.str "none") => .ok none
      | some (.str type) =>
          if type ∈ ["like", "love", "laugh", "emphasize", "question"] then .ok (some type)
          else .error (.value "Conversation output reaction was invalid")
      | _ => .error (.value "Conversation output reaction was invalid")
  | some _ => .error (.value "Conversation output reaction was invalid")

/-- The follow-up that the model wants to be scheduled. -/
def parseFollowUp : Option Json → Option FollowUpProposal
  | some (.obj fields) =>
      match Json.lookup fields "should_schedule", Json.lookup fields "goal",
        Json.lookup fields "due_after_seconds" with
      | some (.bool true), some (.str goal), some (.int seconds) =>
          let clean := Text.strip goal.toList
          if clean.isEmpty then none else some ⟨clean.take 500, seconds⟩
      | _, _, _ => none
  | _ => none

/-- The texts that are not blank. -/
def cleanTexts (raw : List Json) : List (List Char) :=
  raw.filterMap fun
    | .str text => if (Text.strip text.toList).isEmpty then none else some (Text.strip text.toList)
    | _ => none

/-- `parse_conversation_output`. -/
def parseConversationOutput (platform : Platform) (text : String) :
    Except RunnerError ConversationOutput :=
  match platform.loads text.toList with
  | none => do
      let clean := Text.strip text.toList
      require (!clean.isEmpty) (.value "Model returned an empty assistant turn")
      pure ⟨[clean], none, none, none⟩
  | some (.obj fields) =>
      match Json.lookup fields "messages" with
      | some (.arr raw) => do
          let languagePreference ← parseLanguagePreference
            (Json.lookup fields "language_preference")
          let reaction ← parseReaction (Json.lookup fields "reaction")
          pure ⟨cleanTexts raw, parseFollowUp (Json.lookup fields "follow_up"), languagePreference,
            reaction⟩
      | _ => .error (.value "Conversation output messages must be an array")
  | some _ => .error (.value "Conversation output must be an object")

/-! ## Outputs -/

/-- The four hexadecimal digits of a code unit. -/
def unicodeEscape (unit : Nat) : List Char :=
  '\\' :: 'u' :: (Json.hexPair (unit / 256) ++ Json.hexPair (unit % 256))

/-- One character inside a string literal with ASCII characters only. -/
def escapeAscii (c : Char) : List Char :=
  if c.toNat < 128 then Json.escapeChar c
  else if c.toNat < 65536 then unicodeEscape c.toNat
  else unicodeEscape (55296 + (c.toNat - 65536) / 1024) ++
    unicodeEscape (56320 + (c.toNat - 65536) % 1024)

def quoteAscii (text : String) : List Char :=
  '"' :: (text.toList.flatMap escapeAscii ++ ['"'])

/-- Join the texts of elements with a comma and a blank. -/
def joinSpaced : List (List Char) → List Char
  | [] => []
  | [text] => text
  | text :: rest => text ++ ',' :: ' ' :: joinSpaced rest

mutual

/-- `json.dumps(value)`. -/
def dumpsSpaced : Json → List Char
  | .null => "null".toList
  | .bool true => "true".toList
  | .bool false => "false".toList
  | .int i => Json.intText i
  | .float f => Json.floatText f
  | .str s => quoteAscii s
  | .arr items => '[' :: (joinSpaced (dumpsSpacedItems items) ++ [']'])
  | .obj fields => '{' :: (joinSpaced (dumpsSpacedMembers fields) ++ ['}'])

def dumpsSpacedItems : List Json → List (List Char)
  | [] => []
  | item :: rest => dumpsSpaced item :: dumpsSpacedItems rest

def dumpsSpacedMembers : Fields → List (List Char)
  | [] => []
  | (key, value) :: rest =>
      (quoteAscii key ++ ':' :: ' ' :: dumpsSpaced value) :: dumpsSpacedMembers rest

end

/-! ## Turns of the model -/

structure ModelToolCall where
  callId : String
  name : String
  arguments : Fields
  deriving DecidableEq

structure ModelToolOutput where
  callId : String
  output : String
  deriving DecidableEq

structure ModelTurn where
  responseId : String
  text : Option String
  toolCalls : List ModelToolCall
  tokenUsage : Option Fields
  deriving DecidableEq

/-- The session of the provider and the registry of tools. -/
structure Surroundings (ω : Type) where
  /-- `ModelSession.next`. -/
  next : ω → List ModelToolOutput → Except RunnerError ModelTurn × ω
  /-- `ToolRegistry.execute`, with the name, the context and the arguments. -/
  execute : ω → String → ToolContext → Fields → Except RunnerError (Fields × Bool) × ω

/-- The output of a call, as it is handed to the model. -/
def ExecutedToolCall.handed (call : ExecutedToolCall) : ModelToolOutput :=
  ⟨call.callId, String.ofList (dumpsSpaced (.obj call.output))⟩

/-- `AgentResult`. -/
structure RunResult extends AgentResult where
  followUp : Option FollowUpProposal
  languagePreference : Option LanguagePreferenceProposal
  rawOutput : Fields
  tokenUsage : Option Fields
  deriving DecidableEq

/-- One entry of the usage that a turn reports. -/
def addTokenUsage (total : Fields) (entry : String × Json) : Fields :=
  match entry.2 with
  | .int count =>
      match Json.lookup total entry.1 with
      | some (.int before) => Json.assign entry.1 (.int (before + count)) total
      | _ => Json.assign entry.1 (.int count) total
  | _ => total

/-- `_merge_token_usage`. -/
def mergeTokenUsage (total : Fields) (usage : Option Fields) : Fields :=
  (usage.getD []).foldl addTokenUsage total

/-- `_raw_output`. -/
def rawOutput (platform : Platform) (text : String) : Fields :=
  match platform.loads text.toList with
  | none => [("text", .str text)]
  | some (.obj fields) => fields
  | some value => [("value", value)]

/-! ## Runs -/

/-- A call that was executed, with its output if there was one. -/
structure Attempt where
  call : ModelToolCall
  output : Option ModelToolOutput
  deriving DecidableEq

/-- A request to the model, and the calls that were executed after it. -/
structure Round where
  outputs : List ModelToolOutput
  attempts : List Attempt
  deriving DecidableEq

/-- The turn of the model that ends a run. -/
def endRun (platform : Platform) (turn : ModelTurn) (executions : List ExecutedToolCall)
    (usage : Fields) : Except RunnerError RunResult :=
  match turn.text with
  | none => .error (.agentRun "Model returned neither text nor tool calls")
  | some text => do
      let output ← parseConversationOutput platform text
      pure {
        messages := output.messages
        responseId := turn.responseId
        toolCalls := executions
        reaction := output.reaction
        followUp := output.followUp
        languagePreference := output.languagePreference
        rawOutput := rawOutput platform text
        tokenUsage := if usage.isEmpty then none else some usage }

variable {ω : Type}

/-- The loop over the calls of a turn. -/
def executeCalls (around : Surroundings ω) (context : ToolContext) :
    ω → List ModelToolCall → Except RunnerError (List ExecutedToolCall) × List Attempt × ω
  | world, [] => (.ok [], [], world)
  | world, call :: rest =>
      match around.execute world call.name { context with toolCallId := some call.callId }
        call.arguments with
      | (.error error, after) => (.error error, [⟨call, none⟩], after)
      | (.ok (output, succeeded), after) =>
          let executed : ExecutedToolCall :=
            ⟨call.callId, call.name, call.arguments, output, succeeded⟩
          let (later, attempts, last) := executeCalls around context after rest
          (later.map (executed :: ·), ⟨call, some executed.handed⟩ :: attempts, last)

/-- The loop of `AgentRunner.run`, for the requests that are left. -/
def runRounds (platform : Platform) (around : Surroundings ω) (context : ToolContext) :
    Nat → ω → List ModelToolOutput → List ExecutedToolCall → Fields →
      Except RunnerError RunResult × List Round × ω
  | 0, world, _, _, _ =>
      (.error (.agentRun "Model exceeded the maximum tool-call rounds"), [], world)
  | requests + 1, world, outputs, executions, usage =>
      match around.next world outputs with
      | (.error error, after) => (.error error, [⟨outputs, []⟩], after)
      | (.ok turn, after) =>
          let usage := mergeTokenUsage usage turn.tokenUsage
          if turn.toolCalls.isEmpty then
            (endRun platform turn executions usage, [⟨outputs, []⟩], after)
          else
            match executeCalls around context after turn.toolCalls with
            | (.error error, attempts, last) => (.error error, [⟨outputs, attempts⟩], last)
            | (.ok executed, attempts, last) =>
                let (result, rounds, final) := runRounds platform around context requests last
                  (executed.map ExecutedToolCall.handed) (executions ++ executed) usage
                (result, ⟨outputs, attempts⟩ :: rounds, final)

/-- `AgentRunner.run`, in the session that the provider has started. -/
def runAgent (platform : Platform) (around : Surroundings ω) (maxToolRounds : Int)
    (context : ToolContext) (world : ω) : Except RunnerError RunResult × List Round × ω :=
  runRounds platform around context (maxToolRounds + 1).toNat world [] [] []

/-! ## Effects of tools are handed on -/

variable {ω : Type}

/-- Tools were executed. -/
def Round.executes (round : Round) : Bool :=
  !round.attempts.isEmpty

/-- The output of every executed call is handed on with a later request. -/
def Handed : List Round → Prop
  | [] => True
  | round :: later =>
      (∀ attempt ∈ round.attempts, ∃ output, attempt.output = some output ∧
        ∃ next ∈ later, output ∈ next.outputs) ∧ Handed later

/-- No more rounds of calls are executed than are allowed, and if the run does not return, the
output of every executed call was handed to the model. -/
def NoOrphanedEffects (maxToolRounds : Int)
    (outcome : Except RunnerError RunResult × List Round × ω) : Prop :=
  outcome.2.1.countP Round.executes ≤ maxToolRounds.toNat ∧
    (outcome.1.isOk = true ∨ Handed outcome.2.1)

/-- Every call is answered with an output. -/
inductive Answers (around : Surroundings ω) (context : ToolContext) :
    ω → List ModelToolCall → List ModelToolOutput → ω → Prop
  | nil {world : ω} : Answers around context world [] [] world
  | cons {world after last : ω} {call : ModelToolCall} {rest : List ModelToolCall}
      {output : Fields} {succeeded : Bool} {outputs : List ModelToolOutput} :
      around.execute world call.name { context with toolCallId := some call.callId }
        call.arguments = (.ok (output, succeeded), after) →
      Answers around context after rest outputs last →
      Answers around context world (call :: rest)
        (⟨call.callId, String.ofList (dumpsSpaced (.obj output))⟩ :: outputs) last

/-- Within so many turns the model asks for no more tools, or fails, and the tools that it asked
for before have all answered. -/
inductive Settles (around : Surroundings ω) (context : ToolContext) :
    Nat → ω → List ModelToolOutput → Prop
  | failed {turns : Nat} {world after : ω} {outputs : List ModelToolOutput}
      {error : RunnerError} :
      around.next world outputs = (.error error, after) →
      Settles around context (turns + 1) world outputs
  | ended {turns : Nat} {world after : ω} {outputs : List ModelToolOutput} {turn : ModelTurn} :
      around.next world outputs = (.ok turn, after) → turn.toolCalls = [] →
      Settles around context (turns + 1) world outputs
  | answered {turns : Nat} {world after last : ω} {outputs answers : List ModelToolOutput}
      {turn : ModelTurn} :
      around.next world outputs = (.ok turn, after) → turn.toolCalls ≠ [] →
      Answers around context after turn.toolCalls answers last →
      Settles around context turns last answers →
      Settles around context (turns + 1) world outputs

variable {platform : Platform} {around : Surroundings ω} {context : ToolContext}
  {world last : ω} {calls : List ModelToolCall} {attempts : List Attempt}

/-! ## The calls of one turn -/

/-- Calls that are answered are executed, and their outputs are known. -/
theorem Answers.executed {outputs : List ModelToolOutput}
    (answers : Answers around context world calls outputs last) :
    ∃ executed attempts, executeCalls around context world calls = (.ok executed, attempts, last) ∧
      executed.map ExecutedToolCall.handed = outputs ∧
      ∀ attempt ∈ attempts, ∃ output ∈ outputs, attempt.output = some output := by
  induction answers with
  | nil => exact ⟨[], [], rfl, rfl, fun _ isMem => absurd isMem List.not_mem_nil⟩
  | @cons world after last call rest output succeeded outputs executes _ ih =>
      rcases ih with ⟨executed, attempts, later, handed, known⟩
      refine ⟨⟨call.callId, call.name, call.arguments, output, succeeded⟩ :: executed,
        ⟨call, some ⟨call.callId, String.ofList (dumpsSpaced (.obj output))⟩⟩ :: attempts,
        ?_, ?_, ?_⟩
      · rw [executeCalls, executes]
        simp only [later]
        rfl
      · rw [List.map_cons, handed]
        rfl
      · intro attempt attemptMem
        rcases List.mem_cons.mp attemptMem with rfl | isLater
        · exact ⟨_, List.mem_cons_self, rfl⟩
        · rcases known attempt isLater with ⟨other, otherMem, isOutput⟩
          exact ⟨other, List.mem_cons_of_mem _ otherMem, isOutput⟩

/-- Calls that are executed are answered. -/
theorem answers_of_executeCalls {executed : List ExecutedToolCall}
    (executes : executeCalls around context world calls = (.ok executed, attempts, last)) :
    Answers around context world calls (executed.map ExecutedToolCall.handed) last := by
  induction calls generalizing world executed attempts with
  | nil =>
      cases executes
      exact Answers.nil
  | cons call rest ih =>
      rw [executeCalls] at executes
      split at executes
      · cases executes
      · rename_i output succeeded after isOk
        rcases later : executeCalls around context after rest with ⟨_ | others, known, final⟩
        · rw [later] at executes
          cases executes
        · rw [later] at executes
          cases executes
          exact Answers.cons isOk (ih later)

/-- A call that raises has no output. -/
theorem exists_unanswered {error : RunnerError}
    (fails : executeCalls around context world calls = (.error error, attempts, last)) :
    ∃ attempt ∈ attempts, attempt.output = none := by
  induction calls generalizing world attempts with
  | nil => cases fails
  | cons call rest ih =>
      rw [executeCalls] at fails
      split at fails
      · cases fails
        exact ⟨_, List.mem_cons_self, rfl⟩
      · rename_i output succeeded after isOk
        rcases later : executeCalls around context after rest with ⟨raised | _, known, final⟩
        · rw [later] at fails
          cases fails
          rcases ih later with ⟨attempt, attemptMem, isNone⟩
          exact ⟨attempt, List.mem_cons_of_mem _ attemptMem, isNone⟩
        · rw [later] at fails
          cases fails

/-- Where the model asks for tools, something is executed. -/
theorem attempts_ne_nil {result : Except RunnerError (List ExecutedToolCall)}
    (executes : executeCalls around context world calls = (result, attempts, last))
    (asks : calls ≠ []) : attempts ≠ [] := by
  cases calls with
  | nil => exact absurd rfl asks
  | cons call rest =>
      rw [executeCalls] at executes
      split at executes
      · cases executes
        exact List.cons_ne_nil _ _
      · cases executes
        exact List.cons_ne_nil _ _

/-! ## Runs -/

variable {turns : Nat} {outputs : List ModelToolOutput}

/-- The first request hands on the outputs that the loop starts with. -/
theorem exists_runRounds_eq_cons (platform : Platform) (around : Surroundings ω)
    (context : ToolContext) (turns : Nat) (world : ω) (outputs : List ModelToolOutput)
    (executions : List ExecutedToolCall) (usage : Fields) : ∃ attempts later,
    (runRounds platform around context (turns + 1) world outputs executions usage).2.1 =
      ⟨outputs, attempts⟩ :: later := by
  rw [runRounds]
  split
  · exact ⟨_, _, rfl⟩
  · dsimp only
    split
    · exact ⟨_, _, rfl⟩
    · split
      · exact ⟨_, _, rfl⟩
      · exact ⟨_, _, rfl⟩

/-- A run whose dialogue settles in time hands on every output, and executes fewer rounds than
it makes requests. -/
theorem Settles.handed (platform : Platform) (settles : Settles around context turns world outputs)
    (executions : List ExecutedToolCall) (usage : Fields) :
    Handed (runRounds platform around context turns world outputs executions usage).2.1 ∧
      (runRounds platform around context turns world outputs executions usage).2.1.countP
        Round.executes < turns := by
  induction settles generalizing executions usage with
  | failed fails =>
      rw [runRounds, fails]
      exact ⟨⟨fun _ isMem => absurd isMem List.not_mem_nil, True.intro⟩, Nat.succ_pos _⟩
  | ended answers noCalls =>
      rw [runRounds, answers]
      simp only [noCalls, List.isEmpty_nil, if_true]
      exact ⟨⟨fun _ isMem => absurd isMem List.not_mem_nil, True.intro⟩, Nat.succ_pos _⟩
  | @answered turns world after last outputs answers turn asks someCalls answered settlesLater
      ih =>
      rcases answered.executed with ⟨executed, attempts, executes, handed, known⟩
      rw [runRounds, asks]
      simp only [List.isEmpty_iff, someCalls, if_false, executes, handed]
      rcases ih (executions ++ executed)
        (mergeTokenUsage usage turn.tokenUsage) with ⟨isHanded, fewer⟩
      refine ⟨⟨?_, isHanded⟩, ?_⟩
      · intro attempt attemptMem
        rcases known attempt attemptMem with ⟨output, outputMem, isOutput⟩
        refine ⟨output, isOutput, ?_⟩
        -- The dialogue goes on, so there is a next request.
        cases turns with
        | zero => cases settlesLater
        | succ turns =>
            rcases exists_runRounds_eq_cons platform around context turns last answers
              (executions ++ executed) (mergeTokenUsage usage turn.tokenUsage) with
                ⟨first, later, rounds⟩
            rw [rounds]
            exact ⟨_, List.mem_cons_self, outputMem⟩
      · rw [List.countP_cons]
        split
        · exact Nat.succ_lt_succ fewer
        · exact Nat.lt_succ_of_lt fewer

/-- Where the dialogue does not settle in time, tools are executed after every request, or a
call is not answered. -/
theorem orphaned_of_not_settles (platform : Platform)
    (never : ¬ Settles around context turns world outputs) (executions : List ExecutedToolCall)
    (usage : Fields) :
    (runRounds platform around context turns world outputs executions usage).2.1.countP
        Round.executes = turns ∨
      ((runRounds platform around context turns world outputs executions usage).1.isOk = false ∧
        ¬ Handed (runRounds platform around context turns world outputs executions usage).2.1) := by
  induction turns generalizing world outputs executions usage with
  | zero => exact Or.inl rfl
  | succ turns ih =>
      rcases asks : around.next world outputs with ⟨error | turn, after⟩
      · exact absurd (Settles.failed asks) never
      · by_cases noCalls : turn.toolCalls = []
        · exact absurd (Settles.ended asks noCalls) never
        · rw [runRounds, asks]
          simp only [List.isEmpty_iff, noCalls, if_false]
          rcases executes : executeCalls around context after turn.toolCalls with
            ⟨error | executed, attempts, last⟩
          · right
            refine ⟨rfl, ?_⟩
            rintro ⟨isHanded, _⟩
            rcases exists_unanswered executes with ⟨attempt, attemptMem, isNone⟩
            rcases isHanded attempt attemptMem with ⟨output, isOutput, _⟩
            cases isNone.symm.trans isOutput
          · have someAttempts := attempts_ne_nil executes noCalls
            have isAnswered := answers_of_executeCalls executes
            have neverLater : ¬ Settles around context turns last
                (executed.map ExecutedToolCall.handed) :=
              fun settles => never (Settles.answered asks noCalls isAnswered settles)
            rcases ih neverLater (executions ++ executed)
              (mergeTokenUsage usage turn.tokenUsage) with all | ⟨fails, notHanded⟩
            · left
              rw [List.countP_cons, all]
              simp [Round.executes, someAttempts]
            · right
              exact ⟨fails, fun isHanded => notHanded isHanded.2⟩

/-- A run leaves no effect of a tool behind if and only if it makes no request, or the model
settles within the requests that it makes. -/
theorem noOrphanedEffects_iff {maxToolRounds : Int} :
    NoOrphanedEffects maxToolRounds (runAgent platform around maxToolRounds context world) ↔
      maxToolRounds < 0 ∨ Settles around context (maxToolRounds + 1).toNat world [] := by
  constructor
  · rintro ⟨bounded, returnsOrHanded⟩
    by_cases isNegative : maxToolRounds < 0
    · exact Or.inl isNegative
    · right
      by_contra never
      rcases orphaned_of_not_settles platform never [] [] with all | ⟨fails, notHanded⟩
      · rw [runAgent, all] at bounded
        omega
      · rcases returnsOrHanded with returns | isHanded
        · rw [runAgent, fails] at returns
          cases returns
        · exact notHanded isHanded
  · rintro (isNegative | settles)
    · have none : (maxToolRounds + 1).toNat = 0 := Int.toNat_of_nonpos (by omega)
      rw [runAgent, none]
      exact ⟨Nat.zero_le _, Or.inr True.intro⟩
    · rcases settles.handed platform [] [] with ⟨isHanded, fewer⟩
      refine ⟨?_, Or.inr isHanded⟩
      rw [runAgent]
      omega

/-- A model that asks for a link in every turn, and a tool that counts the links it sent. -/
def linkSender : Surroundings Nat where
  next world _ := (.ok ⟨"response", none, [⟨"call", "send_link", []⟩], none⟩, world)
  execute world _ _ _ := (.ok ([("ok", .bool true)], true), world + 1)

/-- Six links are sent in a run that may execute five rounds; the output of the last is handed
to nobody, and the run is reported as failed. -/
theorem last_round_is_orphaned :
    let outcome := runAgent Platform.ascii linkSender 5 ⟨7, 1, some 3, none, none⟩ 0
    outcome.1 = .error (.agentRun "Model exceeded the maximum tool-call rounds") ∧
      outcome.2.2 = 6 ∧ outcome.2.1.countP Round.executes = 6 ∧
      ¬ NoOrphanedEffects 5 outcome := by
  have executed : (runAgent Platform.ascii linkSender 5 ⟨7, 1, some 3, none, none⟩ 0).2.1.countP
      Round.executes = 6 := by decide
  refine ⟨by decide, by decide, executed, ?_⟩
  rintro ⟨bounded, _⟩
  rw [executed] at bounded
  exact absurd bounded (by decide)

end DotBackend.Agents
