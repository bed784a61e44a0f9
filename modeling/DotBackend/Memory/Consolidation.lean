import DotBackend.Data.Number
import Mathlib.Algebra.Order.Ring.Unbundled.Rat

/-!
# Reading a memory consolidation

The model's structured output for one conversation turn is a JSON object; reading it
keeps at most eight operations, drops the malformed ones and cleans every text. The
restricted-secret test is the service's last line of defence against storing
credentials.
-/

namespace DotBackend.Memory

open Data

/-! ## Vocabularies -/

inductive MemoryKind
  | biographical | preference | relationship | goal | commitment | experience
  deriving DecidableEq

inductive MemoryAction
  | add | reinforce | supersede
  deriving DecidableEq

inductive Sensitivity
  | normal | sensitive | restricted
  deriving DecidableEq

inductive SourceBasis
  | userStated | assistantActionConfirmed
  deriving DecidableEq

/-- `value in vocabulary` for a value read from JSON. -/
def readWord {α : Type} (vocabulary : List (String × α)) : Option Json → Option α
  | some (.str word) => (vocabulary.find? fun entry => entry.1 = word).map Prod.snd
  | _ => none

def memoryKinds : List (String × MemoryKind) :=
  [("biographical", .biographical), ("preference", .preference),
    ("relationship", .relationship), ("goal", .goal), ("commitment", .commitment),
    ("experience", .experience)]

def memoryActions : List (String × MemoryAction) :=
  [("add", .add), ("reinforce", .reinforce), ("supersede", .supersede)]

def sensitivityLevels : List (String × Sensitivity) :=
  [("normal", .normal), ("sensitive", .sensitive), ("restricted", .restricted)]

def sourceBases : List (String × SourceBasis) :=
  [("user_stated", .userStated), ("assistant_action_confirmed", .assistantActionConfirmed)]

/-- One guarded mutation of the memory. -/
structure MemoryOperation where
  action : MemoryAction
  existingFactId : Option Uuid
  kind : MemoryKind
  subjectName : String
  subjectType : String
  predicate : String
  objectIsEntity : Bool
  objectName : Option String
  objectType : Option String
  objectValue : Option String
  statement : String
  confidence : Rat
  importance : Int
  sensitivity : Sensitivity
  validFrom : Option Instant
  validUntil : Option Instant
  sourceBasis : SourceBasis
  deriving DecidableEq

structure MemoryConsolidation where
  storeEpisode : Bool
  episodeSummary : String
  operations : List MemoryOperation
  deriving DecidableEq

/-- The exceptions that reading the output can raise. -/
inductive ParseError
  | operationsNotList
  | dateOutOfRange
  | confidenceTooLarge
  deriving DecidableEq

/-- The text of a `ValueError` or `OverflowError` of the reader. -/
def ParseError.message : ParseError → String
  | .operationsNotList => "memory operations must be a list"
  | .dateOutOfRange => "date value out of range"
  | .confidenceTooLarge => "int too large to convert to float"

/-! ## Cleaning -/

/-- `bool(value)` of what `dict.get` returns. -/
def truthy (value : Option Json) : Bool :=
  value.any Json.truthy

/-- Whitespace runs become single spaces and the text is cut at `limit`. -/
def cleanString (value : Option Json) (limit : Nat) : String :=
  match value with
  | some (.str text) => String.ofList ((Text.singleSpaced text.toList).take limit)
  | _ => ""

/-- `text or None`. -/
def nonempty (text : String) : Option String :=
  if text = "" then none else some text

def cleanOptionalString (value : Option Json) (limit : Nat) : Option String :=
  nonempty (cleanString value limit)

/-- A character that a slug keeps. -/
def isSlugChar (c : Char) : Bool :=
  ('a' ≤ c ∧ c ≤ 'z') || ('0' ≤ c ∧ c ≤ '9') || c == '_'

def slug (unicode : Unicode) (value : Option Json) (limit : Nat) : String :=
  match value with
  | some (.str text) =>
      let folded := Text.collapse isSlugChar '_' false (Text.casefold unicode text.toList)
      String.ofList ((Text.trim (· == '_') folded).take limit)
  | _ => ""

def slugOptional (unicode : Unicode) (value : Option Json) (limit : Nat) : Option String :=
  nonempty (slug unicode value limit)

/-- A date in UTC; a reading without an offset counts as UTC. -/
def optionalDatetime (interpreter : Interpreter) (value : Option Json) :
    Except ParseError (Option Instant) :=
  match value with
  | some (.str text) =>
      if text = "" then .ok none
      else
        match interpreter.fromisoformat (Text.replaceChar 'Z' "+00:00".toList text.toList) with
        | none => .ok none
        | some parsed =>
            let instant := parsed.wall - parsed.offset.getD 0
            if 0 ≤ instant ∧ instant < instantLimit then .ok (some instant)
            else .error .dateOutOfRange
  | _ => .ok none

/-- `UUID(str(value))`: only a text or an integer prints as 32 digits. -/
def existingFactId (unicode : Unicode) (value : Json) : Option Uuid :=
  match value with
  | .str text => parseUuid unicode text.toList
  | .int i => parseUuid unicode (Json.intText i)
  | _ => none

/-- `isinstance(value, int | float)`. -/
def isNumber : Option Json → Bool
  | some (.bool _) | some (.int _) | some (.float _) => true
  | _ => false

/-- `max(0.0, min(float(confidence), 1.0))` of a number. -/
def clampConfidence (value : Option Json) : Except ParseError Rat :=
  match value with
  | some (.bool b) => .ok (if b then 1 else 0)
  | some (.int i) =>
      if floatOverflow ≤ i ∨ i ≤ -floatOverflow then .error .confidenceTooLarge
      else .ok (if 1 ≤ i then 1 else 0)
  | some (.float (.finite text _)) => .ok (max 0 (min (finiteValue text) 1))
  | some (.float (.infinity negative)) => .ok (if negative then 0 else 1)
  | _ => .ok 0

/-- `max(1, min(importance, 5))`; a value that is no integer is `none`. -/
def clampImportance (value : Option Json) : Option Int :=
  match value with
  | some (.bool _) => some 1
  | some (.int i) => some (max 1 (min i 5))
  | _ => none

/-! ## Parsing -/

/-- One raw operation; `none` when it is dropped. -/
def parseOperation (interpreter : Interpreter) (raw : List (String × Json)) :
    Except ParseError (Option MemoryOperation) :=
  let unicode := interpreter.toUnicode
  let get := Json.lookup raw
  match readWord memoryActions (get "action"), readWord memoryKinds (get "kind"),
      readWord sensitivityLevels (get "sensitivity"), readWord sourceBases (get "source_basis") with
  | some action, some kind, some sensitivity, some sourceBasis =>
      let subjectName := cleanString (get "subject_name") 255
      let subjectType := slug unicode (get "subject_type") 64
      let predicate := slug unicode (get "predicate") 128
      let statement := cleanString (get "statement") 1000
      if subjectName = "" ∨ subjectType = "" ∨ predicate = "" ∨ statement = "" then .ok none
      else
        let rawId := (get "existing_fact_id").filter Json.truthy
        let factId := rawId.bind (existingFactId unicode)
        let objectIsEntity := truthy (get "object_is_entity")
        let objectName := cleanOptionalString (get "object_name") 255
        let objectType := slugOptional unicode (get "object_type") 64
        let objectValue := cleanOptionalString (get "object_value") 1000
        if rawId.isSome ∧ factId = none then .ok none
        else if objectIsEntity ∧ (objectName = none ∨ objectType = none) then .ok none
        else if ¬ objectIsEntity ∧ objectValue = none then .ok none
        else if ¬ isNumber (get "confidence") then .ok none
        else
          match clampImportance (get "importance") with
          | none => .ok none
          | some importance => do
              let validFrom ← optionalDatetime interpreter (get "valid_from")
              let validUntil ← optionalDatetime interpreter (get "valid_until")
              let confidence ← clampConfidence (get "confidence")
              return some {
                action, existingFactId := factId, kind, subjectName, subjectType, predicate,
                objectIsEntity, objectName, objectType, objectValue, statement, confidence,
                importance, sensitivity, validFrom,
                validUntil := validUntil.filter fun limit => validFrom.all (· < limit),
                sourceBasis }
  | _, _, _, _ => .ok none

/-- The operations of a list of raw values, those that are dropped left out. -/
def parseOperations (interpreter : Interpreter) :
    List Json → Except ParseError (List MemoryOperation)
  | [] => .ok []
  | .obj raw :: rest => do
      let parsed ← parseOperation interpreter raw
      let operations ← parseOperations interpreter rest
      return parsed.toList ++ operations
  | _ :: rest => parseOperations interpreter rest

/-- `parse_memory_consolidation`. -/
def parseMemoryConsolidation (interpreter : Interpreter) (data : List (String × Json)) :
    Except ParseError MemoryConsolidation :=
  match Json.lookup data "operations" with
  | some (.arr rawOperations) => do
      let operations ← parseOperations interpreter (rawOperations.take 8)
      return {
        storeEpisode := truthy (Json.lookup data "store_episode")
        episodeSummary :=
          match Json.lookup data "episode_summary" with
          | some (.str summary) => String.ofList ((Text.strip summary.toList).take 500)
          | _ => ""
        operations }
  | _ => .error .operationsNotList

/-! ## Restricted secrets -/

def restrictedTerms : List String :=
  ["password", "passcode", "one-time code", "verification code", "api key", "private key",
    "recovery phrase", "seed phrase", "credit card number", "cvv"]

/-- A match of `(?:\d[ -]*?){13,19}\b` that has read `count` digits so far. -/
def cardNumberFrom (unicode : Unicode) : Nat → Option Char → List Char → Bool
  | count, before, text =>
      (13 ≤ count && Text.isBoundary unicode before text.head?) ||
      match text with
      | [] => false
      | c :: rest =>
          if (unicode.decimal c).isSome then
            count < 19 && cardNumberFrom unicode (count + 1) (some c) rest
          else (c == ' ' || c == '-') && 0 < count && cardNumberFrom unicode count (some c) rest

/-- `re.search(r"\b(?:\d[ -]*?){13,19}\b", text)` after a character. -/
def cardNumberSearch (unicode : Unicode) (before : Option Char) : List Char → Bool
  | [] => false
  | c :: rest =>
      (Text.isBoundary unicode before (some c) && cardNumberFrom unicode 0 before (c :: rest)) ||
      cardNumberSearch unicode (some c) rest

/-- `contains_restricted_secret`. -/
def containsRestrictedSecret (unicode : Unicode) (text : String) : Bool :=
  let lowered := Text.casefold unicode text.toList
  (restrictedTerms.any fun term => Text.occurs term.toList lowered) ||
    cardNumberSearch unicode none text.toList

end DotBackend.Memory
