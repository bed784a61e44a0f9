import DotBackend.Data.CollapsedText
import DotBackend.Data.Result
import DotBackend.Data.UuidText
import DotBackend.Memory.Resolution
import Mathlib

/-!
# The names of entities

An entity is looked up by a key in which everything but `a` to `z` and the digits counts as
a separator. Names in which the other characters are spaces and punctuation are told apart
by their keys; with any other character, two different names get one entity.
-/

namespace DotBackend.Memory

open Data

/-! ## Names -/

/-- The spaces and the punctuation of a script, and what case folding does with them. -/
structure Separators (unicode : Unicode) where
  isSeparator : Char → Bool
  space : ∀ c, Text.isSpace c = true → isSeparator c = true
  dash : isSeparator '-' = true
  alnum : ∀ c, unicode.alnum c = true → isSeparator c = false
  fold_space : ∀ c, Text.isSpace c = true → unicode.fold c = [c]
  /-- Case folding turns a character into three others at most, none of which separates. -/
  fold_long : ∀ c, 2 ≤ (unicode.fold c).length → (unicode.fold c).length ≤ 3 ∧
    ∀ folded ∈ unicode.fold c, isSeparator folded = false

/-- A name up to letter case and runs of spaces or punctuation. -/
def plainName {unicode : Unicode} (separators : Separators unicode) (name : String) : List Char :=
  Text.trim (· == ' ') (Text.collapse (fun c => !separators.isSeparator c) ' ' false
    (Text.casefold unicode name.toList))

/-- A name of a subject or an object that the reader of a consolidation lets through. -/
def AcceptedName (interpreter : Interpreter) (name : String) : Prop :=
  ∃ data consolidation, parseMemoryConsolidation interpreter data = .ok consolidation ∧
    ∃ operation ∈ consolidation.operations,
      operation.subjectName = name ∨ operation.objectName = some name

/-- A later store, in which the entities are still what they were. -/
structure EntitiesStay (earlier later : MemoryStore) : Prop where
  stays : ∀ identity ∈ earlier.identities, identity ∈ later.identities
  unique : (later.identities.map Prod.fst).Nodup
  known : ∀ identity ∈ later.identities, identity.1 < later.nextId

/-- Names over an alphabet that get one entity are equal up to case, spaces and punctuation. -/
def NamesApart (interpreter : Interpreter) (separators : Separators interpreter.toUnicode)
    (alphabet : Set Char) : Prop :=
  ∀ first second, AcceptedName interpreter first → AcceptedName interpreter second →
    (∀ c ∈ first.toList, c ∈ alphabet) → (∀ c ∈ second.toList, c ∈ alphabet) →
      ∀ userId entityType store later,
        EntitiesStay (resolveEntity interpreter.toUnicode store userId first entityType).1 later →
          (resolveEntity interpreter.toUnicode later userId second entityType).2.id =
            (resolveEntity interpreter.toUnicode store userId first entityType).2.id →
              plainName separators first = plainName separators second

/-- A character that a key keeps as it is, or takes for the separator that it is. -/
def KeyedChar {unicode : Unicode} (separators : Separators unicode) (c : Char) : Prop :=
  (unicode.fold c).length ≤ 1 ∧
    ∀ folded ∈ unicode.fold c, isKeyChar folded = true ∨ separators.isSeparator folded = true

section Accepted

variable {interpreter : Interpreter} {name : String}

/-! ## Accepted names -/

theorem parseOperation_names {raw : List (String × Json)} {operation : MemoryOperation}
    (parsed : parseOperation interpreter raw = .ok (some operation)) :
    operation.subjectName = cleanString (Json.lookup raw "subject_name") 255 ∧
      operation.objectName = cleanOptionalString (Json.lookup raw "object_name") 255 := by
  unfold parseOperation at parsed
  dsimp only at parsed
  split at parsed
  · split at parsed
    · cases parsed
    · split at parsed
      · cases parsed
      · split at parsed
        · cases parsed
        · split at parsed
          · cases parsed
          · split at parsed
            · cases parsed
            · split at parsed
              · cases parsed
              · obtain ⟨validFrom, _, parsed⟩ := bind_eq_ok.mp parsed
                obtain ⟨validUntil, _, parsed⟩ := bind_eq_ok.mp parsed
                obtain ⟨confidence, _, parsed⟩ := bind_eq_ok.mp parsed
                cases parsed
                exact ⟨rfl, rfl⟩
  · cases parsed

theorem mem_parseOperations {values : List Json} {operations : List MemoryOperation}
    (parsed : parseOperations interpreter values = .ok operations) {operation : MemoryOperation}
    (operationMem : operation ∈ operations) :
    ∃ raw, parseOperation interpreter raw = .ok (some operation) := by
  induction values generalizing operations with
  | nil =>
      cases parsed
      cases operationMem
  | cons value rest ih =>
      cases value with
      | obj raw =>
          rw [parseOperations] at parsed
          obtain ⟨first, first_eq, parsed⟩ := bind_eq_ok.mp parsed
          obtain ⟨others, others_eq, parsed⟩ := bind_eq_ok.mp parsed
          cases parsed
          rcases List.mem_append.mp operationMem with isFirst | isOther
          · rw [Option.mem_toList.mp isFirst] at first_eq
            exact ⟨raw, first_eq⟩
          · exact ih others_eq isOther
      | _ => exact ih parsed operationMem

theorem length_cleanString_le (value : Option Json) (limit : Nat) :
    (cleanString value limit).toList.length ≤ limit := by
  unfold cleanString
  split
  · rw [String.toList_ofList]
    exact List.length_take_le _ _
  · exact Nat.zero_le _

/-- An accepted name has at most 255 characters. -/
theorem AcceptedName.length_le (accepted : AcceptedName interpreter name) :
    name.toList.length ≤ 255 := by
  obtain ⟨data, consolidation, parsed, operation, operationMem, isName⟩ := accepted
  unfold parseMemoryConsolidation at parsed
  split at parsed
  · obtain ⟨operations, operations_eq, parsed⟩ := bind_eq_ok.mp parsed
    cases parsed
    obtain ⟨raw, raw_eq⟩ := mem_parseOperations operations_eq operationMem
    obtain ⟨subject, object⟩ := parseOperation_names raw_eq
    rcases isName with rfl | isObject
    · rw [subject]
      exact length_cleanString_le _ _
    · rw [object, cleanOptionalString, nonempty] at isObject
      split at isObject
      · cases isObject
      · cases isObject
        exact length_cleanString_le _ _
  · cases parsed

/-- A fact about a subject. -/
def factAbout (name : String) : List (String × Json) :=
  [("action", .str "add"), ("kind", .str "biographical"), ("sensitivity", .str "normal"),
    ("source_basis", .str "user_stated"), ("subject_name", .str name), ("subject_type", .str "p"),
    ("predicate", .str "p"), ("statement", .str "p"), ("object_value", .str "p"),
    ("confidence", .int 1), ("importance", .int 1)]

theorem slug_letter (limit : Nat) :
    slug interpreter.toUnicode (some (.str "p")) (limit + 1) = "p" := by
  have folded : Text.casefold interpreter.toUnicode "p".toList = ['p'] := by
    change List.flatMap interpreter.fold ['p'] = ['p']
    rw [List.flatMap_singleton, interpreter.fold_ascii 'p' (by decide)]
    rfl
  have collapsed : Text.trim (· == '_') (Text.collapse isSlugChar '_' false ['p']) = ['p'] := by
    decide
  rw [slug, folded, collapsed, List.take_succ_cons, List.take_nil]

/-- A name without whitespace that is not too long is accepted. -/
theorem acceptedName_of_solid (notEmpty : name ≠ "")
    (solid : ∀ c ∈ name.toList, Text.isSpace c = false) (short : name.toList.length ≤ 255) :
    AcceptedName interpreter name := by
  have cleaned : cleanString (some (.str name)) 255 = name := by
    rw [cleanString, Text.singleSpaced_eq_self solid, List.take_of_length_le short,
      String.ofList_toList]
  have letter : cleanString (some (.str "p")) 1000 = "p" := by decide
  have value : cleanOptionalString (some (.str "p")) 1000 = some "p" := by decide
  have parsed : ∃ operation, parseOperation interpreter (factAbout name) = .ok (some operation) ∧
      operation.subjectName = name := by
    have words : readWord memoryActions (Json.lookup (factAbout name) "action") = some .add ∧
        readWord memoryKinds (Json.lookup (factAbout name) "kind") = some .biographical ∧
        readWord sensitivityLevels (Json.lookup (factAbout name) "sensitivity") = some .normal ∧
        readWord sourceBases (Json.lookup (factAbout name) "source_basis") = some .userStated := by
      simp [factAbout, Json.lookup, readWord, memoryActions, memoryKinds, sensitivityLevels,
        sourceBases]
    have lookups : Json.lookup (factAbout name) "subject_name" = some (.str name) ∧
        Json.lookup (factAbout name) "subject_type" = some (.str "p") ∧
        Json.lookup (factAbout name) "predicate" = some (.str "p") ∧
        Json.lookup (factAbout name) "statement" = some (.str "p") ∧
        Json.lookup (factAbout name) "object_value" = some (.str "p") ∧
        Json.lookup (factAbout name) "confidence" = some (.int 1) ∧
        Json.lookup (factAbout name) "importance" = some (.int 1) := by
      simp [factAbout, Json.lookup]
    have absent : ∀ key ∈ ["existing_fact_id", "object_is_entity", "object_name", "object_type",
        "valid_from", "valid_until"], Json.lookup (factAbout name) key = none := by
      simp [factAbout, Json.lookup]
    simp only [List.forall_mem_cons] at absent
    obtain ⟨action, kind, sensitivity, basis⟩ := words
    obtain ⟨subject, subjectType, predicate, statement, object, confidence, importance⟩ := lookups
    obtain ⟨noFact, noEntity, noName, noType, noFrom, noUntil, _⟩ := absent
    unfold parseOperation
    dsimp only
    rw [action, kind, sensitivity, basis, subject, subjectType, predicate, statement, object,
      confidence, importance, noFact, noEntity, noName, noType, noFrom, noUntil]
    dsimp only
    rw [cleaned, letter, value, slug_letter, slug_letter]
    have certain : clampConfidence (some (.int 1)) = .ok 1 := by
      simp [clampConfidence, floatOverflow]
    have undated : optionalDatetime interpreter none = .ok none := rfl
    simp [notEmpty, truthy, isNumber, clampImportance, undated, certain]
  obtain ⟨operation, operation_eq, isName⟩ := parsed
  have read : parseMemoryConsolidation interpreter [("operations", .arr [.obj (factAbout name)])] =
      .ok ⟨false, "", [operation]⟩ := by
    change (parseOperations interpreter [.obj (factAbout name)]).bind _ = _
    rw [parseOperations, operation_eq]
    rfl
  exact ⟨_, _, read, operation, List.mem_singleton_self _, Or.inl isName⟩

end Accepted

section Keys

variable {unicode : Unicode} {separators : Separators unicode} {name first second : String}

/-! ## Keys -/

theorem isKeyChar_ascii {c : Char} (isKey : isKeyChar c = true) :
    c.toNat < 128 ∧ c.isAlphanum = true ∧ c.toLower = c := by
  simp only [isKeyChar, Bool.or_eq_true, decide_eq_true_eq, Char.le_def,
    UInt32.le_iff_toNat_le] at isKey
  have firstLetter : 'a'.val.toNat = 97 := rfl
  have lastLetter : 'z'.val.toNat = 122 := rfl
  have firstDigit : '0'.val.toNat = 48 := rfl
  have lastDigit : '9'.val.toNat = 57 := rfl
  refine ⟨?_, ?_, ?_⟩
  · change c.val.toNat < 128
    omega
  · simp only [Char.isAlphanum, Char.isAlpha, Char.isUpper, Char.isLower, Char.isDigit,
      Bool.or_eq_true, decide_eq_true_eq, Bool.and_eq_true, ge_iff_le, UInt32.le_iff_toNat_le]
    rcases isKey with isLetter | isDigit
    · exact Or.inl (Or.inr isLetter)
    · exact Or.inr isDigit
  · have notUpper : ¬ (65 ≤ c.val.toNat ∧ c.val.toNat ≤ 90) := by omega
    rw [Char.toLower, dif_neg]
    simpa [UInt32.le_iff_toNat_le] using notUpper

theorem isSeparator_of_isKeyChar {c : Char} (isKey : isKeyChar c = true) :
    separators.isSeparator c = false := by
  obtain ⟨isAscii, isAlphanum, _⟩ := isKeyChar_ascii isKey
  apply separators.alnum
  rw [unicode.alnum_ascii c isAscii, isAlphanum]

/-- A text of keys and dashes is folded to itself. -/
theorem casefold_eq_self {text : List Char} (keys : ∀ c ∈ text, isKeyChar c = true ∨ c = '-') :
    Text.casefold unicode text = text := by
  induction text with
  | nil => rfl
  | cons c rest ih =>
      obtain ⟨first, others⟩ := List.forall_mem_cons.mp keys
      have folded : unicode.fold c = [c] := by
        rcases first with isKey | rfl
        · obtain ⟨isAscii, _, isLower⟩ := isKeyChar_ascii isKey
          rw [unicode.fold_ascii c isAscii, isLower]
        · rw [unicode.fold_ascii '-' (by decide)]
          rfl
      have later := ih others
      rw [Text.casefold] at later ⊢
      rw [List.flatMap_cons, folded, later]
      rfl

/-- A text of characters that the key keeps is its own key. -/
theorem canonicalKey_of_keys {text : List Char} (keys : ∀ c ∈ Text.casefold unicode name.toList,
    isKeyChar c = true) (text_eq : Text.casefold unicode name.toList = text) :
    canonicalKey unicode name = String.ofList (text.take 255) := by
  have noDash : ∀ c ∈ text, (c == '-') = false := by
    intro c cMem
    rw [← text_eq] at cMem
    have isKey := keys c cMem
    apply beq_false_of_ne
    rintro rfl
    exact absurd isKey (by decide)
  rw [canonicalKey, Text.collapse_eq_self keys, text_eq, Text.trim_eq_self noDash]

theorem plainName_of_keys (keys : ∀ c ∈ Text.casefold unicode name.toList,
    isKeyChar c = true) : plainName separators name = Text.casefold unicode name.toList := by
  rw [plainName, Text.collapse_eq_self, Text.trim_eq_self]
  · intro c cMem
    have isKey := keys c cMem
    apply beq_false_of_ne
    rintro rfl
    exact absurd isKey (by decide)
  · intro c cMem
    rw [isSeparator_of_isKeyChar (keys c cMem)]
    rfl

/-- The dash and the space, exchanged. -/
def exchange (c : Char) : Char :=
  if c = '-' then ' ' else if c = ' ' then '-' else c

theorem exchange_beq (c : Char) : (exchange c == ' ') = (c == '-') := by
  unfold exchange
  split
  · rename_i isDash
    rw [isDash]
    rfl
  · rename_i notDash
    split
    · rename_i isSpace
      rw [isSpace]
      rfl
    · rename_i notSpace
      rw [beq_false_of_ne notSpace, beq_false_of_ne notDash]

/-- The folded text of a name whose characters the key keeps apart. -/
theorem mem_casefold_of_keyed (keyed : ∀ c ∈ name.toList, KeyedChar separators c) {c : Char}
    (cMem : c ∈ Text.casefold unicode name.toList) :
    isKeyChar c = true ∨ separators.isSeparator c = true := by
  obtain ⟨original, originalMem, folded⟩ := List.mem_flatMap.mp cMem
  exact (keyed original originalMem).2 c folded

theorem length_casefold_le (keyed : ∀ c ∈ name.toList, KeyedChar separators c) :
    (Text.casefold unicode name.toList).length ≤ name.toList.length := by
  have shrinks : ∀ text : List Char, (∀ c ∈ text, (unicode.fold c).length ≤ 1) →
      (Text.casefold unicode text).length ≤ text.length := by
    intro text single
    induction text with
    | nil => exact Nat.le_refl 0
    | cons c rest ih =>
        obtain ⟨first, others⟩ := List.forall_mem_cons.mp single
        have later := ih others
        rw [Text.casefold] at later ⊢
        rw [List.flatMap_cons, List.length_append, List.length_cons]
        omega
  exact shrinks name.toList fun c cMem => (keyed c cMem).1

/-- What is left of a name is its key, with spaces for dashes. -/
theorem plainName_of_keyed (keyed : ∀ c ∈ name.toList, KeyedChar separators c)
    (short : name.toList.length ≤ 255) :
    plainName separators name = (canonicalKey unicode name).toList.map exchange := by
  have kinds : ∀ c ∈ Text.casefold unicode name.toList,
      (!separators.isSeparator c) = isKeyChar c := by
    intro c cMem
    rcases mem_casefold_of_keyed keyed cMem with isKey | isSeparator
    · rw [isSeparator_of_isKeyChar isKey, isKey]
      rfl
    · cases isKey : isKeyChar c with
      | false =>
          rw [isSeparator]
          rfl
      | true =>
          rw [isSeparator_of_isKeyChar isKey] at isSeparator
          cases isSeparator
  have fixes : ∀ c ∈ Text.casefold unicode name.toList, isKeyChar c = true → exchange c = c := by
    intro c _ isKey
    rw [exchange, if_neg, if_neg]
    · rintro rfl
      exact absurd isKey (by decide)
    · rintro rfl
      exact absurd isKey (by decide)
  have spaced : Text.collapse (fun c => !separators.isSeparator c) (exchange '-') false
      (Text.casefold unicode name.toList) =
        (Text.collapse isKeyChar '-' false (Text.casefold unicode name.toList)).map exchange :=
    Text.collapse_eq_map kinds fixes
  have fits : (Text.trim (· == '-') (Text.collapse isKeyChar '-' false
      (Text.casefold unicode name.toList))).length ≤ 255 := by
    apply ( Text.trim_infix _ _).length_le.trans
    apply (Text.length_collapse_le _ _ _ _).trans
    exact (length_casefold_le keyed).trans short
  change Text.collapse _ ' ' _ _ = _ at spaced
  rw [plainName, spaced, Text.trim_map exchange_beq, canonicalKey, String.toList_ofList,
    List.take_of_length_le fits]

/-- Names in characters that the key keeps apart are apart in their keys. -/
theorem plainName_eq_of_keyed (firstKeyed : ∀ c ∈ first.toList, KeyedChar separators c)
    (secondKeyed : ∀ c ∈ second.toList, KeyedChar separators c)
    (firstShort : first.toList.length ≤ 255) (secondShort : second.toList.length ≤ 255)
    (sameKey : canonicalKey unicode first = canonicalKey unicode second) :
    plainName separators first = plainName separators second := by
  rw [plainName_of_keyed firstKeyed firstShort, plainName_of_keyed secondKeyed secondShort, sameKey]

end Keys

section Resolving

variable {unicode : Unicode} {userId : Uuid} {entityType first second : String}
  {store later : MemoryStore}

/-! ## One entity -/

/-- Two names that are resolved to one entity have one key. -/
theorem canonicalKey_eq_of_id_eq
    (stay : EntitiesStay (resolveEntity unicode store userId first entityType).1 later)
    (sameId : (resolveEntity unicode later userId second entityType).2.id =
      (resolveEntity unicode store userId first entityType).2.id) :
    canonicalKey unicode first = canonicalKey unicode second := by
  obtain ⟨_, firstFound⟩ := resolveEntity_extends unicode store userId first entityType
  obtain ⟨extends_, secondFound⟩ := resolveEntity_extends unicode later userId second entityType
  have firstStored := stay.stays _ (mem_identities_of_entityId firstFound)
  rw [sameId, extends_.entityId_iff (stay.known _ firstStored)] at secondFound
  have secondStored := mem_identities_of_entityId secondFound
  have sameIdentity := List.inj_on_of_nodup_map stay.unique firstStored secondStored rfl
  have sameKey := congrArg (fun identity : Uuid × EntityKey => identity.2.2.2) sameIdentity
  exact sameKey

/-- A store without memories. -/
def MemoryStore.blank : MemoryStore :=
  ⟨[], [], [], [], 0⟩

theorem entitiesStay_first (name : String) :
    EntitiesStay (resolveEntity unicode .blank userId name entityType).1
      (resolveEntity unicode .blank userId name entityType).1 := by
  constructor
  · exact fun _ stored => stored
  · simp [resolveEntity, MemoryStore.findEntity, MemoryStore.blank, MemoryStore.identities]
  · simp [resolveEntity, MemoryStore.findEntity, MemoryStore.blank, MemoryStore.identities]

/-- Two names with one key are resolved to one entity. -/
theorem id_eq_of_canonicalKey_eq
    (sameKey : canonicalKey unicode first = canonicalKey unicode second) :
    (resolveEntity unicode (resolveEntity unicode store userId first entityType).1 userId second
      entityType).2.id = (resolveEntity unicode store userId first entityType).2.id := by
  obtain ⟨_, firstFound⟩ := resolveEntity_extends unicode store userId first entityType
  obtain ⟨extends_, secondFound⟩ := resolveEntity_extends unicode
    (resolveEntity unicode store userId first entityType).1 userId second entityType
  have stillFound := extends_.entityId_of_some firstFound
  rw [sameKey, secondFound] at stillFound
  exact Option.some.inj stillFound

end Resolving

/-! ## Alphabets -/

section Alphabets

variable {interpreter : Interpreter} {separators : Separators interpreter.toUnicode}
  {alphabet : Set Char}

/-- Names that are told apart in all stores are told apart by their keys. -/
theorem NamesApart.plainName_eq (apart : NamesApart interpreter separators alphabet)
    {first second : String} (firstAccepted : AcceptedName interpreter first)
    (secondAccepted : AcceptedName interpreter second)
    (firstOver : ∀ c ∈ first.toList, c ∈ alphabet) (secondOver : ∀ c ∈ second.toList, c ∈ alphabet)
    (sameKey : canonicalKey interpreter.toUnicode first =
      canonicalKey interpreter.toUnicode second) :
    plainName separators first = plainName separators second := by
  apply apart first second firstAccepted secondAccepted firstOver secondOver 0 "" .blank
    (resolveEntity interpreter.toUnicode .blank 0 first "").1
  · exact entitiesStay_first first
  · exact id_eq_of_canonicalKey_eq sameKey

/-- A key character or a dash. -/
def dashed (c : Char) : Char :=
  if isKeyChar c then c else '-'

theorem dashed_cases (c : Char) : isKeyChar (dashed c) = true ∨ dashed c = '-' := by
  rw [dashed]
  split
  · rename_i isKey
    exact Or.inl isKey
  · exact Or.inr rfl

theorem isKeyChar_dashed (c : Char) : isKeyChar (dashed c) = isKeyChar c := by
  rw [dashed]
  split
  · rfl
  · rename_i notKey
    rw [Bool.not_eq_true] at notKey
    rw [notKey]
    decide

theorem isSpace_of_isKeyChar (separators : Separators interpreter.toUnicode) {c : Char}
    (isKey : isKeyChar c = true ∨ c = '-') :
    Text.isSpace c = false := by
  rcases isKey with isKey | rfl
  · cases space : Text.isSpace c with
    | false => rfl
    | true =>
        have separates := separators.space c space
        rw [isSeparator_of_isKeyChar isKey] at separates
        cases separates
  · decide

/-- What a character is folded to is kept apart from other characters. -/
theorem NamesApart.folded (apart : NamesApart interpreter separators alphabet)
    (common : ∀ c, isKeyChar c = true ∨ c = '-' → c ∈ alphabet) {c folded : Char}
    (inAlphabet : c ∈ alphabet) (foldedMem : folded ∈ interpreter.fold c) :
    isKeyChar folded = true ∨ separators.isSeparator folded = true := by
  by_contra foreign
  rw [not_or] at foreign
  obtain ⟨notKey, notSeparator⟩ := foreign
  have solid : Text.isSpace c = false := by
    cases space : Text.isSpace c with
    | false => rfl
    | true =>
        rw [separators.fold_space c space, List.mem_singleton] at foldedMem
        rw [foldedMem] at notSeparator
        exact absurd (separators.space c space) notSeparator
  have short : (interpreter.fold c).length ≤ 255 := by
    by_cases long : 2 ≤ (interpreter.fold c).length
    · exact (separators.fold_long c long).1.trans (by decide)
    · omega
  -- the same text with dashes for what is no key character has the same key
  have dashedOver : ∀ d ∈ (interpreter.fold c).map dashed, isKeyChar d = true ∨ d = '-' := by
    intro d dMem
    obtain ⟨original, _, rfl⟩ := List.mem_map.mp dMem
    exact dashed_cases original
  have firstFold : Text.casefold interpreter.toUnicode (String.ofList [c]).toList =
      interpreter.fold c := by
    rw [String.toList_ofList, Text.casefold, List.flatMap_singleton]
  have secondFold : Text.casefold interpreter.toUnicode
      (String.ofList ((interpreter.fold c).map dashed)).toList =
        (interpreter.fold c).map dashed := by
    rw [String.toList_ofList]
    exact casefold_eq_self dashedOver
  have same : plainName separators (String.ofList [c]) =
      plainName separators (String.ofList ((interpreter.fold c).map dashed)) := by
    apply apart.plainName_eq
    · apply acceptedName_of_solid
      · simp
      · simpa using solid
      · simp
    · apply acceptedName_of_solid
      · intro empty
        have none_ := congrArg String.toList empty
        rw [String.toList_ofList] at none_
        rw [List.map_eq_nil_iff.mp none_] at foldedMem
        cases foldedMem
      · intro d dMem
        rw [String.toList_ofList] at dMem
        exact isSpace_of_isKeyChar separators (dashedOver d dMem)
      · rw [String.toList_ofList, List.length_map]
        exact short
    · intro d dMem
      rw [String.toList_ofList, List.mem_singleton] at dMem
      rw [dMem]
      exact inAlphabet
    · intro d dMem
      rw [String.toList_ofList] at dMem
      exact common d (dashedOver d dMem)
    · have collapsed : Text.collapse isKeyChar '-' false ((interpreter.fold c).map dashed) =
          Text.collapse isKeyChar '-' false (interpreter.fold c) := by
        apply Text.collapse_map
        · exact fun d _ => isKeyChar_dashed d
        · intro d _ isKey
          rw [dashed, if_pos isKey]
      rw [canonicalKey, canonicalKey, firstFold, secondFold, collapsed]
  have inFirst : folded ∈ plainName separators (String.ofList [c]) := by
    rw [plainName, firstFold]
    apply Text.mem_trim
    · apply Text.mem_collapse_of_keep _ foldedMem
      rw [Bool.not_eq_true] at notSeparator
      rw [notSeparator]
      rfl
    · apply beq_false_of_ne
      rintro rfl
      exact notSeparator (separators.space ' ' (by decide))
  rw [same, plainName, secondFold] at inFirst
  rcases Text.mem_collapse (Text.mem_of_mem_trim inFirst) with rfl | ⟨inDashed, _⟩
  · exact notSeparator (separators.space ' ' (by decide))
  · rcases dashedOver folded inDashed with isKey | rfl
    · exact notKey isKey
    · exact notSeparator separators.dash

theorem NamesApart.length_fold_le (apart : NamesApart interpreter separators alphabet)
    (common : ∀ c, isKeyChar c = true ∨ c = '-' → c ∈ alphabet) {c : Char}
    (inAlphabet : c ∈ alphabet) : (interpreter.fold c).length ≤ 1 := by
  by_contra long
  have several : 2 ≤ (interpreter.fold c).length := by omega
  have keys : ∀ folded ∈ interpreter.fold c, isKeyChar folded = true := by
    intro folded foldedMem
    rcases apart.folded common inAlphabet foldedMem with isKey | separates
    · exact isKey
    · rw [(separators.fold_long c several).2 folded foldedMem] at separates
      cases separates
  have solid : Text.isSpace c = false := by
    cases space : Text.isSpace c with
    | false => rfl
    | true =>
        rw [separators.fold_space c space, List.length_singleton] at several
        omega
  -- a long name of this character alone, and a name of what is left of its key
  obtain ⟨count, isCount⟩ : ∃ count, count = 255 := ⟨255, rfl⟩
  have firstFold : Text.casefold interpreter.toUnicode
      (String.ofList (List.replicate count c)).toList =
        (List.replicate count (interpreter.fold c)).flatten := by
    rw [String.toList_ofList, Text.casefold, List.flatMap_replicate]
  have firstKeys : ∀ d ∈ (List.replicate count (interpreter.fold c)).flatten,
      isKeyChar d = true := by
    intro d dMem
    obtain ⟨text, textMem, dMem⟩ := List.mem_flatten.mp dMem
    rw [List.eq_of_mem_replicate textMem] at dMem
    exact keys d dMem
  have secondKeys : ∀ d ∈ ((List.replicate count (interpreter.fold c)).flatten).take count,
      isKeyChar d = true :=
    fun d dMem => firstKeys d (List.mem_of_mem_take dMem)
  have secondFold : Text.casefold interpreter.toUnicode
      (String.ofList ((List.replicate count (interpreter.fold c)).flatten.take count)).toList =
        (List.replicate count (interpreter.fold c)).flatten.take count := by
    rw [String.toList_ofList]
    exact casefold_eq_self fun d dMem => Or.inl (secondKeys d dMem)
  have lengths : (List.replicate count (interpreter.fold c)).flatten.length =
      count * (interpreter.fold c).length := by
    rw [List.length_flatten, List.map_replicate, List.sum_replicate_nat]
  have same : plainName separators (String.ofList (List.replicate count c)) = plainName separators
      (String.ofList ((List.replicate count (interpreter.fold c)).flatten.take count)) := by
    apply apart.plainName_eq
    · apply acceptedName_of_solid
      · intro empty
        have none_ := congrArg String.toList empty
        rw [String.toList_ofList, isCount] at none_
        cases none_
      · intro d dMem
        rw [String.toList_ofList] at dMem
        rw [List.eq_of_mem_replicate dMem]
        exact solid
      · rw [String.toList_ofList, List.length_replicate, isCount]
    · apply acceptedName_of_solid
      · intro empty
        have none_ := congrArg String.toList empty
        rw [String.toList_ofList] at none_
        have noLength := congrArg List.length none_
        rw [List.length_take, lengths] at noLength
        change min count (count * _) = 0 at noLength
        rw [isCount] at noLength
        omega
      · intro d dMem
        rw [String.toList_ofList] at dMem
        exact isSpace_of_isKeyChar separators (Or.inl (secondKeys d dMem))
      · rw [String.toList_ofList]
        rw [← isCount]
        exact List.length_take_le _ _
    · intro d dMem
      rw [String.toList_ofList] at dMem
      rw [List.eq_of_mem_replicate dMem]
      exact inAlphabet
    · intro d dMem
      rw [String.toList_ofList] at dMem
      exact common d (Or.inl (secondKeys d dMem))
    · have firstKey := @canonicalKey_of_keys _ (String.ofList (List.replicate count c)) _
        (by rw [firstFold]; exact firstKeys) firstFold
      have secondKey := @canonicalKey_of_keys _ (String.ofList
        ((List.replicate count (interpreter.fold c)).flatten.take count)) _
        (by rw [secondFold]; exact secondKeys) secondFold
      rw [firstKey, secondKey, List.take_take, isCount, Nat.min_self]
  have firstPlain : plainName separators (String.ofList (List.replicate count c)) =
      (List.replicate count (interpreter.fold c)).flatten := by
    rw [plainName_of_keys, firstFold]
    rw [firstFold]
    exact firstKeys
  have secondPlain : plainName separators (String.ofList
      ((List.replicate count (interpreter.fold c)).flatten.take count)) =
        (List.replicate count (interpreter.fold c)).flatten.take count := by
    rw [plainName_of_keys, secondFold]
    rw [secondFold]
    exact secondKeys
  rw [firstPlain, secondPlain] at same
  have sameLength := congrArg List.length same
  rw [List.length_take, lengths, isCount] at sameLength
  omega

/-- Names over an alphabet are told apart exactly when the key keeps its characters apart. -/
theorem namesApart_iff (common : ∀ c, isKeyChar c = true ∨ c = '-' → c ∈ alphabet) :
    NamesApart interpreter separators alphabet ↔ ∀ c ∈ alphabet, KeyedChar separators c := by
  constructor
  · intro apart c inAlphabet
    constructor
    · exact apart.length_fold_le common inAlphabet
    · intro folded foldedMem
      exact apart.folded common inAlphabet foldedMem
  · intro keyed first second firstAccepted secondAccepted firstOver secondOver _ _ _ _ stay sameId
    apply plainName_eq_of_keyed
    · exact fun c cMem => keyed c (firstOver c cMem)
    · exact fun c cMem => keyed c (secondOver c cMem)
    · exact firstAccepted.length_le
    · exact secondAccepted.length_le
    · exact canonicalKey_eq_of_id_eq stay sameId

end Alphabets

/-! ## Names in other scripts -/

theorem not_alphanum_of_isSpace {c : Char} (isSpace : Text.isSpace c = true) :
    c.isAlphanum = false ∧ c.toLower = c := by
  have code : c.toNat = c.val.toNat := rfl
  simp only [Text.isSpace, Bool.or_eq_true, Bool.and_eq_true, decide_eq_true_eq,
    beq_iff_eq] at isSpace
  constructor
  · rw [← Bool.not_eq_true]
    intro isAlphanum
    simp only [Char.isAlphanum, Char.isAlpha, Char.isUpper, Char.isLower, Char.isDigit,
      Bool.or_eq_true, decide_eq_true_eq, Bool.and_eq_true, ge_iff_le,
      UInt32.le_iff_toNat_le] at isAlphanum
    have letters : 'A'.val.toNat = 65 ∧ 'Z'.val.toNat = 90 ∧ 'a'.val.toNat = 97 ∧
        'z'.val.toNat = 122 ∧ '0'.val.toNat = 48 ∧ '9'.val.toNat = 57 :=
      ⟨rfl, rfl, rfl, rfl, rfl, rfl⟩
    omega
  · have notUpper : ¬ (65 ≤ c.val.toNat ∧ c.val.toNat ≤ 90) := by omega
    rw [Char.toLower, dif_neg]
    simpa [UInt32.le_iff_toNat_le] using notUpper

/-- The separators of ASCII. -/
def Separators.ascii : Separators Unicode.ascii where
  isSeparator c := !c.isAlphanum && (Text.isSpace c || c.toNat < 128)
  space c isSpace := by
    rw [(not_alphanum_of_isSpace isSpace).1, isSpace]
    rfl
  dash := by decide
  alnum c isAlnum := by
    change c.isAlphanum = true at isAlnum
    rw [isAlnum]
    rfl
  fold_space c isSpace := by
    change [c.toLower] = [c]
    rw [(not_alphanum_of_isSpace isSpace).2]
  fold_long c long := by
    change 2 ≤ 1 at long
    omega

/-- Two Chinese names have an empty key, and are resolved to one entity. -/
theorem chinese_names_merge :
    AcceptedName Interpreter.ascii "李明" ∧ AcceptedName Interpreter.ascii "王芳" ∧
      (resolveEntity Unicode.ascii (resolveEntity Unicode.ascii .blank 7 "李明" "person").1 7 "王芳"
        "person").2.id = (resolveEntity Unicode.ascii .blank 7 "李明" "person").2.id ∧
      plainName Separators.ascii "李明" ≠ plainName Separators.ascii "王芳" := by
  refine ⟨?_, ?_, ?_, ?_⟩
  · apply acceptedName_of_solid <;> decide
  · apply acceptedName_of_solid <;> decide
  · decide
  · decide

/-- The characters of a key, and the dash. -/
theorem ascii_names_apart :
    NamesApart Interpreter.ascii Separators.ascii {c | isKeyChar c = true ∨ c = '-'} := by
  apply (namesApart_iff fun _ isCommon => isCommon).mpr
  intro c isCommon
  constructor
  · exact Nat.le_refl 1
  · intro folded foldedMem
    have folded_eq : folded = c.toLower := by simpa [Interpreter.ascii, Unicode.ascii] using foldedMem
    rcases isCommon with isKey | rfl
    · rw [folded_eq, (isKeyChar_ascii isKey).2.2]
      exact Or.inl isKey
    · rw [folded_eq]
      decide

end DotBackend.Memory
