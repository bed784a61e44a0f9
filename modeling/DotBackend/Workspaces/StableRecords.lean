import DotBackend.Workspaces.StableChecks

/-!
# Validated records validate again

All validators but one check each member by itself and then the record as a whole; entries of
a collection are checked against the fields that are configured. Either way a record that was
accepted is accepted again as it is, and what is kept under a key depends on what was given
under that key.
-/

namespace DotBackend.Workspaces

open Data

variable {fields data out : Fields} {library : Library}

/-- The validator accepts what it returned, unchanged, and makes the member of a key of what
was given there. -/
structure Settled (validator : Fields → Except String Fields) : Prop where
  again : ∀ {data out}, validator data = .ok out → validator out = .ok out
  memberwise : ∀ {data other out otherOut} (key : String), validator data = .ok out →
    validator other = .ok otherOut → Json.lookup data key = Json.lookup other key →
      Json.lookup out key = Json.lookup otherOut key

/-! ## Validators of members -/

/-- A validator of a record with given members, each with a check of its own, which may refuse
the rebuilt record as a whole. -/
structure Fieldwise (validator : Fields → Except String Fields) where
  members : List (String × (Json → Except String Json))
  label : String
  allowed : Fields → Bool
  distinct : (members.map Prod.fst).Nodup
  stable : ∀ member ∈ members, Stable member.2
  eq_ok : ∀ data out, validator data = .ok out ↔
    exactKeys data (members.map Prod.fst) label = .ok () ∧
      rebuild members (get data) = .ok out ∧ allowed out = true

theorem get_of_mem (distinct : (fields.map Prod.fst).Nodup)
    {entry : String × Json} (entryMem : entry ∈ fields) : get fields entry.1 = entry.2 := by
  induction fields with
  | nil => cases entryMem
  | cons first rest ih =>
      rw [List.map_cons, List.nodup_cons] at distinct
      rw [get, Json.lookup_cons]
      rcases List.mem_cons.mp entryMem with rfl | isLater
      · rw [if_pos rfl]
        rfl
      · have differs : first.1 ≠ entry.1 := fun same =>
          distinct.1 (same ▸ List.mem_map_of_mem isLater)
        rw [if_neg differs]
        exact ih distinct.2 isLater

theorem exactKeys_of_keys {expected : List String} {label : String}
    (keys : fields.map Prod.fst = expected) : exactKeys fields expected label = .ok () := by
  rw [exactKeys, require_eq_ok, Bool.and_eq_true]
  constructor
  · rw [List.all_eq_true]
    intro entry entryMem
    rw [decide_eq_true_eq, ← keys]
    exact List.mem_map_of_mem entryMem
  · rw [List.all_eq_true]
    intro key keyMem
    rw [Json.lookup_isSome_iff, keys]
    exact keyMem

theorem lookup_of_forall₂ {other : Fields} {key : String}
    (same : List.Forall₂ (fun first second : String × Json => first.1 = second.1 ∧
      (first.1 = key → first.2 = second.2)) fields other) :
    Json.lookup fields key = Json.lookup other key := by
  induction same with
  | nil => rfl
  | cons first _ ih =>
      rcases first with ⟨sameKey, sameValue⟩
      rw [Json.lookup_cons, Json.lookup_cons, ← sameKey, ih]
      split
      · rename_i isKey
        rw [sameValue isKey]
      · rfl

/-- A validator of members is settled. -/
theorem Fieldwise.settled {validator : Fields → Except String Fields}
    (fieldwise : Fieldwise validator) : Settled validator where
  again := by
    intro data out validated
    rw [fieldwise.eq_ok] at validated ⊢
    rcases validated with ⟨_, rebuilt, isAllowed⟩
    have keys := keys_rebuild rebuilt
    refine ⟨exactKeys_of_keys keys, ?_, isAllowed⟩
    apply rebuild_rebuilt fieldwise.stable rebuilt
    intro entry entryMem
    exact get_of_mem (keys ▸ fieldwise.distinct) entryMem
  memberwise := by
    intro data other out otherOut key validated otherValidated same
    rw [fieldwise.eq_ok] at validated otherValidated
    apply lookup_of_forall₂
    apply (forall₂_rebuild validated.2.1 otherValidated.2.1).imp
    rintro first second ⟨sameKey, alike⟩
    refine ⟨sameKey, ?_⟩
    rintro rfl
    apply alike
    rw [get, get, same]

/-- A step is read before what follows it. -/
theorem exists_step {α β : Type} {step : α → Prop} {next : α → β → Prop} {last : β → Prop} :
    (∃ b, (∃ a, step a ∧ next a b) ∧ last b) ↔ ∃ a, step a ∧ ∃ b, next a b ∧ last b := by
  constructor
  · rintro ⟨b, ⟨a, isStep, isNext⟩, isLast⟩
    exact ⟨a, isStep, b, isNext, isLast⟩
  · rintro ⟨a, isStep, b, isNext, isLast⟩
    exact ⟨b, ⟨a, isStep, isNext⟩, isLast⟩

section Records

variable (library : Library) (settings : Fields)

def todoFieldwise : Fieldwise (todoRecord library.python) where
  members :=
    [("text", fun value => (text value "text" 240).map .str),
      ("completed", fun value => (boolean value "completed").map .bool),
      ("due_date", fun value => (optionalDate library.python value).map orNull),
      ("assignee", fun value => (optionalText value 80).map orNull),
      ("priority", keepIf (isOneOf · ["low", "normal", "high"])
        "todo priority must be low, normal, or high")]
  label := "todo"
  allowed _ := true
  distinct := by
    simp only [List.map_cons, List.map_nil]
    decide
  stable := by
    simp only [List.forall_mem_cons]
    exact ⟨stable_text _ _, stable_boolean _, stable_optionalDate library, stable_optionalText _,
      stable_keepIf _ _, List.forall_mem_nil _⟩
  eq_ok data out := by
    simp only [todoRecord, rebuild, bind_eq_ok, pure_eq_ok, map_eq_ok, keepIf_eq_ok, require_eq_ok,
      exists_step, exists_const, Except.ok.injEq, exists_eq_left', and_assoc, exists_and_left]
    constructor
    · rintro ⟨_, keys, known, a, isText, b, isBoolean, c, isDate, d, isAssignee, made⟩
      exact ⟨keys, ⟨a, isText, b, isBoolean, c, isDate, d, isAssignee, known, made⟩, trivial⟩
    · rintro ⟨keys, ⟨a, isText, b, isBoolean, c, isDate, d, isAssignee, known, made⟩, _⟩
      exact ⟨(), keys, known, a, isText, b, isBoolean, c, isDate, d, isAssignee, made⟩

/-- The check of the size of a party. -/
def partySize (value : Json) : Except String Json :=
  match value with
  | .int size => do
      let maximum : Int := if (get settings "allow_plus_ones").truthy then 20 else 1
      require (1 ≤ size && size ≤ maximum) ("party_size must be between 1 and " ++ toString maximum)
      pure (.int size)
  | _ => .error "party_size must be an integer"

theorem stable_partySize : Stable (partySize settings) := by
  intro value found checked
  have isSame : found = value := by
    unfold partySize at checked
    split at checked
    · simp only [bind_eq_ok, pure_eq_ok] at checked
      rcases checked with ⟨_, _, rfl⟩
      rfl
    · cases checked
  rw [isSame] at checked ⊢
  exact checked

def guestFieldwise : Fieldwise fun data => guestRecord data settings where
  members :=
    [("name", fun value => (text value "name" 80).map .str),
      ("status", keepIf (isOneOf · ["invited", "going", "maybe", "declined"])
        "guest status is invalid"),
      ("party_size", partySize settings),
      ("note", fun value => (textOrEmpty value 240).map .str)]
  label := "guest"
  allowed _ := true
  distinct := by
    simp only [List.map_cons, List.map_nil]
    decide
  stable := by
    simp only [List.forall_mem_cons]
    exact ⟨stable_text _ _, stable_keepIf _ _, stable_partySize settings, stable_textOrEmpty _,
      List.forall_mem_nil _⟩
  eq_ok data out := by
    cases size : get data "party_size" with
    | int count =>
        simp only [guestRecord, size, partySize, rebuild, bind_eq_ok, pure_eq_ok, map_eq_ok,
          keepIf_eq_ok, require_eq_ok, exists_step, exists_const, Except.ok.injEq, exists_eq_left',
          and_assoc, exists_and_left]
        constructor
        · rintro ⟨_, keys, known, within, a, isText, b, isNote, made⟩
          exact ⟨keys, ⟨a, isText, known, within, b, isNote, made⟩, trivial⟩
        · rintro ⟨keys, ⟨a, isText, known, within, b, isNote, made⟩, _⟩
          exact ⟨(), keys, known, within, a, isText, b, isNote, made⟩
    | _ =>
        simp only [guestRecord, size, partySize, rebuild, bind_eq_ok, pure_eq_ok, map_eq_ok,
          keepIf_eq_ok, require_eq_ok, exists_step, exists_const, Except.ok.injEq, exists_eq_left',
          and_assoc, exists_and_left]
        simp

/-- Where both times are given, the first is before the second. -/
def orderedTimes (record : Fields) : Bool :=
  match get record "start_time", get record "end_time" with
  | .str startTime, .str endTime => startTime < endTime
  | _, _ => true

def itineraryFieldwise : Fieldwise (itineraryRecord library.python) where
  members :=
    [("title", fun value => (text value "title" 160).map .str),
      ("date", fun value => (optionalDate library.python value).map orNull),
      ("start_time", fun value => (optionalTime library.python value).map orNull),
      ("end_time", fun value => (optionalTime library.python value).map orNull),
      ("location", fun value => (textOrEmpty value 160).map .str),
      ("note", fun value => (textOrEmpty value 500).map .str),
      ("completed", fun value => (boolean value "completed").map .bool)]
  label := "itinerary item"
  allowed := orderedTimes
  distinct := by
    simp only [List.map_cons, List.map_nil]
    decide
  stable := by
    simp only [List.forall_mem_cons]
    exact ⟨stable_text _ _, stable_optionalDate library, stable_optionalTime library,
      stable_optionalTime library, stable_textOrEmpty _, stable_textOrEmpty _, stable_boolean _,
      List.forall_mem_nil _⟩
  eq_ok data out := by
    have ordered : ∀ (title date location note completed : Json) (startTime endTime : Option String),
        orderedTimes [("title", title), ("date", date), ("start_time", orNull startTime),
          ("end_time", orNull endTime), ("location", location), ("note", note),
          ("completed", completed)] =
        startTime.all fun startTime => endTime.all fun endTime => startTime < endTime := by
      intro title date location note completed startTime endTime
      cases startTime <;> cases endTime <;> rfl
    simp only [itineraryRecord, rebuild, bind_eq_ok, pure_eq_ok, map_eq_ok, require_eq_ok,
      exists_step, exists_const, Except.ok.injEq, exists_eq_left']
    constructor
    · rintro ⟨_, keys, a, isStart, b, isEnd, inOrder, c, isTitle, d, isDate, e, isLocation, f, isNote,
        g, isBoolean, rfl⟩
      refine ⟨keys, ⟨c, isTitle, d, isDate, a, isStart, b, isEnd, e, isLocation, f, isNote, g,
        isBoolean, rfl⟩, ?_⟩
      rw [ordered]
      exact inOrder
    · rintro ⟨keys, ⟨c, isTitle, d, isDate, a, isStart, b, isEnd, e, isLocation, f, isNote, g,
        isBoolean, rfl⟩, inOrder⟩
      rw [ordered] at inOrder
      exact ⟨(), keys, a, isStart, b, isEnd, inOrder, c, isTitle, d, isDate, e, isLocation, f, isNote,
        g, isBoolean, rfl⟩

def participantFieldwise : Fieldwise fun data => participantRecord data settings where
  members := [("name", fun value => (text value "name" 80).map .str)]
  label := "participant"
  allowed _ := get settings "mode" = .str "split"
  distinct := by
    simp only [List.map_cons, List.map_nil]
    decide
  stable := by
    simp only [List.forall_mem_cons]
    exact ⟨stable_text _ _, List.forall_mem_nil _⟩
  eq_ok data out := by
    simp only [participantRecord, rebuild, bind_eq_ok, pure_eq_ok, map_eq_ok, require_eq_ok,
      exists_step, exists_const, Except.ok.injEq, exists_eq_left']
    constructor
    · rintro ⟨isSplit, _, keys, a, isText, made⟩
      exact ⟨keys, ⟨a, isText, made⟩, isSplit⟩
    · rintro ⟨keys, ⟨a, isText, made⟩, isSplit⟩
      exact ⟨isSplit, (), keys, a, isText, made⟩

/-- Split expenses have a payer and somebody to split with, personal ones neither. -/
def matchesMode (record : Fields) : Bool :=
  let isSplit := get settings "mode" = .str "split"
  let isPersonal := get settings "mode" = .str "personal"
  let isPaid := get record "paid_by" ≠ .null
  let isShared := get record "split_between" ≠ .arr []
  (!isSplit || (isPaid && isShared)) && (!isPersonal || (!isPaid && !isShared))

theorem matchesMode_iff {record : Fields} {payer : Option String} {split : List String}
    (paid : get record "paid_by" = orNull payer)
    (shared : get record "split_between" = texts split) :
    matchesMode settings record = true ↔
      (decide (get settings "mode" ≠ .str "split") || (payer.isSome && !split.isEmpty)) = true ∧
        (decide (get settings "mode" ≠ .str "personal") || (payer.isNone && split.isEmpty)) =
          true := by
  simp only [matchesMode, paid, shared]
  cases payer <;> cases split <;> simp [orNull, texts]

def expenseFieldwise : Fieldwise fun data => expenseRecord library.python data settings where
  members :=
    [("amount", fun value => (positiveNumber library.python value "amount").map .float),
      ("category", fun value => (text value "category" 60).map .str),
      ("note", fun value => (textOrEmpty value 240).map .str),
      ("date", fun value => (requiredDate library.python value).map .str),
      ("paid_by", fun value => (optionalText value 80).map orNull),
      ("split_between", uniqueList library.python "split participant" 20 80
        "split_between must be a list")]
  label := "expense"
  allowed := matchesMode settings
  distinct := by
    simp only [List.map_cons, List.map_nil]
    decide
  stable := by
    simp only [List.forall_mem_cons]
    exact ⟨stable_positiveNumber library _, stable_text _ _, stable_textOrEmpty _,
      stable_requiredDate library, stable_optionalText _, stable_uniqueList library.python _ _ _ _,
      List.forall_mem_nil _⟩
  eq_ok data out := by
    cases rawSplit : get data "split_between" with
    | arr values =>
        simp only [expenseRecord, rawSplit, uniqueList, rebuild, bind_eq_ok, pure_eq_ok, map_eq_ok,
          require_eq_ok, exists_step, exists_const, Except.ok.injEq, exists_eq_left']
        constructor
        · rintro ⟨_, keys, a, isPayer, b, isUnique, ofSplit, ofPersonal, c, isAmount, d, isCategory,
            e, isNote, f, isDate, rfl⟩
          refine ⟨keys, ⟨c, isAmount, d, isCategory, e, isNote, f, isDate, a, isPayer, b, isUnique,
            rfl⟩, ?_⟩
          exact (matchesMode_iff settings rfl rfl).mpr ⟨ofSplit, ofPersonal⟩
        · rintro ⟨keys, ⟨c, isAmount, d, isCategory, e, isNote, f, isDate, a, isPayer, b, isUnique,
            rfl⟩, inMode⟩
          rcases (matchesMode_iff settings rfl rfl).mp inMode with ⟨ofSplit, ofPersonal⟩
          exact ⟨(), keys, a, isPayer, b, isUnique, ofSplit, ofPersonal, c, isAmount, d, isCategory,
            e, isNote, f, isDate, rfl⟩
    | _ =>
        simp only [expenseRecord, rawSplit, uniqueList, rebuild, bind_eq_ok, pure_eq_ok, map_eq_ok,
          exists_step, Except.ok.injEq, exists_eq_left']
        simp

def measurementFieldwise : Fieldwise (measurementRecord library.python) where
  members :=
    [("value", fun value => (number library.python value "value").map .float),
      ("note", fun value => (textOrEmpty value 240).map .str),
      ("date", fun value => (requiredDate library.python value).map .str)]
  label := "measurement"
  allowed _ := true
  distinct := by
    simp only [List.map_cons, List.map_nil]
    decide
  stable := by
    simp only [List.forall_mem_cons]
    exact ⟨stable_number library _, stable_textOrEmpty _, stable_requiredDate library,
      List.forall_mem_nil _⟩
  eq_ok data out := by
    simp only [measurementRecord, rebuild, bind_eq_ok, pure_eq_ok, map_eq_ok, exists_step,
      Except.ok.injEq, exists_eq_left']
    constructor
    · rintro ⟨_, keys, found⟩
      exact ⟨keys, found, trivial⟩
    · rintro ⟨keys, found, _⟩
      exact ⟨(), keys, found⟩

def noteFieldwise : Fieldwise noteRecord where
  members :=
    [("title", fun value => (text value "title" 120).map .str),
      ("body", fun value => (text value "body" 5000).map .str),
      ("pinned", fun value => (boolean value "pinned").map .bool)]
  label := "note"
  allowed _ := true
  distinct := by
    simp only [List.map_cons, List.map_nil]
    decide
  stable := by
    simp only [List.forall_mem_cons]
    exact ⟨stable_text _ _, stable_text _ _, stable_boolean _, List.forall_mem_nil _⟩
  eq_ok data out := by
    simp only [noteRecord, rebuild, bind_eq_ok, pure_eq_ok, map_eq_ok, exists_step, Except.ok.injEq,
      exists_eq_left']
    constructor
    · rintro ⟨_, keys, found⟩
      exact ⟨keys, found, trivial⟩
    · rintro ⟨keys, found, _⟩
      exact ⟨(), keys, found⟩

end Records

/-! ## Entries of collections -/

section Collections

variable (library : Library)

/-- What becomes of a value that is given. -/
def configuredValue (value field : Json) : Except String Json :=
  let label := textOf (fieldMember field "label")
  let fieldType := fieldMember field "type"
  if isOneOf fieldType ["number", "currency"] then (number library value label).map .float
  else if fieldType = .str "boolean" then (boolean value label).map .bool
  else if fieldType = .str "date" then (requiredDate library value).map .str
  else if fieldType = .str "time" then (optionalTime library value).map orNull
  else do
    let found ← text value label 500
    match fieldMember field "options" with
    | .arr options =>
        require (fieldType ≠ .str "select" || isOneOf (.str found) (options.map textOf))
          (label ++ " must use a configured option")
    | _ => .ok ()
    pure (.str found)

theorem collectionValue_of_ne_null {value : Json} (notNull : value ≠ .null) (field : Json) :
    collectionValue library value field = configuredValue library value field := by
  cases value with
  | null => exact absurd rfl notNull
  | _ => rfl

theorem stable_configuredValue (field : Json) :
    Stable fun value => configuredValue library.python value field := by
  intro value found checked
  unfold configuredValue at checked ⊢
  dsimp only at checked ⊢
  split at checked
  · rename_i isNumber
    rw [if_pos isNumber]
    exact stable_number library _ value found checked
  rename_i notNumber
  rw [if_neg notNumber]
  split at checked
  · rename_i isBoolean
    rw [if_pos isBoolean]
    exact stable_boolean _ value found checked
  rename_i notBoolean
  rw [if_neg notBoolean]
  split at checked
  · rename_i isDate
    rw [if_pos isDate]
    exact stable_requiredDate library value found checked
  rename_i notDate
  rw [if_neg notDate]
  split at checked
  · rename_i isTime
    rw [if_pos isTime]
    exact stable_optionalTime library value found checked
  rename_i notTime
  rw [if_neg notTime]
  rw [bind_eq_ok] at checked ⊢
  rcases checked with ⟨kept, isText, isOption⟩
  have isKept : found = .str kept := by
    split at isOption
    · simp only [bind_eq_ok, pure_eq_ok] at isOption
      rcases isOption with ⟨_, _, same⟩
      exact same.symm
    · cases isOption
      rfl
  rw [isKept] at isOption ⊢
  exact ⟨kept, text_again isText, isOption⟩

/-- A value that is given is kept as one. -/
theorem configuredValue_ne_null {value field found : Json} (notNull : value ≠ .null)
    (configured : configuredValue library value field = .ok found) : found ≠ .null := by
  unfold configuredValue at configured
  dsimp only at configured
  split at configured
  · rw [map_eq_ok] at configured
    rcases configured with ⟨_, _, rfl⟩
    exact Json.noConfusion
  split at configured
  · rw [map_eq_ok] at configured
    rcases configured with ⟨_, _, rfl⟩
    exact Json.noConfusion
  split at configured
  · rw [map_eq_ok] at configured
    rcases configured with ⟨_, _, rfl⟩
    exact Json.noConfusion
  split at configured
  · rw [map_eq_ok] at configured
    rcases configured with ⟨time, isTime, rfl⟩
    unfold optionalTime at isTime
    split at isTime
    · exact absurd rfl notNull
    · split at isTime
      · cases isTime
        exact Json.noConfusion
      · cases isTime
    · cases isTime
  · rw [bind_eq_ok] at configured
    rcases configured with ⟨kept, _, isOption⟩
    split at isOption
    · simp only [bind_eq_ok, pure_eq_ok] at isOption
      rcases isOption with ⟨_, _, rfl⟩
      exact Json.noConfusion
    · cases isOption
      exact Json.noConfusion

/-- A value of a field is accepted again. -/
theorem stable_collectionValue (field : Json) :
    Stable fun value => collectionValue library.python value field := by
  intro value found checked
  by_cases isNull : value = .null
  · have accepted := checked
    rw [isNull] at checked
    simp only [collectionValue, bind_eq_ok, pure_eq_ok] at checked
    rcases checked with ⟨_, _, rfl⟩
    rw [isNull] at accepted
    exact accepted
  · dsimp only at checked ⊢
    rw [collectionValue_of_ne_null _ isNull] at checked
    rw [collectionValue_of_ne_null _ (configuredValue_ne_null _ isNull checked)]
    exact stable_configuredValue library field value found checked

/-- The field with a key, of those that are configured. -/
def fieldOf (fields : List Json) (key : String) : Option Json :=
  fields.find? fun field => textOf (fieldMember field "key") = key

/-- An entry is made value by value. -/
def MadeOf (fields : List Json) (data out : Fields) : Prop :=
  List.Forall₂ (fun entry made => entry.1 = made.1 ∧
    collectionValue library.python entry.2 ((fieldOf fields entry.1).getD .null) = .ok made.2) data out

theorem collectionEntryRecord_eq_ok {settings : Fields} :
    collectionEntryRecord library.python data settings = .ok out ↔
      ∃ fields, get settings "fields" = .arr fields ∧
        (∀ entry ∈ data, (fieldOf fields entry.1).isSome) ∧ MadeOf library fields data out ∧
        (fields.filter fun field => (fieldMember field "required").truthy &&
          (Json.lookup out (textOf (fieldMember field "key"))).isNone).isEmpty := by
  have made : ∀ fields, data.mapM (fun entry => (collectionValue library.python entry.2
      ((fieldOf fields entry.1).getD .null)).map fun value => (entry.1, value)) = .ok out ↔
        MadeOf library fields data out := by
    intro fields
    have sameEntry : ∀ entry made : String × Json,
        (collectionValue library.python entry.2 ((fieldOf fields entry.1).getD .null)).map
          (fun value => (entry.1, value)) = .ok made ↔ entry.1 = made.1 ∧
        collectionValue library.python entry.2 ((fieldOf fields entry.1).getD .null) =
          .ok made.2 := by
      rintro entry ⟨key, value⟩
      rw [map_eq_ok]
      constructor
      · rintro ⟨found, isFound, same⟩
        cases same
        exact ⟨rfl, isFound⟩
      · rintro ⟨same, isFound⟩
        exact ⟨value, isFound, by rw [same]⟩
    rw [mapM_eq_ok, MadeOf]
    simp only [sameEntry]
  unfold collectionEntryRecord
  split
  · rename_i fields isFields
    simp only [bind_eq_ok, require_eq_ok, pure_eq_ok, exists_const, isFields, Json.arr.injEq,
      exists_eq_left', List.all_eq_true]
    constructor
    · rintro ⟨known, _, isMade, complete, rfl⟩
      exact ⟨known, (made fields).mp isMade, complete⟩
    · rintro ⟨known, isMade, complete⟩
      exact ⟨known, out, (made fields).mpr isMade, complete, rfl⟩
  · rename_i notFields
    constructor
    · intro impossible
      cases impossible
    · rintro ⟨fields, isFields, _⟩
      exact absurd isFields (notFields fields)

/-- What an entry has under a key is made of what was given there. -/
theorem MadeOf.lookup {fields : List Json} (made : MadeOf library fields data out) (key : String) :
    Json.lookup out key = (Json.lookup data key).bind fun value =>
      (collectionValue library.python value ((fieldOf fields key).getD .null)).toOption := by
  induction made with
  | nil => rfl
  | cons first _ ih =>
      rcases first with ⟨sameKey, isFound⟩
      rw [Json.lookup_cons, Json.lookup_cons, ← sameKey]
      split
      · rename_i isKey
        rw [isKey] at isFound
        rw [Option.bind_some, isFound]
        rfl
      · exact ih

theorem MadeOf.keys {fields : List Json} (made : MadeOf library fields data out) :
    out.map Prod.fst = data.map Prod.fst := by
  induction made with
  | nil => rfl
  | cons first _ ih =>
      rw [List.map_cons, List.map_cons, ih, first.1]

theorem MadeOf.again {fields : List Json} (made : MadeOf library fields data out) :
    MadeOf library fields out out := by
  induction made with
  | nil => exact List.Forall₂.nil
  | cons first _ ih =>
      rcases first with ⟨sameKey, isFound⟩
      rw [sameKey] at isFound
      exact List.Forall₂.cons ⟨rfl, stable_collectionValue library _ _ _ isFound⟩ ih

theorem settled_collectionEntry (settings : Fields) :
    Settled fun data => collectionEntryRecord library.python data settings where
  again := by
    intro data out validated
    rw [collectionEntryRecord_eq_ok] at validated ⊢
    rcases validated with ⟨fields, isFields, known, made, complete⟩
    refine ⟨fields, isFields, ?_, made.again, complete⟩
    intro entry entryMem
    have isKey : entry.1 ∈ data.map Prod.fst := made.keys ▸ List.mem_map_of_mem entryMem
    rcases List.mem_map.mp isKey with ⟨first, firstMem, sameKey⟩
    rw [← sameKey]
    exact known first firstMem
  memberwise := by
    intro data other out otherOut key validated otherValidated same
    rw [collectionEntryRecord_eq_ok] at validated otherValidated
    rcases validated with ⟨fields, isFields, _, made, _⟩
    rcases otherValidated with ⟨otherFields, areFields, _, otherMade, _⟩
    cases isFields.symm.trans areFields
    rw [made.lookup, otherMade.lookup, same]

end Collections

/-- Every validator of records is settled, with whatever settings. -/
theorem settled_validateModuleRecord (library : Library) (module : AppModule) (kind : String) :
    Settled (validateModuleRecord library.python module kind) := by
  have refused : Settled fun _ =>
      (.error "Record type does not match this module" : Except String Fields) := by
    constructor
    · intro _ _ impossible
      cases impossible
    · intro _ _ _ _ _ impossible
      cases impossible
  have isSettled : ∀ validator,
      module.type.recordValidator library.python kind = some validator →
        Settled fun data => validator data module.settings := by
    intro validator isValidator
    unfold ModuleType.recordValidator at isValidator
    split at isValidator <;> cases isValidator
    · exact (todoFieldwise library).settled
    · exact (guestFieldwise module.settings).settled
    · exact (itineraryFieldwise library).settled
    · exact (participantFieldwise module.settings).settled
    · exact (expenseFieldwise library module.settings).settled
    · exact (measurementFieldwise library).settled
    · exact noteFieldwise.settled
    · exact settled_collectionEntry library module.settings
  cases found : module.type.recordValidator library.python kind with
  | none =>
      have same : validateModuleRecord library.python module kind = fun _ =>
          .error "Record type does not match this module" := by
        funext data
        rw [validateModuleRecord, found]
      rw [same]
      exact refused
  | some validator =>
      have same : validateModuleRecord library.python module kind = fun data =>
          validator data module.settings := by
        funext data
        rw [validateModuleRecord, found]
      rw [same]
      exact isSettled validator found

end DotBackend.Workspaces
