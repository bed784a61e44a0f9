import DotBackend.Builder.Manifests
import DotBackend.Builder.Package

/-!
# Acceptance plans

The interactions that the browser has to carry out with a candidate, derived from the
manifest: every declared entity is listed, and then a record of it is created. Creating is
required, listing is not.
-/

namespace DotBackend.Builder

open Data Apps

/-- `TypeError`: a value that is not iterable, or one that cannot be hashed. -/
inductive PlanError
  | notIterable
  | unhashable
  deriving DecidableEq

/-- One interaction; the plan of a manifest never has a selector. -/
structure AcceptanceStep where
  operation : String
  entity : String
  required : Bool
  eventType : Option String
  selector : Option String
  fieldHints : Fields
  requiredPayloadFields : List String
  allowedPayloadFields : List String
  deriving DecidableEq

/-- `_COMPUTED_ACCEPTANCE_FIELDS`. -/
def computedAcceptanceFields : List String :=
  ["created_at", "updated_at", "id", "version"]

/-- The table of `_acceptance_value`. -/
def acceptanceValues : List (String × Json) :=
  [("number", .int 1), ("integer", .int 1), ("money", .int 1), ("boolean", .bool true),
    ("date", .str "2026-01-01"), ("datetime", .str "2026-01-01T09:00:00Z"), ("object", .obj []),
    ("array", .arr [])]

/-- `_acceptance_value`. -/
def acceptanceValue (kind : Option Json) : Except PlanError Json :=
  match kind with
  | some (.arr _) | some (.obj _) => .error .unhashable
  | some (.str kind) => .ok ((acceptanceValues.lookup kind).getD (.str "test"))
  | _ => .ok (.str "test")

/-- The fields of a list of definitions, by their names. -/
def namedFields (items : List Json) : Fields :=
  items.foldl (fun fields item =>
    match item with
    | .obj definition =>
        match Json.lookup definition "name" with
        | some (.str name) => Json.assign name item fields
        | _ => fields
    | _ => fields) []

/-- `normalized_fields`. -/
def normalizedFields (definition : Fields) : Fields :=
  match (Json.lookup definition "fields").getD (.obj []) with
  | .obj fields => fields
  | .arr items => namedFields items
  | _ => []

/-- `sorted(names)`. -/
def sortedNames (names : List String) : List String :=
  names.insertionSort fun a b => a ≤ b

/-- `required_fields`. -/
def requiredAcceptanceFields (fields : Fields) : List String :=
  sortedNames ((fields.filter fun field =>
    field.1 ∉ computedAcceptanceFields &&
      match field.2 with
      | .obj definition => Json.lookup definition "required" = some (.bool true)
      | _ => false).map Prod.fst)

/-- `field_values`. -/
def fieldValues : Fields → Except PlanError Fields
  | [] => .ok []
  | (name, value) :: rest =>
      match value with
      | .obj definition =>
          if name ∈ computedAcceptanceFields then fieldValues rest
          else do
            let hint ← acceptanceValue (Json.lookup definition "type")
            let hints ← fieldValues rest
            pure ((name, hint) :: hints)
      | _ => fieldValues rest

/-- `list_step`. -/
def listStep (entity : String) : AcceptanceStep where
  operation := "records.list"
  entity := entity
  required := false
  eventType := none
  selector := none
  fieldHints := []
  requiredPayloadFields := []
  allowedPayloadFields := []

/-- `create_step`. -/
def createStep (entity : String) (definition : Fields) : Except PlanError AcceptanceStep := do
  let fields := normalizedFields definition
  let hints ← fieldValues fields
  pure {
    operation := "records.create"
    entity := entity
    required := true
    eventType := some "submit"
    selector := none
    fieldHints := hints
    requiredPayloadFields := requiredAcceptanceFields fields
    allowedPayloadFields := sortedNames (fields.map Prod.fst) }

/-- `entity_definitions`, by their names. -/
def namedDefinitions (items : List Json) : List (String × Fields) :=
  items.filterMap fun item =>
    match item with
    | .obj definition =>
        match Json.lookup definition "name" with
        | some (.str name) => some (name, definition)
        | _ => none
    | _ => none

/-- `create_step` of every entity, in the order of the manifest. -/
def createSteps : List (String × Fields) → Except PlanError (List AcceptanceStep)
  | [] => .ok []
  | (entity, definition) :: rest => do
      let first ← createStep entity definition
      let others ← createSteps rest
      pure (first :: others)

/-- `_acceptance_plan`. -/
def acceptancePlan (manifest : Fields) : Except PlanError (List AcceptanceStep) :=
  match (Json.lookup manifest "entities").getD (.arr []) with
  | .arr items => do
      let definitions := namedDefinitions items
      let creates ← createSteps definitions
      pure (definitions.map (fun entity => listStep entity.1) ++ creates)
  | .obj _ | .str _ => .ok []
  | _ => .error .notIterable

/-! ## The plan of an accepted manifest -/

/-- The entities that a manifest declares. -/
def declaredEntities (manifest : Fields) : List String :=
  match (Json.lookup manifest "entities").getD (.arr []) with
  | .arr items => (namedDefinitions items).map Prod.fst
  | _ => []

/-- A step that has to be carried out for an entity. -/
structure Creates (entity : String) (step : AcceptanceStep) : Prop where
  operation : step.operation = "records.create"
  entity_eq : step.entity = entity
  required : step.required = true
  submits : step.eventType = some "submit"

theorem createStep_eq_ok {entity : String} {definition : Fields} {step : AcceptanceStep}
    (made : createStep entity definition = .ok step) : Creates entity step := by
  simp only [createStep, bind_eq_ok, pure_eq_ok] at made
  rcases made with ⟨_, _, rfl⟩
  exact ⟨rfl, rfl, rfl, rfl⟩

/-- There is one required step for each entity, in order. -/
theorem createSteps_eq_ok {definitions : List (String × Fields)} {steps : List AcceptanceStep}
    (made : createSteps definitions = .ok steps) :
    List.Forall₂ Creates (definitions.map Prod.fst) steps := by
  induction definitions generalizing steps with
  | nil =>
      cases made
      exact List.Forall₂.nil
  | cons entity rest ih =>
      rcases entity with ⟨name, definition⟩
      simp only [createSteps, bind_eq_ok, pure_eq_ok] at made
      rcases made with ⟨first, first_eq, others, others_eq, rfl⟩
      exact List.Forall₂.cons (createStep_eq_ok first_eq) (ih others_eq)

theorem acceptancePlan_eq_ok {manifest : Fields} {plan : List AcceptanceStep}
    (planned : acceptancePlan manifest = .ok plan) :
    ∃ creates, plan = (declaredEntities manifest).map listStep ++ creates ∧
      List.Forall₂ Creates (declaredEntities manifest) creates := by
  unfold acceptancePlan at planned
  split at planned
  · rename_i items listed
    simp only [bind_eq_ok, pure_eq_ok] at planned
    rcases planned with ⟨creates, made, rfl⟩
    simp only [declaredEntities, listed, List.map_map]
    exact ⟨creates, rfl, createSteps_eq_ok made⟩
  · rename_i members keyed
    cases planned
    simp only [declaredEntities, keyed]
    exact ⟨[], rfl, List.Forall₂.nil⟩
  · rename_i characters written
    cases planned
    simp only [declaredEntities, written]
    exact ⟨[], rfl, List.Forall₂.nil⟩
  · cases planned

/-- Every field has a kind that is a text, or is none. -/
theorem fieldValues_isOk {fields : Fields}
    (hashable : ∀ field ∈ fields, ∀ definition, field.2 = .obj definition →
      ∃ kind, Json.lookup definition "type" = some (.str kind)) :
    ∃ hints, fieldValues fields = .ok hints := by
  induction fields with
  | nil => exact ⟨[], rfl⟩
  | cons field rest ih =>
      rcases field with ⟨name, value⟩
      rcases ih fun later laterMem =>
        hashable later (List.mem_cons_of_mem _ laterMem) with ⟨hints, hints_eq⟩
      unfold fieldValues
      split
      · rename_i definition
        split
        · exact ⟨hints, hints_eq⟩
        · rcases hashable _ List.mem_cons_self definition rfl with ⟨kind, kind_eq⟩
          rw [kind_eq, acceptanceValue, hints_eq]
          exact ⟨_, rfl⟩
      · exact ⟨hints, hints_eq⟩

theorem mem_assign {key : String} {value : Json} {fields : Fields} {field : String × Json}
    (fieldMem : field ∈ Json.assign key value fields) : field.2 = value ∨ field ∈ fields := by
  induction fields with
  | nil =>
      rw [Json.assign, List.mem_singleton] at fieldMem
      exact Or.inl (by rw [fieldMem])
  | cons head rest ih =>
      rw [Json.assign] at fieldMem
      split at fieldMem
      · rcases List.mem_cons.mp fieldMem with rfl | later
        · exact Or.inl rfl
        · exact Or.inr (List.mem_cons_of_mem _ later)
      · rcases List.mem_cons.mp fieldMem with rfl | later
        · exact Or.inr List.mem_cons_self
        · rcases ih later with same | stored
          · exact Or.inl same
          · exact Or.inr (List.mem_cons_of_mem _ stored)

/-- The fields of a list are definitions of the list. -/
theorem mem_of_mem_namedFields {items : List Json} {field : String × Json}
    (fieldMem : field ∈ namedFields items) : field.2 ∈ items := by
  have fromItems : ∀ (rest : List Json) (fields : Fields), rest ⊆ items →
      (∀ field ∈ fields, field.2 ∈ items) → ∀ field ∈ rest.foldl (fun fields item =>
        match item with
        | .obj definition =>
            match Json.lookup definition "name" with
            | some (.str name) => Json.assign name item fields
            | _ => fields
        | _ => fields) fields, field.2 ∈ items := by
    intro rest
    induction rest with
    | nil => exact fun fields _ stored => stored
    | cons item rest ih =>
        intro fields contained stored
        rw [List.foldl_cons]
        apply ih _ fun later laterMem =>
          contained (List.mem_cons_of_mem _ laterMem)
        split
        · split
          · intro other otherMem
            rcases mem_assign otherMem with same | earlier
            · rw [same]
              exact contained List.mem_cons_self
            · exact stored other earlier
          · exact stored
        · exact stored
  exact fromItems items [] (List.Subset.refl _) (by simp) field fieldMem

/-- A list of definitions is read as a whole. -/
theorem listedFields_eq_ok {items : List Json} {earlier result : List (String × Fields)}
    (read : listedFields earlier items = .ok result) :
    (∀ field ∈ earlier, field ∈ result) ∧
      ∀ item ∈ items, ∀ definition, item = .obj definition → ∃ name, (name, definition) ∈ result := by
  induction items generalizing earlier with
  | nil =>
      cases read
      exact ⟨fun _ kept => kept, by simp⟩
  | cons item rest ih =>
      unfold listedFields at read
      split at read
      · rename_i none
        cases none
      · rename_i definition others same
        cases same
        simp only [bind_eq_ok] at read
        rcases read with ⟨name, _, _, _, read⟩
        rcases ih read with ⟨kept, found⟩
        constructor
        · intro field fieldMem
          exact kept field (List.mem_append_left _ fieldMem)
        · intro item itemMem
          rcases List.mem_cons.mp itemMem with rfl | later
          · rintro _ ⟨⟩
            exact ⟨name, kept _ (List.mem_append_right _ (List.mem_singleton_self _))⟩
          · exact found item later
      · cases read

/-- What the service accepts as fields has kinds that are texts. -/
theorem normalizedFields_kinds {definition : Fields} {fields : List (String × Fields)}
    (read : entityFields definition = .ok fields)
    (kinds : ∀ field ∈ fields, validateFieldKind field.2 = .ok ()) :
    ∀ field ∈ normalizedFields definition, ∀ inner, field.2 = .obj inner →
      ∃ kind, Json.lookup inner "type" = some (.str kind) := by
  have kinded : ∀ name inner, (name, inner) ∈ fields →
      ∃ kind, Json.lookup inner "type" = some (.str kind) := by
    intro name inner innerMem
    have valid := kinds _ innerMem
    unfold validateFieldKind at valid
    split at valid
    · rename_i kind kind_eq
      exact ⟨kind, kind_eq⟩
    · cases valid
  intro field fieldMem inner isObject
  unfold entityFields at read
  unfold normalizedFields at fieldMem
  split at read
  · rename_i members keyed
    rw [keyed] at fieldMem
    rcases keyedFields_eq_ok.mp read with ⟨members_eq, _⟩
    simp only [members_eq, List.mem_map] at fieldMem
    rcases fieldMem with ⟨source, sourceMem, rfl⟩
    cases isObject
    exact kinded _ _ sourceMem
  · rename_i items listed
    rw [listed] at fieldMem
    rcases (listedFields_eq_ok read).2 _ (mem_of_mem_namedFields fieldMem) inner isObject with
      ⟨name, innerMem⟩
    exact kinded name inner innerMem
  · cases read

theorem createSteps_isOk {seen : List String} {items : List Json}
    (valid : validateEntities seen items = .ok ()) :
    (namedDefinitions items).length = items.length ∧
      ∃ creates, createSteps (namedDefinitions items) = .ok creates := by
  induction items generalizing seen with
  | nil => exact ⟨rfl, [], rfl⟩
  | cons item rest ih =>
      unfold validateEntities at valid
      split at valid
      · rename_i none
        cases none
      · rename_i definition others same
        cases same
        simp only [bind_eq_ok] at valid
        rcases valid with ⟨name, named, _, _, fields, read, _, _, _, kinds, later⟩
        rcases ih later with ⟨counted, creates, creates_eq⟩
        have isNamed : Json.lookup definition "name" = some (.str name) := by
          cases found : Json.lookup definition "name" with
          | none =>
              rw [found] at named
              cases named
          | some value =>
              rw [found] at named
              cases value with
              | str text => rw [(entity_eq_ok.mp named).2]
              | _ => cases named
        have first : namedDefinitions (.obj definition :: rest) =
            (name, definition) :: namedDefinitions rest := by
          simp [namedDefinitions, isNamed]
        rcases fieldValues_isOk (normalizedFields_kinds read (forEach_eq_ok.mp kinds)) with
          ⟨hints, hints_eq⟩
        rw [first]
        constructor
        · rw [List.length_cons, List.length_cons, counted]
        · simp only [createSteps, createStep, hints_eq, bind_eq_ok, pure_eq_ok]
          exact ⟨_, _, ⟨hints, rfl, rfl⟩, creates, creates_eq, rfl⟩
      · cases valid

/-- A manifest that the service accepts has a plan, for at most as many entities as the
service admits. -/
theorem acceptancePlan_of_valid {manifest : Fields}
    (valid : validateManifest (.obj manifest) = .ok ()) :
    (declaredEntities manifest).length ≤ 24 ∧ ∃ plan, acceptancePlan manifest = .ok plan := by
  simp only [validateManifest, bind_eq_ok] at valid
  rcases valid with ⟨_, _, _, _, _, _, valid⟩
  have entities_eq : manifestEntities (.obj manifest) =
      (Json.lookup manifest "entities").getD (.arr []) := rfl
  split at valid
  · rename_i items listed
    simp only [bind_eq_ok, require_eq_ok, decide_eq_true_eq] at valid
    rcases valid with ⟨_, few, valid⟩
    rcases createSteps_isOk valid with ⟨counted, creates, creates_eq⟩
    rw [entities_eq] at listed
    constructor
    · simp only [declaredEntities, listed, List.length_map, counted]
      exact few
    · simp only [acceptancePlan, listed, creates_eq]
      exact ⟨_, rfl⟩
  · cases valid

end DotBackend.Builder
