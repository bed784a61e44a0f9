import DotBackend.Agents.AppTools
import DotBackend.Builder.Blueprint
import DotBackend.Data.Raises

/-!
# The manifests that the tool makes

The tool checks that the names of entities differ, and which kinds their fields have; the
service also checks what the names are. The service accepts the copy of a manifest of the tool
exactly when all its names are identifiers and it is not too large.
-/

namespace DotBackend.Builder

open Data Apps Agents

/-! ## Errors of the service -/

/-- `CodeAppValidationError`. -/
def IsValidation (error : CodeAppError) : Prop :=
  ∃ message, error = .validation message

theorem isValidation (message : String) : IsValidation (.validation message) :=
  ⟨message, rfl⟩

/-- The names that `_entity` accepts. -/
def isEntityName (name : String) : Bool :=
  (entity (some (.str name))).isOk

/-- What is accepted under a condition, and refused otherwise. -/
theorem ite_error_eq_ok {named : Bool} {name clean : String} {error : CodeAppError} :
    (if named then Except.ok name else .error error) = .ok clean ↔
      (if named then Except.ok name else .error error).isOk = true ∧ clean = name := by
  cases named with
  | false =>
      constructor
      · intro raised
        cases raised
      · rintro ⟨raised, _⟩
        cases raised
  | true =>
      constructor
      · intro same
        exact ⟨rfl, (Except.ok.inj same).symm⟩
      · rintro ⟨_, rfl⟩
        rfl

theorem entity_eq_ok {name clean : String} :
    entity (some (.str name)) = .ok clean ↔ isEntityName name = true ∧ clean = name :=
  ite_error_eq_ok

theorem raisesOnly_entity (value : Option Json) : RaisesOnly IsValidation (entity value) := by
  have named : ∀ (named : Bool) (name message : String), RaisesOnly IsValidation
      (if named then Except.ok name else .error (.validation message)) := by
    intro named name message
    cases named with
    | false => exact raisesOnly_error (isValidation _)
    | true => exact raisesOnly_ok name
  unfold entity
  split
  · exact named _ _ _
  · exact raisesOnly_error (isValidation _)

/-! ## Fields -/

/-- A dictionary of definitions is read as it is. -/
theorem keyedFields_eq_ok {fields : Fields} {result : List (String × Fields)} :
    keyedFields fields = .ok result ↔
      fields = result.map (fun field => (field.1, .obj field.2)) ∧
        ∀ field ∈ result, isEntityName field.1 = true := by
  induction fields generalizing result with
  | nil =>
      rw [keyedFields, Except.ok.injEq]
      constructor
      · rintro rfl
        exact ⟨rfl, by simp⟩
      · rintro ⟨none, _⟩
        exact (List.map_eq_nil_iff.mp none.symm).symm
  | cons member rest ih =>
      rcases member with ⟨name, value⟩
      rw [keyedFields]
      simp only [bind_eq_ok, entity_eq_ok]
      constructor
      · rintro ⟨clean, ⟨named, rfl⟩, read⟩
        split at read
        · rename_i definition
          simp only [bind_eq_ok, pure_eq_ok] at read
          rcases read with ⟨others, others_eq, rfl⟩
          rcases ih.mp others_eq with ⟨rfl, othersNamed⟩
          exact ⟨rfl, List.forall_mem_cons.mpr ⟨named, othersNamed⟩⟩
        · cases read
      · rintro ⟨fields_eq, named⟩
        cases result with
        | nil => cases fields_eq
        | cons field others =>
            cases fields_eq
            rcases List.forall_mem_cons.mp named with ⟨firstNamed, othersNamed⟩
            refine ⟨field.1, ⟨firstNamed, rfl⟩, ?_⟩
            have read := ih.mpr ⟨rfl, othersNamed⟩
            simp only [bind_eq_ok, pure_eq_ok]
            exact ⟨others, read, rfl⟩

theorem raisesOnly_keyedFields (fields : Fields) : RaisesOnly IsValidation (keyedFields fields) := by
  induction fields with
  | nil => exact raisesOnly_ok _
  | cons member rest ih =>
      rcases member with ⟨name, value⟩
      rw [keyedFields]
      apply raisesOnly_bind (raisesOnly_entity _)
      intro clean
      split
      · apply raisesOnly_bind ih
        intro others
        exact raisesOnly_ok _
      · exact raisesOnly_error (isValidation _)

theorem raisesOnly_listedFields (result : List (String × Fields)) (fields : List Json) :
    RaisesOnly IsValidation (listedFields result fields) := by
  induction fields generalizing result with
  | nil => exact raisesOnly_ok _
  | cons field rest ih =>
      unfold listedFields
      split
      · rename_i definitionIsNil
        cases definitionIsNil
      · rename_i definition others same
        cases same
        apply raisesOnly_bind (raisesOnly_entity _)
        intro name
        apply raisesOnly_bind (raisesOnly_require (isValidation _))
        intro _
        exact ih _
      · exact raisesOnly_error (isValidation _)

theorem raisesOnly_entityFields (definition : Fields) :
    RaisesOnly IsValidation (entityFields definition) := by
  unfold entityFields
  split
  · exact raisesOnly_keyedFields _
  · exact raisesOnly_listedFields _ _
  · exact raisesOnly_error (isValidation _)

/-! ## Manifests -/

theorem raisesOnly_validateFieldKind (definition : Fields) :
    RaisesOnly IsValidation (validateFieldKind definition) := by
  unfold validateFieldKind
  split
  · exact raisesOnly_require (isValidation _)
  · exact raisesOnly_error (isValidation _)

theorem raisesOnly_validateEntities (seen : List String) (entities : List Json) :
    RaisesOnly IsValidation (validateEntities seen entities) := by
  induction entities generalizing seen with
  | nil => exact raisesOnly_ok _
  | cons value rest ih =>
      unfold validateEntities
      split
      · rename_i valueIsNil
        cases valueIsNil
      · rename_i definition others same
        cases same
        apply raisesOnly_bind (raisesOnly_entity _)
        intro name
        apply raisesOnly_bind (raisesOnly_require (isValidation _))
        intro _
        apply raisesOnly_bind (raisesOnly_entityFields _)
        intro fields
        apply raisesOnly_bind (raisesOnly_require (isValidation _))
        intro _
        apply raisesOnly_bind (raisesOnly_forEach (fun _ => raisesOnly_validateFieldKind _) _)
        intro _
        exact ih _
      · exact raisesOnly_error (isValidation _)

theorem raisesOnly_parseGeneratedAppCapabilities (manifest : Json) :
    RaisesOnly IsValidation (parseGeneratedAppCapabilities manifest) := by
  unfold parseGeneratedAppCapabilities
  split
  · apply raisesOnly_bind (raisesOnly_require (isValidation _))
    intro _
    apply raisesOnly_bind (raisesOnly_require (isValidation _))
    intro _
    apply raisesOnly_bind (raisesOnly_require (isValidation _))
    intro _
    apply raisesOnly_bind (raisesOnly_require (isValidation _))
    intro _
    exact raisesOnly_ok _
  · exact raisesOnly_error (isValidation _)

theorem raisesOnly_validateManifest (manifest : Json) :
    RaisesOnly IsValidation (validateManifest manifest) := by
  unfold validateManifest
  split
  · apply raisesOnly_bind (raisesOnly_require (isValidation _))
    intro _
    apply raisesOnly_bind
    · apply raisesOnly_bind (raisesOnly_parseGeneratedAppCapabilities _)
      intro _
      exact raisesOnly_ok _
    · intro _
      apply raisesOnly_bind (raisesOnly_require (isValidation _))
      intro _
      split
      · apply raisesOnly_bind (raisesOnly_require (isValidation _))
        intro _
        exact raisesOnly_validateEntities _ _
      · exact raisesOnly_error (isValidation _)
  · exact raisesOnly_error (isValidation _)

/-! ## Entities of the tool -/

/-- A field that the tool accepted. -/
structure ToolField where
  name : String
  kind : String
  required : Bool
  known : kind ∈ toolFieldKinds

/-- The definition of a field. -/
def ToolField.definition (field : ToolField) : Fields :=
  [("type", .str field.kind), ("required", .bool field.required)]

/-- An entity that the tool accepted. -/
structure ToolEntity where
  name : String
  description : String
  fields : List ToolField
  few : fields.length ≤ 32

/-- The fields of an entity as a dictionary. -/
def fieldDefinitions (fields : List ToolField) : Fields :=
  fields.map fun field => (field.name, .obj field.definition)

/-- The members of the definition of an entity. -/
def ToolEntity.definition (made : ToolEntity) : Fields :=
  [("name", .str made.name), ("description", .str made.description),
    ("fields", .obj (fieldDefinitions made.fields))]

/-- The fields of an entity in the copy of a manifest. -/
def copiedFields (fields : List ToolField) : List (String × Fields) :=
  Json.sortMembers (fields.map fun field => (field.name, Json.copyFields field.definition))

/-- All names of an entity are identifiers. -/
def ToolEntity.Named (made : ToolEntity) : Prop :=
  isEntityName made.name = true ∧ ∀ field ∈ made.fields, isEntityName field.name = true

theorem toolFieldKind_eq_ok {value : Json} {kind : String} (read : toolFieldKind value = .ok kind) :
    kind ∈ toolFieldKinds := by
  unfold toolFieldKind at read
  split at read
  · split at read
    · rename_i known
      cases read
      exact known
    · cases read
  · cases read
  · cases read
  · cases read

/-- Every definition makes one more field. -/
theorem toolEntityFields_eq_ok {before : List ToolField} {raw : List Json} {fields : Fields}
    (read : toolEntityFields (fieldDefinitions before) raw = .ok fields) :
    ∃ made : List ToolField, fields = fieldDefinitions (before ++ made) ∧
      made.length = raw.length := by
  induction raw generalizing before with
  | nil =>
      cases read
      exact ⟨[], by rw [List.append_nil], rfl⟩
  | cons item rest ih =>
      unfold toolEntityFields at read
      split at read
      · rename_i itemIsNil
        cases itemIsNil
      · rename_i definition others same
        cases same
        split at read
        · rename_i name _
          simp only [bind_eq_ok] at read
          rcases read with ⟨_, _, kind, kindRead, read⟩
          split at read
          · rename_i required _
            let field : ToolField := ⟨name, kind, required, toolFieldKind_eq_ok kindRead⟩
            have appended : fieldDefinitions before ++
                [(name, .obj [("type", .str kind), ("required", .bool required)])] =
                  fieldDefinitions (before ++ [field]) := by
              rw [fieldDefinitions, fieldDefinitions, List.map_append]
              rfl
            rw [appended] at read
            rcases ih read with ⟨made, fields_eq, counted⟩
            refine ⟨field :: made, ?_, ?_⟩
            · rw [fields_eq, List.append_assoc]
              rfl
            · rw [List.length_cons, counted, List.length_cons]
          · cases read
        · cases read
      · cases read

theorem toolEntity_eq_ok {seen : List String} {raw : Fields} {name : String} {value : Json}
    (read : toolEntity seen raw = .ok (name, value)) :
    ∃ made : ToolEntity, made.name = name ∧ value = .obj made.definition ∧ name ∉ seen := by
  unfold toolEntity at read
  split at read
  · simp only [bind_eq_ok, require_eq_ok, Bool.and_eq_true, decide_eq_true_eq] at read
    rcases read with ⟨_, ⟨_, new⟩, read⟩
    split at read
    · rename_i description _
      split at read
      · simp only [bind_eq_ok, pure_eq_ok, require_eq_ok, decide_eq_true_eq] at read
        rcases read with ⟨_, few, fields, fieldsRead, same⟩
        cases same
        rcases @toolEntityFields_eq_ok [] _ _ fieldsRead with ⟨made, rfl, counted⟩
        exact ⟨⟨_, description, made, counted ▸ few⟩, rfl, rfl, new⟩
      · cases read
    · cases read
  · cases read

/-- What the tool makes of a list of entities. -/
theorem toolEntities_eq_ok {seen : List String} {raw entities : List Json}
    (read : toolEntities seen raw = .ok entities) :
    ∃ made : List ToolEntity, entities = made.map (fun entry => .obj entry.definition) ∧
      made.length = raw.length ∧ (made.map ToolEntity.name).Nodup ∧
        ∀ entry ∈ made, entry.name ∉ seen := by
  induction raw generalizing seen entities with
  | nil =>
      cases read
      exact ⟨[], rfl, rfl, List.nodup_nil, by simp⟩
  | cons item rest ih =>
      unfold toolEntities at read
      split at read
      · rename_i itemIsNil
        cases itemIsNil
      · rename_i definition others same
        cases same
        simp only [bind_eq_ok, pure_eq_ok] at read
        rcases read with ⟨⟨name, value⟩, first, later, laterRead, rfl⟩
        rcases toolEntity_eq_ok first with ⟨entry, rfl, rfl, new⟩
        rcases ih laterRead with ⟨made, rfl, counted, distinct, unseen⟩
        refine ⟨entry :: made, rfl, ?_, ?_, ?_⟩
        · rw [List.length_cons, counted, List.length_cons]
        · rw [List.map_cons, List.nodup_cons]
          refine ⟨?_, distinct⟩
          intro again
          rcases List.mem_map.mp again with ⟨other, otherMem, sameName⟩
          apply unseen other otherMem
          rw [sameName]
          exact List.mem_cons_self
        · intro other otherMem
          rcases List.mem_cons.mp otherMem with rfl | laterMem
          · exact new
          · intro isSeen
            exact unseen other laterMem (List.mem_cons_of_mem _ isSeen)
      · cases read

theorem codeAppEntities_eq_ok {value : Json} {entities : List Json}
    (read : codeAppEntities value = .ok entities) :
    ∃ made : List ToolEntity, entities = made.map (fun entry => .obj entry.definition) ∧
      made.length ≤ 24 ∧ (made.map ToolEntity.name).Nodup := by
  unfold codeAppEntities at read
  split at read
  · simp only [bind_eq_ok, require_eq_ok, decide_eq_true_eq] at read
    rcases read with ⟨_, few, read⟩
    rcases toolEntities_eq_ok read with ⟨made, entities_eq, counted, distinct, _⟩
    exact ⟨made, entities_eq, counted ▸ few, distinct⟩
  · cases read

/-! ## The copy of a manifest -/

theorem copyFields_fieldDefinitions (fields : List ToolField) :
    Json.copyFields (fieldDefinitions fields) =
      (copiedFields fields).map fun field => (field.1, .obj field.2) := by
  rw [copiedFields, Json.sortMembers_map, List.map_map, Json.copyFields,
    Json.canonicalMembers_eq_map, fieldDefinitions, List.map_map]
  rfl

theorem mem_copiedFields {fields : List ToolField} {member : String × Fields} :
    member ∈ copiedFields fields ↔
      ∃ field ∈ fields, (field.name, Json.copyFields field.definition) = member := by
  rw [copiedFields, Json.mem_sortMembers, List.mem_map]

theorem length_copiedFields (fields : List ToolField) :
    (copiedFields fields).length = fields.length := by
  rw [copiedFields, Json.length_sortMembers, List.length_map]

theorem keyedFields_copyFields {fields : List ToolField} {result : List (String × Fields)} :
    keyedFields (Json.copyFields (fieldDefinitions fields)) = .ok result ↔
      result = copiedFields fields ∧ ∀ field ∈ fields, isEntityName field.name = true := by
  rw [keyedFields_eq_ok, copyFields_fieldDefinitions]
  have injective : Function.Injective fun field : String × Fields => (field.1, Json.obj field.2) := by
    rintro ⟨name, fields⟩ ⟨other, others⟩ same
    cases same
    rfl
  constructor
  · rintro ⟨same, named⟩
    have result_eq := (List.map_injective_iff.mpr injective same).symm
    refine ⟨result_eq, ?_⟩
    intro field fieldMem
    apply named (field.name, Json.copyFields field.definition)
    rw [result_eq]
    exact mem_copiedFields.mpr ⟨field, fieldMem, rfl⟩
  · rintro ⟨rfl, named⟩
    refine ⟨rfl, ?_⟩
    intro member memberMem
    rcases mem_copiedFields.mp memberMem with ⟨field, fieldMem, rfl⟩
    exact named field fieldMem

theorem validateFieldKind_copyFields (field : ToolField) :
    validateFieldKind (Json.copyFields field.definition) = .ok () := by
  have known : ∀ kind ∈ toolFieldKinds, kind ∈ fieldKinds := by decide
  have found : Json.lookup (Json.copyFields field.definition) "type" = some (.str field.kind) := by
    rw [Json.lookup_copyFields]
    rfl
  rw [validateFieldKind, found]
  exact require_eq_ok.mpr (decide_eq_true (known _ field.known))

theorem lookup_name_copyFields (made : ToolEntity) :
    Json.lookup (Json.copyFields made.definition) "name" = some (.str made.name) := by
  rw [Json.lookup_copyFields]
  rfl

theorem entityFields_copyFields (made : ToolEntity) :
    entityFields (Json.copyFields made.definition) =
      keyedFields (Json.copyFields (fieldDefinitions made.fields)) := by
  rw [entityFields, Json.lookup_copyFields]
  rfl

/-- The service accepts the copies of the entities whose names are identifiers. -/
theorem validateEntities_iff {seen : List String} {made : List ToolEntity}
    (distinct : (made.map ToolEntity.name).Nodup) (unseen : ∀ entry ∈ made, entry.name ∉ seen) :
    validateEntities seen (made.map fun entry => .obj (Json.copyFields entry.definition)) =
      .ok () ↔ ∀ entry ∈ made, entry.Named := by
  induction made generalizing seen with
  | nil => simp [validateEntities]
  | cons entry rest ih =>
      rw [List.map_cons, List.nodup_cons] at distinct
      rcases List.forall_mem_cons.mp unseen with ⟨new, restUnseen⟩
      have stillUnseen : ∀ other ∈ rest, other.name ∉ entry.name :: seen := by
        intro other otherMem again
        rcases List.mem_cons.mp again with sameName | isSeen
        · exact distinct.1 (sameName ▸ List.mem_map_of_mem otherMem)
        · exact restUnseen other otherMem isSeen
      have later := ih distinct.2 stillUnseen
      rw [List.forall_mem_cons, List.map_cons, validateEntities, lookup_name_copyFields,
        entityFields_copyFields]
      simp only [bind_eq_ok, entity_eq_ok, keyedFields_copyFields, require_eq_ok,
        decide_eq_true_eq, forEach_eq_ok]
      constructor
      · rintro ⟨_, ⟨named, rfl⟩, _, _, _, ⟨rfl, fieldsNamed⟩, _, _, _, _, rest⟩
        exact ⟨⟨named, fieldsNamed⟩, later.mp rest⟩
      · rintro ⟨⟨named, fieldsNamed⟩, restNamed⟩
        refine ⟨_, ⟨named, rfl⟩, (), new, _, ⟨rfl, fieldsNamed⟩, (), ?_, (), ?_,
          later.mpr restNamed⟩
        · rw [length_copiedFields]
          exact Nat.le_trans entry.few (by decide)
        · intro member memberMem
          rcases mem_copiedFields.mp memberMem with ⟨field, _, rfl⟩
          exact validateFieldKind_copyFields field

/-- The manifest of entities and capabilities that the tool accepted, as the builder copies it. -/
def copiedManifest (made : List ToolEntity) (capabilities : List Json) : Fields :=
  Json.copyFields (toolManifest (made.map fun entry => .obj entry.definition) capabilities)

theorem manifestEntities_copiedManifest (made : List ToolEntity) (capabilities : List Json) :
    manifestEntities (.obj (copiedManifest made capabilities)) =
      .arr (made.map fun entry => .obj (Json.copyFields entry.definition)) := by
  have found : (Json.obj (copiedManifest made capabilities)).get? "entities" =
      some (Json.canonical (.arr (made.map fun entry => .obj entry.definition))) :=
    Json.lookup_copyFields _ "entities"
  rw [manifestEntities, found, Option.getD_some, Json.canonical, Json.canonicalItems_eq_map,
    List.map_map]
  rfl

theorem parses_of_parseCapabilities {manifest : Fields}
    (parses : parseCapabilities manifest = .ok ()) :
    ∃ names, parseGeneratedAppCapabilities (.obj manifest) = .ok names := by
  unfold parseCapabilities at parses
  split at parses
  · rename_i names read
    exact ⟨names, read⟩
  · cases parses
  · cases parses

/-- The service accepts the copy of a manifest of the tool when its names are identifiers and
it is not too large. -/
theorem validateManifest_iff {made : List ToolEntity} {capabilities : List Json}
    (few : made.length ≤ 24) (distinct : (made.map ToolEntity.name).Nodup)
    (parses : parseCapabilities (copiedManifest made capabilities) = .ok ()) :
    validateManifest (.obj (copiedManifest made capabilities)) = .ok () ↔
      (∀ entry ∈ made, entry.Named) ∧
        jsonBytes (.obj (copiedManifest made capabilities)) ≤ 64000 := by
  have versioned : (Json.obj (copiedManifest made capabilities)).get? "schema_version" =
      some (.int 1) :=
    Json.lookup_copyFields _ "schema_version"
  rcases parses_of_parseCapabilities parses with ⟨names, read⟩
  have entities := @validateEntities_iff [] made distinct (by simp)
  simp only [validateManifest, versioned, read, manifestEntities_copiedManifest, requireJsonSize,
    bind_eq_ok, require_eq_ok, decide_eq_true_eq, List.length_map, entities]
  constructor
  · rintro ⟨_, _, _, _, _, fits, _, _, named⟩
    exact ⟨named, fits⟩
  · rintro ⟨named, fits⟩
    exact ⟨(), rfl, (), rfl, (), fits, (), few, named⟩

/-! ## Names -/

/-- The names of the entities of a manifest. -/
def entityNames (manifest : Fields) : List String :=
  match manifestEntities (.obj manifest) with
  | .arr entities => entities.filterMap fun definition => match definition.get? "name" with
      | some (.str name) => some name
      | _ => none
  | _ => []

/-- The names of the fields of an entity. -/
def fieldNames (definition : Json) : List String :=
  match definition.get? "fields" with
  | some (.obj fields) => fields.map Prod.fst
  | _ => []

/-- All names of a manifest. -/
def manifestNames (manifest : Fields) : List String :=
  entityNames manifest ++ match manifestEntities (.obj manifest) with
    | .arr entities => entities.flatMap fieldNames
    | _ => []

section Names

variable {made : List ToolEntity} {capabilities : List Json}

theorem entityNames_copiedManifest :
    entityNames (copiedManifest made capabilities) = made.map ToolEntity.name := by
  unfold entityNames
  rw [manifestEntities_copiedManifest]
  dsimp only
  rw [List.filterMap_map, ← List.filterMap_eq_map]
  apply List.filterMap_congr
  intro entry _
  dsimp only [Function.comp]
  rw [Json.get?, lookup_name_copyFields]

theorem mem_fieldNames_copyFields {entry : ToolEntity} {name : String} :
    name ∈ fieldNames (.obj (Json.copyFields entry.definition)) ↔
      ∃ field ∈ entry.fields, field.name = name := by
  have found : (Json.obj (Json.copyFields entry.definition)).get? "fields" =
      some (.obj (Json.copyFields (fieldDefinitions entry.fields))) :=
    Json.lookup_copyFields _ "fields"
  rw [fieldNames, found]
  dsimp only
  rw [copyFields_fieldDefinitions, List.map_map, List.mem_map]
  constructor
  · rintro ⟨member, memberMem, rfl⟩
    rcases mem_copiedFields.mp memberMem with ⟨field, fieldMem, rfl⟩
    exact ⟨field, fieldMem, rfl⟩
  · rintro ⟨field, fieldMem, rfl⟩
    exact ⟨_, mem_copiedFields.mpr ⟨field, fieldMem, rfl⟩, rfl⟩

/-- All names are identifiers when those of every entity are. -/
theorem manifestNames_iff :
    (∀ name ∈ manifestNames (copiedManifest made capabilities), isEntityName name = true) ↔
      ∀ entry ∈ made, entry.Named := by
  unfold manifestNames
  rw [entityNames_copiedManifest, manifestEntities_copiedManifest]
  dsimp only
  rw [List.forall_mem_append, List.forall_mem_map]
  constructor
  · rintro ⟨entities, fields⟩ entry entryMem
    refine ⟨entities entry entryMem, ?_⟩
    intro field fieldMem
    apply fields
    rw [List.mem_flatMap]
    exact ⟨_, List.mem_map_of_mem entryMem, mem_fieldNames_copyFields.mpr ⟨field, fieldMem, rfl⟩⟩
  · intro named
    refine ⟨fun entry entryMem => (named entry entryMem).1, ?_⟩
    intro name nameMem
    rcases List.mem_flatMap.mp nameMem with ⟨definition, definitionMem, nameMem⟩
    rcases List.mem_map.mp definitionMem with ⟨entry, entryMem, rfl⟩
    rcases mem_fieldNames_copyFields.mp nameMem with ⟨field, fieldMem, rfl⟩
    exact (named entry entryMem).2 field fieldMem

end Names

end DotBackend.Builder
