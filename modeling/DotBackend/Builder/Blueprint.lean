import DotBackend.Apps.Validation
import DotBackend.Data.CleanText
import DotBackend.Data.JsonCopy

/-!
# Blueprints

The contract of an app that a build starts from. A mapping is copied through JSON, its texts
are brought to single spaces, and what is missing has a default. What the mapping may not
hold makes a build fail before any source is generated.
-/

namespace DotBackend.Builder

open Data Apps

/-- What else the interpreter knows of letters: `str.lower`. -/
structure Letters extends Unicode where
  lower : List Char → List Char
  lower_ascii : ∀ text, (∀ c ∈ text, c.toNat < 128) → lower text = text.map Char.toLower

/-- Letters of ASCII only. -/
def Letters.ascii : Letters where
  toUnicode := Unicode.ascii
  lower text := text.map Char.toLower
  lower_ascii _ _ := rfl

/-- `BlueprintValidationError`, or the `TypeError` of a value that cannot be hashed. -/
inductive BlueprintError
  | invalid (message : String)
  | unhashable
  deriving DecidableEq

structure AppBlueprint where
  title : String
  description : String
  purpose : String
  layout : String
  accent : String
  productBrief : String
  visualDirection : String
  revisionRequest : String
  baseRevision : Fields
  manifest : Fields
  seedData : Fields
  deriving DecidableEq

/-- `_required_text`. -/
def requiredText (value : Json) (field : String) (maxLength : Nat) :
    Except BlueprintError String :=
  match value with
  | .str s =>
      if (Text.strip s.toList).isEmpty then
        .error (.invalid (field ++ " must be a non-empty string"))
      else if maxLength < (Text.singleSpaced s.toList).length then
        .error (.invalid
          (field ++ " must be at most " ++ toString maxLength ++ " characters"))
      else .ok (String.ofList (Text.singleSpaced s.toList))
  | _ => .error (.invalid (field ++ " must be a non-empty string"))

/-- `_optional_text`. -/
def optionalText (value : Json) (field : String) (maxLength : Nat) (default : String) :
    Except BlueprintError String :=
  match value with
  | .null => .ok default
  | value => requiredText value field maxLength

/-- `_ACCENTS`. -/
def accents : List String :=
  ["coral", "sage", "ocean", "plum", "sky"]

/-- `_LEGACY_ACCENTS`. -/
def legacyAccents : List (String × String) :=
  [("gold", "coral"), ("#e65f45", "coral"), ("#e7654b", "coral"), ("#5f8067", "sage"),
    ("#497a9d", "ocean"), ("#765779", "plum"), ("#5b88a8", "sky"), ("#a97824", "coral")]

/-- The accent of a blueprint. -/
def parseAccent (unicode : Unicode) (value : Json) : Except BlueprintError String :=
  match value with
  | .str s =>
      let folded := String.ofList (Text.casefold unicode s.toList)
      let accent := (legacyAccents.lookup folded).getD folded
      if accent ∈ accents then .ok accent
      else .error (.invalid "accent must be a supported Dot semantic accent")
  | .arr _ | .obj _ => .error .unhashable
  | _ => .error (.invalid "accent must be a supported Dot semantic accent")

/-- `_IDENTIFIER.fullmatch`. -/
def isIdentifier (name : List Char) : Bool :=
  match name with
  | [] => false
  | first :: rest =>
      (('a' ≤ first ∧ first ≤ 'z') : Bool) && rest.length ≤ 47 &&
        rest.all fun c => ('a' ≤ c ∧ c ≤ 'z') ∨ ('0' ≤ c ∧ c ≤ '9') ∨ c = '_'

/-- The layout of a blueprint. -/
def parseLayout (letters : Letters) (value : Json) : Except BlueprintError String := do
  let layout ← optionalText value "layout" 48 "workspace"
  let name := Text.replaceChar ' ' ['_'] (Text.replaceChar '-' ['_'] (letters.lower layout.toList))
  require (isIdentifier name) (.invalid "layout must be a lowercase identifier")
  pure (String.ofList name)

/-- A member that has to be an object, and is empty when it is missing. -/
def objectMember (data : Fields) (name : String) : Except BlueprintError Fields :=
  match (Json.lookup data name).getD (.obj []) with
  | .obj fields => .ok fields
  | _ => .error (.invalid (name ++ " must be an object"))

/-- The check on the length of the text of a member. -/
def requireLength (fields : Fields) (name : String) (maxLength : Nat) :
    Except BlueprintError Unit :=
  require ((Json.dumps (.obj fields)).length ≤ maxLength) (.invalid (name ++ " is too large"))

/-- `parse_generated_app_capabilities`, whose error is one of the blueprint. -/
def parseCapabilities (manifest : Fields) : Except BlueprintError Unit :=
  match parseGeneratedAppCapabilities (.obj manifest) with
  | .ok _ => .ok ()
  | .error (.validation message) => .error (.invalid message)
  | .error _ => .error .unhashable

/-- `data.get(name)`. -/
def optionalMember (data : Fields) (name : String) : Json :=
  (Json.lookup data name).getD .null

/-- `AppBlueprint.from_mapping`. -/
def fromMapping (letters : Letters) (raw : Fields) : Except BlueprintError AppBlueprint := do
  let data := Json.copyFields raw
  let title ← requiredText (optionalMember data "title") "title" 120
  let description ← optionalText (optionalMember data "description") "description" 500 title
  let purpose ← optionalText (optionalMember data "purpose") "purpose" 500 description
  let layout ← parseLayout letters (optionalMember data "layout")
  let accent ← parseAccent letters.toUnicode ((Json.lookup data "accent").getD (.str "coral"))
  let manifest ← objectMember data "manifest"
  parseCapabilities manifest
  let seedData ← objectMember data "seed_data"
  let productBrief ← optionalText (optionalMember data "product_brief") "product_brief" 4000
    purpose
  let visualDirection ← optionalText (optionalMember data "visual_direction") "visual_direction"
    1000 "purpose-native, mobile-first, and composed within Dot's design system"
  let revisionRequest ← optionalText (optionalMember data "revision_request") "revision_request"
    4000 ""
  let baseRevision ← objectMember data "base_revision"
  requireLength manifest "manifest" 64000
  requireLength seedData "seed_data" 128000
  requireLength baseRevision "base_revision" 768000
  pure {
    title := title
    description := description
    purpose := purpose
    layout := layout
    accent := accent
    productBrief := productBrief
    visualDirection := visualDirection
    revisionRequest := revisionRequest
    baseRevision := baseRevision
    manifest := manifest
    seedData := seedData }

/-! ## What is accepted -/

theorem requiredText_of_clean {s field : String} {bound : Nat}
    (clean : Text.Clean bound s.toList) :
    requiredText (.str s) field bound = .ok (String.ofList (Text.singleSpaced s.toList)) := by
  have visible := clean.strip_ne_nil
  have fits := Nat.le_trans (Text.length_singleSpaced_le s.toList) clean.2
  rw [requiredText, if_neg (by simpa using visible), if_neg (Nat.not_lt.mpr fits)]

@[simp]
theorem optionalText_str (s field : String) (bound : Nat) (default : String) :
    optionalText (.str s) field bound default = requiredText (.str s) field bound :=
  rfl

/-- A text of nothing but whitespace is refused. -/
theorem requiredText_of_blank {s field : String} {bound : Nat}
    (blank : Text.strip s.toList = []) :
    requiredText (.str s) field bound =
      .error (.invalid (field ++ " must be a non-empty string")) := by
  rw [requiredText, blank]
  rfl

theorem optionalMember_copyFields (raw : Fields) (name : String) :
    optionalMember (Json.copyFields raw) name = Json.canonical (optionalMember raw name) := by
  rw [optionalMember, Json.lookup_copyFields, optionalMember]
  cases Json.lookup raw name with
  | none => rfl
  | some value => rfl

/-- The copy of a member that is an object. -/
theorem objectMember_copyFields {raw fields : Fields} {name : String}
    (found : Json.lookup raw name = some (.obj fields)) :
    objectMember (Json.copyFields raw) name = .ok (Json.copyFields fields) := by
  rw [objectMember, Json.lookup_copyFields, found]
  rfl

theorem requireLength_copyFields {fields : Fields} {name : String} {bound : Nat} :
    requireLength (Json.copyFields fields) name bound = .ok () ↔
      (Json.dumps (.obj fields)).length ≤ bound := by
  rw [requireLength, require_eq_ok, decide_eq_true_eq, ← Json.canonical_obj, Json.dumps_canonical]

end DotBackend.Builder
