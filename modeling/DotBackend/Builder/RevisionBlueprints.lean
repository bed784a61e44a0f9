import DotBackend.Agents.AppTools
import DotBackend.Apps.AppTexts
import DotBackend.Builder.ServiceHooks

/-!
# Whether the blueprint of a revision is accepted

What the tools ask for leaves every app with a clean title, a description that is clean or
empty, and builds whose layout and accent are known. A revision inherits what it does not
change, so that its blueprint fits the contract of the builder in every member but one: the
service takes an empty description, and the builder does not.
-/

namespace DotBackend.Builder

open Data Apps Agents Transition

variable {manifest : Fields} {bound : Nat}

/-! ## Layouts and accents -/

/-- The layouts of apps that the tools create. -/
def layouts : List String :=
  ["custom_workspace", "workspace"]

theorem casefold_ascii {unicode : Unicode} {text : List Char}
    (ascii : ∀ c ∈ text, c.toNat < 128) :
    Text.casefold unicode text = text.map Char.toLower := by
  induction text with
  | nil => rfl
  | cons c rest ih =>
      obtain ⟨first, others⟩ := List.forall_mem_cons.mp ascii
      have folded := ih others
      rw [Text.casefold] at folded ⊢
      rw [List.flatMap_cons, unicode.fold_ascii c first, folded, List.map_cons]
      rfl

theorem parseAccent_of_mem {unicode : Unicode} {accent : String} (known : accent ∈ accents) :
    parseAccent unicode (.str accent) = .ok accent := by
  have stays : ∀ accent ∈ accents, (∀ c ∈ accent.toList, c.toNat < 128) ∧
      String.ofList (accent.toList.map Char.toLower) = accent ∧
        (legacyAccents.lookup accent).getD accent = accent := by
    decide
  obtain ⟨ascii, lower, current⟩ := stays accent known
  unfold parseAccent
  dsimp only
  rw [casefold_ascii ascii, lower, current, if_pos known]

theorem parseLayout_of_mem {letters : Letters} {layout : String} (known : layout ∈ layouts) :
    parseLayout letters (.str layout) = .ok layout := by
  have stays : ∀ layout ∈ layouts, Text.Clean 48 layout.toList ∧
      Text.singleSpaced layout.toList = layout.toList ∧
        (∀ c ∈ layout.toList, c.toNat < 128) ∧
          Text.replaceChar ' ' ['_'] (Text.replaceChar '-' ['_']
            (layout.toList.map Char.toLower)) = layout.toList ∧
          isIdentifier layout.toList = true := by
    decide
  obtain ⟨clean, spaced, ascii, same, named⟩ := stays layout known
  have read : optionalText (.str layout) "layout" 48 "workspace" = .ok layout := by
    rw [optionalText_str, requiredText_of_clean clean, spaced, String.ofList_toList]
  simp only [parseLayout, bind_eq_ok, pure_eq_ok, require_eq_ok]
  refine ⟨layout, read, (), ?_⟩
  rw [letters.lower_ascii _ ascii, same, String.ofList_toList]
  exact ⟨named, rfl⟩

/-! ## Manifests -/

theorem filterMap_canonical {strings : Json → Option String} (items : List Json)
    (keeps : ∀ item, strings (Json.canonical item) = strings item) :
    (items.map Json.canonical).filterMap strings = items.filterMap strings := by
  rw [List.filterMap_map]
  apply List.filterMap_congr
  intro item _
  exact keeps item

/-- A copy of a manifest requests the same capabilities. -/
theorem parseCapabilities_copyFields (manifest : Fields) :
    parseCapabilities (Json.copyFields manifest) = parseCapabilities manifest := by
  have requested : (Json.obj (Json.copyFields manifest)).get? "capabilities" =
      ((Json.obj manifest).get? "capabilities").map Json.canonical :=
    Json.lookup_copyFields manifest "capabilities"
  have same : parseGeneratedAppCapabilities (.obj (Json.copyFields manifest)) =
      parseGeneratedAppCapabilities (.obj manifest) := by
    unfold parseGeneratedAppCapabilities
    rw [requested]
    cases (Json.obj manifest).get? "capabilities" with
    | none => rfl
    | some capabilities =>
        cases capabilities with
        | arr items =>
            simp only [Option.map_some, Option.getD_some, Json.canonical,
              Json.canonicalItems_eq_map, List.length_map]
            rw [filterMap_canonical items]
            intro item
            cases item <;> rfl
        | null | bool _ | int _ | float _ | str _ | obj _ => rfl
  rw [parseCapabilities, same, parseCapabilities]

theorem obj_of_validateManifest {manifest : Json} (valid : validateManifest manifest = .ok ()) :
    ∃ fields, manifest = .obj fields := by
  cases manifest with
  | obj fields => exact ⟨fields, rfl⟩
  | null | bool _ | int _ | float _ | str _ | arr _ => cases valid

theorem manifestFits_of_validateManifest (valid : validateManifest (.obj manifest) = .ok ()) :
    jsonBytes (.obj manifest) ≤ 64000 := by
  simp only [validateManifest, requireJsonSize, bind_eq_ok, require_eq_ok,
    decide_eq_true_eq] at valid
  rcases valid with ⟨_, _, _, _, _, fits, _⟩
  exact fits

theorem parseCapabilities_of_validateManifest (valid : validateManifest (.obj manifest) = .ok ()) :
    parseCapabilities manifest = .ok () := by
  simp only [validateManifest, bind_eq_ok] at valid
  rcases valid with ⟨_, _, _, parses, _⟩
  rw [parseCapabilities]
  cases parsed : parseGeneratedAppCapabilities (.obj manifest) with
  | ok names => rfl
  | error error =>
      rw [parsed] at parses
      cases parses

/-! ## The blueprint of a revision -/

/-- What the blueprint of a revision holds. -/
structure RevisionContent where
  title : String
  description : String
  purpose : String
  layout : String
  accent : String
  productBrief : String
  visualDirection : String
  manifest : Fields
  seedData : Fields
  change : String
  context : Fields

def RevisionContent.blueprint (content : RevisionContent) : Fields :=
  [("title", .str content.title), ("description", .str content.description),
    ("purpose", .str content.purpose), ("layout", .str content.layout),
    ("accent", .str content.accent), ("product_brief", .str content.productBrief),
    ("visual_direction", .str content.visualDirection), ("manifest", .obj content.manifest),
    ("seed_data", .obj content.seedData), ("revision_request", .str content.change),
    ("base_revision", .obj content.context)]

/-- All but the description is as the builder wants it. -/
structure RevisionContent.Fits (content : RevisionContent) : Prop where
  title : Text.Clean 120 content.title.toList
  purpose : Text.Clean 500 content.purpose.toList
  layout : content.layout ∈ layouts
  accent : content.accent ∈ accents
  productBrief : Text.Clean 4000 content.productBrief.toList
  visualDirection : Text.Clean 1000 content.visualDirection.toList
  change : Text.Clean 4000 content.change.toList
  capabilities : parseCapabilities content.manifest = .ok ()
  manifestFits : jsonBytes (.obj content.manifest) ≤ 64000
  seedDataFits : jsonBytes (.obj content.seedData) ≤ 128000
  contextFits : jsonBytes (.obj content.context) ≤ 768000

section Acceptance

variable {letters : Letters} {content : RevisionContent}

/-- A text of the copied blueprint. -/
theorem requiredText_copyFields {raw : Fields} {name s : String}
    (found : optionalMember raw name = .str s) (clean : Text.Clean bound s.toList) :
    requiredText (optionalMember (Json.copyFields raw) name) name bound =
      .ok (String.ofList (Text.singleSpaced s.toList)) := by
  rw [optionalMember_copyFields, found, Json.canonical_str, requiredText_of_clean clean]

theorem optionalText_copyFields {raw : Fields} {name s default : String}
    (found : optionalMember raw name = .str s) (clean : Text.Clean bound s.toList) :
    optionalText (optionalMember (Json.copyFields raw) name) name bound default =
      .ok (String.ofList (Text.singleSpaced s.toList)) := by
  rw [optionalMember_copyFields, found, Json.canonical_str, optionalText_str,
    requiredText_of_clean clean]

theorem requireLength_of_le {fields : Fields} {name : String}
    (fits : jsonBytes (.obj fields) ≤ bound) :
    requireLength (Json.copyFields fields) name bound = .ok () :=
  requireLength_copyFields.mpr (Nat.le_trans (Json.length_dumps_le _) fits)

/-- A revision with a clean description is accepted. -/
theorem fromMapping_of_fits (fits : content.Fits)
    (described : Text.Clean 500 content.description.toList) :
    ∃ blueprint, fromMapping letters content.blueprint = .ok blueprint := by
  have layout : parseLayout letters (optionalMember (Json.copyFields content.blueprint) "layout") =
      .ok content.layout := by
    rw [optionalMember_copyFields]
    exact parseLayout_of_mem fits.layout
  have accent : parseAccent letters.toUnicode
      ((Json.lookup (Json.copyFields content.blueprint) "accent").getD (.str "coral")) =
        .ok content.accent := by
    rw [Json.lookup_copyFields]
    exact parseAccent_of_mem fits.accent
  have capabilities : parseCapabilities (Json.copyFields content.manifest) = .ok () := by
    rw [parseCapabilities_copyFields]
    exact fits.capabilities
  rw [fromMapping, requiredText_copyFields rfl fits.title]
  simp only [bind_eq_ok, pure_eq_ok]
  refine ⟨_, _, rfl, _, optionalText_copyFields rfl described, _,
    optionalText_copyFields rfl fits.purpose, _, layout, _, accent, _, objectMember_copyFields rfl,
    _, capabilities, _, objectMember_copyFields rfl, _,
    optionalText_copyFields rfl fits.productBrief, _,
    optionalText_copyFields rfl fits.visualDirection, _, optionalText_copyFields rfl fits.change,
    _, objectMember_copyFields rfl, _, requireLength_of_le fits.manifestFits, _,
    requireLength_of_le fits.seedDataFits, _, requireLength_of_le fits.contextFits, rfl⟩

/-- A revision without a description is refused. -/
theorem fromMapping_of_blank (blank : content.description = "") (blueprint : AppBlueprint) :
    fromMapping letters content.blueprint ≠ .ok blueprint := by
  intro accepted
  simp only [fromMapping, bind_eq_ok] at accepted
  rcases accepted with ⟨title, _, description, described, _⟩
  have found : optionalMember content.blueprint "description" = .str content.description := rfl
  rw [optionalMember_copyFields, found, blank, Json.canonical_str, optionalText_str,
    requiredText_of_blank rfl] at described
  cases described

end Acceptance

/-! ## What a revision inherits -/

/-- The layout and the accent that a revision of a blueprint gets are known. -/
structure Styled (blueprint : Fields) : Prop where
  layout : fallbackText (member blueprint "layout") "workspace" 48 ∈ layouts
  accent : fallbackText (member blueprint "accent") "coral" 16 ∈ accents

/-- A title that is clean, and a description that is clean or empty. -/
structure CleanTexts (entry : String × String) : Prop where
  title : Text.Clean 120 entry.1.toList
  description : entry.2 = "" ∨ Text.Clean 500 entry.2.toList

theorem fallbackText_of_mem {names : List String} {name fallback : String}
    (stays : ∀ name ∈ names, fallbackText (.str name) fallback bound = name)
    (known : name ∈ names) : fallbackText (.str name) fallback bound ∈ names := by
  rw [stays name known]
  exact known

/-- A blueprint with a known layout and a known accent. -/
theorem styled_of_known {blueprint : Fields} {layout accent : String}
    (layout_eq : member blueprint "layout" = .str layout) (layoutMem : layout ∈ layouts)
    (accent_eq : member blueprint "accent" = .str accent) (accentMem : accent ∈ accents) :
    Styled blueprint := by
  constructor
  · rw [layout_eq]
    exact fallbackText_of_mem (by decide) layoutMem
  · rw [accent_eq]
    exact fallbackText_of_mem (by decide) accentMem

theorem styled_nil : Styled [] := by
  constructor <;> decide

section Revision

variable {unicode : Unicode} {db : AppsDb} {owned : OwnedCodeApp}
  {revision : GeneratedAppRevision} {request : OwnedRevisionRequest} {intended : IntendedRevision}

theorem clean_of_givenText {value : Option String} {field default s : String}
    (given : givenText value field bound default = .ok s)
    (clean : Text.Clean bound default.toList) : Text.Clean bound s.toList := by
  cases value with
  | none =>
      cases given
      exact clean
  | some value =>
      rw [givenText] at given
      exact clean_of_text given

theorem revisionContext_fits {context : Fields} (made : revisionContext revision = .ok context) :
    jsonBytes (.obj context) ≤ 768000 := by
  unfold revisionContext at made
  dsimp only at made
  split at made
  · rename_i fits
    cases made
    exact fits
  · split at made
    · rename_i fits
      cases made
      exact fits
    · simp only [requireJsonSize, bind_eq_ok, pure_eq_ok, require_eq_ok, decide_eq_true_eq] at made
      rcases made with ⟨_, fits, rfl⟩
      exact fits

/-- The description that a revision is to have: the given one, or that of the app. -/
def givenDescription (app : GeneratedApp) (given : Option String) : String :=
  given.getD app.description

/-- The description that a revision intends. -/
def cleanDescription (app : GeneratedApp) (given : Option String) : Except CodeAppError String :=
  match given with
  | some description => Apps.optionalText (.str description) 500
  | none => .ok app.description

/-- The description of a revision is empty when nothing but whitespace was given. -/
theorem cleanDescription_eq_ok {app : GeneratedApp} {given : Option String} {description : String}
    (texts : CleanTexts (app.title, app.description))
    (read : cleanDescription app given = .ok description) :
    (description = "" ∨ Text.Clean 500 description.toList) ∧
      (description = "" ↔ Text.strip (givenDescription app given).toList = []) := by
  cases given with
  | none =>
      cases read
      refine ⟨texts.description, ?_⟩
      constructor
      · intro empty
        rw [givenDescription, Option.getD_none, empty]
        rfl
      · intro blank
        rcases texts.description with empty | clean
        · exact empty
        · exact absurd blank clean.strip_ne_nil
  | some given =>
      rw [cleanDescription] at read
      exact ⟨clean_of_optionalText (by decide) read, optionalText_eq_empty (by decide) read⟩

/-- What a revision puts into its blueprint, after a previous one. -/
def revisionContent (previous manifest seedData context : Fields)
    (title description change direction : String) : RevisionContent where
  title := title
  description := description
  purpose := fallbackText (member previous "purpose")
    (if description.isEmpty then title else description) 500
  layout := fallbackText (member previous "layout") "workspace" 48
  accent := fallbackText (member previous "accent") "coral" 16
  productBrief := fallbackText (member previous "product_brief")
    (if description.isEmpty then title else description) 4000
  visualDirection := direction
  manifest := manifest
  seedData := seedData
  change := change
  context := context

theorem fits_revisionContent {previous seedData context : Fields}
    {title description change direction : String} (styled : Styled previous)
    (titled : Text.Clean 120 title.toList)
    (described : description = "" ∨ Text.Clean 500 description.toList)
    (changed : Text.Clean 4000 change.toList) (directed : Text.Clean 1000 direction.toList)
    (valid : validateManifest (.obj manifest) = .ok ())
    (seedDataFits : jsonBytes (.obj seedData) ≤ 128000)
    (contextFits : jsonBytes (.obj context) ≤ 768000) :
    (revisionContent previous manifest seedData context title description change direction).Fits := by
  have fallback : Text.Clean 500
      (if description.isEmpty then title else description).toList := by
    split
    · exact titled.mono (by decide)
    · rename_i notEmpty
      rcases described with rfl | clean
      · exact absurd rfl notEmpty
      · exact clean
  constructor
  · exact titled
  · exact clean_fallbackText (by decide) fallback
  · exact styled.layout
  · exact styled.accent
  · exact clean_fallbackText (by decide) (fallback.mono (by decide))
  · exact directed
  · exact changed
  · exact parseCapabilities_of_validateManifest valid
  · exact manifestFits_of_validateManifest valid
  · exact seedDataFits
  · exact contextFits

/-- The seeds of a revision: the given ones, or those of a previous blueprint. -/
def inheritedSeeds (request : OwnedRevisionRequest) (previous : Fields) : Fields :=
  request.seedData.getD (jsonObject (Json.lookup previous "seed_data"))

/-- What was accepted of a request, and the blueprint that it makes. -/
theorem intendedRevision_eq_ok {previous : Fields}
    (inherits : activeBlueprint db request.appId revision.id = previous)
    (intends : intendedRevision unicode db owned revision request = .ok intended) :
    ∃ title description change direction manifest context,
      givenText request.title "title" 120 owned.app.title = .ok title ∧
        cleanDescription owned.app request.description = .ok description ∧
        text (.str request.revisionRequest) "revision_request" 4000 = .ok change ∧
        givenText request.visualDirection "visual_direction" 1000 (fallbackText
          (member previous "visual_direction") "purpose-native and mobile-first" 1000) =
            .ok direction ∧
        validateManifest (.obj manifest) = .ok () ∧
        jsonBytes (.obj (inheritedSeeds request previous)) ≤ 128000 ∧
        revisionContext revision = .ok context ∧
        intended.blueprint = (revisionContent previous manifest (inheritedSeeds request previous)
          context title description change direction).blueprint := by
  simp only [intendedRevision, bind_eq_ok, inherits] at intends
  rcases intends with ⟨change, changed, title, titled, rest⟩
  -- What follows is the same for a description that is given and for the one of the app.
  split at rest
  all_goals
    rename_i given_eq
    simp only [bind_eq_ok] at rest
    rcases rest with ⟨description, described, _, valid, rest⟩
    have rest := of_checked rest
    simp only [requireJsonSize, bind_eq_ok, pure_eq_ok, require_eq_ok, decide_eq_true_eq] at rest
    rcases rest with ⟨_, seedDataFits, direction, directed, context, contextual, rfl⟩
    rcases obj_of_validateManifest valid with ⟨manifest, manifest_eq⟩
    rw [manifest_eq] at valid ⊢
    rw [given_eq]
    exact ⟨title, description, change, direction, manifest, context, titled, described, changed,
      directed, valid, seedDataFits, contextual, rfl⟩

/-- What a revision queues fits the contract of the builder but for its description. -/
theorem content_of_intendedRevision
    (intends : intendedRevision unicode db owned revision request = .ok intended)
    (texts : CleanTexts (owned.app.title, owned.app.description))
    (styled : Styled (activeBlueprint db request.appId revision.id)) :
    ∃ content : RevisionContent, intended.blueprint = content.blueprint ∧ content.Fits ∧
      (content.description = "" ∨ Text.Clean 500 content.description.toList) ∧
        (content.description = "" ↔
          Text.strip (givenDescription owned.app request.description).toList = []) := by
  rcases intendedRevision_eq_ok rfl intends with ⟨title, description, change, direction, manifest,
    context, titled, described, changed, directed, valid, seedDataFits, contextual, blueprint_eq⟩
  have inherited : Text.Clean 1000 (fallbackText
      (member (activeBlueprint db request.appId revision.id) "visual_direction")
        "purpose-native and mobile-first" 1000).toList :=
    clean_fallbackText (by decide) (by decide)
  have read := cleanDescription_eq_ok texts described
  refine ⟨_, blueprint_eq, ?_, read⟩
  apply fits_revisionContent styled
  · exact clean_of_givenText titled texts.title
  · exact read.1
  · exact clean_of_text changed
  · exact clean_of_givenText directed inherited
  · exact valid
  · exact seedDataFits
  · exact revisionContext_fits contextual

end Revision

end DotBackend.Builder
