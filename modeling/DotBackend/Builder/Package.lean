import DotBackend.Builder.Blueprint
import DotBackend.Data.JsonSizes
import Mathlib.Tactic.Ring

/-!
# Packages

The last stage of a build: the generated sources, their bundle and the report of the browser
become one artifact, which may not be larger than what the service stores.
-/

namespace DotBackend.Builder

open Data Apps

/-- `content_hash`. -/
def contentHash (value : Json) : String :=
  sha256 (Json.dumps value)

structure SourceFile where
  path : String
  contents : String
  deriving DecidableEq

/-- `SourceFile.as_dict`. -/
def SourceFile.asDict (file : SourceFile) : Json :=
  .obj [("path", .str file.path), ("contents", .str file.contents)]

structure GeneratedSource where
  files : List SourceFile
  entrypoint : String
  providerMetadata : Fields
  deriving DecidableEq

structure BrowserBundle where
  format : String
  javascript : String
  css : String
  sha256 : String
  sdkVersion : String
  staticHtml : String
  compiler : Fields
  deriving DecidableEq

/-- `BrowserBundle.as_dict`. -/
def BrowserBundle.asDict (bundle : BrowserBundle) : Json :=
  .obj [("format", .str bundle.format), ("javascript", .str bundle.javascript),
    ("css", .str bundle.css), ("sha256", .str bundle.sha256),
    ("sdk_version", .str bundle.sdkVersion), ("static_html", .str bundle.staticHtml),
    ("compiler", .obj bundle.compiler)]

structure BuildArtifact where
  formatVersion : Int
  provider : String
  providerVersion : String
  sdkVersion : String
  entrypoint : String
  files : List SourceFile
  manifest : Fields
  dependencyLock : Fields
  testResults : Fields
  sourceHash : String
  contentHash : String
  providerMetadata : Fields
  browserBundle : BrowserBundle
  deriving DecidableEq

/-- `BuildArtifact.as_dict`. -/
def BuildArtifact.asDict (artifact : BuildArtifact) : Json :=
  .obj [("format_version", .int artifact.formatVersion), ("provider", .str artifact.provider),
    ("provider_version", .str artifact.providerVersion),
    ("sdk_version", .str artifact.sdkVersion), ("entrypoint", .str artifact.entrypoint),
    ("files", .arr (artifact.files.map SourceFile.asDict)), ("manifest", .obj artifact.manifest),
    ("dependency_lock", .obj artifact.dependencyLock),
    ("test_results", .obj artifact.testResults), ("source_hash", .str artifact.sourceHash),
    ("content_hash", .str artifact.contentHash),
    ("provider_metadata", .obj artifact.providerMetadata),
    ("browser_bundle", artifact.browserBundle.asDict)]

structure ValidationIssue where
  code : String
  message : String
  path : Option String
  deriving DecidableEq

/-- `DOT_APP_SDK_VERSION`. -/
def dotAppSdkVersion : String := "2"

/-- `DOT_APP_DEPENDENCY_LOCK`. -/
def dotAppDependencyLock : Fields :=
  [("@dot/app-runtime", .str "2"), ("@dot/ui", .str "2"), ("date-fns", .str "4.1.0"),
    ("lucide-react", .str "0.468.0"), ("motion", .str "12.0.0"), ("react", .str "19.2.0"),
    ("react-dom", .str "19.2.0"), ("recharts", .str "2.15.0")]

/-- What a pipeline is made of that packaging reads. -/
structure AppBuildPipeline where
  providerName : String
  providerVersion : String
  requireBrowserSmoke : Bool
  deriving DecidableEq

/-- The report of the browser says that the app is ready. -/
def smokeReady (smoke : Fields) : Bool :=
  Json.lookup smoke "ready" = some (.bool true)

/-- The static HTML that is embedded: that of the browser, else that of the compiler. -/
def staticHtmlOf (bundle : BrowserBundle) (smoke : Fields) : String :=
  match Json.lookup smoke "static_html" with
  | none => bundle.staticHtml
  | some (.str html) => html
  | some _ => ""

/-- `smoke_report`. -/
def smokeReport (smoke : Fields) : Fields :=
  Json.assign "status" (.str (if smokeReady smoke then "passed" else "skipped"))
    (Json.remove "static_html" smoke)

/-- `test_results`. -/
def packagedResults (bundle : BrowserBundle) (smoke : Fields) : Fields :=
  [("policy", .obj [("status", .str "passed")]),
    ("typescript_compile", .obj [("status", .str "passed"), ("compiler", .obj bundle.compiler)]),
    ("browser_smoke", .obj (smokeReport smoke))]

/-- `unsigned`, what the content hash is about. -/
def unsignedArtifact (pipeline : AppBuildPipeline) (blueprint : AppBlueprint)
    (entrypoint : String) (files : List SourceFile) (bundle : BrowserBundle) (results : Fields) :
    Json :=
  let source : Json := .arr (files.map SourceFile.asDict)
  .obj [("format_version", .int 1), ("provider", .str pipeline.providerName),
    ("provider_version", .str pipeline.providerVersion), ("sdk_version", .str dotAppSdkVersion),
    ("entrypoint", .str entrypoint), ("files", source), ("manifest", .obj blueprint.manifest),
    ("dependency_lock", .obj dotAppDependencyLock), ("test_results", .obj results),
    ("source_hash", .str (contentHash source)), ("browser_bundle", bundle.asDict)]

/-- The artifact of `AppBuildPipeline._package`. -/
def packagedArtifact (pipeline : AppBuildPipeline) (blueprint : AppBlueprint)
    (generated : GeneratedSource) (bundle : BrowserBundle) (smoke : Fields) : BuildArtifact :=
  let embedded := { bundle with staticHtml := staticHtmlOf bundle smoke }
  let files := Table.orderBy (fun a b => a.path ≤ b.path) generated.files
  let results := packagedResults embedded smoke
  { formatVersion := 1
    provider := pipeline.providerName
    providerVersion := pipeline.providerVersion
    sdkVersion := dotAppSdkVersion
    entrypoint := generated.entrypoint
    files := files
    manifest := blueprint.manifest
    dependencyLock := dotAppDependencyLock
    testResults := results
    sourceHash := contentHash (.arr (files.map SourceFile.asDict))
    contentHash := contentHash
      (unsignedArtifact pipeline blueprint generated.entrypoint files embedded results)
    providerMetadata := generated.providerMetadata
    browserBundle := embedded }

/-- `AppBuildPipeline._package`; a missing report of the browser is an empty one. -/
def package (pipeline : AppBuildPipeline) (blueprint : AppBlueprint) (generated : GeneratedSource)
    (bundle : BrowserBundle) (smoke : Fields) : Except ValidationIssue BuildArtifact := do
  let html := (staticHtmlOf bundle smoke).toList
  let artifact := packagedArtifact pipeline blueprint generated bundle smoke
  require (!pipeline.requireBrowserSmoke || smokeReady smoke)
    ⟨"missing_static_render", "required isolated app render did not complete", none⟩
  require (!smokeReady smoke || Text.strip html ≠ [])
    ⟨"missing_static_render", "generated app did not produce usable isolated HTML", none⟩
  require (Json.utf8Length html ≤ 256000)
    ⟨"static_render_too_large", "isolated app HTML exceeds 256 KB", none⟩
  require (Json.byteLength (.obj artifact.testResults) ≤ 128000)
    ⟨"build_test_results_too_large", "build test metadata exceeds 128 KB", none⟩
  require (Json.byteLength artifact.asDict ≤ 4000000)
    ⟨"build_artifact_too_large", "packaged app exceeds the 4 MB persistence envelope", none⟩
  pure artifact

/-- Of a blueprint, only the manifest is packaged. -/
theorem package_congr {first second : AppBlueprint} (pipeline : AppBuildPipeline)
    (generated : GeneratedSource) (bundle : BrowserBundle) (smoke : Fields)
    (same : first.manifest = second.manifest) :
    package pipeline first generated bundle smoke =
      package pipeline second generated bundle smoke := by
  have artifacts : packagedArtifact pipeline first generated bundle smoke =
      packagedArtifact pipeline second generated bundle smoke := by
    simp only [packagedArtifact, unsignedArtifact, same]
  rw [package, artifacts, package]

/-- What is packaged fits what the service stores. -/
theorem package_eq_ok {pipeline : AppBuildPipeline} {blueprint : AppBlueprint}
    {generated : GeneratedSource} {bundle : BrowserBundle} {smoke : Fields}
    {artifact : BuildArtifact}
    (packaged : package pipeline blueprint generated bundle smoke = .ok artifact) :
    artifact = packagedArtifact pipeline blueprint generated bundle smoke ∧
      Json.byteLength artifact.asDict ≤ 4000000 := by
  simp only [package, bind_eq_ok, pure_eq_ok, require_eq_ok, decide_eq_true_eq] at packaged
  rcases packaged with ⟨_, _, _, _, _, _, _, _, _, fits, rfl⟩
  exact ⟨rfl, fits⟩

/-- With a required browser, only an app that the browser found ready is packaged. -/
theorem smokeReady_of_package {pipeline : AppBuildPipeline} {blueprint : AppBlueprint}
    {generated : GeneratedSource} {bundle : BrowserBundle} {smoke : Fields}
    {artifact : BuildArtifact}
    (packaged : package pipeline blueprint generated bundle smoke = .ok artifact)
    (required : pipeline.requireBrowserSmoke = true) : smokeReady smoke = true := by
  simp only [package, bind_eq_ok, require_eq_ok] at packaged
  rcases packaged with ⟨_, checked, _⟩
  rw [required, Bool.not_true, Bool.false_or] at checked
  exact checked

/-! ## Content hashes -/

theorem length_wordText (count word : Nat) : (Sha256.wordText count word).length = count := by
  induction count generalizing word with
  | zero => rfl
  | succ count ih =>
      rw [Sha256.wordText, List.length_append, ih, List.length_singleton]

/-- A hexadecimal digit. -/
def isHex (c : Char) : Bool :=
  ('0' ≤ c ∧ c ≤ '9') ∨ ('a' ≤ c ∧ c ≤ 'f')

/-- What holds of the sixteen digits holds of the text of a word. -/
theorem forall_mem_wordText {property : Char → Prop}
    (digits : ∀ digit < 16, property (Nat.digitChar digit)) {count word : Nat} {c : Char}
    (cMem : c ∈ Sha256.wordText count word) : property c := by
  induction count generalizing word with
  | zero => cases cMem
  | succ count ih =>
      rw [Sha256.wordText, List.mem_append, List.mem_singleton] at cMem
      rcases cMem with earlier | rfl
      · exact ih earlier
      · exact digits _ (Nat.mod_lt _ (by decide))

theorem length_flatMap_wordText (words : List Nat) :
    (words.flatMap (Sha256.wordText 8)).length = 8 * words.length := by
  induction words with
  | nil => rfl
  | cons word rest ih =>
      rw [List.flatMap_cons, List.length_append, length_wordText, ih,
        List.length_cons]
      omega

/-- A digest has 64 hexadecimal digits. -/
theorem length_sha256 (text : List Char) : (sha256 text).toList.length = 64 := by
  unfold sha256
  dsimp only
  rw [String.toList_ofList, length_flatMap_wordText]
  rfl

theorem forall_mem_sha256 {property : Char → Prop}
    (digits : ∀ digit < 16, property (Nat.digitChar digit)) {text : List Char} {c : Char}
    (cMem : c ∈ (sha256 text).toList) : property c := by
  unfold sha256 at cMem
  dsimp only at cMem
  rw [String.toList_ofList] at cMem
  rcases List.mem_flatMap.mp cMem with ⟨word, _, digit⟩
  exact forall_mem_wordText digits digit

theorem isDigest_sha256 (text : List Char) : isDigest (sha256 text) = true := by
  have digits : ∀ digit < 16, isHex (Nat.digitChar digit) = true := by decide
  rw [isDigest, Bool.and_eq_true]
  exact ⟨decide_eq_true (length_sha256 text), List.all_eq_true.mpr fun c cMem =>
    @forall_mem_sha256 (fun c => isHex c = true) digits text c cMem⟩

theorem literalBytes_sha256 (text : List Char) : Json.literalBytes (sha256 text) = 66 := by
  have digits : ∀ digit < 16, Json.charBytes (Nat.digitChar digit) = 1 := by decide
  have single : (sha256 text).toList.map Json.charBytes = (sha256 text).toList.map fun _ => 1 :=
    List.map_congr_left fun c cMem =>
      @forall_mem_sha256 (fun c => Json.charBytes c = 1) digits text c cMem
  rw [Json.literalBytes, single, List.map_const', List.sum_replicate_nat, length_sha256]

/-- How much an artifact takes up does not depend on its digests. -/
theorem byteLength_of_digests (artifact : BuildArtifact) {source content : List Char}
    (sourceHash : artifact.sourceHash = sha256 source)
    (contentHash : artifact.contentHash = sha256 content) :
    Json.byteLength artifact.asDict =
      Json.byteLength { artifact with sourceHash := "", contentHash := "" }.asDict + 128 := by
  have blank : Json.literalBytes "" = 2 := rfl
  rw [BuildArtifact.asDict, BuildArtifact.asDict, Json.byteLength_obj (List.cons_ne_nil _ _),
    Json.byteLength_obj (List.cons_ne_nil _ _)]
  simp only [List.map_cons, List.sum_cons, Json.byteLength_str, blank, sourceHash, contentHash,
    literalBytes_sha256]
  ring

theorem byteLength_packagedArtifact (pipeline : AppBuildPipeline) (blueprint : AppBlueprint)
    (generated : GeneratedSource) (bundle : BrowserBundle) (smoke : Fields) :
    Json.byteLength (packagedArtifact pipeline blueprint generated bundle smoke).asDict =
      Json.byteLength { packagedArtifact pipeline blueprint generated bundle smoke with
        sourceHash := "", contentHash := "" }.asDict + 128 :=
  byteLength_of_digests _ rfl rfl

end DotBackend.Builder
