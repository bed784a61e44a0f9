import DotBackend.Builder.Acceptance
import DotBackend.Builder.IssueFingerprints
import DotBackend.Builder.ServiceHooks

/-!
# The build pipeline

A build asks a provider for sources, has them inspected, compiled, tried in a browser and
looked at, and asks again as long as something is wrong and a repair is left. Its
collaborators may answer and raise anything; the policy is any function on sources.
-/

namespace DotBackend.Builder

open Data Data.Outside Apps

/-! ## Exceptions -/

/-- What a build, one of its collaborators or a hook raises. -/
inductive BuildError
  /-- `BlueprintValidationError`. -/
  | invalidBlueprint (message : String)
  /-- `BuildRejectedError`. -/
  | rejected (issues : List ValidationIssue)
  /-- `AppCompilationError`. -/
  | compilation (issues : List ValidationIssue)
  /-- `AppBrowserSmokeError`. -/
  | browserSmoke (issues : List ValidationIssue)
  | timeout (message : String)
  /-- The deadline cancels the task: no `Exception`. -/
  | cancelled
  | service (error : CodeAppError)
  | integrity (message : String)
  /-- `BuildCompletionHookError`. -/
  | completionHook (code message : String) (retryable : Bool)
  /-- Any other exception, by its class. -/
  | other (className message : String)
  deriving DecidableEq

/-- The exceptions of a blueprint. -/
def BlueprintError.toBuildError : BlueprintError → BuildError
  | .invalid message => .invalidBlueprint message
  | .unhashable => .other "TypeError" "unhashable type"

def PlanError.toBuildError : PlanError → BuildError
  | .notIterable => .other "TypeError" "object is not iterable"
  | .unhashable => .other "TypeError" "unhashable type"

/-! ## Collaborators -/

/-- The bytes of a screenshot. -/
abbrev Screenshot := List UInt8

/-- `AppBuildPipeline` with its collaborators. -/
structure BuildParts (ω : Type) extends AppBuildPipeline where
  generate : AppBlueprint → Outside ω BuildError GeneratedSource
  repair : AppBlueprint → GeneratedSource → List ValidationIssue → (attempt : Nat) →
    Outside ω BuildError GeneratedSource
  /-- Only some providers have it. -/
  regenerate : Option (AppBlueprint → List ValidationIssue → (attempt : Nat) →
    Outside ω BuildError GeneratedSource)
  /-- `inspect_generated_source`. -/
  inspect : GeneratedSource → List ValidationIssue
  compile : GeneratedSource → Outside ω BuildError (Option BrowserBundle)
  smoke : Option (BrowserBundle → List AcceptanceStep → (screenshot : Bool) →
    Outside ω BuildError Fields)
  review : Option (Screenshot → AppBlueprint → Outside ω BuildError (List ValidationIssue))
  makeScreenshotDir : Outside ω BuildError Unit
  unlinkScreenshot : Outside ω BuildError Unit
  /-- The file, when there is one. -/
  readScreenshot : Outside ω BuildError (Option Screenshot)
  maxRepairAttempts : Nat
  maxVisualReviews : Nat
  targetDurationMs : Int
  timeoutText : String
  /-- The checks of the constructor. -/
  repairsInRange : maxRepairAttempts ≤ 4
  smokeConfigured : requireBrowserSmoke = true → smoke.isSome = true
  reviewsInRange : 1 ≤ maxVisualReviews ∧ maxVisualReviews ≤ 4

/-- What a build reads of the clock. -/
structure BuildClock where
  startedAt : String
  completedAt : String
  durationMs : Int
  stageDurationMs : Fields

/-! ## One candidate -/

/-- `_COMPILATION_BLOCKING_POLICY_CODES`. -/
def compilationBlockingPolicyCodes : List String :=
  ["duplicate_source_path", "file_too_large", "invalid_source_path", "invalid_typescript",
    "missing_entrypoint", "missing_source", "source_too_large", "too_many_files"]

/-- The variables of the loop. -/
structure BuildLoop where
  generated : GeneratedSource
  attempts : Nat
  repairs : Nat
  issueHistory : List (List ValidationIssue)
  seenAcceptanceFingerprints : List Fingerprint
  cleanRegenerationUsed : Bool
  visualReviews : Nat
  hasScreenshotDir : Bool

/-- What the loop knows of a candidate at its end. -/
structure Examined where
  issues : List ValidationIssue
  browserBundle : Option BrowserBundle
  smokeResult : Option Fields
  visualReviews : Nat
  hasScreenshotDir : Bool

section Pipeline

variable {ω : Type} (pipeline : BuildParts ω)

/-- The bundle of a candidate and the issues so far. -/
def compileCandidate (generated : GeneratedSource) :
    Outside ω BuildError (Option BrowserBundle × List ValidationIssue) := do
  let policyIssues := pipeline.inspect generated
  if policyIssues.any fun issue => issue.code ∈ compilationBlockingPolicyCodes then
    pure (none, policyIssues)
  else
    let compiled ← attempt (pipeline.compile generated)
    match compiled with
    | .ok bundle => pure (bundle, policyIssues)
    | .error (.compilation issues) => pure (none, dedupeIssues (policyIssues ++ issues))
    | .error error => throw error

/-- `_review_visual_quality`: an outage of the reviewer accepts the candidate. -/
def reviewVisualQuality
    (review : Screenshot → AppBlueprint → Outside ω BuildError (List ValidationIssue))
    (screenshot : Screenshot) (blueprint : AppBlueprint) :
    Outside ω BuildError (List ValidationIssue) := do
  let reviewed ← attempt (review screenshot blueprint)
  match reviewed with
  | .ok issues => pure issues
  | .error .cancelled => throw .cancelled
  | .error _ => pure []

/-- The look at the screenshot of a candidate that passed the browser. -/
def reviewCandidate (blueprint : AppBlueprint) (examined : Examined) :
    Outside ω BuildError Examined := do
  match pipeline.review with
  | none => pure examined
  | some review =>
      let screenshot ← pipeline.readScreenshot
      match screenshot with
      | none | some [] => pure examined
      | some bytes =>
          let issues ← reviewVisualQuality review bytes blueprint
          pure { examined with issues := issues, visualReviews := examined.visualReviews + 1 }

/-- A file for the screenshot, in a directory that is made once. -/
def prepareScreenshot (state : BuildLoop) (photographed : Bool) : Outside ω BuildError Unit :=
  match photographed, state.hasScreenshotDir with
  | false, _ => pure ()
  | true, true => pipeline.unlinkScreenshot
  | true, false => do
      pipeline.makeScreenshotDir
      pipeline.unlinkScreenshot

/-- The issues of a try in the browser, and its report. -/
def tryInBrowser
    (smoke : BrowserBundle → List AcceptanceStep → Bool → Outside ω BuildError Fields)
    (bundle : BrowserBundle) (plan : List AcceptanceStep) (photographed : Bool) :
    Outside ω BuildError (List ValidationIssue × Option Fields) := do
  let tried ← attempt (smoke bundle plan photographed)
  match tried with
  | .ok report => pure ([], some report)
  | .error (.browserSmoke issues) => pure (issues, none)
  | .error error => throw error

/-- A bundle without issues is tried in the browser, and may be looked at. -/
def smokeCandidate (blueprint : AppBlueprint) (state : BuildLoop) (bundle : BrowserBundle)
    (smoke : BrowserBundle → List AcceptanceStep → Bool → Outside ω BuildError Fields) :
    Outside ω BuildError Examined := do
  let photographed := pipeline.review.isSome && state.visualReviews < pipeline.maxVisualReviews
  prepareScreenshot pipeline state photographed
  let plan ← lift ((acceptancePlan blueprint.manifest).mapError PlanError.toBuildError)
  let tried ← tryInBrowser smoke bundle plan photographed
  let examined : Examined := ⟨tried.1, some bundle, tried.2, state.visualReviews,
    state.hasScreenshotDir || photographed⟩
  if tried.1 = [] ∧ photographed = true then reviewCandidate pipeline blueprint examined
  else pure examined

/-- The body of the loop up to the question whether there are issues. -/
def examineCandidate (blueprint : AppBlueprint) (state : BuildLoop) :
    Outside ω BuildError Examined := do
  let compiled ← compileCandidate pipeline state.generated
  if compiled.2 ≠ [] then
    pure ⟨compiled.2, compiled.1, none, state.visualReviews, state.hasScreenshotDir⟩
  else
    match pipeline.smoke, compiled.1 with
    | some smoke, some bundle => smokeCandidate pipeline blueprint state bundle smoke
    | _, bundle =>
        if pipeline.requireBrowserSmoke then
          throw (.other "RuntimeError" "required browser smoke runner is unavailable")
        else
          pure ⟨[], bundle, some [("ready", .null), ("status", .str "not_configured")],
            state.visualReviews, state.hasScreenshotDir⟩

/-! ## The loop -/

/-- `_regenerate_with_diagnostics`. -/
def regenerateWithDiagnostics (blueprint : AppBlueprint) (diagnostics : List ValidationIssue)
    (attempt : Nat) : Outside ω BuildError GeneratedSource :=
  match pipeline.regenerate with
  | some regenerate => regenerate blueprint diagnostics attempt
  | none => pipeline.generate blueprint

/-- The variables after a candidate was found wrong, before the provider is asked again. -/
def BuildLoop.reject (state : BuildLoop) (examined : Examined) (fingerprint : Option Fingerprint) :
    BuildLoop :=
  { state with
    issueHistory := state.issueHistory ++ [examined.issues]
    seenAcceptanceFingerprints := state.seenAcceptanceFingerprints ++ fingerprint.toList
    visualReviews := examined.visualReviews
    hasScreenshotDir := examined.hasScreenshotDir }

/-- The variables of the next round. -/
def BuildLoop.again (state : BuildLoop) (clean : Bool) (generated : GeneratedSource) :
    BuildLoop :=
  { state with
    generated := generated
    attempts := state.attempts + 1
    repairs := state.repairs + 1
    cleanRegenerationUsed := state.cleanRegenerationUsed || clean }

/-- The loop, with the number of repairs that are left: `max_repair_attempts - repairs`. -/
def buildLoop (letters : Letters) (blueprint : AppBlueprint) : Nat → BuildLoop →
    Outside ω BuildError (BuildLoop × Examined)
  | left, state => do
      let examined ← examineCandidate pipeline blueprint state
      if examined.issues = [] then pure (state, examined)
      else
        let fingerprint := acceptanceIssueFingerprint letters examined.issues
        let repeated := fingerprint.any fun seen => seen ∈ state.seenAcceptanceFingerprints
        let rejected := state.reject examined fingerprint
        if repeated = true ∧ state.cleanRegenerationUsed = true then
          throw (.rejected examined.issues)
        else
          match left with
          | 0 => throw (.rejected examined.issues)
          | left + 1 => do
              let generated ←
                if repeated then
                  regenerateWithDiagnostics pipeline blueprint
                    (accumulatedDiagnostics rejected.issueHistory) (state.repairs + 1)
                else
                  pipeline.repair blueprint state.generated examined.issues (state.repairs + 1)
              buildLoop letters blueprint left (rejected.again repeated generated)

/-- `BuildMetrics` of a build. -/
def buildMetrics (clock : BuildClock) (state : BuildLoop) (artifact : BuildArtifact) :
    BuildMetrics where
  startedAt := clock.startedAt
  completedAt := clock.completedAt
  durationMs := clock.durationMs
  targetDurationMs := pipeline.targetDurationMs
  withinTarget := clock.durationMs < pipeline.targetDurationMs
  generationAttempts := state.attempts
  repairAttempts := state.repairs
  sourceFiles := artifact.files.length
  sourceBytes := (artifact.files.map fun file => Json.utf8Length file.contents.toList).sum
  stageDurationMs := clock.stageDurationMs

/-- What `AppBuildPipeline.build` does before the deadline. -/
def buildBeforeDeadline (letters : Letters) (clock : BuildClock) (claim : BuildClaim) :
    Outside ω BuildError BuildCompletion := do
  let blueprint ← lift ((fromMapping letters claim.blueprint).mapError BlueprintError.toBuildError)
  let generated ← pipeline.generate blueprint
  let accepted ← buildLoop pipeline letters blueprint pipeline.maxRepairAttempts
    ⟨generated, 1, 0, [], [], false, 0, false⟩
  match accepted.2.browserBundle with
  | none => throw (.other "RuntimeError" "validated app build has no browser bundle")
  | some bundle => do
      let artifact ← lift ((package pipeline.toAppBuildPipeline blueprint accepted.1.generated bundle
        (accepted.2.smokeResult.getD [])).mapError fun issue => .rejected [issue])
      pure ⟨artifact, buildMetrics pipeline clock accepted.1 artifact⟩

/-- `AppBuildPipeline.build`. -/
def build (letters : Letters) (clock : BuildClock) (claim : BuildClaim) :
    Outside ω BuildError BuildCompletion := do
  let built ← attempt (buildBeforeDeadline pipeline letters clock claim)
  match built with
  | .ok completion => pure completion
  | .error .cancelled | .error (.timeout _) =>
      throw (.timeout ("app build exceeded the " ++ pipeline.timeoutText ++ "s worker deadline"))
  | .error error => throw error

end Pipeline

end DotBackend.Builder
