import DotBackend.Apps.Builds
import DotBackend.Builder.Package

/-!
# Between the builder and the service

What a worker takes from the job that it claimed, and what it hands in for it: the artifact
as a dictionary, and the results of the tests with the metrics of the build.
-/

namespace DotBackend.Builder

open Data Channel Apps

/-! ## Claims -/

structure BuildClaim where
  jobId : Uuid
  appId : Uuid
  revisionId : Option Uuid
  blueprint : Fields
  attempt : Nat
  deriving DecidableEq

/-- The blueprint of `GeneratedAppBuildServiceHooks.claim_next_build`. -/
def claimBlueprint (request : Fields) : Fields :=
  match (Json.lookup request "blueprint").getD (.obj request) with
  | .obj blueprint => blueprint
  | other => [("invalid_blueprint", other)]

/-- The claim of a job. -/
def claimOf (job : GeneratedAppBuildJob) : BuildClaim where
  jobId := job.id
  appId := job.appId
  revisionId := job.baseRevisionId
  blueprint := claimBlueprint job.request
  attempt := job.attempts

/-! ## Completions -/

structure BuildMetrics where
  startedAt : String
  completedAt : String
  durationMs : Int
  targetDurationMs : Int
  withinTarget : Bool
  generationAttempts : Int
  repairAttempts : Int
  sourceFiles : Int
  sourceBytes : Int
  stageDurationMs : Fields
  deriving DecidableEq

/-- `BuildMetrics.as_dict`. -/
def BuildMetrics.asDict (metrics : BuildMetrics) : Json :=
  .obj [("started_at", .str metrics.startedAt), ("completed_at", .str metrics.completedAt),
    ("duration_ms", .int metrics.durationMs),
    ("target_duration_ms", .int metrics.targetDurationMs),
    ("within_target", .bool metrics.withinTarget),
    ("generation_attempts", .int metrics.generationAttempts),
    ("repair_attempts", .int metrics.repairAttempts), ("source_files", .int metrics.sourceFiles),
    ("source_bytes", .int metrics.sourceBytes),
    ("stage_duration_ms", .obj metrics.stageDurationMs)]

structure BuildCompletion where
  artifact : BuildArtifact
  metrics : BuildMetrics
  deriving DecidableEq

/-- The results of the tests with the metrics of the build. -/
def BuildCompletion.testResults (completion : BuildCompletion) : Fields :=
  Json.assign "build_metrics" completion.metrics.asDict completion.artifact.testResults

/-- `{item.path: item.contents for item in artifact.files}`. -/
def sourceFileDict (files : List SourceFile) : Fields :=
  files.foldl (fun fields file => Json.assign file.path (.str file.contents) fields) []

/-- The arguments of `complete_build`. -/
def completionResult (workerId : String) (claim : BuildClaim) (completion : BuildCompletion)
    (handoffBaseUrl : String) : BuildResult where
  jobId := claim.jobId
  workerId := workerId
  expectedAttempt := claim.attempt
  manifest := .obj completion.artifact.manifest
  sourceFiles := sourceFileDict completion.artifact.files
  artifactUrl := "artifact://sha256/" ++ completion.artifact.contentHash
  artifactSha256 := completion.artifact.contentHash
  sdkVersion := completion.artifact.sdkVersion
  dependencyLock := .obj completion.artifact.dependencyLock
  testResults := .obj completion.testResults
  artifact := completion.artifact.asDict
  handoffBaseUrl := some handoffBaseUrl

/-- `GeneratedAppBuildServiceHooks._app_base_url`. -/
def appBaseUrl (publicUrl : String) (app : GeneratedApp) : String :=
  publicUrl ++ "/a/" ++ app.publicId

/-- `GeneratedAppBuildServiceHooks.complete_build`, with the exception of the service. -/
def completeClaim (unicode : Unicode) (publicUrl : String) (db : AppsDb) (workerId : String)
    (claim : BuildClaim) (completion : BuildCompletion) (raw : String) (now : Instant) :
    Except CodeAppError AppsDb :=
  match db.app? claim.appId with
  | none => .error (.notFound "Claimed app no longer exists")
  | some app =>
      completeBuild unicode db
        (completionResult workerId claim completion (appBaseUrl publicUrl app)) raw now

end DotBackend.Builder
