import DotBackend.Apps.BuildTransactions
import DotBackend.Builder.Pipeline

/-!
# Settling a build

A worker claims one build, runs the pipeline and settles the claim. The database may fail at
every point: before a transaction commits, while it commits, and behind that. Other workers
go on in between.
-/

namespace DotBackend.Builder

open Data Data.Outside Apps

/-! ## Failures -/

/-- What the worker tells about a build that failed. -/
structure BuildFailure where
  jobId : Uuid
  appId : Uuid
  revisionId : Option Uuid
  code : String
  message : String
  retryable : Bool
  issues : List ValidationIssue
  durationMs : Int
  deriving DecidableEq

/-- `ValidationIssue.as_dict`. -/
def ValidationIssue.asDict (issue : ValidationIssue) : Json :=
  .obj ([("code", .str issue.code), ("message", .str issue.message)] ++
    (issue.path.map fun path => ("path", .str path)).toList)

/-- The class and the text of an exception of the service. -/
def describeServiceError : CodeAppError → String × String
  | .notFound message => ("CodeAppNotFoundError", message)
  | .authorization message => ("CodeAppAuthorizationError", message)
  | .conflict message => ("CodeAppConflictError", message)
  | .staleBuild message => ("CodeAppStaleBuildError", message)
  | .validation message => ("CodeAppValidationError", message)
  | .rateLimit message => ("CodeAppRateLimitError", message)
  | .internal message => ("RuntimeError", message)

/-- `AppBrowserSmokeError.__init__`. -/
def smokeErrorText (issues : List ValidationIssue) : String :=
  let detail := "; ".intercalate ((issues.take 3).map fun issue =>
    issue.code ++ ": " ++ issue.message)
  if detail = "" then "generated app failed its browser smoke test" else detail

/-- The class of an exception, and its text. -/
def BuildError.describe : BuildError → String × String
  | .invalidBlueprint message => ("BlueprintValidationError", message)
  | .rejected _ => ("BuildRejectedError", "generated source did not pass build policy")
  | .compilation _ => ("AppCompilationError", "generated source did not compile")
  | .browserSmoke issues => ("AppBrowserSmokeError", smokeErrorText issues)
  | .timeout message => ("TimeoutError", message)
  | .cancelled => ("CancelledError", "")
  | .service error => describeServiceError error
  | .integrity message => ("IntegrityError", message)
  | .completionHook _ message _ => ("BuildCompletionHookError", message)
  | .other className message => (className, message)

/-- An exception with its class. -/
def BuildError.text (error : BuildError) : String :=
  error.describe.1 ++ ": " ++ error.describe.2

def failureOf (claim : BuildClaim) (durationMs : Int) (code message : String) (retryable : Bool)
    (issues : List ValidationIssue) : BuildFailure where
  jobId := claim.jobId
  appId := claim.appId
  revisionId := claim.revisionId
  code := code
  message := message
  retryable := retryable
  issues := issues
  durationMs := durationMs

/-- The failure of a build. -/
def pipelineFailure (claim : BuildClaim) (durationMs : Int) (error : BuildError) : BuildFailure :=
  match error with
  | .invalidBlueprint message => failureOf claim durationMs "invalid_blueprint" message false []
  | .rejected issues =>
      failureOf claim durationMs "source_rejected" error.describe.2 false issues
  | .timeout message => failureOf claim durationMs "build_timeout" message true []
  | _ => failureOf claim durationMs "provider_error" error.text true []

/-- The failure of a completion. -/
def completionFailure (claim : BuildClaim) (durationMs : Int) (error : BuildError) :
    BuildFailure :=
  match error with
  | .completionHook code message retryable =>
      failureOf claim durationMs code message retryable []
  | _ => failureOf claim durationMs "completion_hook_error" error.text true []

/-! ## The worker -/

structure BuildJobHooks (ω : Type) where
  claimNextBuild : Outside ω BuildError (Option BuildClaim)
  completeBuild : BuildClaim → BuildCompletion → Outside ω BuildError Unit
  failBuild : BuildClaim → BuildFailure → Outside ω BuildError Unit

section Worker

variable {ω : Type} (hooks : BuildJobHooks ω)

/-- `_fail_build_safely`. -/
def failBuildSafely (claim : BuildClaim) (failure : BuildFailure) : Outside ω BuildError Unit := do
  let failed ← attempt (hooks.failBuild claim failure)
  match failed with
  | .error .cancelled => throw .cancelled
  | _ => pure ()

/-- What `process_next_build` does with a claim. -/
def settleClaim (pipeline : BuildClaim → Outside ω BuildError BuildCompletion) (durationMs : Int)
    (claim : BuildClaim) : Outside ω BuildError Unit := do
  let built ← attempt (pipeline claim)
  match built with
  | .error .cancelled => throw .cancelled
  | .error error => failBuildSafely hooks claim (pipelineFailure claim durationMs error)
  | .ok completion => do
      let completed ← attempt (hooks.completeBuild claim completion)
      match completed with
      | .ok _ => pure ()
      | .error .cancelled => throw .cancelled
      | .error error => failBuildSafely hooks claim (completionFailure claim durationMs error)

/-- `process_next_build`. -/
def processNextBuild (pipeline : BuildClaim → Outside ω BuildError BuildCompletion)
    (durationMs : Int) : Outside ω BuildError Bool := do
  let claimed ← hooks.claimNextBuild
  match claimed with
  | none => pure false
  | some claim => do
      settleClaim hooks pipeline durationMs claim
      pure true

end Worker

/-! ## The hooks of the service -/

/-- An `Exception`. -/
abbrev Fault := {error : BuildError // error ≠ .cancelled}

/-- What happens around the transaction of a hook. -/
structure CallFaults where
  /-- What other sessions commit before. -/
  others : List (BuildCall × Instant)
  now : Instant
  token : String
  opening : Option Fault
  /-- Raised at some point before the commit. -/
  before : Option Fault
  /-- Raised by a commit that succeeded, or behind it. -/
  after : Option Fault
  rollback : Option Fault
  closing : Option Fault

/-- `GeneratedAppBuildServiceHooks`, and what its calls meet. -/
structure ServiceHooks where
  platform : Platform
  /-- `issubclass(cls, (TypeError, ValueError))`, by the name of the class. -/
  isTypeOrValueError : String → Bool
  publicUrl : String
  workerId : String
  leaseSeconds : Int
  claiming : CallFaults
  completing : CallFaults
  failing : CallFaults

section Hooks

variable {δ α : Type}

def raise (fault : Option Fault) : Outside (BuildDb × δ) BuildError Unit :=
  match fault with
  | some error => throw error.val
  | none => pure ()

/-- `async with session_factory() as session`. -/
def inSession (faults : CallFaults) (body : Outside (BuildDb × δ) BuildError α) :
    Outside (BuildDb × δ) BuildError α := do
  raise faults.opening
  let ended ← attempt body
  raise faults.closing
  lift ended

/-- A transaction of the service that commits at its end. -/
def transaction (platform : Platform) (faults : CallFaults)
    (change : BuildDb → Except CodeAppError (α × BuildDb)) :
    Outside (BuildDb × δ) BuildError α :=
  call fun world =>
    let db := runCalls platform faults.others world.1
    match faults.before with
    | some error => (.error error.val, (db, world.2))
    | none =>
        match change db, faults.after with
        | .error error, _ => (.error (.service error), (db, world.2))
        | .ok (_, after), some error => (.error error.val, (after, world.2))
        | .ok (a, after), none => (.ok a, (after, world.2))

/-- `_classify_completion_error`. -/
def classifyCompletionError (isTypeOrValueError : String → Bool) : BuildError → String × Bool
  | .service (.staleBuild _) => ("stale_base_revision", false)
  | .service (.validation _) => ("completion_validation_error", false)
  | .service (.notFound _) => ("completion_target_missing", false)
  | .service (.conflict _) | .integrity _ => ("completion_conflict", false)
  | .invalidBlueprint _ => ("completion_validation_error", false)
  | .other className _ =>
      if isTypeOrValueError className then ("completion_validation_error", false)
      else ("completion_persistence_error", true)
  | _ => ("completion_persistence_error", true)

/-- The transaction of `GeneratedAppBuildServiceHooks.complete_build`. -/
def completeJob (service : ServiceHooks) (claim : BuildClaim) (completion : BuildCompletion)
    (db : BuildDb) : Except CodeAppError (Unit × BuildDb) :=
  match db.tables.app? claim.appId with
  | none => .error (.notFound "Claimed app no longer exists")
  | some app => do
      let after ← db.complete service.platform (completionResult service.workerId claim completion
        (appBaseUrl service.publicUrl app)) service.completing.token service.completing.now
      pure ((), after)

/-- The text of `GeneratedAppBuildServiceHooks.fail_build`. -/
def failureText (failure : BuildFailure) : String :=
  String.ofList ((Json.dumps (.obj [("code", .str failure.code), ("message", .str failure.message),
    ("retryable", .bool failure.retryable), ("duration_ms", .int failure.durationMs),
    ("issues", .arr (failure.issues.map ValidationIssue.asDict))])).take 4000)

/-- The transaction of `GeneratedAppBuildServiceHooks.fail_build`. -/
def failJob (service : ServiceHooks) (claim : BuildClaim) (failure : BuildFailure) (db : BuildDb) :
    Except CodeAppError (Unit × BuildDb) := do
  let after ← db.fail service.platform ⟨claim.jobId, service.workerId, claim.attempt,
    failureText failure, failure.retryable⟩ service.failing.now
  pure ((), after)

/-- What `complete_build` of the hooks raises instead of an exception. -/
def ServiceHooks.completionError (service : ServiceHooks) (error : BuildError) : BuildError :=
  match service.completing.rollback with
  | some fault => .completionHook "completion_rollback_error"
      (error.text ++ "; rollback failed with " ++ fault.val.text) true
  | none =>
      let (code, retryable) := classifyCompletionError service.isTypeOrValueError error
      .completionHook code error.text retryable

def ServiceHooks.hooks (service : ServiceHooks) : BuildJobHooks (BuildDb × δ) where
  claimNextBuild := do
    let job ← inSession service.claiming (transaction service.platform service.claiming fun db =>
      db.claimNext service.workerId service.leaseSeconds service.claiming.now)
    pure (job.map claimOf)
  completeBuild claim completion := inSession service.completing do
    let completed ← attempt (transaction service.platform service.completing
      (completeJob service claim completion))
    match completed with
    | .ok _ => pure ()
    | .error .cancelled => throw .cancelled
    | .error error => throw (service.completionError error)
  failBuild claim failure :=
    inSession service.failing (transaction service.platform service.failing
      (failJob service claim failure))

end Hooks

end DotBackend.Builder
