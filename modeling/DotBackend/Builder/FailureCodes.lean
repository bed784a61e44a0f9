import DotBackend.Builder.Settlement
import DotBackend.Data.Brackets

/-!
# The codes of failures

A worker tells the service of a failure with the text of an object, cut to the length that the
service stores; the service reads the code out of the text again. The code survives where the
text is not cut.
-/

namespace DotBackend.Builder

open Data Apps

/-! ## What is stored of a failure -/

/-- The dictionary of `GeneratedAppBuildServiceHooks.fail_build`. -/
def failureFields (failure : BuildFailure) : Fields :=
  [("code", .str failure.code), ("message", .str failure.message),
    ("retryable", .bool failure.retryable), ("duration_ms", .int failure.durationMs),
    ("issues", .arr (failure.issues.map ValidationIssue.asDict))]

/-- `build_metadata`. -/
def failureMetadata (failure : BuildFailure) : Fields :=
  [("duration_ms", .int failure.durationMs),
    ("issues", .arr (failure.issues.map ValidationIssue.asDict))]

/-- The code that `_safe_failure` reads. -/
def safeCode (parsed : Fields) : String :=
  match Json.lookup parsed "code" with
  | some (.str code) => if code.length ≤ 64 then code else "build_failed"
  | _ => "build_failed"

/-- What `_safe_failure` reads about another attempt. -/
def safeRetryable (parsed : Fields) : Option Bool :=
  match Json.lookup parsed "retryable" with
  | some (.bool retryable) => some retryable
  | _ => none

/-- `_safe_failure`. -/
def safeFailure (platform : Platform) (rawError : String) : String × Option Bool :=
  match platform.loads rawError.toList with
  | some (.obj parsed) => (safeCode parsed, safeRetryable parsed)
  | _ => ("build_failed", none)

/-- `job.result` of a failed build. -/
structure FailureResult where
  buildMetadata : Fields
  retryable : Bool
  requeued : Bool
  failureCode : String
  deriving DecidableEq

/-- What the payload of `app.build.failed` says about the failure. -/
structure FailurePayload where
  failureCode : String
  retryable : Bool
  deriving DecidableEq

/-- The event is enqueued when the job is not queued again. -/
def FailureResult.payload (result : FailureResult) : Option FailurePayload :=
  if result.requeued then none else some ⟨result.failureCode, result.retryable⟩

/-- The arguments of `fail_build`. -/
def failureCall (workerId : String) (claim : BuildClaim) (failure : BuildFailure) :
    Apps.BuildFailure :=
  ⟨claim.jobId, workerId, claim.attempt, failureText failure, failure.retryable⟩

/-- The result that `fail_build` assigns to a job. -/
def failureResult (platform : Platform) (failure : Apps.BuildFailure) (metadata : Fields)
    (job : GeneratedAppBuildJob) : FailureResult :=
  let (failureCode, parsed) := safeFailure platform failure.error
  let retryable := parsed.getD failure.retryable
  { buildMetadata := metadata
    retryable := retryable
    requeued := retryable && (job.attempts < maxBuildAttempts : Bool)
    failureCode := failureCode }

/-- `GeneratedAppBuildServiceHooks.fail_build`, with the result of the job and the payload of
the event. -/
def reportFailure (platform : Platform) (workerId : String) (db : AppsDb) (claim : BuildClaim)
    (failure : BuildFailure) (now : Instant) :
    Except CodeAppError (FailureResult × Option FailurePayload × AppsDb) := do
  let told := failureCall workerId claim failure
  let job ← claimedJob db told.jobId told.workerId told.expectedAttempt
  let after ← settleFailure platform db job told now
  let result := failureResult platform told (failureMetadata failure) job
  pure (result, result.payload, after)

/-! ## The result and the settlement agree -/

theorem failureText_eq (failure : BuildFailure) :
    failureText failure = String.ofList ((Json.dumps (.obj (failureFields failure))).take 4000) :=
  rfl

/-! ## Codes -/

/-- The code and the flag of a failure are stored, and told. -/
def CodeSurvives (failure : BuildFailure) (result : FailureResult)
    (payload : Option FailurePayload) : Prop :=
  result.failureCode = failure.code ∧ result.retryable = failure.retryable ∧
    ∀ told ∈ payload, told.failureCode = failure.code ∧ told.retryable = failure.retryable

section Codes

variable {platform : Platform} {failure : BuildFailure}

/-- A text that is not cut is read back. -/
theorem safeFailure_of_short
    (reads : platform.loads (Json.dumps (.obj (failureFields failure))) =
      some (.obj (Json.copyFields (failureFields failure))))
    (shortCode : failure.code.length ≤ 64)
    (shortText : (Json.dumps (.obj (failureFields failure))).length ≤ 4000) :
    safeFailure platform (failureText failure) = (failure.code, some failure.retryable) := by
  have isCode : Json.lookup (Json.copyFields (failureFields failure)) "code" =
      some (.str failure.code) := by
    rw [Json.lookup_copyFields]
    rfl
  have isRetryable : Json.lookup (Json.copyFields (failureFields failure)) "retryable" =
      some (.bool failure.retryable) := by
    rw [Json.lookup_copyFields]
    rfl
  rw [safeFailure, failureText_eq, String.toList_ofList, List.take_of_length_le shortText, reads]
  simp [safeCode, safeRetryable, isCode, isRetryable, shortCode]

/-- A text that is cut is not read. -/
theorem safeFailure_of_long
    (accepts : ∀ text value, platform.loads text = some value → AllClosed text)
    (longText : 4000 < (Json.dumps (.obj (failureFields failure))).length) :
    safeFailure platform (failureText failure) = ("build_failed", none) := by
  have rejected : platform.loads ((Json.dumps (.obj (failureFields failure))).take 4000) = none := by
    apply Option.eq_none_iff_forall_ne_some.mpr
    intro value loaded
    exact Json.not_allClosed_take (by decide) longText (accepts _ value loaded)
  rw [safeFailure, failureText_eq, String.toList_ofList, rejected]

/-- The flag is stored as it is, whether or not the text was cut. -/
theorem retryable_of_reads
    (reads : platform.loads (Json.dumps (.obj (failureFields failure))) =
      some (.obj (Json.copyFields (failureFields failure))))
    (accepts : ∀ text value, platform.loads text = some value → AllClosed text)
    (shortCode : failure.code.length ≤ 64) :
    (safeFailure platform (failureText failure)).2.getD failure.retryable = failure.retryable := by
  rcases Nat.lt_or_ge 4000 (Json.dumps (.obj (failureFields failure))).length with long | short
  · rw [safeFailure_of_long accepts long]
    rfl
  · rw [safeFailure_of_short reads shortCode short]
    rfl

/-- Where the flag is stored as it is, the code decides. -/
theorem codeSurvives_failureResult {workerId : String} {claim : BuildClaim} {metadata : Fields}
    {job : GeneratedAppBuildJob}
    (isFlag : (safeFailure platform (failureText failure)).2.getD failure.retryable =
      failure.retryable) :
    CodeSurvives failure
        (failureResult platform (failureCall workerId claim failure) metadata job)
        (failureResult platform (failureCall workerId claim failure) metadata job).payload ↔
      (safeFailure platform (failureText failure)).1 = failure.code := by
  constructor
  · rintro ⟨sameCode, _⟩
    exact sameCode
  · intro sameCode
    constructor
    · exact sameCode
    · constructor
      · exact isFlag
      · intro told toldMem
        unfold FailureResult.payload at toldMem
        split at toldMem
        · cases toldMem
        · cases toldMem
          exact ⟨sameCode, isFlag⟩

/-- The code of a failure survives its settlement if and only if the text of the failure is not
cut, or the code is the one that stands for an unread text. -/
theorem codeSurvives_iff {workerId : String} {db after : AppsDb} {claim : BuildClaim}
    {now : Instant} {result : FailureResult} {payload : Option FailurePayload}
    (reads : platform.loads (Json.dumps (.obj (failureFields failure))) =
      some (.obj (Json.copyFields (failureFields failure))))
    (accepts : ∀ text value, platform.loads text = some value → AllClosed text)
    (shortCode : failure.code.length ≤ 64)
    (reports : reportFailure platform workerId db claim failure now =
      .ok (result, payload, after)) :
    CodeSurvives failure result payload ↔
      (Json.dumps (.obj (failureFields failure))).length ≤ 4000 ∨
        failure.code = "build_failed" := by
  simp only [reportFailure, bind_eq_ok, pure_eq_ok, Prod.mk.injEq] at reports
  rcases reports with ⟨job, _, _, _, rfl, rfl, _⟩
  have isFlag := retryable_of_reads reads accepts shortCode
  rw [codeSurvives_failureResult isFlag]
  rcases Nat.lt_or_ge 4000 (Json.dumps (.obj (failureFields failure))).length with long | short
  · rw [safeFailure_of_long accepts long]
    constructor
    · intro sameCode
      exact Or.inr sameCode.symm
    · rintro (short | sameCode)
      · exact absurd long (Nat.not_lt.mpr short)
      · exact sameCode.symm
  · rw [safeFailure_of_short reads shortCode short]
    exact ⟨fun _ => Or.inl short, fun _ => rfl⟩

end Codes

/-- A job that a worker has claimed. -/
def claimedJobRow : GeneratedAppBuildJob :=
  ⟨3, 1, none, none, .claimed, [], none, none, 1, some "worker", some 60, some 0, none, 0⟩

/-- A build that a worker has claimed. -/
def claimedBuild : AppsDb where
  __ := AppsDb.empty
  users := [7]
  conversations := [⟨2, 7, .direct, none, .auto, none, true⟩]
  apps := [⟨1, 7, 2, "habits", "Habits", "", .privateLink, .active, .code, 1⟩]
  jobs := [⟨3, 1, none, none, .claimed, [], none, none, 1, some "worker", some 60, some 0, none, 0⟩]
  nextId := 10

/-- A source that was rejected for so many issues. -/
def rejectedSource (issues : Nat) : BuildFailure where
  jobId := 3
  appId := 1
  revisionId := none
  code := "source_rejected"
  message := "generated source did not pass build policy"
  retryable := false
  issues := List.replicate issues
    ⟨"dynamic_code", "eval is not available in generated apps", some "src/App.tsx"⟩
  durationMs := 5

/-- An interpreter that reads the text of one failure. -/
def readsFailure (failure : BuildFailure) : Platform :=
  { Platform.ascii with
    loads := fun text =>
      if text = Json.dumps (.obj (failureFields failure)) then
        some (.obj (Json.copyFields (failureFields failure)))
      else none }

/-! ## Sources with many issues -/

/-- The texts that are joined are no longer than the joined text. -/
theorem sum_length_le_joinComma (texts : List (List Char)) :
    (texts.map List.length).sum ≤ (Json.joinComma texts).length := by
  induction texts with
  | nil => exact Nat.le_refl 0
  | cons text rest ih =>
      cases rest with
      | nil => simp [Json.joinComma]
      | cons next later =>
          have joined : Json.joinComma (text :: next :: later) =
              text ++ ',' :: Json.joinComma (next :: later) := rfl
          rw [joined, List.length_append, List.length_cons, List.map_cons, List.sum_cons]
          omega

/-- A member is no longer than its object. -/
theorem length_dumps_member_le {fields : Fields} {member : String × Json}
    (memberMem : member ∈ fields) :
    (Json.dumps member.2).length ≤ (Json.dumps (.obj fields)).length := by
  have printed : Json.memberText (member.1, Json.dumps member.2) ∈
      (Json.sortMembers (Json.dumpsFields fields)).map Json.memberText := by
    apply List.mem_map_of_mem
    rw [Json.mem_sortMembers, Json.dumpsFields_eq_map]
    exact List.mem_map.mpr ⟨member, memberMem, rfl⟩
  have counted : (Json.memberText (member.1, Json.dumps member.2)).length ≤ _ :=
    List.single_le_sum (fun _ _ => Nat.zero_le _) _ (List.mem_map_of_mem printed)
  have joined := sum_length_le_joinComma
    ((Json.sortMembers (Json.dumpsFields fields)).map Json.memberText)
  rw [Json.memberText, List.length_append, List.length_cons] at counted
  rw [Json.dumps, List.length_cons, List.length_append]
  change _ + ((Json.dumps member.2).length + 1) ≤ _ at counted
  omega

/-- Every issue makes the text of a failure longer. -/
theorem length_issues_le (failure : BuildFailure) :
    ((failure.issues.map fun issue => (Json.dumps issue.asDict).length)).sum ≤
      (Json.dumps (.obj (failureFields failure))).length := by
  have joined := sum_length_le_joinComma
    (Json.dumpsList (failure.issues.map ValidationIssue.asDict))
  have listed : ("issues", Json.arr (failure.issues.map ValidationIssue.asDict)) ∈
      failureFields failure := by
    simp [failureFields]
  have whole := length_dumps_member_le listed
  rw [Json.dumps, List.length_cons, List.length_append] at whole
  have lengths : (Json.dumpsList (failure.issues.map ValidationIssue.asDict)).map List.length =
      failure.issues.map fun issue => (Json.dumps issue.asDict).length := by
    rw [Json.dumpsList_eq_map, List.map_map, List.map_map]
    rfl
  rw [lengths] at joined
  omega

/-- The text of a failure is accepted as the error of a job. -/
theorem text_failureText (failure : BuildFailure) :
    ∃ clean, text (.str (failureText failure)) "error" 4000 = .ok clean := by
  have braced : '{' ∈ (failureText failure).toList := by
    rw [failureText_eq, String.toList_ofList, Json.dumps, List.take_cons (by decide)]
    exact List.mem_cons_self
  have visible : Text.strip (failureText failure).toList ≠ [] :=
    Text.trim_ne_nil braced (by decide)
  have short : (Text.strip (failureText failure).toList).length ≤ 4000 := by
    apply ( Text.strip_infix _).length_le.trans
    rw [failureText_eq, String.toList_ofList]
    exact List.length_take_le _ _
  refine ⟨String.ofList (Text.strip (failureText failure).toList), ?_⟩
  simp only [text, List.isEmpty_iff, visible, if_false, Nat.not_lt.mpr short]

/-- The failure of a claimed build can be stored. -/
theorem exists_reportFailure (platform : Platform) {workerId : String} {db : AppsDb}
    (claim : BuildClaim) (failure : BuildFailure) (now : Instant) {job : GeneratedAppBuildJob}
    (claimed : claimedJob db claim.jobId workerId claim.attempt = .ok job)
    (stored : (db.app? job.appId).isSome = true) :
    ∃ result after,
      result = failureResult platform (failureCall workerId claim failure) (failureMetadata failure)
        job ∧
      reportFailure platform workerId db claim failure now = .ok (result, result.payload, after) := by
  rcases Option.isSome_iff_exists.mp stored with ⟨app, found⟩
  rcases text_failureText failure with ⟨clean, accepted⟩
  have checked : (discard (text (.str (failureText failure)) "error" 4000) :
      Except CodeAppError PUnit) = .ok () := discard_eq_ok.mpr ⟨clean, accepted⟩
  have settles : ∃ after, settleFailure platform db job (failureCall workerId claim failure) now =
      .ok after := by
    apply exists_eq_ok
    rw [settleFailure, show (failureCall workerId claim failure).error = failureText failure from rfl,
      checked, found]
    cases retries platform (failureCall workerId claim failure) job
    · rfl
    · rfl
  rcases settles with ⟨after, settles⟩
  refine ⟨_, after, rfl, ?_⟩
  simp only [reportFailure, bind_eq_ok, pure_eq_ok]
  exact ⟨job, claimed, after, settles, rfl⟩

/-- The code of a source that was rejected for one issue. -/
theorem code_of_one_issue_survives :
    ∃ result payload after, reportFailure (readsFailure (rejectedSource 1)) "worker" claimedBuild
      ⟨3, 1, none, [], 1⟩ (rejectedSource 1) 9 = .ok (result, payload, after) ∧
      CodeSurvives (rejectedSource 1) result payload := by
  have claimed : claimedJob claimedBuild 3 "worker" 1 = .ok claimedJobRow := rfl
  rcases exists_reportFailure (readsFailure (rejectedSource 1)) ⟨3, 1, none, [], 1⟩
    (rejectedSource 1) 9 claimed rfl with ⟨result, after, _, reports⟩
  refine ⟨_, _, _, reports, ?_⟩
  have reads : (readsFailure (rejectedSource 1)).loads
      (Json.dumps (.obj (failureFields (rejectedSource 1)))) =
        some (.obj (Json.copyFields (failureFields (rejectedSource 1)))) := by
    simp [readsFailure]
  apply (codeSurvives_iff reads ?_ (by decide) reports).mpr
  · exact Or.inl (by decide +kernel)
  · intro text value loaded
    rcases Option.ite_none_right_eq_some.mp loaded with ⟨rfl, _⟩
    decide +kernel

/-- A source that was rejected for fifty issues is reported as a build that failed. -/
theorem code_of_fifty_issues_is_lost :
    4000 < (Json.dumps (.obj (failureFields (rejectedSource 50)))).length ∧
      ∃ result payload after, reportFailure Platform.ascii "worker" claimedBuild
        ⟨3, 1, none, [], 1⟩ (rejectedSource 50) 9 = .ok (result, payload, after) ∧
        result.failureCode = "build_failed" ∧ payload = some ⟨"build_failed", false⟩ ∧
        ¬ CodeSurvives (rejectedSource 50) result payload := by
  have issue : 80 < (Json.dumps (ValidationIssue.asDict ⟨"dynamic_code",
      "eval is not available in generated apps", some "src/App.tsx"⟩)).length := by
    apply Nat.lt_of_not_le
    rw [← List.drop_eq_nil_iff]
    decide
  constructor
  · have issues := length_issues_le (rejectedSource 50)
    rw [rejectedSource, List.map_replicate, List.sum_replicate_nat] at issues
    exact lt_of_lt_of_le (Nat.lt_of_lt_of_le (by decide) (Nat.mul_le_mul_left 50 issue)) issues
  · have claimed : claimedJob claimedBuild 3 "worker" 1 = .ok claimedJobRow := rfl
    rcases exists_reportFailure Platform.ascii ⟨3, 1, none, [], 1⟩ (rejectedSource 50) 9 claimed
      rfl with ⟨result, after, rfl, reports⟩
    refine ⟨_, _, _, reports, rfl, rfl, ?_⟩
    rintro ⟨sameCode, _⟩
    exact absurd sameCode (by decide)

end DotBackend.Builder
