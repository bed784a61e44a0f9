import DotBackend.Builder.Pipeline

/-!
# What a build guarantees

With a log of what the collaborators answered: the artifact of a build that returns is made
of one candidate that the policy, the compiler and the browser let pass, and in every run
the provider is asked a bounded number of times and starts afresh at most once.
-/

namespace DotBackend.Builder

open Data Data.Outside Apps

variable {log : List Exchange} {examined : Examined} {bundle : BrowserBundle} {error : BuildError}
  {state : BuildLoop}

/-! ## The log -/

/-- How the provider is asked. -/
inductive ProviderCall
  | generate
  | repair (previous : GeneratedSource) (issues : List ValidationIssue)
  | regenerate (diagnostics : List ValidationIssue)

/-- What a collaborator was asked and what came of it. -/
inductive Exchange
  | provided (call : ProviderCall) (result : Except BuildError GeneratedSource)
  | compiled (source : GeneratedSource) (result : Except BuildError (Option BrowserBundle))
  | smoked (bundle : BrowserBundle) (result : Except BuildError Fields)

/-- The collaborators, with a log. -/
def BuildParts.recorded {ω : Type} (pipeline : BuildParts ω) : BuildParts (ω × List Exchange) where
  toAppBuildPipeline := pipeline.toAppBuildPipeline
  generate blueprint :=
    record (fun result => [.provided .generate result]) (pipeline.generate blueprint)
  repair blueprint previous issues attempt :=
    record (fun result => [.provided (.repair previous issues) result])
      (pipeline.repair blueprint previous issues attempt)
  regenerate := pipeline.regenerate.map fun regenerate blueprint diagnostics attempt =>
    record (fun result => [.provided (.regenerate diagnostics) result])
      (regenerate blueprint diagnostics attempt)
  inspect := pipeline.inspect
  compile source := record (fun result => [.compiled source result]) (pipeline.compile source)
  smoke := pipeline.smoke.map fun smoke bundle plan screenshot =>
    record (fun result => [.smoked bundle result]) (smoke bundle plan screenshot)
  review := pipeline.review.map fun review screenshot blueprint =>
    silent (review screenshot blueprint)
  makeScreenshotDir := silent pipeline.makeScreenshotDir
  unlinkScreenshot := silent pipeline.unlinkScreenshot
  readScreenshot := silent pipeline.readScreenshot
  maxRepairAttempts := pipeline.maxRepairAttempts
  maxVisualReviews := pipeline.maxVisualReviews
  targetDurationMs := pipeline.targetDurationMs
  timeoutText := pipeline.timeoutText
  repairsInRange := pipeline.repairsInRange
  smokeConfigured required := by
    rw [Option.isSome_map]
    exact pipeline.smokeConfigured required
  reviewsInRange := pipeline.reviewsInRange

/-- The calls of the provider. -/
def providerCalls (log : List Exchange) : List ProviderCall :=
  log.filterMap fun entry => match entry with
    | .provided call _ => some call
    | _ => none

/-- The calls that do not start from an earlier candidate. -/
def freshGenerations (log : List Exchange) : List ProviderCall :=
  (providerCalls log).filter fun call => match call with
    | .repair _ _ => false
    | _ => true

/-- The acceptance fingerprints of the candidates that were given back for repair. -/
def repairedFingerprints (letters : Letters) (log : List Exchange) : List Fingerprint :=
  (providerCalls log).filterMap fun call => match call with
    | .repair _ issues => acceptanceIssueFingerprint letters issues
    | _ => none

theorem providerCalls_append (log more : List Exchange) :
    providerCalls (log ++ more) = providerCalls log ++ providerCalls more :=
  List.filterMap_append

theorem freshGenerations_append (log more : List Exchange) :
    freshGenerations (log ++ more) = freshGenerations log ++ freshGenerations more := by
  rw [freshGenerations, providerCalls_append, List.filter_append]
  rfl

theorem repairedFingerprints_append (letters : Letters) (log more : List Exchange) :
    repairedFingerprints letters (log ++ more) =
      repairedFingerprints letters log ++ repairedFingerprints letters more := by
  rw [repairedFingerprints, providerCalls_append, List.filterMap_append]
  rfl

theorem freshGenerations_of_noCalls (none : providerCalls log = []) :
    freshGenerations log = [] := by
  rw [freshGenerations, none]
  rfl

theorem repairedFingerprints_of_noCalls {letters : Letters} (none : providerCalls log = []) :
    repairedFingerprints letters log = [] := by
  rw [repairedFingerprints, none]
  rfl

theorem repairedFingerprints_repair (letters : Letters) (previous : GeneratedSource)
    (issues : List ValidationIssue) (result : Except BuildError GeneratedSource) :
    repairedFingerprints letters [.provided (.repair previous issues) result] =
      (acceptanceIssueFingerprint letters issues).toList := by
  cases found : acceptanceIssueFingerprint letters issues with
  | none => exact List.filterMap_cons_none found
  | some fingerprint => exact List.filterMap_cons_some found

/-- What holds in every run, however it ends. A candidate with an acceptance fingerprint that
was seen is never given back for repair: it is followed by the one clean regeneration, and
behind that by nothing. -/
structure WithinLimits {ω : Type} (letters : Letters) (pipeline : BuildParts ω)
    (log : List Exchange) : Prop where
  calls : (providerCalls log).length ≤ pipeline.maxRepairAttempts + 1
  /-- The first generation and a clean one. -/
  fresh : (freshGenerations log).length ≤ 2
  repaired : (repairedFingerprints letters log).Nodup
  /-- Behind the clean regeneration, only a candidate with a new fingerprint is followed by
  another one. -/
  converges : ∀ earlier call result later, log = earlier ++ .provided call result :: later →
    (freshGenerations earlier).length = 2 → ∃ previous issues, call = .repair previous issues ∧
      ∀ fingerprint, acceptanceIssueFingerprint letters issues = some fingerprint →
        fingerprint ∉ repairedFingerprints letters earlier

/-- The bounds on the calls decide how the build converges. -/
theorem withinLimits_of_bounds {ω : Type} {letters : Letters} {pipeline : BuildParts ω}
    (calls : (providerCalls log).length ≤ pipeline.maxRepairAttempts + 1)
    (fresh : (freshGenerations log).length ≤ 2) (repaired : (repairedFingerprints letters log).Nodup) :
    WithinLimits letters pipeline log where
  calls := calls
  fresh := fresh
  repaired := repaired
  converges := by
    rintro earlier call result later rfl regenerated
    rw [← List.singleton_append, freshGenerations_append, List.length_append, regenerated,
      freshGenerations_append, List.length_append] at fresh
    rw [← List.singleton_append, repairedFingerprints_append, repairedFingerprints_append,
      List.nodup_append'] at repaired
    cases call with
    | repair previous issues =>
        refine ⟨previous, issues, rfl, ?_⟩
        intro fingerprint fingerprint_eq isSeen
        apply repaired.2.2 isSeen
        apply List.mem_append_left
        rw [repairedFingerprints_repair, fingerprint_eq]
        exact List.mem_singleton_self _
    | generate =>
        have one : (freshGenerations [.provided .generate result]).length = 1 := rfl
        omega
    | regenerate diagnostics =>
        have one : (freshGenerations [.provided (.regenerate diagnostics) result]).length = 1 := rfl
        omega

/-! ## One candidate -/

/-- The gates let a candidate pass. -/
structure Approves {ω : Type} (pipeline : BuildParts ω) (source : GeneratedSource)
    (examined : Examined) (log : List Exchange) : Prop where
  inspected : pipeline.inspect source = []
  compiled : ∀ bundle, examined.browserBundle = some bundle →
    .compiled source (.ok (some bundle)) ∈ log
  smoked : ∀ bundle report, examined.browserBundle = some bundle →
    examined.smokeResult = some report → smokeReady report = true →
      .smoked bundle (.ok report) ∈ log

/-- The provider is not asked, and what passes without an issue is approved. -/
def Examines {ω : Type} (pipeline : BuildParts ω) (source : GeneratedSource)
    (result : Except BuildError Examined) (log : List Exchange) : Prop :=
  providerCalls log = [] ∧
    ∀ examined, result = .ok examined → examined.issues = [] → Approves pipeline source examined log

section Candidate

variable {ω : Type} {pipeline : BuildParts ω} {source : GeneratedSource} {log : List Exchange}

theorem logs_compileCandidate :
    Logs log (compileCandidate pipeline.recorded source) fun result more =>
      providerCalls more = [] ∧ ∀ bundle issues, result = .ok (bundle, issues) → issues = [] →
        pipeline.inspect source = [] ∧ ∀ compiled, bundle = some compiled →
          .compiled source (.ok (some compiled)) ∈ more := by
  unfold compileCandidate
  dsimp only
  split
  · rename_i blocked
    apply logs_pure
    refine ⟨rfl, ?_⟩
    rintro bundle issues ⟨⟩ noIssues
    have isNil : pipeline.recorded.inspect source = [] := noIssues
    rw [isNil] at blocked
    cases blocked
  · have compiles : Logs log (pipeline.recorded.compile source).attempt fun (result : Except BuildError _) more =>
        ∃ compiled, result = .ok compiled ∧ more = [.compiled source compiled] :=
      (logs_record fun result => rfl).attempt fun result more same => ⟨result, rfl, same.symm⟩
    refine compiles.bind ?_ ?_
    · rintro compiled more ⟨_, ⟨⟩, rfl⟩
      split
      · apply logs_pure
        refine ⟨rfl, ?_⟩
        rintro bundle issues ⟨⟩ noIssues
        refine ⟨noIssues, ?_⟩
        rintro compiled rfl
        exact List.mem_singleton_self _
      · apply logs_pure
        refine ⟨rfl, ?_⟩
        rintro bundle issues ⟨⟩ noIssues
        rw [dedupeIssues_eq_nil] at noIssues
        refine ⟨(List.append_eq_nil_iff.mp noIssues).1, ?_⟩
        rintro compiled ⟨⟩
      · apply logs_throw
        refine ⟨rfl, ?_⟩
        rintro bundle issues ⟨⟩
    · rintro error more ⟨_, ⟨⟩, _⟩

theorem logs_reviewVisualQuality
    {review : Screenshot → AppBlueprint → Outside ω BuildError (List ValidationIssue)}
    {bytes : Screenshot} {blueprint : AppBlueprint} :
    Logs log (reviewVisualQuality (fun bytes blueprint => silent (review bytes blueprint)) bytes
      blueprint) fun _ more => more = ([] : List Exchange) := by
  unfold reviewVisualQuality
  have reviews : Logs log (silent (review bytes blueprint)).attempt fun (_ : Except BuildError _) more =>
      more = ([] : List Exchange) :=
    (logs_silent fun _ => rfl).attempt fun _ _ same => same.symm
  refine reviews.bind ?_ fun _ _ same => same
  rintro reviewed _ rfl
  split
  · exact logs_pure rfl
  · exact logs_throw rfl
  · exact logs_pure rfl

/-- A look at the screenshot changes neither the bundle nor the report. -/
theorem logs_reviewCandidate {blueprint : AppBlueprint}  :
    Logs log (reviewCandidate pipeline.recorded blueprint examined) fun result more =>
      more = [] ∧ ∀ reviewed, result = .ok reviewed →
        reviewed.browserBundle = examined.browserBundle ∧
          reviewed.smokeResult = examined.smokeResult := by
  have unchanged : ∀ log : List Exchange, Logs log (pure examined :
      Outside (ω × List Exchange) BuildError Examined) fun result more =>
        more = [] ∧ ∀ reviewed, result = .ok reviewed →
          reviewed.browserBundle = examined.browserBundle ∧
            reviewed.smokeResult = examined.smokeResult := by
    intro log
    apply logs_pure
    refine ⟨rfl, ?_⟩
    rintro reviewed ⟨⟩
    exact ⟨rfl, rfl⟩
  have raises : ∀ (error : BuildError) (more : List Exchange), more = [] →
      more = [] ∧ ∀ reviewed, (.error error : Except BuildError Examined) = .ok reviewed →
        reviewed.browserBundle = examined.browserBundle ∧
          reviewed.smokeResult = examined.smokeResult := by
    rintro error _ rfl
    refine ⟨rfl, ?_⟩
    rintro reviewed ⟨⟩
  unfold reviewCandidate
  split
  · exact unchanged log
  · rename_i review configured
    rcases Option.map_eq_some_iff.mp configured with ⟨inner, _, rfl⟩
    have reads : Logs log pipeline.recorded.readScreenshot fun _ more => more = [] :=
      logs_silent fun _ => rfl
    refine reads.bind ?_ raises
    rintro screenshot _ rfl
    split
    · exact unchanged _
    · exact unchanged _
    · refine logs_reviewVisualQuality.bind ?_ raises
      rintro issues _ rfl
      apply logs_pure
      refine ⟨rfl, ?_⟩
      rintro reviewed ⟨⟩
      exact ⟨rfl, rfl⟩

/-- What a try in the browser shows of a bundle. -/
def TriedIn (bundle : BrowserBundle) (result : Except BuildError Examined)
    (log : List Exchange) : Prop :=
  providerCalls log = [] ∧ ∀ examined, result = .ok examined →
    examined.browserBundle = some bundle ∧
      ∀ report, examined.smokeResult = some report → .smoked bundle (.ok report) ∈ log

theorem triedIn_error (none : providerCalls log = []) : TriedIn bundle (.error error) log := by
  refine ⟨none, ?_⟩
  rintro examined ⟨⟩

theorem logs_prepareScreenshot {photographed : Bool} :
    Logs log (prepareScreenshot pipeline.recorded state photographed) fun _ more => more = [] := by
  have unlinks : ∀ log : List Exchange,
      Logs log pipeline.recorded.unlinkScreenshot fun _ more => more = [] :=
    fun _ => logs_silent fun _ => rfl
  have makes : Logs log pipeline.recorded.makeScreenshotDir fun _ more => more = [] :=
    logs_silent fun _ => rfl
  unfold prepareScreenshot
  split
  · exact logs_pure rfl
  · exact unlinks log
  · refine makes.bind ?_ fun _ _ same => same
    rintro _ _ rfl
    exact unlinks _

theorem logs_tryInBrowser {plan : List AcceptanceStep} {photographed : Bool}
    {smoke : BrowserBundle → List AcceptanceStep → Bool → Outside ω BuildError Fields} :
    Logs log (tryInBrowser (fun bundle plan screenshot =>
      record (fun result => [.smoked bundle result]) (smoke bundle plan screenshot)) bundle plan
        photographed) fun result more =>
      providerCalls more = [] ∧ ∀ issues report, result = .ok (issues, some report) →
        .smoked bundle (.ok report) ∈ more := by
  unfold tryInBrowser
  have tries : Logs log (record (fun result => [.smoked bundle result])
      (smoke bundle plan photographed)).attempt fun (result : Except BuildError _) more =>
        ∃ tried, result = .ok tried ∧ more = [.smoked bundle tried] :=
    (logs_record fun result => rfl).attempt fun result more same => ⟨result, rfl, same.symm⟩
  refine tries.bind ?_ ?_
  · rintro tried more ⟨_, ⟨⟩, rfl⟩
    split
    · apply logs_pure
      refine ⟨rfl, ?_⟩
      rintro issues report ⟨⟩
      exact List.mem_singleton_self _
    · apply logs_pure
      refine ⟨rfl, ?_⟩
      rintro issues report ⟨⟩
    · apply logs_throw
      refine ⟨rfl, ?_⟩
      rintro issues report ⟨⟩
  · rintro error more ⟨_, ⟨⟩, _⟩

theorem logs_smokeCandidate {blueprint : AppBlueprint}
    {smoke : BrowserBundle → List AcceptanceStep → Bool → Outside ω BuildError Fields} :
    Logs log (smokeCandidate pipeline.recorded blueprint state bundle fun bundle plan screenshot =>
      record (fun result => [.smoked bundle result]) (smoke bundle plan screenshot))
      (TriedIn bundle) := by
  unfold smokeCandidate
  dsimp only
  refine logs_prepareScreenshot.bind ?_ ?_
  · rintro _ _ rfl
    have plans : Logs (log ++ []) (lift ((acceptancePlan blueprint.manifest).mapError
        PlanError.toBuildError) : Outside (ω × List Exchange) _ _) fun _ more => more = [] :=
      logs_lift rfl
    refine plans.bind ?_ ?_
    · rintro plan _ rfl
      refine logs_tryInBrowser.bind ?_ ?_
      · rintro ⟨issues, report⟩ more ⟨noCalls, smoked⟩
        have found : ∀ tried : Fields, report = some tried → .smoked bundle (.ok tried) ∈ more := by
          rintro tried rfl
          exact smoked issues tried rfl
        split
        · apply logs_reviewCandidate.mono
          rintro result _ ⟨rfl, kept⟩
          rw [List.append_nil]
          refine ⟨noCalls, ?_⟩
          intro examined returned
          rcases kept examined returned with ⟨bundle_eq, report_eq⟩
          refine ⟨bundle_eq, ?_⟩
          intro tried tried_eq
          exact found tried (report_eq.symm.trans tried_eq)
        · apply logs_pure
          rw [List.append_nil]
          refine ⟨noCalls, ?_⟩
          rintro examined ⟨⟩
          exact ⟨rfl, found⟩
      · rintro error more ⟨noCalls, _⟩
        exact triedIn_error noCalls
    · rintro error _ rfl
      exact triedIn_error rfl
  · rintro error _ rfl
    exact triedIn_error rfl

/-- An examination asks the provider nothing, and what it finds no issue in is approved. -/
theorem logs_examineCandidate {blueprint : AppBlueprint}  :
    Logs log (examineCandidate pipeline.recorded blueprint state)
      (Examines pipeline state.generated) := by
  unfold examineCandidate
  refine logs_compileCandidate.bind ?_ ?_
  · rintro ⟨bundle, issues⟩ compiling ⟨noCalls, clean⟩
    split
    · rename_i hasIssues
      apply logs_pure
      rw [List.append_nil]
      refine ⟨noCalls, ?_⟩
      rintro examined ⟨⟩ noIssues
      exact absurd noIssues hasIssues
    · rename_i noIssues
      rcases clean bundle issues rfl (not_not.mp noIssues) with ⟨inspected, compiled⟩
      split
      · rename_i smoke compiledBundle configured bundle_eq
        rcases Option.map_eq_some_iff.mp configured with ⟨inner, _, rfl⟩
        apply logs_smokeCandidate.mono
        rintro result trying ⟨noMoreCalls, tried⟩
        refine ⟨by rw [providerCalls_append, noCalls, noMoreCalls, List.append_nil], ?_⟩
        intro examined returned _
        rcases tried examined returned with ⟨examined_eq, smoked⟩
        exact {
          inspected := inspected
          compiled := by
            intro found found_eq
            rw [examined_eq, Option.some.injEq] at found_eq
            subst found_eq
            exact List.mem_append_left _ (compiled _ bundle_eq)
          smoked := by
            intro found report found_eq report_eq _
            rw [examined_eq, Option.some.injEq] at found_eq
            subst found_eq
            exact List.mem_append_right _ (smoked report report_eq) }
      · split
        · apply logs_throw
          rw [List.append_nil]
          refine ⟨noCalls, ?_⟩
          rintro examined ⟨⟩
        · apply logs_pure
          rw [List.append_nil]
          refine ⟨noCalls, ?_⟩
          rintro examined ⟨⟩ _
          exact {
            inspected := inspected
            compiled := compiled
            smoked := by
              rintro found report _ ⟨⟩ ready
              cases ready }
  · rintro error more ⟨noCalls, _⟩
    refine ⟨noCalls, ?_⟩
    rintro examined ⟨⟩

end Candidate

/-! ## The loop -/

/-- The counts of the loop, with some repairs left. -/
structure LoopCounts {ω : Type} (letters : Letters) (pipeline : BuildParts ω) (left : Nat)
    (state : BuildLoop) (log : List Exchange) : Prop where
  calls : (providerCalls log).length = state.attempts
  attempts : state.attempts = state.repairs + 1
  left : state.repairs + left = pipeline.maxRepairAttempts
  fresh : (freshGenerations log).length = if state.cleanRegenerationUsed then 2 else 1
  seen : ∀ fingerprint ∈ repairedFingerprints letters log,
    fingerprint ∈ state.seenAcceptanceFingerprints
  distinct : (repairedFingerprints letters log).Nodup

/-- What holds before each examination. -/
structure LoopInvariant {ω : Type} (letters : Letters) (pipeline : BuildParts ω) (left : Nat)
    (state : BuildLoop) (log : List Exchange) : Prop extends
    LoopCounts letters pipeline left state log where
  /-- The candidate is the last thing that was logged. -/
  provided : ∃ earlier call, log = earlier ++ [.provided call (.ok state.generated)]

/-- What holds of a candidate that the loop accepts. -/
structure Accepted {ω : Type} (pipeline : BuildParts ω) (state : BuildLoop) (examined : Examined)
    (log : List Exchange) : Prop where
  approved : ∃ earlier call examination,
    log = earlier ++ .provided call (.ok state.generated) :: examination ∧
      providerCalls examination = [] ∧ Approves pipeline state.generated examined examination
  calls : (providerCalls log).length = state.attempts
  attempts : state.attempts = state.repairs + 1

section Loop

variable {ω : Type} {letters : Letters} {pipeline : BuildParts ω} {left : Nat} {state : BuildLoop}
  {log more : List Exchange}

theorem LoopCounts.withinLimits (counts : LoopCounts letters pipeline left state log) :
    WithinLimits letters pipeline log := by
  apply withinLimits_of_bounds
  · rw [counts.calls, counts.attempts]
    have := counts.left
    omega
  · rw [counts.fresh]
    split
    · exact le_rfl
    · omega
  · exact counts.distinct

/-- An examination leaves the counts as they are. -/
theorem LoopCounts.append (counts : LoopCounts letters pipeline left state log)
    (noCalls : providerCalls more = []) :
    LoopCounts letters pipeline left state (log ++ more) where
  calls := by rw [providerCalls_append, noCalls, List.append_nil, counts.calls]
  attempts := counts.attempts
  left := counts.left
  fresh := by
    rw [freshGenerations_append, freshGenerations_of_noCalls noCalls, List.append_nil, counts.fresh]
  seen := by
    rw [repairedFingerprints_append, repairedFingerprints_of_noCalls noCalls, List.append_nil]
    exact counts.seen
  distinct := by
    rw [repairedFingerprints_append, repairedFingerprints_of_noCalls noCalls, List.append_nil]
    exact counts.distinct

/-- How the provider is asked again for a candidate. -/
structure AskedAgain (state : BuildLoop) (issues : List ValidationIssue) (repeated : Bool)
    (call : ProviderCall) : Prop where
  afresh : repeated = true → ∀ previous issues, call ≠ .repair previous issues
  repair : repeated = false → call = .repair state.generated issues

theorem logs_generate {blueprint : AppBlueprint} :
    Logs log (pipeline.recorded.generate blueprint) fun result more =>
      more = [.provided .generate result] := by
  have recorded : pipeline.recorded.generate blueprint =
      record (fun result => [.provided .generate result]) (pipeline.generate blueprint) := rfl
  rw [recorded]
  exact logs_record fun result => rfl

theorem logs_regenerateWithDiagnostics {blueprint : AppBlueprint}
    {issues diagnostics : List ValidationIssue} {attempt : Nat} :
    Logs log (regenerateWithDiagnostics pipeline.recorded blueprint diagnostics attempt)
      fun result more => ∃ call, more = [.provided call result] ∧
        AskedAgain state issues true call := by
  unfold regenerateWithDiagnostics
  split
  · rename_i regenerate configured
    rcases Option.map_eq_some_iff.mp configured with ⟨inner, _, rfl⟩
    exact logs_record fun result => ⟨.regenerate diagnostics, rfl, fun _ => nofun, nofun⟩
  · exact logs_generate.mono fun result more same => ⟨.generate, same, fun _ => nofun, nofun⟩

theorem logs_repair {blueprint : AppBlueprint} {issues : List ValidationIssue} {attempt : Nat} :
    Logs log (pipeline.recorded.repair blueprint state.generated issues attempt)
      fun result more => ∃ call, more = [.provided call result] ∧
        AskedAgain state issues false call := by
  have recorded : pipeline.recorded.repair blueprint state.generated issues attempt =
      record (fun result => [.provided (.repair state.generated issues) result])
        (pipeline.repair blueprint state.generated issues attempt) := rfl
  rw [recorded]
  exact logs_record fun result => ⟨.repair state.generated issues, rfl, nofun, fun _ => rfl⟩

theorem freshGenerations_afresh {call : ProviderCall} (result : Except BuildError GeneratedSource)
    (notRepair : ∀ previous issues, call ≠ .repair previous issues) :
    freshGenerations [.provided call result] = [call] := by
  cases call with
  | repair previous issues => exact absurd rfl (notRepair previous issues)
  | generate => rfl
  | regenerate diagnostics => rfl

theorem repairedFingerprints_afresh {call : ProviderCall}
    (result : Except BuildError GeneratedSource)
    (notRepair : ∀ previous issues, call ≠ .repair previous issues) :
    repairedFingerprints letters [.provided call result] = [] := by
  cases call with
  | repair previous issues => exact absurd rfl (notRepair previous issues)
  | generate => rfl
  | regenerate diagnostics => rfl

/-- One more call of the provider keeps the counts: a candidate with a fingerprint that was
seen takes the clean regeneration, any other adds a new fingerprint. -/
theorem LoopCounts.again {call : ProviderCall} {repeated : Bool}
    {fingerprint : Option Fingerprint} (counts : LoopCounts letters pipeline (left + 1) state log)
    (fingerprint_eq : fingerprint = acceptanceIssueFingerprint letters examined.issues)
    (repeated_eq : repeated =
      fingerprint.any fun seen => decide (seen ∈ state.seenAcceptanceFingerprints))
    (mayRepeat : ¬ (repeated = true ∧ state.cleanRegenerationUsed = true))
    (asked : AskedAgain state examined.issues repeated call)
    (result : Except BuildError GeneratedSource) (generated : GeneratedSource) :
    LoopCounts letters pipeline left ((state.reject examined fingerprint).again repeated generated)
      (log ++ [.provided call result]) where
  calls := by
    rw [providerCalls_append, List.length_append, counts.calls]
    rfl
  attempts := congrArg (· + 1) counts.attempts
  left := by
    have := counts.left
    change state.repairs + 1 + left = _
    omega
  fresh := by
    change _ = if (state.cleanRegenerationUsed || repeated) = true then 2 else 1
    rw [freshGenerations_append, List.length_append, counts.fresh]
    cases repeated with
    | false =>
        rw [asked.repair rfl, Bool.or_false]
        rfl
    | true =>
        rw [freshGenerations_afresh result (asked.afresh rfl), Bool.or_true,
          if_neg fun used => mayRepeat ⟨rfl, used⟩]
        rfl
  seen := by
    change ∀ _ ∈ _, _ ∈ state.seenAcceptanceFingerprints ++ fingerprint.toList
    intro found isRepaired
    rw [repairedFingerprints_append, List.mem_append] at isRepaired
    rcases isRepaired with isRepaired | isRepaired
    · exact List.mem_append_left _ (counts.seen found isRepaired)
    · cases repeated with
      | false =>
          rw [asked.repair rfl, repairedFingerprints_repair, ← fingerprint_eq] at isRepaired
          exact List.mem_append_right _ isRepaired
      | true =>
          rw [repairedFingerprints_afresh result (asked.afresh rfl)] at isRepaired
          cases isRepaired
  distinct := by
    rw [repairedFingerprints_append]
    cases repeated with
    | true =>
        rw [repairedFingerprints_afresh result (asked.afresh rfl), List.append_nil]
        exact counts.distinct
    | false =>
        rw [asked.repair rfl, repairedFingerprints_repair, ← fingerprint_eq]
        cases fingerprint with
        | none =>
            rw [Option.toList_none, List.append_nil]
            exact counts.distinct
        | some fresh =>
            rw [Option.any_some] at repeated_eq
            have notSeen := of_decide_eq_false repeated_eq.symm
            apply List.nodup_append'.mpr ⟨counts.distinct, List.nodup_singleton fresh, ?_⟩
            apply List.disjoint_singleton.mpr
            intro isRepaired
            exact notSeen (counts.seen fresh isRepaired)

/-- What holds of every run of the loop behind a log. -/
def LoopRuns (letters : Letters) (pipeline : BuildParts ω) (log : List Exchange)
    (result : Except BuildError (BuildLoop × Examined)) (more : List Exchange) : Prop :=
  WithinLimits letters pipeline (log ++ more) ∧ ∀ accepted, result = .ok accepted →
    Accepted pipeline accepted.1 accepted.2 (log ++ more)

theorem loopRuns_error (within : WithinLimits letters pipeline (log ++ more)) :
    LoopRuns letters pipeline log (.error error) more :=
  ⟨within, nofun⟩

/-- One round of the loop, when the rounds behind it run as they should. -/
theorem logs_round {blueprint : AppBlueprint}
    (holds : LoopInvariant letters pipeline left state log)
    (continues : ∀ less, left = less + 1 → ∀ state log,
      LoopInvariant letters pipeline less state log →
        Logs log (buildLoop pipeline.recorded letters blueprint less state)
          (LoopRuns letters pipeline log)) :
    Logs log (buildLoop pipeline.recorded letters blueprint left state)
      (LoopRuns letters pipeline log) := by
  unfold buildLoop
  refine logs_examineCandidate.bind ?_ ?_
  · rintro examined examination ⟨noCalls, approves⟩
    have counts := holds.append noCalls
    split
    · rename_i noIssues
      apply logs_pure
      rw [List.append_nil]
      refine ⟨counts.withinLimits, ?_⟩
      rintro accepted ⟨⟩
      rcases holds.provided with ⟨earlier, call, rfl⟩
      exact {
        approved := by
          refine ⟨earlier, call, examination, ?_, noCalls, approves examined rfl noIssues⟩
          rw [List.append_assoc, List.singleton_append]
        calls := counts.calls
        attempts := counts.attempts }
    · dsimp only
      generalize fingerprint_eq : acceptanceIssueFingerprint letters examined.issues = fingerprint
      generalize repeated_eq : fingerprint.any (fun seen =>
        decide (seen ∈ state.seenAcceptanceFingerprints)) = repeated
      split
      · apply logs_throw
        rw [List.append_nil]
        exact loopRuns_error counts.withinLimits
      · rename_i mayRepeat
        split
        · apply logs_throw
          rw [List.append_nil]
          exact loopRuns_error counts.withinLimits
        · rename_i less
          have asks : ∀ ask, Logs (log ++ examination) ask (fun result more =>
              ∃ call, more = [.provided call result] ∧
                AskedAgain state examined.issues repeated call) →
              Logs (log ++ examination) (ask >>= fun generated =>
                buildLoop pipeline.recorded letters blueprint less
                  ((state.reject examined fingerprint).again repeated generated))
                fun result others => LoopRuns letters pipeline log result (examination ++ others) := by
            intro ask asked
            refine asked.bind ?_ ?_
            · rintro generated more ⟨call, rfl, asked⟩
              have next := counts.again fingerprint_eq.symm repeated_eq.symm mayRepeat asked (.ok generated) generated
              apply (continues less rfl _ _ ⟨next, _, call, rfl⟩).mono
              rintro result others ⟨within, accepted⟩
              rw [List.append_assoc, List.append_assoc] at within accepted
              exact ⟨within, accepted⟩
            · rintro error more ⟨call, rfl, asked⟩
              have next := counts.again fingerprint_eq.symm repeated_eq.symm mayRepeat asked (.error error)
                state.generated
              rw [List.append_assoc] at next
              exact loopRuns_error next.withinLimits
          cases repeated with
          | true => exact asks _ logs_regenerateWithDiagnostics
          | false => exact asks _ logs_repair
  · rintro error examination ⟨noCalls, _⟩
    exact loopRuns_error (holds.append noCalls).withinLimits

/-- Every run of the loop stays within the limits, and what it accepts was approved. -/
theorem logs_buildLoop {blueprint : AppBlueprint}
    (holds : LoopInvariant letters pipeline left state log) :
    Logs log (buildLoop pipeline.recorded letters blueprint left state)
      (LoopRuns letters pipeline log) := by
  induction left generalizing state log with
  | zero => exact logs_round holds nofun
  | succ left continues =>
      apply logs_round holds
      rintro less ⟨⟩ state log holds
      exact continues holds

end Loop

/-! ## A build -/

/-- What a build that returns guarantees. -/
structure Sound {ω : Type} (pipeline : BuildParts ω) (completion : BuildCompletion)
    (log : List Exchange) : Prop where
  /-- The artifact is that of one candidate, the last one the provider was asked for, and of
  the bundle that the compiler made of it and the browser found ready. -/
  candidate : ∃ earlier call candidate bundle examination,
    log = earlier ++ .provided call (.ok candidate) :: examination ∧
      providerCalls examination = [] ∧ pipeline.inspect candidate = [] ∧
      .compiled candidate (.ok (some bundle)) ∈ examination ∧
      (pipeline.requireBrowserSmoke = true →
        ∃ report, .smoked bundle (.ok report) ∈ examination ∧ smokeReady report = true) ∧
      completion.artifact.files = Table.orderBy (fun a b => a.path ≤ b.path) candidate.files ∧
      completion.artifact.browserBundle =
        { bundle with staticHtml := completion.artifact.browserBundle.staticHtml }
  attempts : completion.metrics.generationAttempts = completion.metrics.repairAttempts + 1
  calls : completion.metrics.generationAttempts = (providerCalls log).length

section Build

variable {ω : Type} {letters : Letters} {pipeline : BuildParts ω} {state : BuildLoop}
  {log : List Exchange}

/-- What is packaged of an accepted candidate is sound. -/
theorem Accepted.sound {blueprint : AppBlueprint}
    {artifact : BuildArtifact} {clock : BuildClock}
    (accepted : Accepted pipeline state examined log)
    (bundle_eq : examined.browserBundle = some bundle)
    (packaged : package pipeline.toAppBuildPipeline blueprint state.generated bundle
      (examined.smokeResult.getD []) = .ok artifact) :
    Sound pipeline ⟨artifact, buildMetrics pipeline clock state artifact⟩ log where
  candidate := by
    rcases accepted.approved with ⟨earlier, call, examination, log_eq, noCalls, approved⟩
    refine ⟨earlier, call, state.generated, bundle, examination, log_eq, noCalls,
      approved.inspected, approved.compiled bundle bundle_eq, ?_, ?_, ?_⟩
    · intro required
      have ready := smokeReady_of_package packaged required
      cases report_eq : examined.smokeResult with
      | none =>
          rw [report_eq] at ready
          cases ready
      | some report =>
          rw [report_eq] at ready
          exact ⟨report, approved.smoked bundle report bundle_eq report_eq ready, ready⟩
    · rw [(package_eq_ok packaged).1]
      rfl
    · rw [(package_eq_ok packaged).1]
      rfl
  attempts := by
    change (state.attempts : Int) = state.repairs + 1
    rw [accepted.attempts]
    exact Int.natCast_succ _
  calls := congrArg Int.ofNat accepted.calls.symm

/-- What holds of every run of a build. -/
def BuildRuns (letters : Letters) (pipeline : BuildParts ω)
    (result : Except BuildError BuildCompletion) (log : List Exchange) : Prop :=
  WithinLimits letters pipeline log ∧ ∀ completion, result = .ok completion →
    Sound pipeline completion log

theorem buildRuns_error (within : WithinLimits letters pipeline log) :
    BuildRuns letters pipeline (.error error) log :=
  ⟨within, nofun⟩

theorem withinLimits_nil : WithinLimits letters pipeline [] :=
  withinLimits_of_bounds (Nat.zero_le _) (Nat.zero_le _) List.nodup_nil

theorem withinLimits_generate (result : Except BuildError GeneratedSource) :
    WithinLimits letters pipeline [.provided .generate result] :=
  withinLimits_of_bounds (Nat.succ_le_succ (Nat.zero_le _)) (Nat.le_succ _) List.nodup_nil

/-- The invariant holds of the first candidate. -/
theorem loopInvariant_generate (generated : GeneratedSource) :
    LoopInvariant letters pipeline pipeline.maxRepairAttempts
      ⟨generated, 1, 0, [], [], false, 0, false⟩ [.provided .generate (.ok generated)] where
  calls := rfl
  attempts := rfl
  left := Nat.zero_add _
  fresh := rfl
  seen := nofun
  distinct := List.nodup_nil
  provided := ⟨[], .generate, rfl⟩

theorem logs_buildBeforeDeadline (clock : BuildClock) (claim : BuildClaim) :
    Logs [] (buildBeforeDeadline pipeline.recorded letters clock claim)
      (BuildRuns letters pipeline) := by
  unfold buildBeforeDeadline
  have reads : Logs ([] : List Exchange) (lift ((fromMapping letters claim.blueprint).mapError
      BlueprintError.toBuildError) : Outside (ω × List Exchange) _ _) fun _ more => more = [] :=
    logs_lift rfl
  refine reads.bind ?_ ?_
  · rintro blueprint _ rfl
    refine logs_generate.bind ?_ ?_
    · rintro generated _ rfl
      refine (logs_buildLoop (loopInvariant_generate generated)).bind ?_ ?_
      · rintro ⟨state, examined⟩ more ⟨within, isAccepted⟩
        split
        · apply logs_throw
          rw [List.append_nil]
          exact buildRuns_error within
        · rename_i bundle bundle_eq
          have packages : ∀ log : List Exchange,
              Logs log (lift ((package pipeline.recorded.toAppBuildPipeline blueprint
                state.generated bundle (examined.smokeResult.getD [])).mapError
                  fun issue => BuildError.rejected [issue]) : Outside (ω × List Exchange) _ _)
                fun result more => more = [] ∧ ∀ artifact, result = .ok artifact →
                  package pipeline.toAppBuildPipeline blueprint state.generated bundle
                    (examined.smokeResult.getD []) = .ok artifact := by
            intro log
            apply logs_lift
            exact ⟨rfl, fun artifact => mapError_eq_ok.mp⟩
          refine (packages _).bind ?_ ?_
          · rintro artifact _ ⟨rfl, packaged⟩
            apply logs_pure
            simp only [List.append_nil, List.nil_append]
            refine ⟨within, ?_⟩
            rintro completion ⟨⟩
            exact (isAccepted _ rfl).sound bundle_eq (packaged artifact rfl)
          · rintro error _ ⟨rfl, _⟩
            rw [List.append_nil]
            exact buildRuns_error within
      · rintro error more ⟨within, _⟩
        exact buildRuns_error within
    · rintro error _ rfl
      exact buildRuns_error (withinLimits_generate _)
  · rintro error _ rfl
    exact buildRuns_error withinLimits_nil

/-- Every run of a build stays within its limits, whatever the collaborators answer, and a
build that returns is sound. -/
theorem build_sound (pipeline : BuildParts ω) (letters : Letters) (clock : BuildClock)
    (claim : BuildClaim) (world : ω) :
    let ended := (build pipeline.recorded letters clock claim).outcome (world, [])
    WithinLimits letters pipeline ended.2.2 ∧ ∀ completion, ended.1 = .ok completion →
      Sound pipeline completion ended.2.2 := by
  have builds : Logs [] (build pipeline.recorded letters clock claim)
      (BuildRuns letters pipeline) := by
    unfold build
    have tries : Logs [] (buildBeforeDeadline pipeline.recorded letters clock claim).attempt
        fun (result : Except BuildError _) more =>
          ∃ built, result = .ok built ∧ BuildRuns letters pipeline built more :=
      (logs_buildBeforeDeadline clock claim).attempt fun result more runs => ⟨result, rfl, runs⟩
    refine tries.bind ?_ ?_
    · rintro built more ⟨_, ⟨⟩, runs⟩
      split
      · apply logs_pure
        rw [List.append_nil]
        exact runs
      · apply logs_throw
        rw [List.append_nil]
        exact buildRuns_error runs.1
      · apply logs_throw
        rw [List.append_nil]
        exact buildRuns_error runs.1
      · apply logs_throw
        rw [List.append_nil]
        exact buildRuns_error runs.1
    · rintro error more ⟨_, ⟨⟩, _⟩
  rcases builds (world, []) rfl with ⟨more, log_eq, runs⟩
  intro ended
  rw [List.nil_append] at log_eq
  rw [← log_eq] at runs
  exact runs

end Build

/-- The first candidate of this provider does not compile, and the second one is ready. -/
def repairedPipeline : BuildParts Unit where
  providerName := "fake"
  providerVersion := "1"
  requireBrowserSmoke := true
  generate _ := pure ⟨[], "app.tsx", []⟩
  repair _ _ _ _ := pure ⟨[⟨"app.tsx", "export default App"⟩], "app.tsx", []⟩
  regenerate := none
  inspect _ := []
  compile source :=
    if source.files = [] then throw (.compilation [⟨"missing_source", "missing", none⟩])
    else pure (some ⟨"iife", "1", "", "", "2", "<p>", []⟩)
  smoke := some fun _ _ _ => pure [("ready", .bool true)]
  review := none
  makeScreenshotDir := pure ()
  unlinkScreenshot := pure ()
  readScreenshot := pure none
  maxRepairAttempts := 2
  maxVisualReviews := 1
  targetDurationMs := 1000
  timeoutText := "60"
  repairsInRange := by decide
  smokeConfigured _ := rfl
  reviewsInRange := by decide

def habitClaim : BuildClaim where
  jobId := 0
  appId := 0
  revisionId := none
  blueprint := [("title", .str "Habits"), ("manifest", .obj (manifestOf ["habit"]))]
  attempt := 1

/-- This build returns after a repair. -/
theorem build_sound_repaired :
    ∃ completion world log, (build repairedPipeline.recorded Letters.ascii ⟨"", "", 0, []⟩
      habitClaim).outcome ((), []) = (.ok completion, (world, log)) ∧
        Sound repairedPipeline completion log := by
  have returns : ((build repairedPipeline.recorded Letters.ascii ⟨"", "", 0, []⟩
      habitClaim).outcome ((), [])).1.isOk = true := by
    simp only [build, buildBeforeDeadline, package, byteLength_packagedArtifact]
    decide +kernel
  have sound := (build_sound repairedPipeline Letters.ascii ⟨"", "", 0, []⟩ habitClaim ()).2
  generalize (build repairedPipeline.recorded Letters.ascii ⟨"", "", 0, []⟩
    habitClaim).outcome ((), []) = ended at returns sound ⊢
  rcases ended with ⟨result, world, log⟩
  rcases exists_eq_ok returns with ⟨completion, rfl⟩
  exact ⟨completion, world, log, rfl, sound completion rfl⟩

/-! ## The log changes nothing -/

section Recorded

variable {ω : Type} (pipeline : BuildParts ω)

end Recorded

end DotBackend.Builder
