import DotBackend.Builder.AcceptancePlan
import DotBackend.Data.Outside

/-!
# Acceptance in the browser

The harness carries out the steps of a plan in a real browser and answers whether all of
them went well. It keeps to a budget of steps, and the plan of a manifest lists every entity
before it creates the first record: the plan of a manifest with many entities does not fit.
-/

namespace DotBackend.Builder

open Data Data.Outside Apps

variable {required : Bool} {log creates : List AcceptanceStep} {report : AcceptanceReport}
  {entities : List String}

/-! ## The page -/

/-- A handle on an element of the page. -/
abbrev Element := Nat

inductive MatchKind
  | semantic | legacy
  deriving DecidableEq

/-- What `discoverSubmitForm` returns. -/
structure FormDiscovery where
  form : Option Element
  matchKind : Option MatchKind
  score : Nat
  exactSemanticPresent : Bool
  deriving DecidableEq

/-- What `revealSemanticForm` remembers. -/
structure RevealState where
  discovery : Option FormDiscovery
  exactTargetAttempted : Bool

/-- The state of the host before an interaction. -/
structure HostCounts where
  beforeMutations : Nat
  beforeLists : Nat
  beforeText : String

/-- What `interactionTarget` returns. -/
inductive Interaction
  | form (target : Element)
  | target (target : Element)
  | directAction (before : HostCounts)

/-- What `verifyMutationOutcome` returns. -/
structure VerifiedMutation where
  recordRefreshes : Nat
  persistedRenders : Nat

structure PassedStep where
  operation : String
  entity : String
  passed : Bool
  deriving DecidableEq

/-- What `runAcceptance` returns. -/
structure AcceptanceReport where
  acceptance : List PassedStep
  fieldTyping : List (String × Fields)
  requiredMutationsVerified : Nat
  recordRefreshesVerified : Nat
  persistedRendersVerified : Nat

/-- The page and its host, of which anything may come. -/
structure Browser (ω : Type) where
  /-- Launch the browser, load the app and wait until it is ready. -/
  start : Outside ω ValidationIssue Unit
  discoverSubmitForm : AcceptanceStep → Outside ω ValidationIssue FormDiscovery
  revealSemanticForm : AcceptanceStep → (exactOnly : Bool) → RevealState →
    Outside ω ValidationIssue (Option Interaction × RevealState)
  flowDiagnostics : AcceptanceStep → RevealState → String
  /-- How many elements a selector has, and the first when it is visible. -/
  located : String → Outside ω ValidationIssue (Nat × Option Element)
  fieldVisible : Element → String → Outside ω ValidationIssue Bool
  enterField : Element → String → Json → Outside ω ValidationIssue Fields
  click : Element → Outside ω ValidationIssue Unit
  /-- How many submit buttons a form has, and the first when it is visible. -/
  submitButtons : Element → Outside ω ValidationIssue (Nat × Option Element)
  hostCounts : AcceptanceStep → Outside ω ValidationIssue HostCounts
  verifyMutationOutcome : AcceptanceStep → HostCounts → (required : Bool) →
    Outside ω ValidationIssue VerifiedMutation
  /-- The last checks: what is visible, errors, violations and attempts to reach the network. -/
  finish : Outside ω ValidationIssue Unit
  /-- The length of the encoded answer. -/
  encodedLength : AcceptanceReport → Outside ω ValidationIssue Nat

/-- `issue`. -/
def acceptanceIssue (code message : String) : ValidationIssue :=
  ⟨code, String.ofList (message.toList.take 800), none⟩

/-! ## The harness -/

section Harness

variable {ω : Type} (browser : Browser ω)

/-- `step.entity || step.operation`. -/
def stepLabel (step : AcceptanceStep) : String :=
  if step.entity = "" then step.operation else step.entity

/-- Something that is not there: an error when it is required. -/
def flowMissing {α : Type} (required : Bool) (message : String) :
    Outside ω ValidationIssue (Option α) :=
  if required then throw (acceptanceIssue "acceptance_flow_missing" message) else pure none

/-- `expectSingleVisible`. -/
def expectSingleVisible (selector label : String) (required : Bool) :
    Outside ω ValidationIssue (Option Element) := do
  let located ← browser.located selector
  match located with
  | (0, _) | (_, none) =>
      flowMissing required (label ++ " was not rendered and visible: " ++ selector)
  | (count, some first) =>
      if count ≠ 1 then
        throw (acceptanceIssue "acceptance_flow_ambiguous"
          (label ++ " matched " ++ toString count ++ " elements: " ++ selector))
      else pure (some first)

/-- `interactionTarget`. -/
def interactionTarget (step : AcceptanceStep) :
    Outside ω ValidationIssue (Option Interaction) := do
  if step.eventType = some "submit" then
    let discovery ← browser.discoverSubmitForm step
    match discovery.form, discovery.matchKind with
    | some form, some .semantic => pure (some (.form form))
    | _, _ =>
        let revealed ← browser.revealSemanticForm step true ⟨some discovery, false⟩
        let reveal := revealed.2
        match revealed.1 with
        | some interaction => pure (some interaction)
        | none =>
            let exact := discovery.exactSemanticPresent || reveal.exactTargetAttempted
            match discovery.form with
            | some form =>
                if 0 < discovery.score ∧ exact = false then pure (some (.form form))
                else lastChoice discovery reveal exact
            | none => lastChoice discovery reveal exact
  else
    match step.selector with
    | none => flowMissing step.required ("no interaction target declared for " ++ step.operation)
    | some selector => do
        let target ← expectSingleVisible browser selector "interaction target" step.required
        pure (target.map .target)
where
  /-- Behind the forms that match: any trigger, and at last a form without a signal. -/
  lastChoice (discovery : FormDiscovery) (reveal : RevealState) (exact : Bool) :
      Outside ω ValidationIssue (Option Interaction) := do
    if exact then
      flowMissing step.required ("the exact declared workflow could not be opened; " ++
        browser.flowDiagnostics step reveal)
    else
      let revealed ← browser.revealSemanticForm step false reveal
      match revealed.1 with
      | some interaction => pure (some interaction)
      | none =>
          let zeroSignal := revealed.2.discovery.getD discovery
          match zeroSignal.form with
          | some form =>
              if zeroSignal.exactSemanticPresent then
                flowMissing step.required ("no usable " ++ stepLabel step ++
                  " create workflow was found; " ++ browser.flowDiagnostics step revealed.2)
              else pure (some (.form form))
          | none =>
              flowMissing step.required ("no usable " ++ stepLabel step ++
                " create workflow was found; " ++ browser.flowDiagnostics step revealed.2)

/-- The hints of a step are typed into the fields that are visible. -/
def typeFields (target : Element) : Fields →
    Outside ω ValidationIssue (List (String × Fields))
  | [] => pure []
  | (name, value) :: rest => do
      let visible ← browser.fieldVisible target name
      if visible then
        let typed ← browser.enterField target name value
        let others ← typeFields target rest
        pure ((name, typed) :: others)
      else typeFields target rest

/-- A step whose mutation was verified. -/
def AcceptanceReport.verified (report : AcceptanceReport) (step : AcceptanceStep)
    (outcome : VerifiedMutation) : AcceptanceReport where
  acceptance := report.acceptance ++ [⟨step.operation, step.entity, true⟩]
  fieldTyping := report.fieldTyping
  requiredMutationsVerified := report.requiredMutationsVerified + if step.required then 1 else 0
  recordRefreshesVerified := report.recordRefreshesVerified + outcome.recordRefreshes
  persistedRendersVerified := report.persistedRendersVerified + outcome.persistedRenders

/-- A step that was clicked only. -/
def AcceptanceReport.clicked (report : AcceptanceReport) (step : AcceptanceStep)
    (passed : Bool) : AcceptanceReport :=
  { report with acceptance := report.acceptance ++ [⟨step.operation, step.entity, passed⟩] }

/-- The part of the loop of `runAcceptance` that works on a target. -/
def acceptTarget (report : AcceptanceReport) (step : AcceptanceStep) (target : Element) :
    Outside ω ValidationIssue AcceptanceReport := do
  let typed ← typeFields browser target step.fieldHints
  let typedReport := { report with fieldTyping := report.fieldTyping ++ typed }
  if step.eventType ≠ some "submit" then
    browser.click target
    pure (typedReport.clicked step true)
  else
    let buttons ← browser.submitButtons target
    match buttons with
    | (0, _) | (_, none) =>
        if step.required then
          throw (acceptanceIssue "acceptance_flow_missing"
            ("visible submit button was not rendered inside the discovered " ++
              stepLabel step ++ " form"))
        else pure typedReport
    | (count, some submit) =>
        if count ≠ 1 then
          throw (acceptanceIssue "acceptance_flow_ambiguous"
            ("discovered form contained " ++ toString count ++ " submit buttons"))
        else
          let before ← browser.hostCounts step
          browser.click submit
          let outcome ← browser.verifyMutationOutcome step before step.required
          pure (typedReport.verified step outcome)

/-- The body of the loop of `runAcceptance`. -/
def acceptStep (report : AcceptanceReport) (step : AcceptanceStep) :
    Outside ω ValidationIssue AcceptanceReport := do
  let interaction ← interactionTarget browser step
  match interaction with
  | none => pure (report.clicked step !step.required)
  | some (.directAction before) => do
      let outcome ← browser.verifyMutationOutcome step before step.required
      pure (report.verified step outcome)
  | some (.form target) | some (.target target) => acceptTarget browser report step target

/-- The loop of `runAcceptance`. -/
def acceptSteps (report : AcceptanceReport) : List AcceptanceStep →
    Outside ω ValidationIssue AcceptanceReport
  | [] => pure report
  | step :: rest => do
      let report ← acceptStep browser report step
      acceptSteps report rest

/-- `runAcceptance`. -/
def runAcceptance (plan : List AcceptanceStep) : Outside ω ValidationIssue AcceptanceReport :=
  acceptSteps browser ⟨[], [], 0, 0, 0⟩ plan

/-- `MAX_STEPS`. -/
def maxSteps : Nat := 24

/-- `MAX_OUTPUT_BYTES`. -/
def maxOutputBytes : Nat := 512000

/-- The harness: an answer without an issue is one that is ok. -/
def chromiumAcceptance (plan : List AcceptanceStep) :
    Outside ω ValidationIssue AcceptanceReport := do
  browser.start
  let report ← runAcceptance browser (plan.take maxSteps)
  browser.finish
  let length ← browser.encodedLength report
  if length ≤ maxOutputBytes then pure report
  else throw (acceptanceIssue "real_browser_output_too_large" "real browser output exceeded 512 KB")

end Harness

/-! ## What an answer that is ok says -/

/-- The browser, with a log of the steps whose mutations were verified. -/
def Browser.recorded {ω : Type} (browser : Browser ω) : Browser (ω × List AcceptanceStep) where
  start := silent browser.start
  discoverSubmitForm step := silent (browser.discoverSubmitForm step)
  revealSemanticForm step exactOnly reveal :=
    silent (browser.revealSemanticForm step exactOnly reveal)
  flowDiagnostics := browser.flowDiagnostics
  located selector := silent (browser.located selector)
  fieldVisible target name := silent (browser.fieldVisible target name)
  enterField target name value := silent (browser.enterField target name value)
  click target := silent (browser.click target)
  submitButtons target := silent (browser.submitButtons target)
  hostCounts step := silent (browser.hostCounts step)
  verifyMutationOutcome step before required :=
    record (fun result => match result with
      | .ok _ => [step]
      | .error _ => []) (browser.verifyMutationOutcome step before required)
  finish := silent browser.finish
  encodedLength report := silent (browser.encodedLength report)

/-- The steps that have to be carried out. -/
def requiredSteps (steps : List AcceptanceStep) : List AcceptanceStep :=
  steps.filter (·.required)

section Verified

variable {ω : Type} {browser : Browser ω}

theorem returns_flowMissing {α : Type} {message : String}
     :
    Returns (fun world : ω × List AcceptanceStep => world.2 = log) (flowMissing required message)
      fun (found : Option α) world => world.2 = log ∧ (required = true → found ≠ none) := by
  unfold flowMissing
  split
  · exact returns_throw _
  · rename_i notRequired
    apply returns_pure
    intro world same
    exact ⟨same, fun isRequired => absurd isRequired notRequired⟩

theorem returns_some {α : Type} {a : α}  :
    Returns (fun world : ω × List AcceptanceStep => world.2 = log)
      (pure (some a) : Outside _ ValidationIssue _)
      fun found world => world.2 = log ∧ (required = true → found ≠ none) := by
  apply returns_pure
  intro world same
  exact ⟨same, fun _ => Option.some_ne_none _⟩

theorem returns_lastChoice {step : AcceptanceStep} {discovery : FormDiscovery}
    {reveal : RevealState} {exact : Bool}  :
    Returns (fun world => world.2 = log)
      (interactionTarget.lastChoice browser.recorded step discovery reveal exact)
      fun interaction world => world.2 = log ∧ (step.required = true → interaction ≠ none) := by
  unfold interactionTarget.lastChoice
  split
  · exact returns_flowMissing
  · refine Returns.bind (returns_silent _ log) ?_
    intro revealed
    dsimp only
    split
    · exact returns_some
    · split
      · split
        · exact returns_flowMissing
        · exact returns_some
      · exact returns_flowMissing

theorem returns_expectSingleVisible {selector label : String}  :
    Returns (fun world => world.2 = log)
      (expectSingleVisible browser.recorded selector label required)
      fun target world => world.2 = log ∧ (required = true → target ≠ none) := by
  unfold expectSingleVisible
  refine Returns.bind (returns_silent _ log) ?_
  intro located
  split
  · exact returns_flowMissing
  · exact returns_flowMissing
  · split
    · exact returns_throw _
    · exact returns_some

/-- A step that is required has a target, or the harness fails. -/
theorem returns_interactionTarget (step : AcceptanceStep) (log : List AcceptanceStep) :
    Returns (fun world => world.2 = log) (interactionTarget browser.recorded step)
      fun interaction world => world.2 = log ∧ (step.required = true → interaction ≠ none) := by
  unfold interactionTarget
  split
  · refine Returns.bind (returns_silent _ log) ?_
    intro discovery
    split
    · exact returns_some
    · refine Returns.bind (returns_silent _ log) ?_
      intro revealed
      dsimp only
      split
      · exact returns_some
      · split
        · split
          · exact returns_some
          · exact returns_lastChoice
        · exact returns_lastChoice
  · split
    · exact returns_flowMissing
    · refine Returns.bind returns_expectSingleVisible ?_
      intro target
      apply returns_pure
      rintro world ⟨same, found⟩
      refine ⟨same, ?_⟩
      intro required none
      exact found required (Option.map_eq_none_iff.mp none)

theorem returns_typeFields (target : Element) (hints : Fields) (log : List AcceptanceStep) :
    Returns (fun world => world.2 = log) (typeFields browser.recorded target hints)
      fun _ world => world.2 = log := by
  induction hints with
  | nil => exact returns_pure fun _ same => same
  | cons hint rest ih =>
      rcases hint with ⟨name, value⟩
      rw [typeFields]
      refine Returns.bind (returns_silent _ log) ?_
      intro visible
      split
      · refine Returns.bind (returns_silent _ log) ?_
        intro typed
        refine Returns.bind ih ?_
        intro others
        exact returns_pure fun _ same => same
      · exact ih

/-- What the loop has done behind some steps: the required ones are verified and counted. -/
def Verifies (steps : List AcceptanceStep) (log : List AcceptanceStep) (report : AcceptanceReport)
    (result : AcceptanceReport) (world : ω × List AcceptanceStep) : Prop :=
  ∃ verified, world.2 = log ++ verified ∧ requiredSteps verified = requiredSteps steps ∧
    result.requiredMutationsVerified =
      report.requiredMutationsVerified + (requiredSteps steps).length

theorem verifies_unrequired {step : AcceptanceStep} {result : AcceptanceReport}
    {world : ω × List AcceptanceStep}
    (notRequired : ¬ step.required = true) (same : world.2 = log)
    (counted : result.requiredMutationsVerified = report.requiredMutationsVerified) :
    Verifies [step] log report result world := by
  refine ⟨[], by rw [same, List.append_nil], ?_, ?_⟩
  · simp [requiredSteps, notRequired]
  · simp [requiredSteps, notRequired, counted]

theorem returns_verified {step : AcceptanceStep} {before : HostCounts} {earlier : AcceptanceReport}
    (counted : earlier.requiredMutationsVerified = report.requiredMutationsVerified) :
    Returns (fun world => world.2 = log)
      (browser.recorded.verifyMutationOutcome step before step.required >>= fun outcome =>
        pure (earlier.verified step outcome))
      (Verifies [step] log report) := by
  have verified : Returns (fun world => world.2 = log)
      (browser.recorded.verifyMutationOutcome step before step.required)
        fun _ world => world.2 = log ++ [step] := by
    rintro ⟨world, _⟩ rfl outcome returned
    simp only [Browser.recorded, outcome_record] at returned ⊢
    rw [returned]
  refine Returns.bind verified ?_
  intro outcome
  apply returns_pure
  intro world same
  refine ⟨[step], same, rfl, ?_⟩
  cases required : step.required with
  | true => simp [AcceptanceReport.verified, requiredSteps, required, counted]
  | false => simp [AcceptanceReport.verified, requiredSteps, required, counted]

theorem returns_acceptTarget {step : AcceptanceStep} {target : Element}
    (submits : step.required = true → step.eventType = some "submit") :
    Returns (fun world => world.2 = log) (acceptTarget browser.recorded report step target)
      (Verifies [step] log report) := by
  unfold acceptTarget
  refine Returns.bind (returns_typeFields target step.fieldHints log) ?_
  intro typed
  dsimp only
  split
  · rename_i noSubmit
    refine Returns.bind (returns_silent _ log) ?_
    intro clicked
    apply returns_pure
    intro world same
    exact verifies_unrequired (fun required => noSubmit (submits required)) same rfl
  · refine Returns.bind (returns_silent _ log) ?_
    intro buttons
    have absent : Returns (fun world : ω × List AcceptanceStep => world.2 = log)
        (if step.required = true then
          throw (acceptanceIssue "acceptance_flow_missing"
            ("visible submit button was not rendered inside the discovered " ++
              stepLabel step ++ " form"))
        else pure { report with fieldTyping := report.fieldTyping ++ typed } :
          Outside _ ValidationIssue _) (Verifies [step] log report) := by
      split
      · exact returns_throw _
      · rename_i notRequired
        apply returns_pure
        intro world same
        exact verifies_unrequired notRequired same rfl
    split
    · exact absent
    · exact absent
    · split
      · exact returns_throw _
      · refine Returns.bind (returns_silent _ log) ?_
        intro before
        refine Returns.bind (returns_silent _ log) ?_
        intro clicked
        exact returns_verified rfl

/-- Every path of the loop that goes on verifies a required step. -/
theorem returns_acceptStep {step : AcceptanceStep} (report : AcceptanceReport)
    (log : List AcceptanceStep)
    (submits : step.required = true → step.eventType = some "submit") :
    Returns (fun world => world.2 = log) (acceptStep browser.recorded report step)
      (Verifies [step] log report) := by
  unfold acceptStep
  refine Returns.bind (returns_interactionTarget step log) ?_
  intro interaction
  split
  · apply returns_pure
    rintro world ⟨same, found⟩
    exact verifies_unrequired (fun required => found required rfl) same rfl
  · exact (returns_verified rfl).mono (fun _ holds => holds.1) fun _ _ => id
  · exact (returns_acceptTarget submits).mono (fun _ holds => holds.1) fun _ _ => id
  · exact (returns_acceptTarget submits).mono (fun _ holds => holds.1) fun _ _ => id

/-- The loop verifies all required steps, and counts them. -/
theorem returns_acceptSteps {steps : List AcceptanceStep}
    (submits : ∀ step ∈ steps, step.required = true → step.eventType = some "submit")
    (report : AcceptanceReport) (log : List AcceptanceStep) :
    Returns (fun world => world.2 = log) (acceptSteps browser.recorded report steps)
      (Verifies steps log report) := by
  induction steps generalizing report log with
  | nil =>
      apply returns_pure
      intro world same
      exact ⟨[], by rw [same, List.append_nil], rfl, rfl⟩
  | cons step rest ih =>
      rw [acceptSteps]
      refine Returns.bind (returns_acceptStep report log (submits step List.mem_cons_self)) ?_
      rintro middle world ⟨verified, log_eq, steps_eq, counted⟩ result returned
      have later := ih
        (fun step stepMem => submits step (List.mem_cons_of_mem _ stepMem)) middle
        (log ++ verified) world log_eq result returned
      rcases later with ⟨others, others_eq, otherSteps_eq, othersCounted⟩
      refine ⟨verified ++ others, by rw [others_eq, List.append_assoc], ?_, ?_⟩
      · rw [requiredSteps, List.filter_append]
        change requiredSteps verified ++ requiredSteps others = _
        rw [steps_eq, otherSteps_eq, requiredSteps, requiredSteps, ← List.filter_append]
        rfl
      · rw [othersCounted, counted, Nat.add_assoc, ← List.length_append, requiredSteps,
          requiredSteps, ← List.filter_append]
        rfl

/-- An answer that is ok verified every required step within the budget. -/
theorem returns_chromiumAcceptance {plan : List AcceptanceStep}
    (submits : ∀ step ∈ plan, step.required = true → step.eventType = some "submit") :
    Returns (fun world => world.2 = []) (chromiumAcceptance browser.recorded plan)
      fun report world =>
        requiredSteps world.2 = requiredSteps (plan.take maxSteps) ∧
          report.requiredMutationsVerified = (requiredSteps (plan.take maxSteps)).length := by
  unfold chromiumAcceptance
  refine Returns.bind (returns_silent _ []) ?_
  intro started
  refine Returns.bind (returns_acceptSteps
    (fun step stepMem => submits step (List.mem_of_mem_take stepMem)) _ []) ?_
  rintro report world ⟨verified, log_eq, steps_eq, counted⟩
  rw [List.nil_append] at log_eq
  have kept : Returns (fun world => world.2 = verified) (do
      browser.recorded.finish
      let length ← browser.recorded.encodedLength report
      if length ≤ maxOutputBytes then pure report
      else throw (acceptanceIssue "real_browser_output_too_large"
        "real browser output exceeded 512 KB")) fun result world =>
          world.2 = verified ∧ result = report := by
    refine Returns.bind (returns_silent _ verified) ?_
    intro finished
    refine Returns.bind (returns_silent _ verified) ?_
    intro length
    split
    · exact returns_pure fun _ same => ⟨same, rfl⟩
    · exact returns_throw _
  intro result returned
  rcases kept world log_eq result returned with ⟨same, rfl⟩
  rw [same, steps_eq, counted]
  exact ⟨rfl, Nat.zero_add _⟩

end Verified

/-! ## The budget of steps -/

theorem requiredSteps_listSteps (entities : List String) :
    requiredSteps (entities.map listStep) = [] := by
  rw [requiredSteps, List.filter_eq_nil_iff]
  intro step stepMem
  rcases List.mem_map.mp stepMem with ⟨entity, _, rfl⟩
  exact Bool.false_ne_true

/-- What creates a record of an entity is required. -/
theorem creates_of_mem (made : List.Forall₂ Creates entities creates) {step : AcceptanceStep}
    (stepMem : step ∈ creates) : ∃ entity ∈ entities, Creates entity step := by
  induction made with
  | nil => cases stepMem
  | cons first _ ih =>
      rcases List.mem_cons.mp stepMem with rfl | later
      · exact ⟨_, List.mem_cons_self, first⟩
      · rcases ih later with ⟨entity, entityMem, creates⟩
        exact ⟨entity, List.mem_cons_of_mem _ entityMem, creates⟩

theorem exists_creates (made : List.Forall₂ Creates entities creates) {entity : String}
    (entityMem : entity ∈ entities) : ∃ step ∈ creates, Creates entity step := by
  induction made with
  | nil => cases entityMem
  | cons first _ ih =>
      rcases List.mem_cons.mp entityMem with rfl | later
      · exact ⟨_, List.mem_cons_self, first⟩
      · rcases ih later with ⟨step, stepMem, creates⟩
        exact ⟨step, List.mem_cons_of_mem _ stepMem, creates⟩

/-- Listing comes first and uses the budget up. -/
theorem requiredSteps_within_budget (made : List.Forall₂ Creates entities creates) :
    requiredSteps ((entities.map listStep ++ creates).take maxSteps) =
      creates.take (maxSteps - entities.length) := by
  rw [List.take_append, requiredSteps, List.filter_append, List.length_map, ← List.map_take]
  change requiredSteps ((entities.take maxSteps).map listStep) ++ _ = _
  rw [requiredSteps_listSteps, List.nil_append, List.filter_eq_self]
  intro step stepMem
  rcases creates_of_mem made (List.mem_of_mem_take stepMem) with ⟨_, _, creates⟩
  exact creates.required

/-- Whenever the harness answers ok to a plan, for every declared entity a required step
created a record and was verified, no required step is missing, and the count is that of
the declared entities. -/
def CoversContract (manifest : Fields) (plan : List AcceptanceStep) : Prop :=
  ∀ (ω : Type) (browser : Browser ω) (world after : ω) (report : AcceptanceReport)
    (verified : List AcceptanceStep),
    (chromiumAcceptance browser.recorded plan).outcome (world, []) =
        (.ok report, (after, verified)) →
      (∀ entity ∈ declaredEntities manifest, ∃ step ∈ verified, Creates entity step) ∧
        (∀ step ∈ plan, step.required = true → step ∈ verified) ∧
          report.requiredMutationsVerified = (declaredEntities manifest).length

section Covers

variable {manifest : Fields} {plan : List AcceptanceStep}

theorem submits_of_planned (planned : acceptancePlan manifest = .ok plan) :
    ∀ step ∈ plan, step.required = true → step.eventType = some "submit" := by
  rcases acceptancePlan_eq_ok planned with ⟨creates, rfl, made⟩
  intro step stepMem required
  rcases List.mem_append.mp stepMem with listed | created
  · rcases List.mem_map.mp listed with ⟨entity, _, rfl⟩
    cases required
  · rcases creates_of_mem made created with ⟨_, _, creates⟩
    exact creates.submits

/-- A plan within the budget is carried out in full. -/
theorem covers_of_few (planned : acceptancePlan manifest = .ok plan)
    (few : (declaredEntities manifest).length ≤ 12) : CoversContract manifest plan := by
  intro ω browser world after report verified answered
  have returned := (returns_chromiumAcceptance (submits_of_planned planned)).of_eq rfl answered
  rcases acceptancePlan_eq_ok planned with ⟨creates, rfl, made⟩
  rw [requiredSteps_within_budget made] at returned
  have all : creates.take (maxSteps - (declaredEntities manifest).length) = creates := by
    apply List.take_of_length_le
    rw [← made.length_eq, maxSteps]
    omega
  rw [all] at returned
  rcases returned with ⟨steps_eq, counted⟩
  have verifiedMem : ∀ step ∈ creates, step ∈ verified := by
    intro step stepMem
    rw [← steps_eq] at stepMem
    exact List.mem_of_mem_filter stepMem
  refine ⟨?_, ?_, by rw [counted, ← made.length_eq]⟩
  · intro entity entityMem
    rcases exists_creates made entityMem with ⟨step, stepMem, creates⟩
    exact ⟨step, verifiedMem step stepMem, creates⟩
  · intro step stepMem required
    rcases List.mem_append.mp stepMem with listed | created
    · rcases List.mem_map.mp listed with ⟨entity, _, rfl⟩
      cases required
    · exact verifiedMem step created

/-- A page on which every declared workflow is found and works. -/
def compliantBrowser : Browser Unit where
  start := pure ()
  discoverSubmitForm _ := pure ⟨some 0, some .semantic, 0, true⟩
  revealSemanticForm _ _ reveal := pure (none, reveal)
  flowDiagnostics _ _ := ""
  located _ := pure (0, none)
  fieldVisible _ _ := pure false
  enterField _ _ _ := pure []
  click _ := pure ()
  submitButtons _ := pure (1, some 0)
  hostCounts _ := pure ⟨0, 0, ""⟩
  verifyMutationOutcome _ _ _ := pure ⟨1, 1⟩
  finish := pure ()
  encodedLength _ := pure 0

theorem typeFields_compliant (target : Element) (hints : Fields)
    (world : Unit × List AcceptanceStep) :
    (typeFields compliantBrowser.recorded target hints).outcome world = (.ok [], world) := by
  rcases world with ⟨_, log⟩
  induction hints with
  | nil => rfl
  | cons hint rest ih =>
      rw [typeFields]
      have hidden : (compliantBrowser.recorded.fieldVisible target hint.1).outcome ((), log) =
          (.ok false, ((), log)) := by
        simp only [Browser.recorded, outcome_silent, compliantBrowser, outcome_pure]
      rw [outcome_bind_of_ok hidden]
      exact ih

theorem acceptStep_listStep (report : AcceptanceReport) (entity : String)
    (world : Unit × List AcceptanceStep) :
    (acceptStep compliantBrowser.recorded report (listStep entity)).outcome world =
      (.ok (report.clicked (listStep entity) true), world) :=
  rfl

theorem acceptStep_createStep {entity : String} {step : AcceptanceStep}
    (creates : Creates entity step) (report : AcceptanceReport)
    (world : Unit × List AcceptanceStep) :
    ∃ result after, (acceptStep compliantBrowser.recorded report step).outcome world =
      (.ok result, after) := by
  rcases world with ⟨_, log⟩
  have opened : (interactionTarget compliantBrowser.recorded step).outcome ((), log) =
      (.ok (some (.form 0)), ((), log)) := by
    simp only [interactionTarget, creates.submits, if_true, outcome_bind, Browser.recorded,
      outcome_silent, compliantBrowser, outcome_pure]
  rw [acceptStep, outcome_bind_of_ok opened]
  dsimp only
  rw [acceptTarget, outcome_bind_of_ok (typeFields_compliant 0 step.fieldHints ((), log))]
  simp only [creates.submits, ne_eq, not_true_eq_false, if_false, outcome_bind, Browser.recorded,
    outcome_silent, outcome_record, compliantBrowser, outcome_pure]
  exact ⟨_, _, rfl⟩

/-- The page passes every plan of a manifest. -/
theorem acceptSteps_compliant {steps : List AcceptanceStep}
    (planned : ∀ step ∈ steps, (∃ entity, step = listStep entity) ∨
      ∃ entity, Creates entity step) (report : AcceptanceReport)
    (world : Unit × List AcceptanceStep) :
    ∃ result after, (acceptSteps compliantBrowser.recorded report steps).outcome world =
      (.ok result, after) := by
  induction steps generalizing report world with
  | nil => exact ⟨report, world, rfl⟩
  | cons step rest ih =>
      have first : ∃ result after, (acceptStep compliantBrowser.recorded report step).outcome world =
          (.ok result, after) := by
        rcases planned step List.mem_cons_self with ⟨entity, rfl⟩ | ⟨entity, creates⟩
        · exact ⟨_, _, acceptStep_listStep report entity world⟩
        · exact acceptStep_createStep creates report world
      rcases first with ⟨middle, between, accepted⟩
      rw [acceptSteps, outcome_bind_of_ok accepted]
      exact ih (fun later laterMem =>
        planned later (List.mem_cons_of_mem _ laterMem)) middle between

theorem chromiumAcceptance_compliant (planned : acceptancePlan manifest = .ok plan) :
    ∃ report after, (chromiumAcceptance compliantBrowser.recorded plan).outcome ((), []) =
      (.ok report, after) := by
  have kinds : ∀ step ∈ plan.take maxSteps, (∃ entity, step = listStep entity) ∨
      ∃ entity, Creates entity step := by
    rcases acceptancePlan_eq_ok planned with ⟨creates, rfl, made⟩
    intro step stepMem
    rcases List.mem_append.mp (List.mem_of_mem_take stepMem) with listed | created
    · rcases List.mem_map.mp listed with ⟨entity, _, rfl⟩
      exact Or.inl ⟨entity, rfl⟩
    · rcases creates_of_mem made created with ⟨entity, _, creates⟩
      exact Or.inr ⟨entity, creates⟩
  rcases acceptSteps_compliant kinds ⟨[], [], 0, 0, 0⟩ ((), []) with ⟨report, ⟨_, log⟩, accepted⟩
  have started : compliantBrowser.recorded.start.outcome ((), []) = (.ok (), ((), [])) := rfl
  have finished : compliantBrowser.recorded.finish.outcome ((), log) = (.ok (), ((), log)) := by
    simp only [Browser.recorded, outcome_silent, compliantBrowser, outcome_pure]
  have encoded : (compliantBrowser.recorded.encodedLength report).outcome ((), log) =
      (.ok 0, ((), log)) := by
    simp only [Browser.recorded, outcome_silent, compliantBrowser, outcome_pure]
  rw [chromiumAcceptance, outcome_bind_of_ok started, runAcceptance, outcome_bind_of_ok accepted,
    outcome_bind_of_ok finished, outcome_bind_of_ok encoded]
  exact ⟨report, _, rfl⟩

/-- Of the plan of more entities, the last steps are cut off. -/
theorem not_covers_of_many (planned : acceptancePlan manifest = .ok plan)
    (many : 12 < (declaredEntities manifest).length) : ¬ CoversContract manifest plan := by
  intro covers
  rcases chromiumAcceptance_compliant planned with ⟨report, ⟨_, verified⟩, answered⟩
  have promised := (covers Unit compliantBrowser () () report verified answered).2.2
  have counted := ((returns_chromiumAcceptance (submits_of_planned planned)).of_eq rfl answered).2
  rcases acceptancePlan_eq_ok planned with ⟨creates, rfl, made⟩
  rw [requiredSteps_within_budget made, promised, List.length_take, ← made.length_eq,
    maxSteps] at counted
  omega

end Covers

/-- What the service accepts is covered by the acceptance exactly when it declares at most
twelve entities. -/
theorem acceptance_covers_iff {manifest : Fields}
    (valid : validateManifest (.obj manifest) = .ok ()) :
    ∃ plan, acceptancePlan manifest = .ok plan ∧
      (CoversContract manifest plan ↔ (declaredEntities manifest).length ≤ 12) := by
  rcases (acceptancePlan_of_valid valid).2 with ⟨plan, planned⟩
  refine ⟨plan, planned, ?_, covers_of_few planned⟩
  intro covers
  by_contra many
  exact not_covers_of_many planned (Nat.lt_of_not_le many) covers

/-- A manifest with some entities of one field. -/
def manifestOf (names : List String) : Fields :=
  [("schema_version", .int 1), ("entities", .arr (names.map fun name => .obj [("name", .str name),
    ("fields", .arr [.obj [("name", .str "title"), ("type", .str "string")]])]))]

/-- Two entities. -/
theorem acceptance_covers_iff_two :
    ∃ plan, acceptancePlan (manifestOf ["habit", "entry"]) = .ok plan ∧
      (CoversContract (manifestOf ["habit", "entry"]) plan ↔
        (declaredEntities (manifestOf ["habit", "entry"])).length ≤ 12) :=
  acceptance_covers_iff (ok_of_toOption (by decide +kernel))

/-- Thirteen names. -/
def thirteenNames : List String :=
  ["a", "b", "c", "d", "e", "f", "g", "h", "i", "j", "k", "l", "m"]

/-- The last of thirteen workflows is never tried. -/
theorem thirteen_entities_not_covered :
    validateManifest (.obj (manifestOf thirteenNames)) = .ok () ∧
      ∃ plan, acceptancePlan (manifestOf thirteenNames) = .ok plan ∧
        ¬ CoversContract (manifestOf thirteenNames) plan := by
  have valid : validateManifest (.obj (manifestOf thirteenNames)) = .ok () :=
    ok_of_toOption (by decide +kernel)
  rcases (acceptancePlan_of_valid valid).2 with ⟨plan, planned⟩
  exact ⟨valid, plan, planned, not_covers_of_many planned (by decide)⟩

end DotBackend.Builder
