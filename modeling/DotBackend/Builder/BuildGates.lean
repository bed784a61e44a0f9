import DotBackend.Builder.Completions

/-!
# Whether the gates of a build agree

A request of the tool is parsed and its candidate is packaged before the service sees them.
What the service checks again, it checks in other units and more strictly. The conditions
under which a first build that passed the earlier gates is not refused.
-/

namespace DotBackend.Builder

open Data Channel Apps Agents

/-- The address of an app is short where its handoff is issued. -/
def HandoffFits (publicUrl : String) (db : AppsDb) (app : GeneratedApp) : Prop :=
  handsOff db app = true → (Text.strip (appBaseUrl publicUrl app).toList).length ≤ 4000

/-- What the service checks of a first build that the earlier gates do not. -/
structure Completable (unicode : Unicode) (publicUrl : String) (db : AppsDb) (app : GeneratedApp)
    (manifest seedData : Fields) (completion : BuildCompletion) : Prop where
  named : ∀ name ∈ manifestNames manifest, isEntityName name = true
  manifestFits : jsonBytes (.obj manifest) ≤ 64000
  testResultsFit : jsonBytes (.obj completion.testResults) ≤ 128000
  sources : completion.artifact.files ≠ []
  seedDataFits : jsonBytes (.obj seedData) ≤ 128000
  seeds : SeedsAccepted unicode manifest seedData
  handoff : HandoffFits publicUrl db app

section Gates

variable {unicode : Unicode} {db : AppsDb} {app : GeneratedApp} {job : GeneratedAppBuildJob}
  {publicUrl workerId raw : String} {now : Instant} {made : List ToolEntity}
  {capabilities : List Json} {seedData : Fields}

/-- The state that a first build is completed in. -/
structure FirstBuild (db : AppsDb) (workerId : String) (job : GeneratedAppBuildJob)
    (app : GeneratedApp) : Prop where
  claimed : claimedJob db job.id workerId job.attempts = .ok job
  first : job.baseRevisionId = none
  locked : lockedCodeApp db job.appId = .ok app
  undeployed : db.deployment? job.appId = none
  noRecords : ∀ record ∈ db.records, record.appId ≠ job.appId
  fresh : ∀ revision ∈ db.revisions, revision.id ≠ db.nextId

/-- A completion under the locks of its job and its app. -/
theorem avoids_finishBuild_iff (completion : BuildCompletion)
    (build : FirstBuild db workerId job app)
    (enqueued : ToolRequest job.request made capabilities seedData)
    (manifest_eq : completion.artifact.manifest = copiedManifest made capabilities)
    (version : completion.artifact.sdkVersion = dotAppSdkVersion)
    (hashed : ∃ value, completion.artifact.contentHash = contentHash value)
    (promotable : validatePromotableCompiledArtifact completion.artifact.asDict
      completion.artifact.sdkVersion = .ok ())
    (named : ∀ entry ∈ made, entry.Named)
    (valid : validateManifest (.obj (copiedManifest made capabilities)) = .ok ()) :
    Avoids IsValidation (finishBuild unicode db job (completionResult workerId (claimOf job)
      completion (appBaseUrl publicUrl app)) raw now) ↔
        jsonBytes (.obj seedData) ≤ 128000 ∧
          SeedsAccepted unicode (copiedManifest made capabilities) seedData ∧
            HandoffFits publicUrl db app := by
  have found := lockedCodeApp_eq_ok build.locked
  have byId : db.app? app.id = some app := by
    have same : app.id = job.appId := by simpa using List.find?_some found
    rw [same]
    exact found
  have visible : Text.strip (appBaseUrl publicUrl app).toList ≠ [] := by
    apply Text.trim_ne_nil (c := 'a')
    · rw [appBaseUrl, String.toList_append, String.toList_append]
      exact List.mem_append_left _ (List.mem_append_right _ (by decide))
    · rfl
  have hash : ∃ value, completion.artifact.contentHash = contentHash value ∧
      "artifact://sha256/" ++ completion.artifact.contentHash =
        "artifact://sha256/" ++ contentHash value := by
    rcases hashed with ⟨value, hash_eq⟩
    exact ⟨value, hash_eq, by rw [hash_eq]⟩
  have existing : ∀ revision manifest, validateExistingRecordsForManifest unicode
      (insertRevision revision db) job.appId manifest = .ok () := by
    intro revision manifest
    rw [validateExistingRecordsForManifest, forEach_eq_ok]
    intro record recordMem
    rcases List.mem_filter.mp recordMem with ⟨stored, ofApp⟩
    exact absurd (of_decide_eq_true ofApp) (build.noRecords record stored)
  have creates : (∃ revision, newRevision db app job (completionResult workerId (claimOf job)
      completion (appBaseUrl publicUrl app)) = .ok revision) ↔ _ :=
    newRevision_iff enqueued hash version
  have deploys : ∀ revision, newRevision db app job (completionResult workerId (claimOf job)
      completion (appBaseUrl publicUrl app)) = .ok revision →
      jsonBytes (.obj seedData) ≤ 128000 →
      RaisesOnly IsValidation (promoteRevision unicode (insertRevision revision db) job.appId
        revision.id (some none) now) ∧
      ((∃ promoted, promoteRevision unicode (insertRevision revision db) job.appId revision.id
        (some none) now = .ok promoted) ↔
          SeedsAccepted unicode (copiedManifest made capabilities) seedData) := by
    intro revision created small
    rcases newRevision_fields enqueued version created with
      ⟨id_eq, ofApp, manifest, seeds, unapplied, artifact, sdkVersion⟩
    have stillPromotable : validatePromotableCompiledArtifact revision.artifact
        revision.sdkVersion = .ok () := by
      rw [artifact, sdkVersion, ← version]
      exact promotable
    have copied : revision.manifest = .obj (copiedManifest made capabilities) := by
      rw [manifest, ← manifest_eq]
      rfl
    rw [← seeds] at small ⊢
    exact promoteRevision_first found (lockedCodeApp_isCode build.locked) build.undeployed
      build.noRecords build.fresh id_eq ofApp unapplied stillPromotable enqueued.few named copied
      valid small
  rw [finishBuild, avoids_bind_of_ok build.locked, raisesOnly_newRevision.avoids_bind_iff]
  have handoff : ∀ revision promoted, promoteRevision unicode (insertRevision revision db)
      job.appId revision.id (some none) now = .ok promoted →
      (Avoids IsValidation (issueHandoff (promoted.updateJob job.id
        (GeneratedAppBuildJob.succeededWith revision.id now)) app
          (some (appBaseUrl publicUrl app)) raw now) ↔ HandoffFits publicUrl db app) := by
    intro revision promoted promotes
    have keeps := promotes_promoteRevision promotes
    exact avoids_issueHandoff_iff keeps.conversations keeps.access byId
      (lockedCodeApp_active build.locked) visible
  constructor
  · rintro ⟨revision, created, avoids⟩
    have small := creates.mp ⟨revision, created⟩
    rcases deploys revision created small with ⟨only, seeded⟩
    rw [avoids_bind_of_ok (existing _ _), build.first, only.avoids_bind_iff] at avoids
    rcases avoids with ⟨promoted, promotes, avoids⟩
    exact ⟨small, seeded.mp ⟨promoted, promotes⟩,
      (handoff revision promoted promotes).mp (avoids_bind.mp avoids).1⟩
  · rintro ⟨small, accepted, short⟩
    rcases creates.mpr small with ⟨revision, created⟩
    rcases deploys revision created small with ⟨only, seeded⟩
    rcases seeded.mpr accepted with ⟨promoted, promotes⟩
    refine ⟨revision, created, ?_⟩
    rw [avoids_bind_of_ok (existing _ _), build.first, avoids_bind_of_ok promotes]
    exact avoids_bind.mpr ⟨(handoff revision promoted promotes).mpr short,
      fun _ _ => avoids_pure _⟩

variable {letters : Letters} {platform : Platform} {before after : AppsDb} {context : ToolContext}
  {arguments : Fields} {participants : List String} {baseUrl publicId token : String}
  {queuedAt : Instant} {newApp : GeneratedApp} {queued : GeneratedAppBuildJob}
  {blueprint : AppBlueprint} {pipeline : AppBuildPipeline} {generated : GeneratedSource}
  {bundle : BrowserBundle} {smoke : Fields} {artifact : BuildArtifact}

theorem forall_ne_validation_iff {α : Type} {result : Except CodeAppError α} :
    (∀ message, result ≠ .error (.validation message)) ↔ Avoids IsValidation result := by
  constructor
  · rintro never error raised ⟨message, rfl⟩
    exact never message raised
  · intro avoids message raised
    exact avoids _ raised ⟨message, rfl⟩

variable (metrics : BuildMetrics)
  (created : createGeneratedApp platform before context arguments participants baseUrl publicId
    token queuedAt = .ok (newApp, queued, after))
  (new : queued ∉ before.jobs) (build : FirstBuild db workerId job app)
  (requested : job.request = queued.request)
  (parsed : fromMapping letters (claimOf job).blueprint = .ok blueprint)
  (packaged : package pipeline blueprint generated bundle smoke = .ok artifact)
  (promotable : validatePromotableCompiledArtifact artifact.asDict artifact.sdkVersion =
    .ok ())

include created new build requested parsed packaged promotable

/-- What a first build is refused for under the earlier gates. -/
theorem avoids_completeClaim_iff :
    Avoids IsValidation (completeClaim unicode publicUrl db workerId (claimOf job)
      ⟨artifact, metrics⟩ raw now) ↔
        Completable unicode publicUrl db app blueprint.manifest (requestedSeeds job.request)
          ⟨artifact, metrics⟩ := by
  rcases toolRequest_of_created created new with ⟨made, capabilities, seedData, enqueued⟩
  rw [← requested] at enqueued
  rcases enqueued.manifest_of_fromMapping parsed with ⟨manifest_eq, parses⟩
  rcases package_eq_ok packaged with ⟨artifact_eq, fits⟩
  have artifactManifest : artifact.manifest = copiedManifest made capabilities := by
    rw [artifact_eq, ← manifest_eq]
    rfl
  have version : artifact.sdkVersion = dotAppSdkVersion := by
    rw [artifact_eq]
    rfl
  have locked : artifact.dependencyLock = dotAppDependencyLock := by
    rw [artifact_eq]
    rfl
  have hashed : ∃ value, artifact.contentHash = contentHash value := by
    rw [artifact_eq]
    exact ⟨_, rfl⟩
  have accepts := validateManifest_iff enqueued.few enqueued.distinct parses
  have found : db.app? (claimOf job).appId = some app := lockedCodeApp_eq_ok build.locked
  rw [completeClaim, found]
  dsimp only
  have claimed : claimedJob db (completionResult workerId (claimOf job) ⟨artifact, metrics⟩
      (appBaseUrl publicUrl app)).jobId (completionResult workerId (claimOf job)
        ⟨artifact, metrics⟩ (appBaseUrl publicUrl app)).workerId (completionResult workerId
          (claimOf job) ⟨artifact, metrics⟩ (appBaseUrl publicUrl app)).expectedAttempt =
            .ok job := build.claimed
  have checks : checkBuildResult (completionResult workerId (claimOf job) ⟨artifact, metrics⟩
      (appBaseUrl publicUrl app)) = .ok () ↔ _ :=
    checkBuildResult_iff locked hashed fits promotable
  rw [artifactManifest, accepts] at checks
  rw [completeBuild, avoids_bind_of_ok claimed, raisesOnly_checkBuildResult.avoids_bind_iff,
    enqueued.requestedSeeds_eq, manifest_eq]
  constructor
  · rintro ⟨_, passes, avoids⟩
    rcases checks.mp passes with ⟨⟨named, manifestFits⟩, resultsFit, sources⟩
    rw [avoids_finishBuild_iff ⟨artifact, metrics⟩ build enqueued artifactManifest version hashed
      promotable named (accepts.mpr ⟨named, manifestFits⟩)] at avoids
    rcases avoids with ⟨small, seeds, handoff⟩
    exact ⟨manifestNames_iff.mpr named, manifestFits, resultsFit, sources, small, seeds, handoff⟩
  · intro completable
    have named := manifestNames_iff.mp completable.named
    have valid := accepts.mpr ⟨named, completable.manifestFits⟩
    have passes := checks.mpr
      ⟨⟨named, completable.manifestFits⟩, completable.testResultsFit, completable.sources⟩
    refine ⟨(), passes, ?_⟩
    rw [avoids_finishBuild_iff ⟨artifact, metrics⟩ build enqueued artifactManifest version hashed
      promotable named valid]
    exact ⟨completable.seedDataFits, completable.seeds, completable.handoff⟩

/-- A first build that the earlier gates let pass is not refused as invalid exactly when it
also meets what the service checks in other units or more strictly. -/
theorem build_gates_agree :
    (∀ message, completeClaim unicode publicUrl db workerId (claimOf job) ⟨artifact, metrics⟩ raw
      now ≠ .error (.validation message)) ↔
        Completable unicode publicUrl db app blueprint.manifest (requestedSeeds job.request)
          ⟨artifact, metrics⟩ :=
  forall_ne_validation_iff.trans
    (avoids_completeClaim_iff metrics created new build requested parsed packaged promotable)

end Gates

/-! ## Seeds that no gate has read -/

/-- The text of seeds with one member in one row. -/
def seedText (member : String) : String :=
  "\x7b\"habit\":[\x7b\"" ++ member ++ "\":\"swim\"\x7d]\x7d"

/-- The seeds of that text. -/
def parsedSeeds (member : String) : Fields :=
  [("habit", .arr [.obj [(member, .str "swim")]])]

/-- An interpreter that also reads the seeds with a name, and those with a title. -/
def seedPlatform : Platform where
  __ := Platform.ascii
  loads text :=
    if text = (seedText "name").toList then some (.obj (parsedSeeds "name"))
    else if text = (seedText "title").toList then some (.obj (parsedSeeds "title"))
    else none

/-- Someone who speaks in a direct chat, and has no app. -/
def seedUser : AppsDb where
  __ := AppsDb.empty
  users := [7]
  conversations := [⟨2, 7, .direct, none, .auto, none, true⟩]
  nextId := 10

/-- An app with habits, which have a name. -/
def seedArguments (member : String) : Fields :=
  [("title", .str "Habits"), ("description", .str "Habits"), ("purpose", .str "Habits"),
    ("entities", .arr [.obj [("name", .str "habit"), ("description", .str ""),
      ("fields", .arr [.obj [("name", .str "name"), ("type", .str "string"),
        ("required", .bool true)]])]]),
    ("capabilities", .arr []), ("seed_data", .str (seedText member)),
    ("visual_direction", .str "sage"), ("product_brief", .str "Habits"),
    ("access_mode", .str "private_link")]

def seedPipeline : AppBuildPipeline := ⟨"p", "1", true⟩

def seedSource : GeneratedSource := ⟨[⟨"main.tsx", "start()"⟩], "main.tsx", []⟩

def seedBundle : BrowserBundle where
  format := "iife"
  javascript := "start()"
  css := ""
  sha256 := "295695a76388adcf036061d1c230d60d733a9cb35ff7fd6bacce3c99e35bcfed"
  sdkVersion := "2"
  staticHtml := ""
  compiler := []

/-- The browser rendered the app. -/
def seedSmoke : Fields :=
  [("ready", .bool true), ("static_html", .str "<main></main>"),
    ("real_browser", .obj [("ready", .bool true)])]

def seedMetrics : BuildMetrics := ⟨"", "", 0, 60000, true, 1, 0, 1, 7, []⟩

/-- The manifest of both requests. -/
def seedManifest : Fields :=
  Json.copyFields (toolManifest [.obj [("name", .str "habit"), ("description", .str ""),
    ("fields", .obj [("name", .obj [("type", .str "string"), ("required", .bool true)])])]] [])

/-- What the candidate of both requests is packaged to. -/
def seedArtifact : BuildArtifact :=
  packagedArtifact seedPipeline ⟨"", "", "", "", "", "", "", "", [], seedManifest, []⟩ seedSource
    seedBundle seedSmoke

/-- The app is created, its build is claimed and parsed. -/
structure SeedRun where
  newApp : GeneratedApp
  queued : GeneratedAppBuildJob
  created : AppsDb
  job : GeneratedAppBuildJob
  claimed : AppsDb
  app : GeneratedApp
  blueprint : AppBlueprint

def seedRun (member : String) : Option SeedRun := do
  let (newApp, queued, created) ← (createGeneratedApp seedPlatform seedUser
    ⟨7, 2, none, none, none⟩ (seedArguments member) [] "" "habits" "" 0).toOption
  let claimed ← (claimNextBuild created "a" 60 0).toOption
  let job ← claimed.jobs.head?
  let app ← (lockedCodeApp claimed job.appId).toOption
  let blueprint ← (fromMapping Letters.ascii (claimOf job).blueprint).toOption
  pure ⟨newApp, queued, created, job, claimed, app, blueprint⟩

/-- The request passes the gates. -/
structure SeedRun.Passes (run : SeedRun) (member : String) : Prop where
  created : createGeneratedApp seedPlatform seedUser ⟨7, 2, none, none, none⟩
    (seedArguments member) [] "" "habits" "" 0 = .ok (run.newApp, run.queued, run.created)
  new : run.queued ∉ seedUser.jobs
  build : FirstBuild run.claimed "a" run.job run.app
  requested : run.job.request = run.queued.request
  parsed : fromMapping Letters.ascii (claimOf run.job).blueprint = .ok run.blueprint
  packaged : package seedPipeline run.blueprint seedSource seedBundle seedSmoke = .ok seedArtifact

/-- What is seen of a run. -/
def SeedRun.check (run : SeedRun) : Bool :=
  run.queued ∉ seedUser.jobs &&
    claimedJob run.claimed run.job.id "a" run.job.attempts = .ok run.job &&
      run.job.baseRevisionId = none && run.claimed.deployment? run.job.appId = none &&
        run.claimed.records = [] && run.claimed.revisions = [] &&
          run.job.request = run.queued.request && run.blueprint.manifest = seedManifest

/-- It is packaged and may be promoted. -/
theorem seedArtifact_packaged :
    package seedPipeline ⟨"", "", "", "", "", "", "", "", [], seedManifest, []⟩ seedSource
      seedBundle seedSmoke = .ok seedArtifact ∧
    validatePromotableCompiledArtifact seedArtifact.asDict seedArtifact.sdkVersion = .ok () := by
  constructor
  · simp only [package, bind_eq_ok, require_eq_ok, pure_eq_ok, byteLength_packagedArtifact]
    refine ⟨(), ?_, (), ?_, (), ?_, (), ?_, (), ?_, rfl⟩
    · decide
    · decide
    · decide
    · decide +kernel
    · decide +kernel
  · decide +kernel

theorem SeedRun.passes {run : SeedRun} {member : String} (ran : seedRun member = some run)
    (seen : run.check = true) : run.Passes member := by
  simp only [SeedRun.check, Bool.and_eq_true, decide_eq_true_eq] at seen
  rcases seen with ⟨⟨⟨⟨⟨⟨⟨new, claimed⟩, first⟩, undeployed⟩, noRecords⟩, noRevisions⟩, requested⟩,
    manifest⟩
  simp only [seedRun, Option.bind_eq_bind, Option.bind_eq_some_iff, Option.pure_def,
    Option.some.injEq] at ran
  rcases ran with ⟨⟨newApp, queued, created⟩, creates, tables, _, job, _, app, locked, blueprint,
    parsed, rfl⟩
  constructor
  · exact ok_of_toOption creates
  · exact new
  · refine ⟨claimed, first, ok_of_toOption locked, undeployed, ?_, ?_⟩
    · rw [noRecords]
      intro record none
      cases none
    · rw [noRevisions]
      intro revision none
      cases none
  · exact requested
  · exact ok_of_toOption parsed
  · exact (package_congr _ _ _ _ manifest).trans seedArtifact_packaged.1

/-- Both requests pass, and their seeds are not read before the end. -/
theorem exists_seedRun : ∀ member ∈ ["name", "title"], ∃ run : SeedRun, run.Passes member ∧
    run.blueprint.manifest = seedManifest ∧ requestedSeeds run.job.request = parsedSeeds member ∧
      appBaseUrl "" run.app = "/a/habits" := by
  have runs : ∀ member ∈ ["name", "title"], (seedRun member).any (fun run => run.check &&
      (decide (requestedSeeds run.job.request = parsedSeeds member) &&
        decide (appBaseUrl "" run.app = "/a/habits"))) = true := by
    intro member memberMem
    have digest : isDigest (String.ofList (List.replicate 64 '0')) = true := by decide
    have unkeyed : agentToolIdempotencyKey ⟨7, 2, none, none, none⟩ = none := rfl
    simp only [seedRun, createGeneratedApp_unkeyed digest unkeyed]
    rcases List.mem_pair.mp memberMem with rfl | rfl
    · decide +kernel
    · decide +kernel
  intro member memberMem
  have ran := runs member memberMem
  simp only [Option.any_eq_true, Bool.and_eq_true, decide_eq_true_eq] at ran
  rcases ran with ⟨run, ran, seen, seeds, url⟩
  have manifest : run.blueprint.manifest = seedManifest := by
    simp only [SeedRun.check, Bool.and_eq_true, decide_eq_true_eq] at seen
    exact seen.2
  exact ⟨run, run.passes ran seen, manifest, seeds, url⟩

/-- A request whose seeds have an unknown field passes every gate, and is refused in the end. -/
theorem invalid_seeds_pass_the_gates :
    ∃ run : SeedRun, run.Passes "title" ∧
      validatePromotableCompiledArtifact seedArtifact.asDict seedArtifact.sdkVersion = .ok () ∧
        ∃ message, completeClaim Unicode.ascii "" run.claimed "a" (claimOf run.job)
          ⟨seedArtifact, seedMetrics⟩ "" 0 = .error (.validation message) := by
  rcases exists_seedRun "title" (by decide) with ⟨run, passes, manifest, seeds, _⟩
  have promotable := seedArtifact_packaged.2
  refine ⟨run, passes, promotable, ?_⟩
  by_contra never
  have accepted := ((avoids_completeClaim_iff seedMetrics passes.created passes.new passes.build
    passes.requested passes.parsed passes.packaged promotable).mp
      (forall_ne_validation_iff.mp (not_exists.mp never))).seeds
  rw [manifest, seeds] at accepted
  have refused : ¬ ∀ name ∈ entityNames seedManifest,
      ∀ row ∈ entityRows (parsedSeeds "title") name,
        (validateEntityData Unicode.ascii (.obj seedManifest) name row).isOk = true := by
    decide
  exact refused accepted

/-- A request whose seeds are valid is not refused. -/
theorem valid_seeds_are_completed :
    ∃ run : SeedRun, run.Passes "name" ∧
      ∀ message, completeClaim Unicode.ascii "" run.claimed "a" (claimOf run.job)
        ⟨seedArtifact, seedMetrics⟩ "" 0 ≠ .error (.validation message) := by
  rcases exists_seedRun "name" List.mem_cons_self with ⟨run, passes, manifest, seeds, url⟩
  have promotable := seedArtifact_packaged.2
  refine ⟨run, passes, ?_⟩
  apply (build_gates_agree seedMetrics passes.created passes.new passes.build passes.requested
    passes.parsed passes.packaged promotable).mpr
  rw [manifest, seeds]
  have accepted : ∀ name ∈ entityNames seedManifest, ∀ row ∈ entityRows (parsedSeeds "name") name,
      (validateEntityData Unicode.ascii (.obj seedManifest) name row).isOk = true := by
    decide
  constructor
  · decide
  · decide +kernel
  · decide +kernel
  · decide
  · decide
  · exact accepted
  · intro _
    rw [url]
    decide

end DotBackend.Builder
