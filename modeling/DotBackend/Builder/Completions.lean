import DotBackend.Builder.Seeds
import DotBackend.Builder.ServiceHooks

/-!
# The completion of a first build

The stages of a completion for a request of the tool, one after the other: what the worker
hands in is checked, the revision is made, its seeds are inserted, and a ticket is issued. For
every stage, when it raises a validation error.
-/

namespace DotBackend.Builder

open Data Channel Apps Agents

/-! ## Calls without a key -/

section Unkeyed

variable {unicode : Unicode} {platform : Platform} {db : AppsDb} {context : ToolContext}
  {arguments : Fields} {now : Instant} {hash digest : String}

theorem isDigest_agentToolRequestHash {name : String}
    (hashed : agentToolRequestHash context name arguments = .ok hash) : isDigest hash = true := by
  unfold agentToolRequestHash at hashed
  dsimp only at hashed
  split at hashed
  · cases hashed
    exact isDigest_sha256 _
  · cases hashed

/-- Without a key, the hash of a creation is not stored. -/
theorem createGeneratedApp_unkeyed {participants : List String} {baseUrl publicId raw : String}
    (valid : isDigest digest = true) (unkeyed : agentToolIdempotencyKey context = none) :
    createGeneratedApp platform db context arguments participants baseUrl publicId raw now =
      (creationOf platform db context arguments participants baseUrl).bind fun creation =>
        callService (createCodeAppBuild db
          { creation with idempotencyRequestHash := some digest } publicId raw now) := by
  unfold createGeneratedApp
  cases creates : creationOf platform db context arguments participants baseUrl with
  | error error => rfl
  | ok creation =>
      unfold creationOf at creates
      split at creates
      · cases creates
      · simp only [bind_eq_ok, pure_eq_ok] at creates
        rcases creates with ⟨_, _, _, _, _, _, _, _, _, _, hash, hashed, rfl⟩
        apply congrArg callService
        unfold createCodeAppBuild
        simp only [unkeyed, cleanKey, creationRequestHash, validatedRequestHash, valid,
          isDigest_agentToolRequestHash hashed]
        rfl

/-- Neither is the hash of a revision. -/
theorem reviseCustomApp_unkeyed (valid : isDigest digest = true)
    (unkeyed : agentToolIdempotencyKey context = none) :
    reviseCustomApp platform db context arguments now =
      (revisionOf platform db context arguments).bind fun request =>
        callService (queueOwnedCodeAppRevision platform.toUnicode db
          { request with idempotencyRequestHash := some digest } now) := by
  unfold reviseCustomApp
  cases revises : revisionOf platform db context arguments with
  | error error => rfl
  | ok request =>
      simp only [revisionOf, bind_eq_ok, pure_eq_ok] at revises
      rcases revises with ⟨_, _, _, _, _, _, _, _, _, _, _, _, _, _, _, _, hash, hashed, rfl⟩
      have isHash := isDigest_agentToolRequestHash hashed
      have queues : ∀ request intended, queueCodeAppRevision db (queueRequestOf request intended
          none (some hash)) now = queueCodeAppRevision db (queueRequestOf request intended none
            (some digest)) now := by
        intro request intended
        unfold queueCodeAppRevision startQueue newJob refusedJob cleanQueueRequest
        simp only [queueRequestOf, cleanKey, validatedRequestHash, isHash, valid]
        generalize requireJsonSize _ _ _ = sized
        cases sized with
        | error error => rfl
        | ok _ => rfl
      apply congrArg callService
      unfold queueOwnedCodeAppRevision
      simp only [unkeyed, cleanKey, validatedRequestHash, isHash, valid]
      generalize getOwnedCodeApp _ _ _ = found
      cases found with
      | error error => rfl
      | ok owned =>
          change queueIntendedRevision _ _ _ _ none (some hash) _ =
            queueIntendedRevision _ _ _ _ none (some digest) _
          simp only [queueIntendedRevision, queues]
          rfl

end Unkeyed

/-! ## Requests of the tool -/

/-- A request that the tool enqueued. -/
structure ToolRequest (request : Fields) (made : List ToolEntity) (capabilities : List Json)
    (seedData : Fields) : Prop where
  few : made.length ≤ 24
  distinct : (made.map ToolEntity.name).Nodup
  blueprint : ∃ arguments accent, request = [("blueprint", .obj (toolBlueprint arguments accent
      (toolManifest (made.map fun entry => .obj entry.definition) capabilities) seedData))] ∧
    (∃ title, text (argument arguments "title") "title" 120 = .ok title) ∧
      ∃ description, Apps.optionalText (argument arguments "description") 500 = .ok description

/-- The seeds of a request. -/
def requestedSeeds (request : Fields) : Fields :=
  jsonObject (Json.lookup (jsonObject (Json.lookup request "blueprint")) "seed_data")

section Requests

variable {letters : Letters} {platform : Platform} {before after : AppsDb} {context : ToolContext}
  {arguments : Fields} {participants : List String} {baseUrl publicId raw : String}
  {now : Instant} {app : GeneratedApp} {queued : GeneratedAppBuildJob}

/-- What the tool enqueues. -/
theorem toolRequest_of_created
    (created : createGeneratedApp platform before context arguments participants baseUrl publicId
      raw now = .ok (app, queued, after)) (new : queued ∉ before.jobs) :
    ∃ made capabilities seedData, ToolRequest queued.request made capabilities seedData := by
  simp only [createGeneratedApp, bind_eq_ok] at created
  rcases created with ⟨creation, creates, called⟩
  rcases createCodeAppBuild_eq_ok (callService_eq_ok.mp called) with ⟨_, stored⟩ |
    ⟨_, _, _, title, description, _, titled, described, _, _, rfl, _⟩
  · exact absurd stored new
  · unfold creationOf at creates
    split at creates
    · cases creates
    · simp only [bind_eq_ok, pure_eq_ok] at creates
      rcases creates with ⟨_, _, entities, read, capabilities, _, seedData, _, accent, _, _, _,
        rfl⟩
      rcases codeAppEntities_eq_ok read with ⟨made, rfl, few, distinct⟩
      exact ⟨made, capabilities, _, few, distinct, arguments, accent, rfl, ⟨title, titled⟩,
        description, described⟩

variable {request : Fields} {made : List ToolEntity} {capabilities : List Json}
  {seedData : Fields} {blueprint : AppBlueprint}

theorem ToolRequest.requestedSeeds_eq (enqueued : ToolRequest request made capabilities seedData) :
    requestedSeeds request = seedData := by
  rcases enqueued.blueprint with ⟨arguments, accent, rfl, _⟩
  rfl

/-- The manifest of the blueprint is the copy of the manifest of the tool. -/
theorem ToolRequest.manifest_of_fromMapping
    (enqueued : ToolRequest request made capabilities seedData)
    (parsed : fromMapping letters (claimBlueprint request) = .ok blueprint) :
    blueprint.manifest = copiedManifest made capabilities ∧
      parseCapabilities (copiedManifest made capabilities) = .ok () := by
  rcases enqueued.blueprint with ⟨arguments, accent, rfl, _⟩
  simp only [fromMapping, bind_eq_ok, pure_eq_ok] at parsed
  rcases parsed with ⟨_, _, _, _, _, _, _, _, _, _, manifest, found, _, parses, _, _, _, _, _, _,
    _, _, _, _, _, _, _, _, _, _, rfl⟩
  have copied : objectMember (Json.copyFields (toolBlueprint arguments accent
      (toolManifest (made.map fun entry => .obj entry.definition) capabilities) seedData))
        "manifest" = .ok (copiedManifest made capabilities) :=
    objectMember_copyFields rfl
  cases Except.ok.inj (copied.symm.trans found)
  exact ⟨rfl, parses⟩

end Requests

/-! ## The revision of a first build -/

section Revision

variable {db : AppsDb} {app : GeneratedApp} {job : GeneratedAppBuildJob}
  {revision : GeneratedAppRevision} {result : BuildResult} {made : List ToolEntity}
  {capabilities : List Json} {seedData : Fields}

theorem text_of_visible {s field : String} {bound : Nat} (visible : Text.strip s.toList ≠ [])
    (fits : (Text.strip s.toList).length ≤ bound) :
    text (.str s) field bound = .ok (String.ofList (Text.strip s.toList)) := by
  unfold text
  dsimp only
  rw [if_neg (by simpa using visible), if_neg (Nat.not_lt.mpr fits)]

theorem raisesOnly_text (value : Json) (field : String) (bound : Nat) :
    RaisesOnly IsValidation (text value field bound) := by
  unfold text
  split
  · dsimp only
    split
    · exact raisesOnly_error (isValidation _)
    · split
      · exact raisesOnly_error (isValidation _)
      · exact raisesOnly_ok _
  · exact raisesOnly_error (isValidation _)

theorem raisesOnly_newRevision : RaisesOnly IsValidation (newRevision db app job result) := by
  apply raisesOnly_bind (raisesOnly_text _ _ _)
  intro title
  apply raisesOnly_bind
  · unfold Apps.optionalText
    split
    · exact raisesOnly_ok _
    · exact raisesOnly_ok _
    · exact raisesOnly_error (isValidation _)
  · intro description
    apply raisesOnly_bind (raisesOnly_require (isValidation _))
    intro _
    apply raisesOnly_bind
    · apply raisesOnly_bind (raisesOnly_text _ _ _)
      intro _
      exact raisesOnly_ok _
    · intro _
      apply raisesOnly_bind (raisesOnly_text _ _ _)
      intro _
      exact raisesOnly_ok _

/-- A hash is part of a visible and short address. -/
theorem text_artifactUrl (value : Json) :
    text (.str ("artifact://sha256/" ++ contentHash value)) "artifact_url" 4000 =
      .ok (String.ofList (Text.strip ("artifact://sha256/" ++ contentHash value).toList)) := by
  apply text_of_visible
  · apply Text.trim_ne_nil (c := 'a')
    · rw [String.toList_append]
      exact List.mem_append_left _ (by decide)
    · rfl
  · apply Nat.le_trans ( Text.strip_infix _).length_le
    rw [String.toList_append, List.length_append]
    change _ + (sha256 (Json.dumps value)).toList.length ≤ _
    rw [length_sha256]
    decide

/-- The title of a request of the tool is that of its revision. -/
theorem ToolRequest.title_eq_ok (app : GeneratedApp)
    (enqueued : ToolRequest job.request made capabilities seedData) :
    ∃ title, text (orElseJson (Json.lookup (jsonObject (Json.lookup job.request "app_metadata"))
      "title") (orElseJson (Json.lookup (jsonObject (Json.lookup job.request "blueprint")) "title")
        (.str app.title))) "title" 120 = .ok title := by
  rcases enqueued.blueprint with ⟨arguments, accent, request_eq, ⟨title, titled⟩, _⟩
  rw [request_eq]
  change ∃ title, text (orElseJson (some (argument arguments "title")) _) "title" 120 = .ok title
  have isTruthy : (argument arguments "title").truthy = true := by
    cases given : argument arguments "title" with
    | str s =>
        apply decide_eq_true
        rintro rfl
        rw [given] at titled
        cases titled
    | null | bool _ | int _ | float _ | arr _ | obj _ =>
        rw [given] at titled
        cases titled
  rw [orElseJson, isTruthy]
  exact ⟨title, titled⟩

theorem ToolRequest.description_eq_ok (app : GeneratedApp)
    (enqueued : ToolRequest job.request made capabilities seedData) :
    ∃ description, Apps.optionalText
      (match Json.lookup (jsonObject (Json.lookup job.request "app_metadata")) "description" with
      | none | some .null => (Json.lookup (jsonObject (Json.lookup job.request "blueprint"))
          "description").getD (.str app.description)
      | some description => description) 500 = .ok description := by
  rcases enqueued.blueprint with ⟨arguments, accent, request_eq, _, described⟩
  rw [request_eq]
  exact described

/-- The revision of a completion can be made when its seeds fit. -/
theorem newRevision_iff (enqueued : ToolRequest job.request made capabilities seedData)
    (hashed : ∃ value, result.artifactSha256 = contentHash value ∧
      result.artifactUrl = "artifact://sha256/" ++ contentHash value)
    (version : result.sdkVersion = dotAppSdkVersion) :
    (∃ revision, newRevision db app job result = .ok revision) ↔
      jsonBytes (.obj seedData) ≤ 128000 := by
  have seeds : jsonObject (Json.lookup (jsonObject (Json.lookup job.request "blueprint"))
      "seed_data") = seedData :=
    enqueued.requestedSeeds_eq
  rcases hashed with ⟨value, _, url⟩
  rcases enqueued.title_eq_ok app with ⟨title, titled⟩
  rcases enqueued.description_eq_ok app with ⟨description, described⟩
  simp only [newRevision, seeds, requireJsonSize, bind_eq_ok, pure_eq_ok, require_eq_ok,
    decide_eq_true_eq]
  constructor
  · rintro ⟨revision, _, _, _, _, _, fits, _⟩
    exact fits
  · intro fits
    refine ⟨_, title, titled, description, described, (), fits, (), ?_, dotAppSdkVersion, ?_, rfl⟩
    · rw [url, text_artifactUrl]
      rfl
    · rw [version]
      rfl

/-- What the revision of a completion holds. -/
theorem newRevision_fields (enqueued : ToolRequest job.request made capabilities seedData)
    (version : result.sdkVersion = dotAppSdkVersion)
    (created : newRevision db app job result = .ok revision) :
    revision.id = db.nextId ∧ revision.appId = job.appId ∧ revision.manifest = result.manifest ∧
      revision.seedData = seedData ∧ revision.seedAppliedAt = none ∧
        revision.artifact = orEmpty result.artifact ∧ revision.sdkVersion = dotAppSdkVersion := by
  simp only [newRevision, bind_eq_ok, pure_eq_ok] at created
  rcases created with ⟨_, _, _, _, _, _, _, _, sdkVersion, read, rfl⟩
  have kept : text (.str dotAppSdkVersion) "sdk_version" 64 = .ok dotAppSdkVersion := rfl
  rw [version, kept] at read
  cases read
  exact ⟨rfl, rfl, rfl, enqueued.requestedSeeds_eq, rfl, rfl, rfl⟩

end Revision

/-! ## The checks of a completion -/

section Checks

variable {result : BuildResult}

theorem raisesOnly_validatePromotable (artifact : Json) (sdkVersion : String) :
    RaisesOnly IsValidation (validatePromotableCompiledArtifact artifact sdkVersion) := by
  unfold validatePromotableCompiledArtifact
  cases artifact with
  | obj fields =>
      dsimp only
      split
      · split
        · apply raisesOnly_bind (raisesOnly_require (isValidation _))
          intro _
          apply raisesOnly_bind (raisesOnly_require (isValidation _))
          intro _
          apply raisesOnly_bind (raisesOnly_require (isValidation _))
          intro _
          apply raisesOnly_bind (raisesOnly_require (isValidation _))
          intro _
          exact raisesOnly_require (isValidation _)
        · exact raisesOnly_error (isValidation _)
      · exact raisesOnly_error (isValidation _)
  | null | bool _ | int _ | float _ | str _ | arr _ =>
      dsimp only
      split
      · split
        · exact raisesOnly_error (isValidation _)
        · exact raisesOnly_error (isValidation _)
      · exact raisesOnly_error (isValidation _)

theorem raisesOnly_checkBuildResult : RaisesOnly IsValidation (checkBuildResult result) := by
  apply raisesOnly_bind (raisesOnly_validateManifest _)
  intro _
  apply raisesOnly_bind (raisesOnly_require (isValidation _))
  intro _
  apply raisesOnly_bind (raisesOnly_require (isValidation _))
  intro _
  apply raisesOnly_bind (raisesOnly_require (isValidation _))
  intro _
  apply raisesOnly_bind (raisesOnly_require (isValidation _))
  intro _
  apply raisesOnly_bind (raisesOnly_require (isValidation _))
  intro _
  exact raisesOnly_validatePromotable _ _

theorem orEmpty_obj (fields : Fields) : orEmpty (.obj fields) = .obj fields := by
  cases fields with
  | nil => rfl
  | cons member rest => rfl

theorem assign_ne_nil (key : String) (value : Json) (fields : Fields) :
    Json.assign key value fields ≠ [] := by
  cases fields with
  | nil => simp [Json.assign]
  | cons member rest =>
      rw [Json.assign]
      split
      · simp
      · simp

/-- There are source files when a file was generated. -/
theorem sourceFileDict_ne_nil {files : List SourceFile} : sourceFileDict files ≠ [] ↔ files ≠ [] := by
  have grows : ∀ (files : List SourceFile) (fields : Fields), fields ≠ [] →
      files.foldl (fun fields file => Json.assign file.path (.str file.contents) fields) fields ≠
        [] := by
    intro files
    induction files with
    | nil =>
        intro fields filled
        exact filled
    | cons file rest ih =>
        intro fields _
        exact ih _ (assign_ne_nil _ _ _)
  cases files with
  | nil => simp [sourceFileDict]
  | cons file rest =>
      constructor
      · intro _ none
        cases none
      · intro _
        exact grows rest _ (assign_ne_nil _ _ [])

variable {workerId url : String} {claim : BuildClaim} {completion : BuildCompletion}

/-- What the service checks of a packaged artifact that was not checked before. -/
theorem checkBuildResult_iff
    (locked : completion.artifact.dependencyLock = dotAppDependencyLock)
    (hashed : ∃ value, completion.artifact.contentHash = contentHash value)
    (fits : Json.byteLength completion.artifact.asDict ≤ 4000000)
    (promotable : validatePromotableCompiledArtifact completion.artifact.asDict
      completion.artifact.sdkVersion = .ok ()) :
    checkBuildResult (completionResult workerId claim completion url) = .ok () ↔
      validateManifest (.obj completion.artifact.manifest) = .ok () ∧
        jsonBytes (.obj completion.testResults) ≤ 128000 ∧ completion.artifact.files ≠ [] := by
  have lockFits : jsonBytes (.obj dotAppDependencyLock) ≤ 64000 := by decide +kernel
  have digest : isDigest completion.artifact.contentHash = true := by
    rcases hashed with ⟨value, hash_eq⟩
    rw [hash_eq]
    exact isDigest_sha256 _
  have whole : orEmpty completion.artifact.asDict = completion.artifact.asDict := rfl
  simp only [checkBuildResult, completionResult, requireJsonSize, orEmpty_obj, whole, locked,
    bind_eq_ok, require_eq_ok, decide_eq_true_eq, promotable, digest]
  constructor
  · rintro ⟨_, valid, _, _, _, _, _, resultsFit, _, sources, _⟩
    refine ⟨valid, resultsFit, sourceFileDict_ne_nil.mp ?_⟩
    simpa using sources
  · rintro ⟨valid, resultsFit, sources⟩
    refine ⟨(), valid, (), fits, (), lockFits, (), resultsFit, (), ?_, (), trivial,
      trivial⟩
    simpa using sourceFileDict_ne_nil.mpr sources

end Checks

/-! ## The first deployment -/

section Deployment

variable {unicode : Unicode} {db : AppsDb} {app : GeneratedApp} {revision : GeneratedAppRevision}
  {appId : Uuid} {now : Instant} {made : List ToolEntity} {capabilities : List Json}
  {seedData : Fields}

/-- The seeds are inserted when every row that is read is valid. -/
theorem seedCodeAppRecords_iff {userId : Uuid} (few : made.length ≤ 24)
    (named : ∀ entry ∈ made, entry.Named)
    (valid : validateManifest (.obj (copiedManifest made capabilities)) = .ok ())
    (small : jsonBytes (.obj seedData) ≤ 128000)
    (noRecords : ∀ record ∈ db.records, record.appId ≠ appId) :
    (∃ seeded, seedCodeAppRecords unicode db appId userId
      (.obj (copiedManifest made capabilities)) seedData now = .ok seeded) ↔
        SeedsAccepted unicode (copiedManifest made capabilities) seedData := by
  have unused : usedBytes db appId = 0 := by
    have none : (db.records.filter fun record => record.appId = appId) = [] := by
      rw [List.filter_eq_nil_iff]
      intro record recordMem
      simpa using noRecords record recordMem
    rw [usedBytes, none]
    rfl
  rw [SeedsAccepted, entityNames_copiedManifest, List.forall_mem_map]
  simp only [seedCodeAppRecords, valid, manifestEntities_copiedManifest, bind_eq_ok]
  constructor
  · rintro ⟨seeded, _, _, inserts⟩
    exact accepts_of_seedEntities inserts
  · intro accepted
    have fits : usedBytes db appId + made.length * 128000 ≤ 10000000 := by
      rw [unused]
      omega
    rcases seedEntities_of_accepts small fits named accepted with ⟨seeded, inserts⟩
    exact ⟨seeded, (), trivial, inserts⟩

/-- A first deployment succeeds when its seeds are valid, and is refused otherwise. -/
theorem promoteRevision_first (found : db.app? appId = some app)
    (isCode : app.runtimeKind = .code) (undeployed : db.deployment? appId = none)
    (noRecords : ∀ record ∈ db.records, record.appId ≠ appId)
    (fresh : ∀ row ∈ db.revisions, row.id ≠ db.nextId) (id_eq : revision.id = db.nextId)
    (ofApp : revision.appId = appId) (unapplied : revision.seedAppliedAt = none)
    (promotable : validatePromotableCompiledArtifact revision.artifact revision.sdkVersion =
      .ok ())
    (few : made.length ≤ 24) (named : ∀ entry ∈ made, entry.Named)
    (manifest_eq : revision.manifest = .obj (copiedManifest made capabilities))
    (valid : validateManifest (.obj (copiedManifest made capabilities)) = .ok ())
    (small : jsonBytes (.obj revision.seedData) ≤ 128000) :
    RaisesOnly IsValidation (promoteRevision unicode (insertRevision revision db) appId revision.id
      (some none) now) ∧
    ((∃ promoted, promoteRevision unicode (insertRevision revision db) appId revision.id
      (some none) now = .ok promoted) ↔
        SeedsAccepted unicode (copiedManifest made capabilities) revision.seedData) := by
  have stored : (insertRevision revision db).revision? revision.id = some revision := by
    have absent : db.revisions.find? (fun row => row.id = revision.id) = none := by
      rw [List.find?_eq_none]
      intro row rowMem
      rw [id_eq]
      simpa using fresh row rowMem
    rw [AppsDb.revision?, insertRevision, List.find?_append, absent]
    simp
  have appId_eq : app.id = appId := by
    simpa using List.find?_some found
  have appFound : (insertRevision revision db).app? appId = some app := found
  have notDeployed : (insertRevision revision db).deployment? appId = none := undeployed
  let swapped : AppsDb := { insertRevision revision db with
    deployments := db.deployments ++ [⟨appId, revision.id, none, 1⟩] }
  have swaps : swapDeployment (insertRevision revision db) appId revision.id (some none) =
      .ok swapped := by
    rw [swapDeployment, notDeployed]
    rfl
  have unseeded : (swapped.records.any fun record => record.appId = app.id) = false := by
    rw [List.any_eq_false]
    intro record recordMem
    rw [appId_eq]
    simpa using noRecords record recordMem
  have consumes : consumeSeeds unicode (describeApp swapped appId revision) app revision true now =
      (do
        let seeded ← seedCodeAppRecords unicode (describeApp swapped appId revision) app.id
          app.userId (.obj (copiedManifest made capabilities)) revision.seedData now
        pure (seeded.updateRevision revision.id fun row => { row with seedAppliedAt := some now })) := by
    have isFirst : (true && !((describeApp swapped appId revision).records.any fun record =>
        record.appId = app.id)) = true := by
      change (true && !(swapped.records.any fun record => record.appId = app.id)) = true
      rw [unseeded]
      rfl
    rw [consumeSeeds, unapplied, if_neg (by decide), if_pos isFirst, manifest_eq]
  have sameApp : require (decide (revision.appId = appId))
      (CodeAppError.notFound "Revision was not found") = .ok () :=
    require_eq_ok.mpr (decide_eq_true ofApp)
  have code : require (decide (app.runtimeKind = .code))
      (CodeAppError.notFound "Code app was not found") = .ok () :=
    require_eq_ok.mpr (decide_eq_true isCode)
  have promotes : promoteRevision unicode (insertRevision revision db) appId revision.id
      (some none) now = consumeSeeds unicode (describeApp swapped appId revision) app revision true
        now := by
    rw [promoteRevision, stored]
    dsimp only
    rw [sameApp, promotable, appFound]
    change (require _ _ >>= _) = _
    rw [code]
    change (swapDeployment _ _ _ _ >>= _) = _
    rw [swaps, notDeployed]
    rfl
  have noneOfApp : ∀ record ∈ (describeApp swapped appId revision).records,
      record.appId ≠ app.id := by
    intro record recordMem
    rw [appId_eq]
    exact noRecords record recordMem
  rw [promotes, consumes, ← seedCodeAppRecords_iff few named valid small noneOfApp]
  constructor
  · apply raisesOnly_bind raisesOnly_seedCodeAppRecords
    intro seeded
    exact raisesOnly_ok _
  · constructor
    · rintro ⟨promoted, succeeds⟩
      rcases bind_eq_ok.mp succeeds with ⟨seeded, inserts, _⟩
      exact ⟨seeded, inserts⟩
    · rintro ⟨seeded, inserts⟩
      exact ⟨_, bind_eq_ok.mpr ⟨seeded, inserts, rfl⟩⟩

end Deployment

/-! ## The handoff -/

/-- The handoff of an app can be issued: an app of a group is a collaborative one. -/
def handsOff (db : AppsDb) (app : GeneratedApp) : Bool :=
  app.accessMode = .collaborativeLink ||
    !(db.conversation? app.conversationId).any fun row => row.kind = .group

section Handoff

variable {db settled : AppsDb} {app : GeneratedApp} {url raw : String} {now : Instant}

/-- The owner of an app outside of groups may issue any ticket. -/
theorem issueAccessTicket_of_owner {stored : GeneratedApp} {principal : Option Uuid}
    {role : GeneratedAppRole} {ttlSeconds : Int} (found : settled.app? app.id = some stored)
    (same : stored.access = app.access) (active : app.status = .active)
    (noGroup : (settled.conversation? app.conversationId).any (fun row => row.kind = .group) = false) :
    ∃ issued, issueAccessTicket settled app.id app.userId principal role ttlSeconds raw now =
      .ok issued := by
  simp only [GeneratedApp.access, Prod.mk.injEq] at same
  rcases same with ⟨_, userId_eq, conversation_eq, _, status_eq, _⟩
  have locked : lockedActiveApp settled app.id = .ok stored := by
    rw [lockedActiveApp, found]
    exact if_pos (status_eq.trans active)
  have claimed : unclaimedGroup settled stored = false := by
    rw [unclaimedGroup, conversation_eq]
    cases conversation : settled.conversation? app.conversationId with
    | none => rfl
    | some row =>
        rw [conversation, Option.any_some] at noGroup
        rw [Option.any_some, noGroup, Bool.false_and]
  have owner : authorizeUserForLockedApp settled stored app.userId =
      .ok ⟨.owner, some app.userId, none, true⟩ := by
    rw [authorizeUserForLockedApp, if_pos ⟨userId_eq, claimed⟩]
  refine ⟨persistAccessTicket settled app.id app.userId principal role ttlSeconds raw now, ?_⟩
  simp only [issueAccessTicket, bind_eq_ok, pure_eq_ok]
  exact ⟨stored, locked, _, owner, (), rfl, trivial⟩

/-- The ticket of a handoff is issued, or refused for an app of a group that is not
collaborative. -/
theorem issueHandoffTicket_cases (conversations : settled.conversations = db.conversations)
    (access : settled.apps.map GeneratedApp.access = db.apps.map GeneratedApp.access)
    (found : db.app? app.id = some app) (active : app.status = .active) :
    (handsOff db app = true ∧ ∃ issued, issueHandoffTicket settled app raw now = .ok issued) ∨
      (handsOff db app = false ∧ ∃ message,
        issueHandoffTicket settled app raw now = .error (.authorization message)) := by
  have sameConversation : settled.conversation? app.conversationId =
      db.conversation? app.conversationId := by
    rw [AppsDb.conversation?, conversations]
    rfl
  have stored := access_of_app? access app.id
  rw [found, Option.map_some] at stored
  rcases Option.map_eq_some_iff.mp stored with ⟨row, rowFound, sameAccess⟩
  unfold issueHandoffTicket handsOff
  rw [← sameConversation]
  split
  · rename_i conversation inGroup
    rcases Option.filter_eq_some_iff.mp inGroup with ⟨conversationFound, isGroup⟩
    have ofApp : conversation.id = app.conversationId := by
      simpa using List.find?_some conversationFound
    rw [conversationFound, Option.any_some, isGroup]
    by_cases collaborative : app.accessMode = .collaborativeLink
    · apply Or.inl
      refine ⟨by rw [decide_eq_true collaborative]; rfl, ?_⟩
      refine ⟨persistAccessTicket settled app.id conversation.userId none .member
        maxAccessTicketTtlSeconds raw now, ?_⟩
      rw [issueTrustedGroupHandoffTicket, if_neg]
      rintro (other | other | other)
      · exact other ofApp
      · exact other (of_decide_eq_true isGroup)
      · exact other collaborative
    · apply Or.inr
      refine ⟨by rw [decide_eq_false collaborative]; rfl,
        "Trusted group handoff requires a collaborative group app", ?_⟩
      rw [issueTrustedGroupHandoffTicket, if_pos (Or.inr (Or.inr collaborative))]
  · rename_i noConversation
    have noGroup : (settled.conversation? app.conversationId).any (fun row => row.kind = .group) =
        false := by
      cases conversation : settled.conversation? app.conversationId with
      | none => rfl
      | some row =>
          rw [conversation] at noConversation
          cases isGroup : decide (row.kind = .group) with
          | false => exact isGroup
          | true =>
              rw [Option.filter_some, isGroup] at noConversation
              cases noConversation
    apply Or.inl
    rw [noGroup, Bool.not_false, Bool.or_true]
    refine ⟨rfl, ?_⟩
    split
    · exact issueAccessTicket_of_owner rowFound sameAccess active noGroup
    · exact issueAccessTicket_of_owner rowFound sameAccess active noGroup

/-- The address of an app has to be short where a ticket is issued. -/
theorem avoids_issueHandoff_iff (conversations : settled.conversations = db.conversations)
    (access : settled.apps.map GeneratedApp.access = db.apps.map GeneratedApp.access)
    (found : db.app? app.id = some app) (active : app.status = .active)
    (visible : Text.strip url.toList ≠ []) :
    Avoids IsValidation (issueHandoff settled app (some url) raw now) ↔
      (handsOff db app = true → (Text.strip url.toList).length ≤ 4000) := by
  rw [issueHandoff]
  have tickets : (handsOff db app = true ∧
        ∃ issued, issueHandoffTicket settled app raw now = .ok issued) ∨
      (handsOff db app = false ∧ ∃ message,
        issueHandoffTicket settled app raw now = .error (.authorization message)) :=
    issueHandoffTicket_cases conversations access found active
  rcases tickets with ⟨hands, issued, issues⟩ | ⟨hands, message, refuses⟩
  · have checks : RaisesOnly IsValidation
        (discard (text (.str url) "handoff_base_url" 4000) : Except CodeAppError PUnit) :=
      raisesOnly_discard (raisesOnly_text _ _ _)
    rw [avoids_bind_of_ok issues, checks.avoids_bind_iff]
    constructor
    · rintro ⟨_, read, _⟩ _
      rcases discard_eq_ok.mp read with ⟨clean, read⟩
      by_contra long
      unfold text at read
      dsimp only at read
      rw [if_neg (by simpa using visible), if_pos (Nat.lt_of_not_le long)] at read
      cases read
    · intro short
      have read : text (.str url) "handoff_base_url" 4000 = _ :=
        text_of_visible visible (short hands)
      exact ⟨PUnit.unit, discard_eq_ok.mpr ⟨_, read⟩, avoids_pure _⟩
  · constructor
    · intro _ handed
      rw [hands] at handed
      cases handed
    · intro _
      rw [refuses]
      apply avoids_error.mpr
      rintro ⟨message, other⟩
      cases other

end Handoff

end DotBackend.Builder
