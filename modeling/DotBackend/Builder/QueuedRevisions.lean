import DotBackend.Apps.Conformance
import DotBackend.Builder.Completions
import DotBackend.Builder.RevisionBlueprints

/-!
# Whether a queued revision can be built

The tools create and revise apps, workers build them and their owners use them, in any order.
In every state on the way, a revision that is queued has a blueprint that the builder
accepts exactly when it has a description.
-/

namespace DotBackend.Builder

open Data Channel Apps Agents Transition

variable {app : GeneratedApp} {job : GeneratedAppBuildJob}

/-! ## Calls of the tools -/

/-- A call of a tool that builds apps, or of the service. -/
inductive ToolCall
  | create (context : ToolContext) (arguments : Fields) (participants : List String)
      (appBaseUrl publicId raw : String)
  | revise (context : ToolContext) (arguments : Fields)
  | service (call : AppCall)

/-- The tables after a call at a time. -/
def ToolCall.run (platform : Platform) (db : AppsDb) (now : Instant) :
    ToolCall → Except ToolError AppsDb
  | create context arguments participants appBaseUrl publicId raw =>
      (createGeneratedApp platform db context arguments participants appBaseUrl publicId raw
        now).map fun created => created.2.2
  | revise context arguments =>
      (reviseCustomApp platform db context arguments now).map Prod.snd
  | service call => callService (call.run platform db now)

/-- One call of a run, at the time that its clock shows. -/
def toolStep (platform : Platform) (db : AppsDb) (event : ToolCall × Instant) : Option AppsDb :=
  (event.1.run platform db event.2).toOption

/-- A call of a tool, or of a part of the service that is modelled. -/
def ToolCall.isOwn : ToolCall → Bool
  | .service (.outside _) => false
  | _ => true

/-- The other parts of the service make no custom app, no revision and no build. -/
def buildsNothing (db : AppsDb) (event : ToolCall × Instant) : Prop :=
  ∀ change, event.1 = .service (.outside change) → KeepsTexts db (change db)

/-! ## What the tools keep -/

/-- The blueprint that a later revision inherits from a request. -/
def requestedBlueprint (request : Fields) : Fields :=
  jsonObject (some ((Json.lookup request "blueprint").getD (.obj request)))

/-- The texts of custom apps are clean, and their builds have known layouts and accents. -/
structure ToolMade (db : AppsDb) : Prop where
  texts : ∀ entry ∈ db.descriptions, CleanTexts entry
  styles : ∀ request ∈ db.requests, Styled (requestedBlueprint request)

section ToolMade

variable {platform : Platform} {unicode : Unicode} {db after : AppsDb} {now : Instant}
  {context : ToolContext} {arguments : Fields}

theorem ToolMade.of_keeps (toolMade : ToolMade db) (keeps : KeepsTexts db after) :
    ToolMade after where
  texts entry entryMem := toolMade.texts entry (keeps.descriptions entryMem)
  styles request requestMem := toolMade.styles request (keeps.requests requestMem)

/-- The blueprint that the active revision was built from. -/
theorem ToolMade.styled_activeBlueprint (toolMade : ToolMade db) (appId revisionId : Uuid) :
    Styled (activeBlueprint db appId revisionId) := by
  unfold activeBlueprint
  dsimp only
  split
  · exact styled_nil
  · rename_i job found
    have selected := Table.mem_orderBy.mp (List.mem_of_head? found)
    exact toolMade.styles _ (List.mem_map_of_mem (List.mem_of_mem_filter selected))

/-! ## Creating -/

theorem appAccent_mem {visualDirection : Json} {accent : String}
    (chosen : appAccent unicode visualDirection = .ok accent) : accent ∈ accents := by
  unfold appAccent at chosen
  split at chosen
  · rename_i direction
    cases chosen
    cases found : palette.find? fun entry =>
        Text.occurs entry.1.toList (Text.casefold unicode direction.toList) with
    | none => decide
    | some entry =>
        have colours : ∀ entry ∈ palette, entry.2 ∈ accents := by decide
        exact colours entry (List.mem_of_find?_eq_some found)
  · cases chosen

/-- The request of a first build has the layout and the accent that the tool chose. -/
theorem styled_of_creationOf {participants : List String} {appBaseUrl : String}
    {creation : CreationRequest}
    (creates : creationOf platform db context arguments participants appBaseUrl = .ok creation) :
    Styled (requestedBlueprint creation.request) := by
  unfold creationOf at creates
  split at creates
  · cases creates
  · simp only [bind_eq_ok, pure_eq_ok] at creates
    rcases creates with ⟨_, _, _, _, _, _, _, _, accent, chosen, _, _, rfl⟩
    exact styled_of_known (rfl : _ = Json.str "custom_workspace") (by decide)
      (rfl : _ = Json.str accent) (appAccent_mem chosen)

theorem toolMade_insertApp {tickets : List GeneratedAppAccessTicket} (toolMade : ToolMade db)
    (texts : CleanTexts (app.title, app.description))
    (styled : Styled (requestedBlueprint job.request)) :
    ToolMade { insertApp app job db with tickets := tickets } where
  texts := by
    intro entry entryMem
    rcases List.mem_append.mp entryMem with ofApp | ofRevision
    · rcases List.mem_map.mp ofApp with ⟨stored, storedMem, rfl⟩
      rcases List.mem_filter.mp storedMem with ⟨storedMem, isCode⟩
      rcases List.mem_append.mp storedMem with oldMem | newMem
      · exact toolMade.texts _ (mem_descriptions_of_app oldMem (of_decide_eq_true isCode))
      · rw [List.mem_singleton.mp newMem]
        exact texts
    · exact toolMade.texts _ (List.mem_append_right _ ofRevision)
  styles := by
    intro request requestMem
    rcases List.mem_map.mp requestMem with ⟨stored, storedMem, rfl⟩
    rcases List.mem_append.mp storedMem with oldMem | newMem
    · exact toolMade.styles _ (List.mem_map_of_mem oldMem)
    · rw [List.mem_singleton.mp newMem]
      exact styled

theorem toolMade_createGeneratedApp {participants : List String}
    {appBaseUrl publicId raw : String} (toolMade : ToolMade db)
    (created : createGeneratedApp platform db context arguments participants appBaseUrl publicId
      raw now = .ok (app, job, after)) : ToolMade after := by
  simp only [createGeneratedApp, bind_eq_ok] at created
  rcases created with ⟨creation, creates, called⟩
  rcases createCodeAppBuild_eq_ok (callService_eq_ok.mp called) with ⟨rfl, _⟩ |
    ⟨accessMode, key, hash, title, description, tickets, titled, described, _, rfl, rfl, rfl⟩
  · exact toolMade
  · apply toolMade_insertApp toolMade
    · exact ⟨clean_of_text titled, clean_of_optionalText (by decide) described⟩
    · exact styled_of_creationOf creates

/-! ## Revising -/

/-- The app that a revision is asked for, and the blueprint that is queued for it. -/
theorem revises_of_queueOwned {request : OwnedRevisionRequest} (toolMade : ToolMade db)
    (queued : queueOwnedCodeAppRevision unicode db request now = .ok (job, after)) :
    after = db ∨ ∃ app, ∃ content : RevisionContent, db.app? request.appId = some app ∧
      content.Fits ∧ CleanTexts (app.title, app.description) ∧
        (content.description = "" ∨ Text.Clean 500 content.description.toList) ∧
          (content.description = "" ↔
            Text.strip (givenDescription app request.description).toList = []) ∧
          Json.lookup job.request "blueprint" = some (.obj content.blueprint) ∧
            job.appId = request.appId ∧ after = insertJob job db := by
  rcases queueOwnedCodeAppRevision_eq_ok queued with same |
    ⟨owned, revision, intended, key, hash, gets, active, intends, request_eq, appId_eq, after_eq⟩
  · exact Or.inl same
  · apply Or.inr
    simp only [getOwnedCodeApp, bind_eq_ok, pure_eq_ok] at gets
    rcases gets with ⟨app, locked, _, _, _, _, rfl⟩
    have found := lockedCodeApp_eq_ok locked
    have texts := toolMade.texts _
      (mem_descriptions_of_app (List.mem_of_find?_eq_some found) (lockedCodeApp_isCode locked))
    rcases content_of_intendedRevision intends texts (toolMade.styled_activeBlueprint _ _) with
      ⟨content, blueprint_eq, fits, described, empty⟩
    refine ⟨app, content, found, fits, texts, described, empty, ?_, appId_eq, after_eq⟩
    rw [request_eq, ← blueprint_eq]
    rfl

theorem requestedBlueprint_of_lookup {request blueprint : Fields}
    (found : Json.lookup request "blueprint" = some (.obj blueprint)) :
    requestedBlueprint request = blueprint := by
  rw [requestedBlueprint, found]
  rfl

theorem claimBlueprint_of_lookup {request blueprint : Fields}
    (found : Json.lookup request "blueprint" = some (.obj blueprint)) :
    claimBlueprint request = blueprint := by
  rw [claimBlueprint, found]
  rfl

theorem toolMade_insertJob (toolMade : ToolMade db)
    (styled : Styled (requestedBlueprint job.request)) : ToolMade (insertJob job db) where
  texts := toolMade.texts
  styles := by
    intro request requestMem
    rcases List.mem_map.mp requestMem with ⟨stored, storedMem, rfl⟩
    rcases List.mem_append.mp storedMem with oldMem | newMem
    · exact toolMade.styles _ (List.mem_map_of_mem oldMem)
    · rw [List.mem_singleton.mp newMem]
      exact styled

theorem toolMade_queueOwned {request : OwnedRevisionRequest} (toolMade : ToolMade db)
    (queued : queueOwnedCodeAppRevision unicode db request now = .ok (job, after)) :
    ToolMade after := by
  rcases revises_of_queueOwned toolMade queued with rfl |
    ⟨_, content, _, fits, _, _, _, found, _, rfl⟩
  · exact toolMade
  · apply toolMade_insertJob toolMade
    rw [requestedBlueprint_of_lookup found]
    exact styled_of_known rfl fits.layout rfl fits.accent

/-! ## Building and using -/

theorem cleanTexts_newRevision {result : BuildResult} {revision : GeneratedAppRevision}
    (made : newRevision db app job result = .ok revision) :
    CleanTexts (revision.title, revision.description) := by
  simp only [newRevision, bind_eq_ok, pure_eq_ok] at made
  rcases made with ⟨title, titled, description, described, _, _, _, _, _, _, rfl⟩
  exact ⟨clean_of_text titled, clean_of_optionalText (by decide) described⟩

theorem toolMade_completeBuild {result : BuildResult} {token : String} (toolMade : ToolMade db)
    (completed : completeBuild unicode db result token now = .ok after) : ToolMade after := by
  rcases texts_completeBuild completed with ⟨app, job, revision, made, texts, requests⟩
  constructor
  · intro entry entryMem
    rcases List.mem_cons.mp (texts entryMem) with rfl | oldMem
    · exact cleanTexts_newRevision made
    · exact toolMade.texts entry oldMem
  · rw [requests]
    exact toolMade.styles

/-- Every call of the service keeps what the tools made. -/
theorem toolMade_call {call : AppCall} (toolMade : ToolMade db)
    (allowed : ∀ change, call = .outside change → KeepsTexts db (change db))
    (ran : call.run platform db now = .ok after) : ToolMade after := by
  cases call with
  | mutate appId key request =>
      rcases map_snd_eq_ok ran with ⟨response, succeeded⟩
      rcases mutate_eq_ok succeeded with ⟨checked, _, ⟨_, _, rfl, _⟩ | ⟨_, performs⟩⟩
      · exact toolMade
      · simp only [perform, bind_eq_ok] at performs
        rcases performs with ⟨content, _, _, _, writes⟩
        exact toolMade.of_keeps (keepsTexts_write writes)
  | rollBack appId userId expectedActiveRevisionId =>
      rcases map_snd_eq_ok ran with ⟨response, succeeded⟩
      simp only [rollbackOwnedCodeApp, bind_eq_ok] at succeeded
      rcases succeeded with ⟨_, _, _, _, revisions, _, writes⟩
      exact toolMade.of_keeps (keepsTexts_writeRollback writes)
  | queueOwned request =>
      rcases map_snd_eq_ok ran with ⟨job, queued⟩
      exact toolMade_queueOwned toolMade queued
  | claim workerId leaseSeconds =>
      change claimNextBuild db workerId leaseSeconds now = .ok after at ran
      simp only [claimNextBuild, bind_eq_ok, pure_eq_ok] at ran
      rcases ran with ⟨clean, _, rfl⟩
      apply toolMade.of_keeps
      exact KeepsTexts.of_queueOnly (queueOnly_claimBuilds _) (requests_claimBuilds _)
  | complete result token => exact toolMade_completeBuild toolMade ran
  | fail failure =>
      apply toolMade.of_keeps
      exact KeepsTexts.of_queueOnly (queueOnly_failBuild ran) (requests_failBuild ran)
  | outside change =>
      cases ran
      exact toolMade.of_keeps (allowed change rfl)

end ToolMade

/-! ## Runs -/

section Runs

variable {platform : Platform} {start db after : AppsDb} {event : ToolCall × Instant}

/-- A call keeps what the tools made. -/
theorem toolMade_step (toolMade : ToolMade db) (allowed : buildsNothing db event)
    (stepped : toolStep platform db event = some after) : ToolMade after := by
  rcases event with ⟨call, now⟩
  have ran := ok_of_toOption stepped
  cases call with
  | create context arguments participants appBaseUrl publicId raw =>
      rcases map_eq_ok.mp ran with ⟨⟨app, job, created⟩, creates, rfl⟩
      exact toolMade_createGeneratedApp toolMade creates
  | revise context arguments =>
      rcases map_eq_ok.mp ran with ⟨⟨job, revised⟩, revises, rfl⟩
      simp only [reviseCustomApp, bind_eq_ok] at revises
      rcases revises with ⟨request, _, called⟩
      exact toolMade_queueOwned toolMade (callService_eq_ok.mp called)
  | service call =>
      apply toolMade_call toolMade _ (callService_eq_ok.mp ran)
      intro change isOutside
      exact allowed change (by rw [isOutside])

/-- No apps yet. -/
structure NoApps (db : AppsDb) : Prop where
  apps : db.apps = []
  revisions : db.revisions = []
  jobs : db.jobs = []

theorem toolMade_of_noApps (noApps : NoApps db) : ToolMade db where
  texts := by
    rw [AppsDb.descriptions, noApps.apps, noApps.revisions]
    intro entry none
    cases none
  styles := by
    rw [AppsDb.requests, noApps.jobs]
    intro request none
    cases none

theorem toolMade_of_run (noApps : NoApps start)
    (run : Run (toolStep platform) buildsNothing start db) : ToolMade db :=
  run.invariant ToolMade (fun _ _ _ toolMade allowed stepped => toolMade_step toolMade allowed stepped)
    (toolMade_of_noApps noApps)

end Runs

/-! ## Revisions that can be built -/

/-- The description that a call of the tool gives, or that of the app when there is none. -/
def revisionDescription (app : GeneratedApp) (arguments : Fields) : List Char :=
  match argument arguments "description" with
  | .str description => description.toList
  | _ => app.description.toList

section Acceptance

variable {platform : Platform} {start db after : AppsDb} {context : ToolContext}
  {arguments : Fields} {now : Instant} {job : GeneratedAppBuildJob}

theorem strip_strip_eq_nil (text : List Char) :
    Text.strip (Text.strip text) = [] ↔ Text.strip text = [] := by
  constructor
  · intro blank
    by_contra visible
    exact (Text.clean_strip visible (Nat.le_refl _)).strip_ne_nil blank
  · intro blank
    rw [blank]
    rfl

/-- The tool passes the description on. -/
theorem description_of_revisionOf {request : OwnedRevisionRequest} (app : GeneratedApp)
    (revises : revisionOf platform db context arguments = .ok request) :
    Text.strip (givenDescription app request.description).toList = [] ↔
      Text.strip (revisionDescription app arguments) = [] := by
  simp only [revisionOf, bind_eq_ok, pure_eq_ok] at revises
  rcases revises with ⟨_, _, _, _, _, _, description, read, _, _, _, _, _, _, _, _, _, _, rfl⟩
  unfold optionalStringArgument at read
  unfold revisionDescription givenDescription
  split at read
  · rename_i missing
    cases read
    rw [missing]
    rfl
  · rename_i given found
    simp only [bind_eq_ok, pure_eq_ok] at read
    rcases read with ⟨_, _, _, _, rfl⟩
    rw [found]
    change Text.strip (String.ofList (Text.strip given.toList)).toList = [] ↔ _
    rw [String.toList_ofList]
    exact strip_strip_eq_nil _
  · cases read

/-- In every state that the tools reach, the builder accepts the blueprint of a revision that
is queued exactly when the revision has a description. -/
theorem queued_revisions_parse (letters : Letters) (noApps : NoApps start)
    (run : Run (toolStep platform) buildsNothing start db)
    (queued : reviseCustomApp platform db context arguments now = .ok (job, after))
    {added : GeneratedAppBuildJob} (addedMem : added ∈ after.jobs) (new : added ∉ db.jobs) :
    ∃ app, db.app? added.appId = some app ∧
      ((∃ blueprint, fromMapping letters (claimBlueprint added.request) = .ok blueprint) ↔
        Text.strip (revisionDescription app arguments) ≠ []) := by
  simp only [reviseCustomApp, bind_eq_ok] at queued
  rcases queued with ⟨request, revises, called⟩
  rcases revises_of_queueOwned (toolMade_of_run noApps run) (callService_eq_ok.mp called) with
    rfl | ⟨app, content, found, fits, texts, described, empty, blueprint_eq, appId_eq, rfl⟩
  · exact absurd addedMem new
  · rcases List.mem_append.mp addedMem with oldMem | newMem
    · exact absurd oldMem new
    · rw [List.mem_singleton.mp newMem]
      refine ⟨app, (congrArg db.app? appId_eq).trans found, ?_⟩
      change (∃ blueprint, fromMapping letters (claimBlueprint job.request) = .ok blueprint) ↔ _
      rw [claimBlueprint_of_lookup blueprint_eq]
      constructor
      · rintro ⟨blueprint, accepted⟩ blank
        apply fromMapping_of_blank _ blueprint accepted
        exact empty.mpr ((description_of_revisionOf app revises).mpr blank)
      · intro visible
        apply fromMapping_of_fits fits
        apply described.resolve_left
        intro blank
        exact visible ((description_of_revisionOf app revises).mp (empty.mp blank))

end Acceptance

/-! ## A revision without a description -/

/-- An interpreter that also reads the empty object. -/
def objectPlatform : Platform where
  __ := Platform.ascii
  loads text := if text = "\x7b\x7d".toList then some (.obj []) else none

/-- A user with a conversation, and no app. -/
def newUser : AppsDb where
  __ := AppsDb.empty
  users := [7]
  conversations := [⟨2, 7, .direct, none, .auto, none, true⟩]
  nextId := 10

/-- The user speaks. -/
def userContext : ToolContext := ⟨7, 2, none, none, none⟩

/-- An app without entities and without a description. -/
def creationArguments : Fields :=
  [("title", .str "Habits"), ("description", .str ""), ("purpose", .str "habits"),
    ("entities", .arr []), ("capabilities", .arr []), ("seed_data", .str "\x7b\x7d"),
    ("visual_direction", .str "sage"), ("product_brief", .str "a list"),
    ("access_mode", .str "private_link")]

/-- What a worker hands in for the first build. -/
def firstBuild : BuildResult where
  __ := habitBuild 11
  manifest := .obj (toolManifest [] [])

/-- The app is created and built. -/
def createdApp : List (ToolCall × Instant) :=
  [(.create userContext creationArguments [] "" "habits" "", 0),
    (.service (.claim "a" 60), 0), (.service (.complete firstBuild ""), 0)]

/-- The owner asks for streaks. -/
def revisionArguments (description : String) : Fields :=
  [("app_id", uuidJson 10), ("change_request", .str "streaks"),
    ("description", .str description)]

/-- Both descriptions are queued for an app that the tools made. -/
theorem habit_revisions_queued :
    ∃ db, Run (toolStep objectPlatform) buildsNothing newUser db ∧
      ∀ description ∈ ["", "Counted"], ∃ job after,
        reviseCustomApp objectPlatform db userContext (revisionArguments description) 0 =
            .ok (job, after) ∧ job ∈ after.jobs ∧ job ∉ db.jobs ∧
          (fromMapping Letters.ascii (claimBlueprint job.request)).isOk = !description.isEmpty := by
  have unkeyed : agentToolIdempotencyKey userContext = none := rfl
  have digest : isDigest (String.ofList (List.replicate 64 '0')) = true := by decide
  have runs : (execute (toolStep objectPlatform) (fun _ event => event.1.isOwn) newUser
      createdApp).any (fun db => ["", "Counted"].all fun description =>
        (reviseCustomApp objectPlatform db userContext (revisionArguments description)
          0).toOption.any fun made => made.1 ∈ made.2.jobs ∧ made.1 ∉ db.jobs ∧
            (fromMapping Letters.ascii (claimBlueprint made.1.request)).isOk =
              !description.isEmpty) = true := by
    simp only [createdApp, execute, toolStep, ToolCall.run,
      createGeneratedApp_unkeyed digest unkeyed, reviseCustomApp_unkeyed digest unkeyed]
    decide +kernel
  simp only [Option.any_eq_true, List.all_eq_true] at runs
  rcases runs with ⟨db, toDb, queued⟩
  refine ⟨db, (run_of_execute toDb).mono ?_, ?_⟩
  · rintro before event own change isOutside
    rw [isOutside] at own
    cases own
  · intro description descriptionMem
    rcases queued description descriptionMem with ⟨⟨job, after⟩, revises, holds⟩
    exact ⟨job, after, ok_of_toOption revises, of_decide_eq_true holds⟩

/-- A revision without a description is queued, and cannot be built. -/
theorem blank_description_is_queued :
    ∃ db, Run (toolStep objectPlatform) buildsNothing newUser db ∧ ∃ job after,
      reviseCustomApp objectPlatform db userContext (revisionArguments "") 0 = .ok (job, after) ∧
        job ∈ after.jobs ∧ job ∉ db.jobs ∧
          ∀ blueprint, fromMapping Letters.ascii (claimBlueprint job.request) ≠ .ok blueprint := by
  rcases habit_revisions_queued with ⟨db, run, queued⟩
  rcases queued "" List.mem_cons_self with ⟨job, after, revises, jobMem, new, refused⟩
  refine ⟨db, run, job, after, revises, jobMem, new, ?_⟩
  intro blueprint accepted
  rw [accepted] at refused
  cases refused

/-- A revision with a description can be built. -/
theorem described_revision_parses :
    ∃ db, Run (toolStep objectPlatform) buildsNothing newUser db ∧ ∃ job after,
      reviseCustomApp objectPlatform db userContext (revisionArguments "Counted") 0 =
          .ok (job, after) ∧
        ∃ blueprint, fromMapping Letters.ascii (claimBlueprint job.request) = .ok blueprint := by
  rcases habit_revisions_queued with ⟨db, run, queued⟩
  rcases queued "Counted" (by decide) with ⟨job, after, revises, jobMem, new, _⟩
  rcases queued_revisions_parse Letters.ascii ⟨rfl, rfl, rfl⟩ run revises jobMem new with
    ⟨app, _, parses⟩
  have visible : Text.strip "Counted".toList ≠ [] := by decide
  exact ⟨db, run, job, after, revises, parses.mpr visible⟩

end DotBackend.Builder
