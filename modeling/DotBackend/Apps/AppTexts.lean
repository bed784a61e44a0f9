import DotBackend.Apps.Calls
import DotBackend.Apps.Promotion
import DotBackend.Data.CleanText

/-!
# Where the texts of apps come from

A text that the service accepted is clean, or empty where it may be. The titles and
descriptions of apps and revisions, and the requests of builds, over the calls of the service:
a build that completes makes one revision of its request, a revision that is queued adds one
request, and nothing else adds any.
-/

namespace DotBackend.Apps

open Data Channel Transition

/-! ## Clean texts -/

section Texts

variable {value : Json} {field s : String} {bound : Nat}

theorem clean_of_text (accepted : text value field bound = .ok s) : Text.Clean bound s.toList := by
  unfold text at accepted
  split at accepted
  · dsimp only at accepted
    split at accepted
    · cases accepted
    · rename_i visible
      split at accepted
      · cases accepted
      · rename_i fits
        cases accepted
        rw [String.toList_ofList]
        apply Text.clean_strip
        · simpa using visible
        · exact Nat.not_lt.mp fits
  · cases accepted

theorem clean_of_optionalText (positive : 0 < bound) (accepted : optionalText value bound = .ok s) :
    s = "" ∨ Text.Clean bound s.toList := by
  unfold optionalText at accepted
  split at accepted
  · cases accepted
    exact Or.inl rfl
  · rename_i raw
    cases accepted
    by_cases blank : Text.strip raw.toList = []
    · rw [blank, List.take_nil]
      exact Or.inl rfl
    · rw [String.toList_ofList]
      exact Or.inr (Text.clean_take_strip positive blank)
  · cases accepted

/-- A text that is cut is blank only when it was. -/
theorem optionalText_eq_empty (positive : 0 < bound) {raw : String}
    (accepted : optionalText (.str raw) bound = .ok s) :
    s = "" ↔ Text.strip raw.toList = [] := by
  cases accepted
  constructor
  · intro empty
    by_contra visible
    have clean := Text.clean_take_strip positive visible
    rw [← String.toList_ofList (l := (Text.strip raw.toList).take bound), empty] at clean
    exact absurd clean.1 (by decide)
  · intro blank
    rw [blank, List.take_nil]

theorem clean_fallbackText {fallback : String} (positive : 0 < bound)
    (clean : Text.Clean bound fallback.toList) :
    Text.Clean bound (fallbackText value fallback bound).toList := by
  unfold fallbackText
  split
  · rename_i raw
    dsimp only
    split
    · exact clean
    · rename_i visible
      rw [String.toList_ofList]
      apply Text.clean_take_strip positive
      simpa using visible
  · exact clean

end Texts

/-! ## Titles, descriptions and requests -/

/-- The titles and descriptions of custom apps and of revisions. -/
def AppsDb.descriptions (db : AppsDb) : List (String × String) :=
  (db.apps.filter fun app => app.runtimeKind = .code).map (fun app => (app.title, app.description))
    ++ db.revisions.map fun revision => (revision.title, revision.description)

/-- The requests of builds. -/
def AppsDb.requests (db : AppsDb) : List Fields :=
  db.jobs.map GeneratedAppBuildJob.request

/-- No text is new. -/
structure KeepsTexts (before after : AppsDb) : Prop where
  descriptions : after.descriptions ⊆ before.descriptions
  requests : after.requests ⊆ before.requests

namespace KeepsTexts

variable {before middle after : AppsDb}

theorem trans (first : KeepsTexts before middle) (second : KeepsTexts middle after) :
    KeepsTexts before after :=
  ⟨List.Subset.trans second.descriptions first.descriptions,
    List.Subset.trans second.requests first.requests⟩

theorem of_eq (apps : after.apps = before.apps) (revisions : after.revisions = before.revisions)
    (requests : after.requests = before.requests) : KeepsTexts before after where
  descriptions := by
    rw [AppsDb.descriptions, apps, revisions]
    exact List.Subset.refl _
  requests := by
    rw [requests]
    exact List.Subset.refl _

theorem of_queueOnly (only : QueueOnly before after) (requests : after.requests = before.requests) :
    KeepsTexts before after :=
  of_eq only.apps only.revisions requests

end KeepsTexts

section Steps

variable {platform : Platform} {unicode : Unicode} {db after : AppsDb} {appId : Uuid}
  {now : Instant} {checked : Checked} {response : MutationResponse}

theorem mem_descriptions_of_revision {revision : GeneratedAppRevision}
    (revisionMem : revision ∈ db.revisions) :
    (revision.title, revision.description) ∈ db.descriptions :=
  List.mem_append_right _ (List.mem_map_of_mem revisionMem)

theorem mem_descriptions_of_app {app : GeneratedApp} (appMem : app ∈ db.apps)
    (isCode : app.runtimeKind = .code) : (app.title, app.description) ∈ db.descriptions := by
  apply List.mem_append_left
  apply List.mem_map.mpr
  exact ⟨app, List.mem_filter.mpr ⟨appMem, decide_eq_true isCode⟩, rfl⟩

/-! ## Promotions -/

theorem keepsTexts_describeApp {revision : GeneratedAppRevision}
    (revisionMem : revision ∈ db.revisions) : KeepsTexts db (describeApp db appId revision) where
  descriptions := by
    intro entry entryMem
    rcases List.mem_append.mp entryMem with ofApp | ofRevision
    · rcases List.mem_map.mp ofApp with ⟨app, appMem, rfl⟩
      rcases List.mem_filter.mp appMem with ⟨stored, isCode⟩
      rcases Table.mem_update_cases stored with ⟨old, _, _, rfl⟩ | ⟨oldMem, _⟩
      · exact mem_descriptions_of_revision revisionMem
      · exact mem_descriptions_of_app oldMem (of_decide_eq_true isCode)
    · exact List.mem_append_right _ ofRevision
  requests := List.Subset.refl _

/-- A promotion gives an app the texts of a revision. -/
theorem keepsTexts_promoteRevision {revisionId : Uuid} {expected : Option (Option Uuid)}
    (promotes : promoteRevision unicode db appId revisionId expected now = .ok after) :
    KeepsTexts db after := by
  rcases promoteRevision_eq_ok promotes with ⟨revision, found, promoted⟩
  have describes : KeepsTexts db (describeApp db appId revision) :=
    keepsTexts_describeApp (List.mem_of_find?_eq_some found)
  have texts : ∀ revisions : List GeneratedAppRevision,
      revisions.map (fun revision => (revision.title, revision.description)) =
        (revisions.map GeneratedAppRevision.unmarked).map
          fun revision => (revision.title, revision.description) := by
    intro revisions
    rw [List.map_map]
    rfl
  constructor
  · have same : after.descriptions = (describeApp db appId revision).descriptions := by
      rw [AppsDb.descriptions, promoted.apps, texts, promoted.revisions, ← texts]
      rfl
    rw [same]
    exact describes.descriptions
  · rw [AppsDb.requests, (promotes_promoteRevision promotes).jobs]
    exact List.Subset.refl _

/-! ## Mutations -/

theorem jobs_writeReminder {reminder : CleanReminder} {handle : String}
    (writes : writeReminder platform appId reminder handle now checked db = .ok (response, after)) :
    after.jobs = db.jobs := by
  unfold writeReminder at writes
  split at writes
  · cases writes
  · simp only [bind_eq_ok, pure_eq_ok] at writes
    rcases writes with ⟨⟨direct, resolved⟩, resolves, ⟨task, created⟩, creates, same⟩
    cases same
    have resolvedJobs : resolved.jobs = db.jobs := by
      unfold resolveDirectConversation at resolves
      split at resolves
      · cases resolves
        rfl
      · split at resolves
        · cases resolves
          rfl
        · cases resolves
    have createdJobs : created.jobs = resolved.jobs := by
      unfold createScheduledTask at creates
      split at creates
      · cases creates
        rfl
      · simp only [bind_eq_ok, pure_eq_ok] at creates
        rcases creates with ⟨_, _, _, _, _, _, same⟩
        cases same
        rfl
    exact createdJobs.trans resolvedJobs

theorem keepsTexts_writeRollback {userId : Uuid}
    {revisions : GeneratedAppRevision × GeneratedAppRevision} {keyed : Option Checked}
    (writes : writeRollback unicode appId userId revisions now keyed db = .ok (response, after)) :
    KeepsTexts db after := by
  rcases writeRollback_eq_ok writes with ⟨promoted, _, _, _, promotes, _, _, _, _, rfl⟩
  apply (keepsTexts_promoteRevision promotes).trans
  exact KeepsTexts.of_eq rfl rfl rfl

theorem keepsTexts_write {request : MutationRequest} {content : request.Content}
    (writes : request.write platform appId now checked db content = .ok (response, after)) :
    KeepsTexts db after := by
  cases request with
  | createRecord actor name data =>
      cases writes
      exact KeepsTexts.of_eq rfl rfl rfl
  | updateRecord actor recordId expectedVersion data =>
      rcases writeUpdate_eq_ok writes with ⟨_, _, _, _, rfl⟩
      exact KeepsTexts.of_eq rfl rfl rfl
  | deleteRecord actor recordId expectedVersion =>
      rcases writeDelete_eq_ok writes with ⟨_, _, _, _, rfl⟩
      exact KeepsTexts.of_eq rfl rfl rfl
  | createReminder actor title goal runAt timezone recurrence handle =>
      have jobs := jobs_writeReminder writes
      rcases writeReminder_eq_ok writes with ⟨created, task, only, _, rfl⟩
      have scheduled : KeepsTexts db created := by
        apply KeepsTexts.of_eq only.apps only.revisions
        rw [AppsDb.requests, AppsDb.requests]
        exact congrArg _ jobs
      exact scheduled.trans (KeepsTexts.of_eq rfl rfl rfl)
  | rollBack userId expectedActiveRevisionId => exact keepsTexts_writeRollback writes

/-! ## Builds -/

theorem requests_updateJob (id : Uuid) {change : GeneratedAppBuildJob → GeneratedAppBuildJob}
    (keeps : ∀ job, (change job).request = job.request) :
    (db.updateJob id change).requests = db.requests :=
  Table.map_update_of_keeps GeneratedAppBuildJob.request keeps db.jobs

theorem requests_enqueueUserEvent (event : UserEvent) :
    (enqueueUserEvent event db).requests = db.requests := by
  rw [AppsDb.requests, enqueueUserEvent_jobs, AppsDb.requests]

theorem requests_terminalize {job : GeneratedAppBuildJob} :
    (terminalizeExhaustedBuildClaim job now db).requests = db.requests := by
  unfold terminalizeExhaustedBuildClaim
  dsimp only
  split
  · apply requests_updateJob
    intro job
    rfl
  · rw [requests_enqueueUserEvent]
    apply requests_updateJob
    intro job
    rfl

theorem requests_claimBuilds {workerId : String} {leaseSeconds : Int}
    (jobs : List GeneratedAppBuildJob) :
    (claimBuilds workerId leaseSeconds now jobs db).requests = db.requests := by
  induction jobs generalizing db with
  | nil => rfl
  | cons job rest ih =>
      unfold claimBuilds
      split
      · rw [ih, requests_terminalize]
      · apply requests_updateJob
        intro job
        rfl

theorem requests_failBuild {failure : BuildFailure}
    (failed : failBuild platform db failure now = .ok after) : after.requests = db.requests := by
  simp only [failBuild, bind_eq_ok] at failed
  rcases failed with ⟨job, _, settled⟩
  rcases settleFailure_eq_ok settled with ⟨_, rfl⟩ | ⟨_, app, _, rfl⟩
  · apply requests_updateJob
    intro job
    rfl
  · rw [requests_enqueueUserEvent]
    apply requests_updateJob
    intro job
    rfl

/-- A completed build adds the texts of one revision. -/
theorem texts_completeBuild {result : BuildResult} {token : String}
    (completed : completeBuild unicode db result token now = .ok after) :
    ∃ app job revision, newRevision db app job result = .ok revision ∧
      after.descriptions ⊆ (revision.title, revision.description) :: db.descriptions ∧
        after.requests = db.requests := by
  simp only [completeBuild, bind_eq_ok] at completed
  rcases completed with ⟨job, _, _, _, finished⟩
  rcases finishBuild_eq_ok finished with
    ⟨app, revision, promoted, issued, _, made, _, promotes, issues, rfl⟩
  refine ⟨app, job, revision, made, ?_, ?_⟩
  · have inserted : (insertRevision revision db).descriptions ⊆
        (revision.title, revision.description) :: db.descriptions := by
      intro entry entryMem
      rw [AppsDb.descriptions, insertRevision, List.map_append, ← List.append_assoc] at entryMem
      rcases List.mem_append.mp entryMem with old | new
      · exact List.mem_cons_of_mem _ old
      · rw [List.map_singleton, List.mem_singleton] at new
        rw [new]
        exact List.mem_cons_self
    rcases issueHandoff_frame issues with ⟨tickets, rfl⟩
    have same : (enqueueUserEvent ⟨app.userId, app.conversationId, .appBuildCompleted job.id,
        app.id⟩ { promoted.updateJob job.id (GeneratedAppBuildJob.succeededWith revision.id now) with
          tickets := tickets }).descriptions = promoted.descriptions := by
      unfold enqueueUserEvent
      split
      · rfl
      · rfl
    rw [same]
    exact List.Subset.trans (keepsTexts_promoteRevision promotes).descriptions inserted
  · rcases issueHandoff_frame issues with ⟨tickets, rfl⟩
    rw [requests_enqueueUserEvent]
    have updated : (promoted.updateJob job.id
        (GeneratedAppBuildJob.succeededWith revision.id now)).requests = promoted.requests := by
      apply requests_updateJob
      intro job
      rfl
    have promotedRequests : promoted.requests = db.requests := by
      rw [AppsDb.requests, (promotes_promoteRevision promotes).jobs]
      rfl
    exact updated.trans promotedRequests

/-- A revision that is queued adds its request. -/
theorem requests_queueCodeAppRevision {queue : QueueRequest} {job : GeneratedAppBuildJob}
    (queued : queueCodeAppRevision db queue now = .ok (job, after)) :
    after = db ∨ job.request = queue.request ∧ job.appId = queue.appId ∧
      after = insertJob job db := by
  simp only [queueCodeAppRevision, bind_eq_ok] at queued
  rcases queued with ⟨started, _, queued⟩
  cases started with
  | some replay =>
      cases queued
      exact Or.inl rfl
  | none =>
      simp only [bind_eq_ok] at queued
      rcases queued with ⟨made, makes, queued⟩
      split at queued
      · cases queued
        simp only [newJob, bind_eq_ok, pure_eq_ok] at makes
        rcases makes with ⟨_, _, _, _, rfl⟩
        exact Or.inr ⟨rfl, rfl, rfl⟩
      · simp only [bind_eq_ok, pure_eq_ok] at queued
        rcases queued with ⟨replay, _, same⟩
        cases same
        exact Or.inl rfl

/-- The request that an owner's revision queues. -/
theorem queueOwnedCodeAppRevision_eq_ok {request : OwnedRevisionRequest}
    {job : GeneratedAppBuildJob}
    (queued : queueOwnedCodeAppRevision unicode db request now = .ok (job, after)) :
    after = db ∨ ∃ owned revision intended key hash,
      getOwnedCodeApp db request.appId request.userId = .ok owned ∧
        owned.revision = some revision ∧
          intendedRevision unicode db owned revision request = .ok intended ∧
            job.request = (queueRequestOf request intended key hash).request ∧
              job.appId = request.appId ∧ after = insertJob job db := by
  simp only [queueOwnedCodeAppRevision, bind_eq_ok] at queued
  rcases queued with ⟨key, _, hash, _, owned, gets, queued⟩
  have intends : queueIntendedRevision unicode db owned request key hash now = .ok (job, after) →
      after = db ∨ ∃ owned revision intended key hash,
        getOwnedCodeApp db request.appId request.userId = .ok owned ∧
          owned.revision = some revision ∧
            intendedRevision unicode db owned revision request = .ok intended ∧
              job.request = (queueRequestOf request intended key hash).request ∧
                job.appId = request.appId ∧ after = insertJob job db := by
    intro intended
    unfold queueIntendedRevision at intended
    split at intended
    · cases intended
    · rename_i revision active
      simp only [bind_eq_ok] at intended
      rcases intended with ⟨intends, intended, passedOn⟩
      rcases requests_queueCodeAppRevision passedOn with same | ⟨request_eq, appId_eq, after_eq⟩
      · exact Or.inl same
      · exact Or.inr ⟨owned, revision, intends, key, hash, gets, active, intended, request_eq,
          appId_eq, after_eq⟩
  split at queued
  · split at queued
    · simp only [bind_eq_ok, pure_eq_ok] at queued
      rcases queued with ⟨_, _, same⟩
      cases same
      exact Or.inl rfl
    · exact intends queued
  · exact intends queued

end Steps

end DotBackend.Apps
