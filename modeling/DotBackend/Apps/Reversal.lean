import DotBackend.Apps.DeploymentHistory
import DotBackend.Data.Raises

/-!
# Rollbacks reverse each other

A rollback moves the revision that it replaces into the previous slot, so the next rollback
leads back to it. The revision that is active can always be deployed again: it was promoted
before, and the live records conform to it. The event of a rollback needs a key of its own.
-/

namespace DotBackend.Apps

open Data Transition

variable {revision : GeneratedAppRevision} {expectedActiveRevisionId expected : Uuid}
  {revisions : GeneratedAppRevision × GeneratedAppRevision} {app : GeneratedApp} {actor : AppActor}

variable {platform : Platform} {unicode : Unicode} {db after : AppsDb} {appId userId : Uuid}
  {now : Instant}

/-! ## Revisions that were promoted -/

/-- The artifact of a revision passes the gates of a promotion. -/
def GeneratedAppRevision.Promotable (revision : GeneratedAppRevision) : Prop :=
  validatePromotableCompiledArtifact revision.artifact revision.sdkVersion = .ok ()

/-- The revisions that are active can be promoted. -/
def ActivePromotable (db : AppsDb) : Prop :=
  ∀ appId deployment revision, db.deployment? appId = some deployment →
    db.revision? deployment.activeRevisionId = some revision → revision.Promotable

theorem promotable_of_unmarked {first second : GeneratedAppRevision}
    (same : first.unmarked = second.unmarked) (promotable : second.Promotable) :
    first.Promotable := by
  have artifact := congrArg GeneratedAppRevision.artifact same
  have sdkVersion := congrArg GeneratedAppRevision.sdkVersion same
  change first.artifact = second.artifact at artifact
  change first.sdkVersion = second.sdkVersion at sdkVersion
  rw [GeneratedAppRevision.Promotable, artifact, sdkVersion]
  exact promotable

/-- What is promoted can be promoted. -/
theorem promotable_of_promoteRevision {revisionId : Uuid} {expected : Option (Option Uuid)}
    (found : db.revision? revisionId = some revision)
    (promotes : promoteRevision unicode db appId revisionId expected now = .ok after) :
    revision.Promotable := by
  rw [promoteRevision, found] at promotes
  simp only [bind_eq_ok] at promotes
  rcases promotes with ⟨_, _, _, passes, _⟩
  exact passes

namespace ActivePromotable

theorem of_same (promotable : ActivePromotable db) (same : SameSchemas db after) :
    ActivePromotable after := by
  intro appId deployment revision
  rw [same.deployment?, same.revision?]
  exact promotable appId deployment revision

theorem insertRevision (promotable : ActivePromotable db) (deployed : Deployed db)
    (revision : GeneratedAppRevision) : ActivePromotable (insertRevision revision db) := by
  intro appId deployment active deploys found
  rcases deployed.active appId deployment deploys with ⟨row, isRow, _⟩
  have stillFound : (Apps.insertRevision revision db).revision? deployment.activeRevisionId =
      some row := revision?_insertRevision_of_some isRow
  cases stillFound.symm.trans found
  exact promotable appId deployment active deploys isRow

theorem promoted {expected : Option (Option Uuid)}
    (promotable : ActivePromotable db) (deployed : Deployed db)
    (found : db.revision? revision.id = some revision) (isPromotable : revision.Promotable)
    (promoted : Promoted unicode appId revision expected db after) : ActivePromotable after := by
  intro other deployment active deploys isActive
  by_cases isApp : other = appId
  · subst isApp
    cases promoted.deployment.symm.trans deploys
    rw [promotedDeployment_active] at isActive
    rcases exists_of_unmarked promoted.revisions found with ⟨later, isLater, unmarked⟩
    cases isLater.symm.trans isActive
    exact promotable_of_unmarked unmarked isPromotable
  · rw [promoted.others other isApp] at deploys
    rcases deployed.active other deployment deploys with ⟨row, isRow, _⟩
    rcases exists_of_unmarked promoted.revisions isRow with ⟨later, isLater, unmarked⟩
    cases isLater.symm.trans isActive
    exact promotable_of_unmarked unmarked (promotable other deployment row deploys isRow)

theorem completeBuild {result : BuildResult} {token : String} (promotable : ActivePromotable db)
    (deployed : Deployed db) (completed : completeBuild unicode db result token now = .ok after) :
    ActivePromotable after := by
  simp only [Apps.completeBuild, bind_eq_ok] at completed
  rcases completed with ⟨job, _, _, _, finished⟩
  rcases finishBuild_eq_ok finished with
    ⟨app, revision, middle, issued, _, made, _, promotes, issues, rfl⟩
  rcases newRevision_eq_ok made with ⟨isNext, ofApp, _, _, number⟩
  rcases promoteRevision_eq_ok promotes with ⟨row, found, promotion⟩
  have isStored := revision?_insertRevision deployed.known isNext
  cases isStored.symm.trans found
  have storedDeployed : Deployed (Apps.insertRevision revision db) := by
    apply deployed.insertRevision isNext
    rw [ofApp]
    exact number
  have afterPromotion := (promotable.insertRevision deployed revision).promoted storedDeployed
    isStored (promotable_of_promoteRevision isStored promotes) promotion
  have only := sameDeployments_settle
    ⟨app.userId, app.conversationId, .appBuildCompleted job.id, app.id⟩ _ issues
  exact afterPromotion.of_same only.apart.sameDeployments.toSameSchemas

theorem rollback {keyed : Option Checked}
    {response : MutationResponse}
    (promotable : ActivePromotable db) (deployed : Deployed db)
    (reads : readRollback db appId expectedActiveRevisionId = .ok revisions)
    (writes : writeRollback unicode appId userId revisions now keyed db = .ok (response, after)) :
    ActivePromotable after := by
  rcases readRollback_eq_ok reads with ⟨_, _, _, _, _, isTarget, _, _⟩
  rcases writeRollback_eq_ok writes with ⟨middle, _, _, _, promotes, _, _, _, _, rfl⟩
  rcases promoteRevision_eq_ok promotes with ⟨row, found, promotion⟩
  cases isTarget.symm.trans found
  have afterPromotion := promotable.promoted deployed isTarget
    (promotable_of_promoteRevision isTarget promotes) promotion
  exact afterPromotion.of_same ⟨rfl, rfl, le_refl _⟩

/-- Every call keeps the active revisions promotable. -/
theorem step {event : AppCall × Instant} (promotable : ActivePromotable db)
    (deployed : Deployed db) (allowed : apart db event)
    (stepped : callStep platform db event = some after) : ActivePromotable after := by
  cases callOutcome allowed stepped with
  | answered same => exact same ▸ promotable
  | @performed appId request checked response key _ _ performed =>
      simp only [perform, bind_eq_ok] at performed
      rcases performed with ⟨content, reads, _, _, writes⟩
      cases request with
      | createRecord actor name data =>
          cases writes
          exact promotable.of_same ⟨rfl, rfl, Nat.le_succ _⟩
      | updateRecord actor recordId expectedVersion data =>
          rcases writeUpdate_eq_ok writes with ⟨_, _, _, _, rfl⟩
          exact promotable.of_same ⟨rfl, rfl, le_refl _⟩
      | deleteRecord actor recordId expectedVersion =>
          rcases writeDelete_eq_ok writes with ⟨_, _, _, _, rfl⟩
          exact promotable.of_same ⟨rfl, rfl, le_refl _⟩
      | createReminder actor title goal runAt timezone recurrence handle =>
          rcases writeReminder_eq_ok writes with ⟨created, task, only, _, rfl⟩
          exact promotable.of_same ⟨only.revisions, only.deployments, only.supply⟩
      | rollBack userId expectedActiveRevisionId => exact promotable.rollback deployed reads writes
  | rolledBack reads writes => exact promotable.rollback deployed reads writes
  | completed completed => exact promotable.completeBuild deployed completed
  | apart apart => exact promotable.of_same apart.sameDeployments.toSameSchemas

end ActivePromotable

/-- What holds in every state that calls reach. -/
structure AppsSound (unicode : Unicode) (db : AppsDb) : Prop where
  deployed : Deployed db
  conform : RecordsConform unicode db
  promotable : ActivePromotable db

namespace AppsSound

theorem of_empty (noRevisions : db.revisions = []) (noDeployments : db.deployments = [])
    (noRecords : db.records = []) : AppsSound unicode db where
  deployed := Deployed.of_empty noRevisions noDeployments
  conform := RecordsConform.of_empty noRevisions noRecords
  promotable := by
    intro appId deployment revision deploys
    rw [AppsDb.deployment?, noDeployments] at deploys
    cases deploys

theorem run {initial : AppsDb} (sound : AppsSound platform.toUnicode initial)
    (run : Run (callStep platform) apart initial db) : AppsSound platform.toUnicode db :=
  run.invariant (AppsSound platform.toUnicode)
    (fun _ _ _ sound allowed stepped => {
      deployed := (sound.deployed.step allowed stepped).1
      conform := sound.conform.step allowed stepped
      promotable := sound.promotable.step sound.deployed allowed stepped }) sound

end AppsSound

/-! ## One rollback -/

/-- What a rollback makes of the tables. -/
structure RolledBack (appId : Uuid) (deployment : GeneratedAppDeployment)
    (replaced target : GeneratedAppRevision) (db after : AppsDb) : Prop where
  current : db.deployment? appId = some deployment
  isActive : db.revision? deployment.activeRevisionId = some replaced
  isPrevious : deployment.previousRevisionId = some target.id
  isTarget : db.revision? target.id = some target
  idle : (db.jobs.all fun job => job.appId ≠ appId || !job.isLive) = true
  pointer : after.deployment? appId = some (deployment.swappedTo target.id)
  described : (after.app? appId).map GeneratedApp.described = some target.describes
  revisions : after.revisions.map GeneratedAppRevision.unmarked =
    db.revisions.map GeneratedAppRevision.unmarked
  records : after.records = db.records
  conversations : after.conversations = db.conversations
  memberships : after.memberships = db.memberships
  jobs : after.jobs = db.jobs
  access : after.apps.map GeneratedApp.access = db.apps.map GeneratedApp.access

theorem idle_of_readRollback
    (reads : readRollback db appId expectedActiveRevisionId = .ok revisions) :
    (db.jobs.all fun job => job.appId ≠ appId || !job.isLive) = true := by
  unfold readRollback at reads
  split at reads
  · cases reads
  · simp only [bind_eq_ok, require_eq_ok] at reads
    rcases reads with ⟨_, _, _, idle, _⟩
    exact idle

theorem rolledBack_of_writes {keyed : Option Checked}
    {response : MutationResponse}
    (deployed : Deployed db)
    (reads : readRollback db appId expectedActiveRevisionId = .ok revisions)
    (writes : writeRollback unicode appId userId revisions now keyed db = .ok (response, after)) :
    ∃ deployment, RolledBack appId deployment revisions.1 revisions.2 db after ∧
      deployment.activeRevisionId = expectedActiveRevisionId := by
  rcases readRollback_eq_ok reads with
    ⟨deployment, current, isExpected, isPrevious, isActive, isTarget, _, _⟩
  rcases writeRollback_eq_ok writes with ⟨promoted, app, _, _, promotes, foundApp, _, _, _, rfl⟩
  rcases promoteRevision_eq_ok promotes with ⟨row, found, promotion⟩
  cases isTarget.symm.trans found
  have notActive := (deployed.previous appId deployment _ current isPrevious).1
  have frame := promotes_promoteRevision promotes
  have described : (describeApp db appId revisions.2).app? appId = some app := by
    rw [← foundApp, AppsDb.app?, AppsDb.app?, promotion.apps]
  rw [app?_describeApp, if_pos rfl, Option.map_eq_some_iff] at described
  refine ⟨deployment, ?_, isExpected⟩
  exact {
    current := current
    isActive := isActive
    isPrevious := isPrevious
    isTarget := isTarget
    idle := idle_of_readRollback reads
    pointer := by
      change promoted.deployment? appId = _
      rw [promotion.deployment, current, promotedDeployment, if_neg (Ne.symm notActive)]
    described := by
      change (promoted.app? appId).map GeneratedApp.described = _
      rcases described with ⟨_, _, rfl⟩
      rw [foundApp]
      rfl
    revisions := promotion.revisions
    records := by
      by_contra changed
      cases current.symm.trans (promotion.seeded changed).1
    conversations := frame.conversations
    memberships := frame.memberships
    jobs := frame.jobs
    access := frame.access }

/-! ## The next rollback -/

theorem exists_rollbackHash (revisionId : Uuid) : ∃ hash, rollbackHash revisionId = .ok hash := by
  rw [rollbackHash, idempotencyRequestHash]
  exact ⟨_, if_pos rfl⟩

/-- A revision of a deployed app that can be promoted is promoted. -/
theorem exists_promoteRevision (found : db.revision? revision.id = some revision)
    (ofApp : revision.appId = appId)
    (promotable : revision.Promotable) (foundApp : db.app? appId = some app)
    (isCode : app.runtimeKind = .code) {deployment : GeneratedAppDeployment}
    (deploys : db.deployment? appId = some deployment) :
    ∃ after, promoteRevision unicode db appId revision.id none now = .ok after := by
  have swaps : ∃ swapped, swapDeployment db appId revision.id none = .ok swapped := by
    rw [swapDeployment, deploys]
    by_cases isActive : deployment.activeRevisionId = revision.id
    · exact ⟨db, by simp [isActive]⟩
    · exact ⟨_, by simp [isActive]; rfl⟩
  rcases swaps with ⟨swapped, swaps⟩
  have consumes : ∃ after, consumeSeeds unicode (describeApp swapped appId revision) app revision
      (db.deployment? appId).isNone now = .ok after := by
    rw [deploys, consumeSeeds]
    by_cases isApplied : revision.seedAppliedAt.isSome = true
    · exact ⟨_, if_pos isApplied⟩
    · rw [if_neg isApplied]
      exact ⟨_, if_neg (by simp)⟩
  rcases consumes with ⟨after, consumes⟩
  refine ⟨after, ?_⟩
  rw [promoteRevision, found]
  simp only [bind_eq_ok, require_eq_ok, decide_eq_true_eq]
  refine ⟨(), ofApp, (), promotable, ?_⟩
  rw [foundApp]
  simp only [bind_eq_ok, require_eq_ok, decide_eq_true_eq]
  exact ⟨(), isCode, swapped, swaps, consumes⟩

namespace RolledBack

variable {deployment : GeneratedAppDeployment} {replaced target : GeneratedAppRevision}

/-- The app is there as it was, but for its description. -/
theorem exists_app (rolled : RolledBack appId deployment replaced target db after)
    (found : db.app? appId = some app) :
    ∃ later, after.app? appId = some later ∧ later.access = app.access := by
  have same := access_of_app? rolled.access appId
  rw [found, Option.map_some, Option.map_eq_some_iff] at same
  exact same

/-- Whoever could roll back can do it again. -/
theorem authorizeRollback (rolled : RolledBack appId deployment replaced target db after)
    (authorised : authorizeRollback db appId userId = .ok actor) :
    Apps.authorizeRollback after appId userId = .ok actor := by
  simp only [Apps.authorizeRollback, bind_eq_ok, require_eq_ok, pure_eq_ok] at authorised ⊢
  rcases authorised with ⟨app, locked, _, authorised, _, isOwner, rfl⟩
  have found := lockedCodeApp_eq_ok locked
  rcases rolled.exists_app found with ⟨later, isLater, access⟩
  simp only [GeneratedApp.access, Prod.mk.injEq] at access
  rcases access with ⟨sameId, sameUser, sameConversation, _, sameStatus, sameKind⟩
  have lockedLater : lockedCodeApp after appId = .ok later := by
    have isActive := lockedCodeApp_active locked
    have isCode := lockedCodeApp_isCode locked
    rw [← sameStatus] at isActive
    rw [← sameKind] at isCode
    rw [lockedCodeApp, lockedActiveApp, isLater]
    simp only [isActive, if_true]
    simp [bind, Except.bind, require, isCode, pure, Except.pure]
  have sameActor : authorizeUserForLockedApp after later userId =
      authorizeUserForLockedApp db app userId := by
    have sameGroup : unclaimedGroup after later = unclaimedGroup db app := by
      simp only [unclaimedGroup, AppsDb.conversation?, rolled.conversations, sameConversation]
    rw [authorizeUserForLockedApp, sameGroup, sameUser, sameId, rolled.memberships]
    rfl
  refine ⟨later, lockedLater, _, sameActor.trans authorised, (), ?_, rfl⟩
  rw [sameUser]
  exact isOwner

/-- The next rollback reads the revisions the other way round. -/
theorem readRollback (rolled : RolledBack appId deployment replaced target db after)
    (deployed : Deployed db) : ∃ replacedLater targetLater,
      readRollback after appId target.id = .ok (targetLater, replacedLater) ∧
        replacedLater.unmarked = replaced.unmarked ∧
        after.revision? replacedLater.id = some replacedLater := by
  rcases exists_of_unmarked rolled.revisions rolled.isActive with ⟨replacedLater, found, same⟩
  rcases exists_of_unmarked rolled.revisions rolled.isTarget with ⟨targetLater, foundTarget, _⟩
  rcases deployed.active appId deployment rolled.current with ⟨row, isRow, ofApp, isReady⟩
  cases rolled.isActive.symm.trans isRow
  have isId : replacedLater.id = deployment.activeRevisionId := by
    simpa using List.find?_some found
  have ofAppLater : replacedLater.appId = appId :=
    (congrArg GeneratedAppRevision.appId same).trans ofApp
  have isReadyLater : replacedLater.status = .ready :=
    (congrArg GeneratedAppRevision.status same).trans isReady
  refine ⟨replacedLater, targetLater, ?_, same, ?_⟩
  · rw [Apps.readRollback, rolled.pointer]
    simp only [Option.bind_some, GeneratedAppDeployment.swappedTo, Option.map_some, bind_eq_ok,
      require_eq_ok, decide_eq_true_eq]
    refine ⟨(), True.intro, (), ?_, ?_⟩
    · rw [rolled.jobs]
      exact rolled.idle
    · rw [foundTarget, found]
      simp [bind, Except.bind, require, ofAppLater, isReadyLater, pure, Except.pure]
  · rw [isId]
    exact found

/-- The live records conform to the revision that was active before. -/
theorem validates (rolled : RolledBack appId deployment replaced target db after)
    (sound : AppsSound unicode db) {later : GeneratedAppRevision}
    (same : later.unmarked = replaced.unmarked) :
    validateExistingRecordsForManifest unicode after appId later.manifest = .ok () := by
  have manifest : later.unmarked.manifest = replaced.unmarked.manifest :=
    congrArg GeneratedAppRevision.manifest same
  change later.manifest = replaced.manifest at manifest
  apply forEach_eq_ok.mpr
  intro record recordMem
  rcases List.mem_filter.mp recordMem with ⟨isStored, ofApp⟩
  rw [rolled.records] at isStored
  rw [decide_eq_true_eq] at ofApp
  rcases sound.conform.conform record isStored with ⟨accepting, active, accepted, _⟩
  rw [ofApp, AppsDb.activeManifest?, rolled.current, Option.bind_some, rolled.isActive] at active
  cases active
  rw [manifest, accepted]

/-- The writes of the next rollback succeed if its key is free. -/
theorem writeRollback (rolled : RolledBack appId deployment replaced target db after)
    (sound : AppsSound unicode db) (userId : Uuid) (now : Instant) (keyed : Option Checked)
    (other : GeneratedAppRevision) (found : db.app? appId = some app)
    (isCode : app.runtimeKind = .code) {later : GeneratedAppRevision}
    (same : later.unmarked = replaced.unmarked)
    (isLater : after.revision? later.id = some later)
    (free : eventByKey after appId ((keyed.map (·.key)).getD
      ("app-rollback:" ++ toString (deployment.deploymentVersion + 2))) = none) :
    ∃ response last, writeRollback unicode appId userId (other, later) now keyed after =
      .ok (response, last) := by
  rcases sound.deployed.active appId deployment rolled.current with ⟨row, isRow, ofApp, _⟩
  cases rolled.isActive.symm.trans isRow
  have promotable : later.Promotable := promotable_of_unmarked same
    (sound.promotable appId deployment replaced rolled.current rolled.isActive)
  rcases rolled.exists_app found with ⟨laterApp, foundLater, access⟩
  have isCodeLater : laterApp.runtimeKind = .code := by
    simp only [GeneratedApp.access, Prod.mk.injEq] at access
    exact access.2.2.2.2.2.trans isCode
  have promotes : ∃ promoted, promoteRevision unicode after appId later.id none now =
      .ok promoted :=
    exists_promoteRevision isLater ((congrArg GeneratedAppRevision.appId same).trans ofApp)
      promotable foundLater isCodeLater rolled.pointer
  rcases promotes with ⟨promoted, promotes⟩
  rcases promoteRevision_eq_ok promotes with ⟨promotedRow, isPromoted, promotion⟩
  cases isLater.symm.trans isPromoted
  have sameId : later.unmarked.id = replaced.unmarked.id :=
    congrArg GeneratedAppRevision.id same
  change later.id = replaced.id at sameId
  have laterId : later.id = deployment.activeRevisionId :=
    sameId.trans (by simpa using List.find?_some rolled.isActive)
  have notActive : target.id ≠ later.id := by
    rw [laterId]
    exact (sound.deployed.previous appId deployment target.id rolled.current rolled.isPrevious).1
  have pointer := promotion.deployment
  rw [rolled.pointer, promotedDeployment] at pointer
  simp only [GeneratedAppDeployment.swappedTo, notActive, if_false] at pointer
  have foundApp : (promoted.app? appId).isSome = true := by
    rw [AppsDb.app?, promotion.apps]
    change ((describeApp after appId later).app? appId).isSome = true
    rw [app?_describeApp, if_pos rfl, foundLater]
    rfl
  rcases Option.isSome_iff_exists.mp foundApp with ⟨promotedApp, isApp⟩
  let response := rollbackResponse promotedApp later
    ((deployment.swappedTo target.id).swappedTo later.id)
  refine ⟨.rolledBack response,
    addEvent (rollbackEvent userId response other later now keyed) promoted, ?_⟩
  simp only [Apps.writeRollback, bind_eq_ok]
  refine ⟨(), rolled.validates sound same, promoted, promotes, ?_⟩
  rw [isApp, pointer]
  simp only [bind_eq_ok, require_eq_ok, pure_eq_ok]
  refine ⟨(), ?_, rfl⟩
  rw [Option.isNone_iff_eq_none]
  exact free

end RolledBack

/-! ## Calls of a rollback -/

/-- The checked key of a performed rollback belongs to the key of the call. -/
def KeyedBy (db : AppsDb) (appId : Uuid) : Option String → Option Checked → Prop
  | none, keyed => keyed = none
  | some key, keyed => ∃ checked, keyed = some checked ∧
      idempotencyKeyText key = .ok checked.key ∧ eventByKey db appId checked.key = none

/-- What a call of a rollback can be that succeeds. -/
inductive RollbackCall (unicode : Unicode) (appId userId expected : Uuid) (key : Option String)
    (now : Instant) (db : AppsDb) (response : MutationResponse) (after : AppsDb) : Prop
  | repeated {text clean : String} {event : GeneratedAppEvent} :
      key = some text → idempotencyKeyText text = .ok clean →
      eventByKey db appId clean = some event → after = db →
      RollbackCall unicode appId userId expected key now db response after
  | performed {actor : AppActor} {keyed : Option Checked}
      {revisions : GeneratedAppRevision × GeneratedAppRevision} :
      KeyedBy db appId key keyed → authorizeRollback db appId userId = .ok actor →
      readRollback db appId expected = .ok revisions →
      writeRollback unicode appId userId revisions now keyed db = .ok (response, after) →
      RollbackCall unicode appId userId expected key now db response after

theorem rollbackCall {key : Option String} {response : MutationResponse}
    (succeeded : rollbackOwnedCodeApp unicode db appId userId expected key now =
      .ok (response, after)) :
    RollbackCall unicode appId userId expected key now db response after := by
  cases key with
  | none =>
      simp only [rollbackOwnedCodeApp, bind_eq_ok, discard_eq_ok] at succeeded
      rcases succeeded with ⟨_, ⟨actor, authorised⟩, _, _, revisions, reads, writes⟩
      exact .performed rfl authorised reads writes
  | some text =>
      simp only [rollbackOwnedCodeApp, onceOnly, checkRollback, bind_eq_ok, pure_eq_ok]
        at succeeded
      rcases succeeded with ⟨checked, ⟨actor, authorised, clean, isClean, hash, _, rfl⟩, succeeded⟩
      split at succeeded
      · rename_i event isStored
        simp only [bind_eq_ok, pure_eq_ok, Prod.mk.injEq] at succeeded
        rcases succeeded with ⟨_, _, _, same⟩
        exact .repeated rfl isClean isStored same.symm
      · rename_i isNew
        simp only [bind_eq_ok] at succeeded
        rcases succeeded with ⟨revisions, reads, writes⟩
        exact .performed ⟨_, rfl, isClean, isNew⟩ authorised reads writes

/-- A rollback without a key is performed. -/
theorem rollbackOwnedCodeApp_unkeyed (authorised : authorizeRollback db appId userId = .ok actor)
    (reads : readRollback db appId expected = .ok revisions) :
    rollbackOwnedCodeApp unicode db appId userId expected none now =
      writeRollback unicode appId userId revisions now none db := by
  rcases exists_rollbackHash expected with ⟨hash, hashes⟩
  rw [rollbackOwnedCodeApp, authorised, hashes, reads]
  rfl

/-- A rollback with a new key is performed. -/
theorem rollbackOwnedCodeApp_keyed (unicode : Unicode) (now : Instant) {key clean : String}
    (authorised : authorizeRollback db appId userId = .ok actor)
    (isClean : idempotencyKeyText key = .ok clean) (isNew : eventByKey db appId clean = none)
    (reads : readRollback db appId expected = .ok revisions) :
    ∃ hash, rollbackOwnedCodeApp unicode db appId userId expected (some key) now =
      writeRollback unicode appId userId revisions now (some ⟨actor, clean, hash⟩) db := by
  rcases exists_rollbackHash expected with ⟨hash, hashes⟩
  have checks : checkRollback db appId userId expected key = .ok ⟨actor, clean, hash⟩ := by
    rw [checkRollback, authorised, isClean, hashes]
    rfl
  refine ⟨hash, ?_⟩
  simp only [rollbackOwnedCodeApp, onceOnly, checks]
  simp only [bind, Except.bind, isNew, reads]

/-! ## Back and forth -/

/-- A call with this key is no repetition of an earlier one. -/
def KeyUnused (db : AppsDb) (appId : Uuid) (key : Option String) : Prop :=
  ∀ text clean, key = some text → idempotencyKeyText text = .ok clean →
    eventByKey db appId clean = none

/-- The key that the event of the next rollback gets is free. -/
def RollbackKeyFree (db : AppsDb) (appId : Uuid) : Option String → Prop
  | none => ∀ deployment, db.deployment? appId = some deployment →
      eventByKey db appId ("app-rollback:" ++ toString (deployment.deploymentVersion + 1)) = none
  | some key => ∃ clean, idempotencyKeyText key = .ok clean ∧ eventByKey db appId clean = none

/-- The next rollback leads back to where the app was. -/
def Reverses (unicode : Unicode) (db after : AppsDb) (appId userId : Uuid) (key : Option String)
    (now : Instant) : Prop :=
  ∃ deployment, after.deployment? appId = some deployment ∧ ∃ response last,
    rollbackOwnedCodeApp unicode after appId userId deployment.activeRevisionId key now =
        .ok (response, last) ∧
      last.deployment? appId = (db.deployment? appId).map (fun row =>
        { row with deploymentVersion := row.deploymentVersion + 2 }) ∧
      (last.app? appId).map GeneratedApp.described = (db.app? appId).map GeneratedApp.described ∧
      last.records = db.records

/-- What is stored when a call is over: all of its writes, or none. -/
def storedAfter (db : AppsDb) : Except CodeAppError (MutationResponse × AppsDb) → AppsDb
  | .ok (_, after) => after
  | .error _ => db

section Reversal

variable {deployment : GeneratedAppDeployment} {replaced target replacedLater targetLater :
  GeneratedAppRevision} {last : AppsDb} {key : Option String}

/-- Two rollbacks that follow each other move the version of the deployment by two. -/
theorem RolledBack.version_of_both
    (first : RolledBack appId deployment replaced target db after)
    (second : RolledBack appId (deployment.swappedTo target.id) replacedLater targetLater
      after last) :
    last.deployment? appId = (db.deployment? appId).map (fun row =>
      { row with deploymentVersion := row.deploymentVersion + 2 }) := by
  have isPrevious := second.isPrevious
  simp only [GeneratedAppDeployment.swappedTo, Option.some.injEq] at isPrevious
  rw [second.pointer, first.current, Option.map_some]
  simp only [GeneratedAppDeployment.swappedTo, ← isPrevious, ← first.isPrevious]

/-- The second rollback describes the app as it was before the first. -/
theorem RolledBack.described_of_both (deployed : Deployed db)
    (first : RolledBack appId deployment replaced target db after)
    (second : RolledBack appId (deployment.swappedTo target.id) replacedLater targetLater
      after last) :
    (last.app? appId).map GeneratedApp.described = (db.app? appId).map GeneratedApp.described := by
  rcases deployed.described appId deployment first.current with
    ⟨app, active, found, isActive, describes⟩
  have isPrevious := second.isPrevious
  simp only [GeneratedAppDeployment.swappedTo, Option.some.injEq] at isPrevious
  rcases exists_of_unmarked first.revisions isActive with ⟨later, isLater, same⟩
  rw [isPrevious] at isLater
  cases second.isTarget.symm.trans isLater
  rw [second.described, found, Option.map_some, describes]
  exact congrArg (fun revision => some revision.describes) same

/-- After a rollback was performed, the next one reverses it when its key is free. -/
theorem RolledBack.reverses (rolled : RolledBack appId deployment replaced target db after)
    (sound : AppsSound unicode db) (deployedAfter : Deployed after)
    (authorised : Apps.authorizeRollback db appId userId = .ok actor)
    (free : RollbackKeyFree after appId key) :
    Reverses unicode db after appId userId key now := by
  have locked := authorised
  simp only [Apps.authorizeRollback, bind_eq_ok] at locked
  rcases locked with ⟨app, locked, _⟩
  have found := lockedCodeApp_eq_ok locked
  have isCode := lockedCodeApp_isCode locked
  have authorisedLater := rolled.authorizeRollback authorised
  rcases rolled.readRollback sound.deployed with ⟨replacedLater, targetLater, reads, same, isLater⟩
  have performs : ∃ keyed response last,
      rollbackOwnedCodeApp unicode after appId userId target.id key now =
        Apps.writeRollback unicode appId userId (targetLater, replacedLater) now keyed after ∧
      Apps.writeRollback unicode appId userId (targetLater, replacedLater) now keyed after =
        .ok (response, last) := by
    cases key with
    | none =>
        have isFree := free _ rolled.pointer
        rw [GeneratedAppDeployment.swappedTo] at isFree
        rcases rolled.writeRollback sound userId now none targetLater found isCode same isLater
          isFree with ⟨response, last, writes⟩
        exact ⟨none, response, last, rollbackOwnedCodeApp_unkeyed authorisedLater reads, writes⟩
    | some text =>
        rcases free with ⟨clean, isClean, isNew⟩
        rcases rollbackOwnedCodeApp_keyed unicode now authorisedLater isClean isNew reads with
          ⟨hash, performs⟩
        rcases rolled.writeRollback sound userId now (some ⟨actor, clean, hash⟩) targetLater found
          isCode same isLater isNew with ⟨response, last, writes⟩
        exact ⟨_, response, last, performs, writes⟩
  rcases performs with ⟨keyed, response, last, performs, writes⟩
  rcases rolledBack_of_writes deployedAfter reads writes with ⟨row, second, isExpected⟩
  cases rolled.pointer.symm.trans second.current
  refine ⟨_, rolled.pointer, response, last, performs.trans writes, ?_, ?_, ?_⟩
  · exact rolled.version_of_both second
  · exact rolled.described_of_both sound.deployed second
  · exact second.records.trans rolled.records

/-- A rollback without a key finds the key of its event free. -/
theorem free_of_unkeyed {response : MutationResponse}
    (deployed : Deployed after) (reads : readRollback after appId expected = .ok revisions)
    (writes : writeRollback unicode appId userId revisions now none after = .ok (response, last)) :
    RollbackKeyFree after appId none := by
  intro row isRow
  rcases rolledBack_of_writes deployed reads writes with ⟨_, second, _⟩
  cases isRow.symm.trans second.current
  rcases writeRollback_eq_ok writes with ⟨_, _, pointer, _, _, _, isPointer, _, absent, rfl⟩
  cases isPointer.symm.trans second.pointer
  rw [Option.isNone_iff_eq_none] at absent
  exact absent

/-- Only a rollback whose key is free moves a deployment on by two versions. -/
theorem free_of_reverses (deployed : Deployed after) {row : GeneratedAppDeployment}
    (current : db.deployment? appId = some deployment)
    (isRow : after.deployment? appId = some row)
    (less : row.deploymentVersion < deployment.deploymentVersion + 2)
    (reverses : Reverses unicode db after appId userId key now) :
    row.deploymentVersion = deployment.deploymentVersion + 1 ∧ RollbackKeyFree after appId key := by
  rcases reverses with ⟨_, _, response, last, succeeded, version, _, _⟩
  rw [current, Option.map_some] at version
  cases rollbackCall succeeded with
  | repeated _ _ _ same =>
      rw [same] at version
      cases isRow.symm.trans version
      exact absurd less (lt_irrefl _)
  | performed keyed authorised reads writes =>
      constructor
      · rcases rolledBack_of_writes deployed reads writes with ⟨_, second, _⟩
        cases isRow.symm.trans second.current
        have versions := congrArg (·.map GeneratedAppDeployment.deploymentVersion)
          (second.pointer.symm.trans version)
        simp only [GeneratedAppDeployment.swappedTo, Option.map_some, Option.some.injEq] at versions
        omega
      · cases key with
        | none =>
            cases keyed
            exact free_of_unkeyed deployed reads writes
        | some text =>
            rcases keyed with ⟨checked, _, isClean, isNew⟩
            exact ⟨checked.key, isClean, isNew⟩

end Reversal

/-- A repetition moves nothing, so that the next rollback cannot lead back. -/
theorem not_reverses_self (deployed : Deployed db) {key : Option String} :
    ¬ Reverses unicode db db appId userId key now := by
  intro reverses
  have current := reverses
  rcases current with ⟨row, isRow, _⟩
  have moved := (free_of_reverses deployed isRow isRow (by omega) reverses).1
  omega

/-- In every state that calls reach: the rollback that follows a rollback leads back exactly
if the first is no repetition and the second finds the key of its event free. A rollback
that raises stores nothing. -/
theorem rollback_reversed_iff {initial : AppsDb} {expected : Uuid} {key : Option String}
    (noRevisions : initial.revisions = []) (noDeployments : initial.deployments = [])
    (noRecords : initial.records = []) (run : Run (callStep platform) apart initial db) :
    (∀ response after, rollbackOwnedCodeApp platform.toUnicode db appId userId expected key now =
        .ok (response, after) → ∀ nextKey nextNow,
      (Reverses platform.toUnicode db after appId userId nextKey nextNow ↔
        KeyUnused db appId key ∧ RollbackKeyFree after appId nextKey)) ∧
    ∀ error, rollbackOwnedCodeApp platform.toUnicode db appId userId expected key now =
        .error error →
      storedAfter db (rollbackOwnedCodeApp platform.toUnicode db appId userId expected key now) =
        db := by
  have sound : AppsSound platform.toUnicode db :=
    (AppsSound.of_empty noRevisions noDeployments noRecords).run run
  constructor
  · intro response after rollsBack nextKey nextNow
    cases rollbackCall rollsBack with
    | repeated isKey isClean isStored same =>
        subst same
        constructor
        · intro reverses
          exact absurd reverses (not_reverses_self sound.deployed)
        · rintro ⟨unused, _⟩
          rw [unused _ _ isKey isClean] at isStored
          cases isStored
    | performed keyed authorised reads writes =>
        have deployedAfter := (sound.deployed.rollback reads writes).1
        rcases rolledBack_of_writes sound.deployed reads writes with ⟨deployment, rolled, _⟩
        have unused : KeyUnused db appId key := by
          intro text clean isKey isClean
          subst isKey
          rcases keyed with ⟨checked, _, isChecked, isNew⟩
          cases isClean.symm.trans isChecked
          exact isNew
        constructor
        · intro reverses
          exact ⟨unused, (free_of_reverses deployedAfter rolled.current rolled.pointer
            (Nat.lt_succ_self _) reverses).2⟩
        · rintro ⟨_, free⟩
          exact rolled.reverses sound deployedAfter authorised free
  · intro error raises
    rw [raises]
    rfl

/-- Two builds are deployed, and a record is added under a key of the client. -/
def habitCallsWithKey (key : String) : List (AppCall × Instant) :=
  habitDeployments.take 5 ++
    [(.mutate 1 key (.createRecord habitOwner "habit" (.obj [("name", .str "swim")])), 0)]

/-- The habits are rolled back, in a run that can be executed. -/
theorem exists_habit_rollback (key : String) (check : AppsDb → Bool)
    (runs : (execute (callStep Platform.ascii) (fun _ event => event.1.isOwn) habitApp
      (habitCallsWithKey key)).any (fun db =>
        (rollbackOwnedCodeApp Platform.ascii.toUnicode db 1 7 13 none 0).toOption.any fun pair =>
          check pair.2) = true) :
    ∃ db response after, Run (callStep Platform.ascii) apart habitApp db ∧
      rollbackOwnedCodeApp Platform.ascii.toUnicode db 1 7 13 none 0 = .ok (response, after) ∧
      check after = true := by
  simp only [Option.any_eq_true] at runs
  rcases runs with ⟨db, toDb, ⟨response, after⟩, rolls, checks⟩
  refine ⟨db, response, after, (run_of_execute toDb).mono apart_of_isOwn, ?_, checks⟩
  cases outcome : rollbackOwnedCodeApp Platform.ascii.toUnicode db 1 7 13 none 0 with
  | error error =>
      rw [outcome] at rolls
      cases rolls
  | ok pair =>
      rw [outcome] at rolls
      cases rolls
      rfl

/-- The key of the record is the key of the second rollback, which is refused. -/
theorem habit_rollback_collides :
    ∃ db response after, Run (callStep Platform.ascii) apart habitApp db ∧
      rollbackOwnedCodeApp Platform.ascii.toUnicode db 1 7 13 none 0 = .ok (response, after) ∧
      ¬ Reverses Platform.ascii.toUnicode db after 1 7 none 0 := by
  have runs := exists_habit_rollback "app-rollback:4" (fun after =>
    after.deployment? 1 = some ⟨1, 10, some 13, 3⟩ &&
      (rollbackOwnedCodeApp Platform.ascii.toUnicode after 1 7 10 none 0).toOption.isNone)
    (by decide +kernel)
  rcases runs with ⟨db, response, after, run, rolls, checks⟩
  rw [Bool.and_eq_true, decide_eq_true_eq] at checks
  rcases checks with ⟨deploys, refused⟩
  refine ⟨db, response, after, run, rolls, ?_⟩
  rintro ⟨deployment, isDeployed, _, _, succeeds, _⟩
  cases deploys.symm.trans isDeployed
  rw [succeeds] at refused
  cases refused

/-- With another key the second rollback leads back. -/
theorem habit_rollback_reversed :
    ∃ db response after, Run (callStep Platform.ascii) apart habitApp db ∧
      rollbackOwnedCodeApp Platform.ascii.toUnicode db 1 7 13 none 0 = .ok (response, after) ∧
      Reverses Platform.ascii.toUnicode db after 1 7 none 0 := by
  have runs := exists_habit_rollback "swim" (fun after =>
    after.deployment? 1 = some ⟨1, 10, some 13, 3⟩ &&
      (eventByKey after 1 "app-rollback:4").isNone) (by decide +kernel)
  rcases runs with ⟨db, response, after, run, rolls, checks⟩
  rw [Bool.and_eq_true, decide_eq_true_eq, Option.isNone_iff_eq_none] at checks
  rcases checks with ⟨deploys, isFree⟩
  refine ⟨db, response, after, run, rolls, ?_⟩
  apply ((rollback_reversed_iff rfl rfl rfl run).1 response after rolls none 0).mpr
  constructor
  · intro text clean isKey
    cases isKey
  · intro deployment isDeployed
    cases deploys.symm.trans isDeployed
    exact isFree

end DotBackend.Apps
