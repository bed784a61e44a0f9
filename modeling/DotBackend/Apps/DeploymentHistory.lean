import DotBackend.Apps.Conformance

/-!
# The history of a deployment

The pointer of an app moves between ready revisions of the app, one version at a time;
the revisions are numbered in the order of their creation, the app is described as its
active revision is, and the first deployment alone may seed it.
-/

namespace DotBackend.Apps

open Data Transition

variable {platform : Platform} {unicode : Unicode} {db after : AppsDb} {appId : Uuid}
  {now : Instant}

/-- A stored revision of an app that may be deployed. -/
def AppsDb.Deployable (db : AppsDb) (appId revisionId : Uuid) : Prop :=
  ∃ revision, db.revision? revisionId = some revision ∧ revision.appId = appId ∧
    revision.status = .ready

/-- The numbers of the revisions of an app, in the order of their creation. -/
def AppsDb.revisionNumbers (db : AppsDb) (appId : Uuid) : List Nat :=
  (db.revisions.filter fun revision => revision.appId = appId).map (·.revisionNumber)

/-- The columns of a revision that describe an app. -/
def GeneratedAppRevision.describes (revision : GeneratedAppRevision) : Nat × String × String :=
  (revision.revisionNumber, revision.title, revision.description)

/-- The pointers of the deployments in a state of the tables. -/
structure Deployed (db : AppsDb) : Prop where
  known : ∀ revision ∈ db.revisions, revision.id < db.nextId
  numbered : ∀ appId, (db.revisionNumbers appId).Pairwise (· < ·)
  active : ∀ appId deployment, db.deployment? appId = some deployment →
    db.Deployable appId deployment.activeRevisionId
  previous : ∀ appId deployment revisionId, db.deployment? appId = some deployment →
    deployment.previousRevisionId = some revisionId →
      revisionId ≠ deployment.activeRevisionId ∧ db.Deployable appId revisionId
  described : ∀ appId deployment, db.deployment? appId = some deployment →
    ∃ app revision, db.app? appId = some app ∧
      db.revision? deployment.activeRevisionId = some revision ∧
      app.described = revision.describes

/-! ## Steps -/

/-- The schemas are the same, and apps are described as they were. -/
structure SameDeployments (db after : AppsDb) : Prop extends SameSchemas db after where
  described : ∀ id app, db.app? id = some app →
    (after.app? id).map GeneratedApp.described = some app.described

theorem Apart.sameDeployments (apart : Apart db after) : SameDeployments db after where
  revisions := apart.revisions
  deployments := apart.deployments
  supply := apart.supply
  described := apart.described

theorem SameDeployments.of_apps (apps : after.apps = db.apps) (same : SameSchemas db after) :
    SameDeployments db after where
  toSameSchemas := same
  described := by
    intro id app found
    change (after.apps.find? _).map _ = _
    rw [apps]
    change (db.app? id).map _ = _
    rw [found, Option.map_some]

theorem SameSchemas.deployment? (same : SameSchemas db after) (appId : Uuid) :
    after.deployment? appId = db.deployment? appId := by
  simp only [AppsDb.deployment?, same.deployments]

theorem SameSchemas.revision? (same : SameSchemas db after) (id : Uuid) :
    after.revision? id = db.revision? id := by
  simp only [AppsDb.revision?, same.revisions]

/-- Revisions that differ in the mark of their seeds are found alike. -/
theorem revision?_of_unmarked (same : after.revisions.map GeneratedAppRevision.unmarked =
    db.revisions.map GeneratedAppRevision.unmarked) (id : Uuid) :
    (after.revision? id).map GeneratedAppRevision.unmarked =
      (db.revision? id).map GeneratedAppRevision.unmarked := by
  have look : ∀ tables : AppsDb, (tables.revision? id).map GeneratedAppRevision.unmarked =
      (tables.revisions.map GeneratedAppRevision.unmarked).find? fun revision =>
        revision.id = id := by
    intro tables
    rw [List.find?_map]
    rfl
  rw [look, look, same]

theorem exists_of_unmarked {id : Uuid} {row : GeneratedAppRevision}
    (same : after.revisions.map GeneratedAppRevision.unmarked =
      db.revisions.map GeneratedAppRevision.unmarked) (found : db.revision? id = some row) :
    ∃ later, after.revision? id = some later ∧ later.unmarked = row.unmarked := by
  have looks := revision?_of_unmarked same id
  rw [found, Option.map_some, Option.map_eq_some_iff] at looks
  exact looks

theorem revisionNumbers_of_unmarked (same : after.revisions.map GeneratedAppRevision.unmarked =
    db.revisions.map GeneratedAppRevision.unmarked) (appId : Uuid) :
    after.revisionNumbers appId = db.revisionNumbers appId := by
  have numbers : ∀ tables : AppsDb, tables.revisionNumbers appId =
      ((tables.revisions.map GeneratedAppRevision.unmarked).filter
        fun revision => revision.appId = appId).map (·.revisionNumber) := by
    intro tables
    rw [List.filter_map, List.map_map]
    rfl
  rw [numbers, numbers, same]

theorem AppsDb.Deployable.of_unmarked {revisionId : Uuid}
    (same : after.revisions.map GeneratedAppRevision.unmarked =
      db.revisions.map GeneratedAppRevision.unmarked)
    (deployable : db.Deployable appId revisionId) : after.Deployable appId revisionId := by
  obtain ⟨row, found, ofApp, isReady⟩ := deployable
  obtain ⟨later, laterFound, unmarked⟩ := exists_of_unmarked same found
  refine ⟨later, laterFound, ?_, ?_⟩
  · exact (congrArg GeneratedAppRevision.appId unmarked).trans ofApp
  · exact (congrArg GeneratedAppRevision.status unmarked).trans isReady

theorem app?_describeApp (revision : GeneratedAppRevision) (other : Uuid) :
    (describeApp db appId revision).app? other = if other = appId then
      (db.app? other).map (fun row => {
        row with
        currentVersion := revision.revisionNumber, title := revision.title
        description := revision.description })
      else db.app? other :=
  AppsDb.app?_updateApp db appId other fun _ => rfl

theorem le_foldl_max {numbers : List Nat} {start number : Nat}
    (bounded : number ≤ start ∨ number ∈ numbers) : number ≤ numbers.foldl max start := by
  induction numbers generalizing start with
  | nil => simpa using bounded
  | cons first rest ih =>
      rw [List.foldl_cons]
      apply ih
      rcases bounded with below | numberMem
      · exact Or.inl (Nat.le_trans below (Nat.le_max_left start first))
      · rcases List.mem_cons.mp numberMem with rfl | restMem
        · exact Or.inl (Nat.le_max_right start number)
        · exact Or.inr restMem

namespace Deployed

theorem of_same (deployed : Deployed db) (same : SameDeployments db after) : Deployed after where
  known := by
    rw [same.revisions]
    intro revision revisionMem
    exact lt_of_lt_of_le (deployed.known revision revisionMem) same.supply
  numbered := by
    simpa only [AppsDb.revisionNumbers, same.revisions] using deployed.numbered
  active := by
    simpa only [same.deployment?, AppsDb.Deployable, same.revision?] using deployed.active
  previous := by
    simpa only [same.deployment?, AppsDb.Deployable, same.revision?] using deployed.previous
  described := by
    intro appId deployment found
    rw [same.deployment?] at found
    obtain ⟨app, revision, foundApp, foundRevision, describes⟩ :=
      deployed.described appId deployment found
    have later := same.described appId app foundApp
    rw [Option.map_eq_some_iff] at later
    obtain ⟨laterApp, laterFound, sameDescription⟩ := later
    refine ⟨laterApp, revision, laterFound, ?_, sameDescription.trans describes⟩
    rw [same.revision?]
    exact foundRevision

/-- A new revision with the next number of its app. -/
theorem insertRevision (deployed : Deployed db) {revision : GeneratedAppRevision}
    (isNext : revision.id = db.nextId) (next : revision.revisionNumber =
      (db.revisionNumbers revision.appId).foldl max 0 + 1) :
    Deployed (insertRevision revision db) := by
  have keeps : ∀ {appId id}, db.Deployable appId id →
      (Apps.insertRevision revision db).Deployable appId id := by
    rintro appId id ⟨row, found, ofApp, isReady⟩
    exact ⟨row, revision?_insertRevision_of_some found, ofApp, isReady⟩
  constructor
  · intro row rowMem
    rcases List.mem_append.mp rowMem with oldMem | newMem
    · exact Nat.lt_succ_of_lt (deployed.known row oldMem)
    · rw [List.mem_singleton.mp newMem, isNext]
      exact Nat.lt_succ_self _
  · intro appId
    simp only [AppsDb.revisionNumbers, Apps.insertRevision, List.filter_append, List.map_append]
    by_cases ofApp : revision.appId = appId
    · subst ofApp
      simp only [List.filter_cons, decide_true, if_true, List.filter_nil, List.map_cons,
        List.map_nil, List.pairwise_append, List.pairwise_singleton, true_and]
      refine ⟨deployed.numbered revision.appId, ?_⟩
      intro number numberMem other otherMem
      rw [List.mem_singleton.mp otherMem, next]
      exact Nat.lt_succ_of_le (le_foldl_max (Or.inr numberMem))
    · simp only [List.filter_cons, ofApp, decide_false, Bool.false_eq_true, if_false,
        List.filter_nil, List.map_nil, List.append_nil]
      exact deployed.numbered appId
  · exact fun appId deployment found => keeps (deployed.active appId deployment found)
  · intro appId deployment revisionId found isPrevious
    obtain ⟨different, deployable⟩ := deployed.previous appId deployment revisionId found isPrevious
    exact ⟨different, keeps deployable⟩
  · intro appId deployment found
    obtain ⟨app, row, foundApp, foundRow, describes⟩ := deployed.described appId deployment found
    exact ⟨app, row, foundApp, revision?_insertRevision_of_some foundRow, describes⟩

/-- A promotion of a ready revision that is not active. -/
theorem promoted {revision : GeneratedAppRevision} {expected : Option (Option Uuid)}
    (deployed : Deployed db) (found : db.revision? revision.id = some revision)
    (isReady : revision.status = .ready) (hasApp : ∃ app, db.app? appId = some app)
    (notActive : ∀ deployment, db.deployment? appId = some deployment →
      deployment.activeRevisionId ≠ revision.id)
    (promoted : Promoted unicode appId revision expected db after)
    (supply : db.nextId ≤ after.nextId) : Deployed after := by
  have target : after.Deployable appId revision.id :=
    AppsDb.Deployable.of_unmarked promoted.revisions ⟨revision, found, promoted.ofApp, isReady⟩
  have keeps : ∀ {other id}, db.Deployable other id → after.Deployable other id :=
    AppsDb.Deployable.of_unmarked promoted.revisions
  have looks : ∀ id, after.app? id = (describeApp db appId revision).app? id := by
    intro id
    rw [AppsDb.app?, promoted.apps]
    rfl
  constructor
  · intro row rowMem
    have idMem : row.id ∈ (after.revisions.map GeneratedAppRevision.unmarked).map (·.id) :=
      List.mem_map.mpr ⟨row.unmarked, List.mem_map_of_mem rowMem, rfl⟩
    rw [promoted.revisions, List.map_map] at idMem
    obtain ⟨old, oldMem, sameId⟩ := List.mem_map.mp idMem
    rw [← sameId]
    exact lt_of_lt_of_le (deployed.known old oldMem) supply
  · intro other
    rw [revisionNumbers_of_unmarked promoted.revisions]
    exact deployed.numbered other
  · intro other deployment deploys
    by_cases isApp : other = appId
    · subst isApp
      cases promoted.deployment.symm.trans deploys
      rw [promotedDeployment_active]
      exact target
    · rw [promoted.others other isApp] at deploys
      exact keeps (deployed.active other deployment deploys)
  · intro other deployment revisionId deploys isPrevious
    by_cases isApp : other = appId
    · subst isApp
      cases promoted.deployment.symm.trans deploys
      rw [promotedDeployment_active]
      cases current : db.deployment? other with
      | none =>
          rw [current] at isPrevious
          cases isPrevious
      | some row =>
          have different := notActive row current
          simp only [current, promotedDeployment, different, if_false,
            GeneratedAppDeployment.swappedTo, Option.some.injEq] at isPrevious
          rw [← isPrevious]
          exact ⟨different, keeps (deployed.active other row current)⟩
    · rw [promoted.others other isApp] at deploys
      obtain ⟨different, deployable⟩ :=
        deployed.previous other deployment revisionId deploys isPrevious
      exact ⟨different, keeps deployable⟩
  · intro other deployment deploys
    by_cases isApp : other = appId
    · subst isApp
      cases promoted.deployment.symm.trans deploys
      obtain ⟨app, foundApp⟩ := hasApp
      obtain ⟨later, laterFound, unmarked⟩ := exists_of_unmarked promoted.revisions found
      have looked := looks other
      rw [app?_describeApp, if_pos rfl, foundApp, Option.map_some] at looked
      refine ⟨_, later, looked, ?_, ?_⟩
      · rw [promotedDeployment_active]
        exact laterFound
      · exact (congrArg GeneratedAppRevision.describes unmarked).symm
    · rw [promoted.others other isApp] at deploys
      obtain ⟨app, row, foundApp, foundRow, describes⟩ :=
        deployed.described other deployment deploys
      obtain ⟨later, laterFound, unmarked⟩ := exists_of_unmarked promoted.revisions foundRow
      refine ⟨app, later, ?_, laterFound, ?_⟩
      · rw [looks, app?_describeApp, if_neg isApp]
        exact foundApp
      · exact describes.trans (congrArg GeneratedAppRevision.describes unmarked).symm

end Deployed

/-! ## Pointers and seeds -/

/-- The records of an app. -/
def AppsDb.recordsOf (db : AppsDb) (appId : Uuid) : List GeneratedAppDataRecord :=
  db.records.filter fun record => record.appId = appId

/-- The pointer of a deployment stays, starts at the first version, or moves on by one
version. -/
inductive PointerMoves : Option GeneratedAppDeployment → Option GeneratedAppDeployment → Prop
  | stays (current : Option GeneratedAppDeployment) : PointerMoves current current
  | starts {deployment : GeneratedAppDeployment} : deployment.deploymentVersion = 1 →
      PointerMoves none (some deployment)
  | moves {old new : GeneratedAppDeployment} : new.activeRevisionId ≠ old.activeRevisionId →
      new.deploymentVersion = old.deploymentVersion + 1 → PointerMoves (some old) (some new)

theorem PointerMoves.isSome {current next : Option GeneratedAppDeployment}
    (moves : PointerMoves current next) (deployed : current.isSome) : next.isSome := by
  cases moves with
  | stays => exact deployed
  | starts => rfl
  | moves => rfl

theorem pointerMoves_promotedDeployment (appId revisionId : Uuid)
    (current : Option GeneratedAppDeployment) :
    PointerMoves current (some (promotedDeployment appId revisionId current)) := by
  cases current with
  | none => exact PointerMoves.starts rfl
  | some deployment =>
      by_cases isActive : deployment.activeRevisionId = revisionId
      · rw [promotedDeployment, if_pos isActive]
        exact PointerMoves.stays _
      · rw [promotedDeployment, if_neg isActive]
        exact PointerMoves.moves (Ne.symm isActive) rfl

/-- A deployment moves one pointer, and seeds that app only, on its first deployment when
it has no records. -/
structure Deploys (appId : Uuid) (db after : AppsDb) : Prop where
  moves : PointerMoves (db.deployment? appId) (after.deployment? appId)
  isDeployed : (after.deployment? appId).isSome
  others : ∀ other, other ≠ appId → after.deployment? other = db.deployment? other
  seeds : ∀ other, after.recordsOf other ≠ db.recordsOf other →
    other = appId ∧ db.deployment? appId = none ∧ db.recordsOf appId = []

theorem Promoted.deploys {revision : GeneratedAppRevision} {expected : Option (Option Uuid)}
    (promoted : Promoted unicode appId revision expected db after) : Deploys appId db after where
  moves := by
    rw [promoted.deployment]
    exact pointerMoves_promotedDeployment appId revision.id _
  isDeployed := by
    rw [promoted.deployment]
    rfl
  others := promoted.others
  seeds := by
    intro other changed
    obtain ⟨added, records_eq, conform⟩ := promoted.records
    have recordsChanged : after.records ≠ db.records := by
      intro same
      apply changed
      simp only [AppsDb.recordsOf, same]
    obtain ⟨isFirst, noRecords⟩ := promoted.seeded recordsChanged
    have isApp : other = appId := by
      by_contra different
      apply changed
      have noneAdded : added.filter (fun record => record.appId = other) = [] := by
        rw [List.filter_eq_nil_iff]
        intro record recordMem
        simpa [(conform record recordMem).1] using Ne.symm different
      rw [AppsDb.recordsOf, records_eq, List.filter_append, noneAdded, List.append_nil]
      rfl
    refine ⟨isApp, isFirst, ?_⟩
    rw [AppsDb.recordsOf, List.filter_eq_nil_iff]
    intro record recordMem
    simpa using noRecords record recordMem

/-- What is deployed and stored is the same on both sides of a deployment. -/
theorem Deploys.of_eq {stored promoted : AppsDb} (deploys : Deploys appId stored promoted)
    (storedDeployments : stored.deployments = db.deployments)
    (storedRecords : stored.records = db.records)
    (deployments : after.deployments = promoted.deployments)
    (records : after.records = promoted.records) : Deploys appId db after := by
  have before : ∀ other, stored.deployment? other = db.deployment? other := by
    intro other
    simp only [AppsDb.deployment?, storedDeployments]
  have later : ∀ other, after.deployment? other = promoted.deployment? other := by
    intro other
    simp only [AppsDb.deployment?, deployments]
  have recordsBefore : ∀ other, stored.recordsOf other = db.recordsOf other := by
    intro other
    simp only [AppsDb.recordsOf, storedRecords]
  have recordsLater : ∀ other, after.recordsOf other = promoted.recordsOf other := by
    intro other
    simp only [AppsDb.recordsOf, records]
  constructor
  · rw [later, ← before]
    exact deploys.moves
  · rw [later]
    exact deploys.isDeployed
  · intro other different
    rw [later, ← before]
    exact deploys.others other different
  · intro other changed
    rw [recordsLater, ← recordsBefore] at changed
    rw [← before, ← recordsBefore]
    exact deploys.seeds other changed

/-! ## Completions and rollbacks -/

/-- What the writes of a completion leave of the tables that a deployment is about. -/
theorem sameDeployments_settle {job : GeneratedAppBuildJob} {app : GeneratedApp}
    {baseUrl : Option String} {token : String} {issued : AppsDb} (event : UserEvent)
    (change : GeneratedAppBuildJob → GeneratedAppBuildJob)
    (issues : issueHandoff (db.updateJob job.id change) app baseUrl token now = .ok issued) :
    QueueOnly db (enqueueUserEvent event issued) := by
  obtain ⟨tickets, rfl⟩ := issueHandoff_frame issues
  have handed : QueueOnly db { db.updateJob job.id change with tickets := tickets } :=
    ⟨rfl, rfl, rfl, rfl, rfl, le_refl _⟩
  exact handed.trans (queueOnly_enqueueUserEvent _)

/-- A completion deploys its revision to the app of its job, if the base of the job is
active. -/
theorem Deployed.completeBuild {result : BuildResult} {token : String} (deployed : Deployed db)
    (completed : completeBuild unicode db result token now = .ok after) :
    Deployed after ∧ ∃ job ∈ db.jobs, job.id = result.jobId ∧ Deploys job.appId db after ∧
      (db.deployment? job.appId).map (·.activeRevisionId) = job.baseRevisionId := by
  simp only [Apps.completeBuild, bind_eq_ok] at completed
  obtain ⟨job, claimed, _, _, finished⟩ := completed
  obtain ⟨jobMem, isJob, _⟩ := claimedJob_eq_ok claimed
  obtain ⟨app, revision, promoted, issued, locked, made, _, promotes, issues, rfl⟩ :=
    finishBuild_eq_ok finished
  obtain ⟨isNext, ofApp, isReady, _, number⟩ := newRevision_eq_ok made
  obtain ⟨row, found, promotion⟩ := promoteRevision_eq_ok promotes
  cases (revision?_insertRevision deployed.known isNext).symm.trans found
  have stored : Deployed (Apps.insertRevision revision db) := by
    apply deployed.insertRevision isNext
    rw [ofApp]
    exact number
  have notActive : ∀ deployment, (Apps.insertRevision revision db).deployment? job.appId =
      some deployment → deployment.activeRevisionId ≠ revision.id := by
    intro deployment deploys
    obtain ⟨active, foundActive, _⟩ := deployed.active job.appId deployment deploys
    have isActive : active.id = deployment.activeRevisionId := by
      simpa using List.find?_some foundActive
    rw [← isActive, isNext]
    exact Nat.ne_of_lt (deployed.known active (List.mem_of_find?_eq_some foundActive))
  have afterPromotion : Deployed promoted :=
    stored.promoted found isReady ⟨app, lockedCodeApp_eq_ok locked⟩ notActive promotion
      (promotes_promoteRevision promotes).supply
  have only := sameDeployments_settle
    ⟨app.userId, app.conversationId, .appBuildCompleted job.id, app.id⟩ _ issues
  refine ⟨afterPromotion.of_same only.apart.sameDeployments, job, jobMem, isJob, ?_, ?_⟩
  · exact promotion.deploys.of_eq rfl rfl only.deployments only.records
  · exact promotion.asExpected job.baseRevisionId rfl

/-- A rollback deploys the revision that was active before. -/
theorem Deployed.rollback {userId expectedActiveRevisionId : Uuid} {keyed : Option Checked}
    {revisions : GeneratedAppRevision × GeneratedAppRevision} {response : MutationResponse}
    (deployed : Deployed db)
    (reads : readRollback db appId expectedActiveRevisionId = .ok revisions)
    (writes : writeRollback unicode appId userId revisions now keyed db = .ok (response, after)) :
    Deployed after ∧ Deploys appId db after := by
  obtain ⟨deployment, current, _, isPrevious, _, target_eq, _, isReady⟩ := readRollback_eq_ok reads
  obtain ⟨promoted, app, _, _, promotes, foundApp, _, _, _, rfl⟩ := writeRollback_eq_ok writes
  obtain ⟨row, found, promotion⟩ := promoteRevision_eq_ok promotes
  cases target_eq.symm.trans found
  have hasApp : ∃ app, db.app? appId = some app := by
    have looked : (describeApp db appId revisions.2).app? appId = some app := by
      rw [← foundApp, AppsDb.app?, AppsDb.app?, promotion.apps]
    rw [app?_describeApp, if_pos rfl, Option.map_eq_some_iff] at looked
    exact looked.imp fun _ found => found.1
  have notActive : ∀ deployment, db.deployment? appId = some deployment →
      deployment.activeRevisionId ≠ revisions.2.id := by
    intro row deploys
    cases current.symm.trans deploys
    exact (deployed.previous appId deployment _ current isPrevious).1.symm
  have afterPromotion : Deployed promoted :=
    deployed.promoted target_eq isReady hasApp notActive promotion
      (promotes_promoteRevision promotes).supply
  constructor
  · exact afterPromotion.of_same (SameDeployments.of_apps rfl ⟨rfl, rfl, le_refl _⟩)
  · exact promotion.deploys.of_eq rfl rfl rfl rfl

/-- The transactions that deploy. -/
inductive DeploymentCall (unicode : Unicode) (db after : AppsDb) : Prop
  | completed {result : BuildResult} {token : String} {now : Instant} :
      completeBuild unicode db result token now = .ok after → DeploymentCall unicode db after
  | rolledBack {appId userId expectedActiveRevisionId : Uuid} {key : Option String}
      {now : Instant} {response : MutationResponse} :
      rollbackOwnedCodeApp unicode db appId userId expectedActiveRevisionId key now =
        .ok (response, after) → DeploymentCall unicode db after

/-- A deploying transaction keeps the invariant, and deploys to one app if it changes anything. -/
theorem Deployed.call (deployed : Deployed db) (call : DeploymentCall unicode db after) :
    Deployed after ∧ (after = db ∨ ∃ appId, Deploys appId db after) := by
  cases call with
  | completed completed =>
      obtain ⟨later, job, _, _, deploys, _⟩ := deployed.completeBuild completed
      exact ⟨later, Or.inr ⟨job.appId, deploys⟩⟩
  | @rolledBack appId userId expected key now response succeeded =>
      have rolled : ∀ {revisions keyed}, readRollback db appId expected = .ok revisions →
          writeRollback unicode appId userId revisions now keyed db = .ok (response, after) →
            Deployed after ∧ (after = db ∨ ∃ appId, Deploys appId db after) := by
        intro revisions keyed reads writes
        obtain ⟨later, deploys⟩ := deployed.rollback reads writes
        exact ⟨later, Or.inr ⟨appId, deploys⟩⟩
      cases key with
      | none =>
          simp only [rollbackOwnedCodeApp, bind_eq_ok] at succeeded
          obtain ⟨_, _, _, _, revisions, reads, writes⟩ := succeeded
          exact rolled reads writes
      | some key =>
          simp only [rollbackOwnedCodeApp, onceOnly, bind_eq_ok] at succeeded
          obtain ⟨checked, _, succeeded⟩ := succeeded
          split at succeeded
          · simp only [bind_eq_ok, pure_eq_ok] at succeeded
            obtain ⟨_, _, same⟩ := succeeded
            cases same
            exact ⟨deployed, Or.inl rfl⟩
          · simp only [bind_eq_ok] at succeeded
            obtain ⟨revisions, reads, writes⟩ := succeeded
            exact rolled reads writes

/-! ## Runs -/

/-- A step keeps the invariant, and each pointer stays or moves on by one version. -/
theorem Deployed.step {event : AppCall × Instant} (deployed : Deployed db)
    (allowed : apart db event) (stepped : callStep platform db event = some after) :
    Deployed after ∧ ∀ appId, PointerMoves (db.deployment? appId) (after.deployment? appId) := by
  have unmoved : SameDeployments db after →
      Deployed after ∧ ∀ appId, PointerMoves (db.deployment? appId) (after.deployment? appId) := by
    intro same
    refine ⟨deployed.of_same same, ?_⟩
    intro appId
    rw [same.deployment?]
    exact PointerMoves.stays _
  have moved : ∀ {appId}, Deployed after ∧ Deploys appId db after →
      Deployed after ∧ ∀ appId, PointerMoves (db.deployment? appId) (after.deployment? appId) := by
    rintro appId ⟨later, deploys⟩
    refine ⟨later, ?_⟩
    intro other
    by_cases isApp : other = appId
    · rw [isApp]
      exact deploys.moves
    · rw [deploys.others other isApp]
      exact PointerMoves.stays _
  cases callOutcome allowed stepped with
  | answered same => exact unmoved (same ▸ SameDeployments.of_apps rfl ⟨rfl, rfl, le_refl _⟩)
  | @performed appId request checked response key _ _ performed =>
      simp only [perform, bind_eq_ok] at performed
      obtain ⟨content, reads, _, _, writes⟩ := performed
      cases request with
      | createRecord actor name data =>
          cases writes
          exact unmoved (SameDeployments.of_apps rfl ⟨rfl, rfl, Nat.le_succ _⟩)
      | updateRecord actor recordId expectedVersion data =>
          obtain ⟨_, _, _, _, rfl⟩ := writeUpdate_eq_ok writes
          exact unmoved (SameDeployments.of_apps rfl ⟨rfl, rfl, le_refl _⟩)
      | deleteRecord actor recordId expectedVersion =>
          obtain ⟨_, _, _, _, rfl⟩ := writeDelete_eq_ok writes
          exact unmoved (SameDeployments.of_apps rfl ⟨rfl, rfl, le_refl _⟩)
      | createReminder actor title goal runAt timezone recurrence handle =>
          obtain ⟨created, task, only, _, rfl⟩ := writeReminder_eq_ok writes
          exact unmoved (SameDeployments.of_apps only.apps
            ⟨only.revisions, only.deployments, only.supply⟩)
      | rollBack userId expectedActiveRevisionId => exact moved (deployed.rollback reads writes)
  | rolledBack reads writes => exact moved (deployed.rollback reads writes)
  | completed completed =>
      obtain ⟨later, job, _, _, deploys, _⟩ := deployed.completeBuild completed
      exact moved ⟨later, deploys⟩
  | apart apart => exact unmoved apart.sameDeployments

/-- In a run every state is sound, and what is deployed stays deployed. -/
theorem Deployed.run {later : AppsDb} (deployed : Deployed db)
    (run : Run (callStep platform) apart db later) :
    Deployed later ∧ ∀ appId, (db.deployment? appId).isSome → (later.deployment? appId).isSome := by
  induction run with
  | refl => exact ⟨deployed, fun _ isSome => isSome⟩
  | tail _ allowed stepped ih =>
      obtain ⟨middle, kept⟩ := ih
      obtain ⟨later, moves⟩ := middle.step allowed stepped
      exact ⟨later, fun appId isSome => (moves appId).isSome (kept appId isSome)⟩

/-- The history of the deployments up to a state of the tables. -/
structure DeploymentHistory (platform : Platform) (db : AppsDb) : Prop where
  active : ∀ appId deployment, db.deployment? appId = some deployment →
    db.Deployable appId deployment.activeRevisionId
  previous : ∀ appId deployment revisionId, db.deployment? appId = some deployment →
    deployment.previousRevisionId = some revisionId →
      revisionId ≠ deployment.activeRevisionId ∧ db.Deployable appId revisionId
  numbered : ∀ appId, (db.revisionNumbers appId).Pairwise (· < ·)
  described : ∀ appId deployment, db.deployment? appId = some deployment →
    ∃ app revision, db.app? appId = some app ∧
      db.revision? deployment.activeRevisionId = some revision ∧
      app.described = revision.describes
  moves : ∀ event after, apart db event → callStep platform db event = some after →
    ∀ appId, PointerMoves (db.deployment? appId) (after.deployment? appId)
  based : ∀ result token now after,
    completeBuild platform.toUnicode db result token now = .ok after →
      ∃ job ∈ db.jobs, job.id = result.jobId ∧
        (db.deployment? job.appId).map (·.activeRevisionId) = job.baseRevisionId ∧
        ∀ other, other ≠ job.appId → after.deployment? other = db.deployment? other
  seeded : ∀ after appId, DeploymentCall platform.toUnicode db after →
    after.recordsOf appId ≠ db.recordsOf appId →
      db.deployment? appId = none ∧ db.recordsOf appId = [] ∧
      ∀ later last, Run (callStep platform) apart after later →
        DeploymentCall platform.toUnicode later last →
          last.recordsOf appId = later.recordsOf appId

theorem Deployed.history (deployed : Deployed db) : DeploymentHistory platform db where
  active := deployed.active
  previous := deployed.previous
  numbered := deployed.numbered
  described := deployed.described
  moves := fun event after allowed stepped => (deployed.step allowed stepped).2
  based := by
    intro result token now after completed
    obtain ⟨_, job, jobMem, isJob, deploys, isBase⟩ := deployed.completeBuild completed
    exact ⟨job, jobMem, isJob, isBase, deploys.others⟩
  seeded := by
    intro after appId call changed
    obtain ⟨later, same | ⟨target, deploys⟩⟩ := deployed.call call
    · exact absurd (by rw [same]) changed
    · obtain ⟨rfl, isFirst, noRecords⟩ := deploys.seeds appId changed
      refine ⟨isFirst, noRecords, ?_⟩
      intro next last run again
      obtain ⟨sound, kept⟩ := later.run run
      by_contra changedAgain
      obtain ⟨_, same | ⟨other, deploysAgain⟩⟩ := sound.call again
      · exact changedAgain (by rw [same])
      · obtain ⟨rfl, notDeployed, _⟩ := deploysAgain.seeds _ changedAgain
        have isDeployed := kept _ deploys.isDeployed
        rw [notDeployed] at isDeployed
        cases isDeployed

/-- Tables without revisions and deployments. -/
theorem Deployed.of_empty (noRevisions : db.revisions = []) (noDeployments : db.deployments = []) :
    Deployed db := by
  have undeployed : ∀ appId, db.deployment? appId = none := by
    intro appId
    rw [AppsDb.deployment?, noDeployments]
    rfl
  constructor
  · rw [noRevisions]
    exact fun revision revisionMem => absurd revisionMem List.not_mem_nil
  · intro appId
    rw [AppsDb.revisionNumbers, noRevisions]
    exact List.Pairwise.nil
  · intro appId deployment found
    cases (undeployed appId).symm.trans found
  · intro appId deployment revisionId found
    cases (undeployed appId).symm.trans found
  · intro appId deployment found
    cases (undeployed appId).symm.trans found

/-- In every state that calls reach from tables without revisions and deployments, the
deployments have this history. -/
theorem deployment_history {initial later : AppsDb} (noRevisions : initial.revisions = [])
    (noDeployments : initial.deployments = []) (run : Run (callStep platform) apart initial later) :
    DeploymentHistory platform later := by
  exact ((Deployed.of_empty noRevisions noDeployments).run run).1.history

/-- The owner of the habits asks for a revision. -/
def habitRevision : OwnedRevisionRequest where
  userId := 7
  appId := 1
  revisionRequest := "add streaks"
  title := none
  description := none
  visualDirection := none
  manifest := none
  seedData := none
  deliveryProvider := none
  appUrl := none
  idempotencyKey := none
  idempotencyRequestHash := none

/-- Two builds are deployed one after the other, and the second is rolled back. -/
def habitDeployments : List (AppCall × Instant) :=
  [(.claim "a" 60, 0), (.complete (habitBuild 3) "", 0), (.queueOwned habitRevision, 0),
    (.claim "a" 60, 0), (.complete (habitBuild 12) "", 0), (.rollBack 1 7 13, 0)]

theorem habit_deployment_history :
    ∃ later : AppsDb, later.deployment? 1 = some ⟨1, 10, some 13, 3⟩ ∧
      DeploymentHistory Platform.ascii later := by
  have runs : (execute (callStep Platform.ascii) (fun _ event => event.1.isOwn) habitApp
      habitDeployments).any (fun later => later.deployment? 1 = some ⟨1, 10, some 13, 3⟩) =
      true := by
    decide +kernel
  simp only [Option.any_eq_true, decide_eq_true_eq] at runs
  obtain ⟨later, toLater, deployment⟩ := runs
  refine ⟨later, deployment, ?_⟩
  apply deployment_history _ _ ((run_of_execute toLater).mono apart_of_isOwn)
  · rfl
  · rfl

end DotBackend.Apps
