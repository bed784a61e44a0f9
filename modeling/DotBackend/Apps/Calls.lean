import DotBackend.Apps.Mutations
import DotBackend.Apps.OwnedApps
import DotBackend.Transition.Run

/-!
# Calls of the service

The mutations as one family, by the stages that they share, and the calls that change an
app one after the other. Every call is one transaction that locks the row of its app
first; one that raises changes nothing.
-/

namespace DotBackend.Apps

open Data Channel Transition

/-! ## Mutations -/

/-- A mutation with an idempotency key. The handle of a reminder is the primary one of the
user, which another part of the service keeps. -/
inductive MutationRequest
  | createRecord (actor : AppActor) (name : String) (data : Json)
  | updateRecord (actor : AppActor) (recordId : Uuid) (expectedVersion : Int) (data : Json)
  | deleteRecord (actor : AppActor) (recordId : Uuid) (expectedVersion : Int)
  | createReminder (actor : AppActor) (title goal : String) (runAt : IsoDatetime)
      (timezone recurrence handle : String)
  | rollBack (userId expectedActiveRevisionId : Uuid)
  deriving DecidableEq

namespace MutationRequest

/-- What a mutation reads before it writes. -/
def Content : MutationRequest → Type
  | createRecord .. | updateRecord .. => Fields
  | deleteRecord .. => GeneratedAppDataRecord
  | createReminder .. => CleanReminder
  | rollBack .. => GeneratedAppRevision × GeneratedAppRevision

/-- The checks before the key is looked up. -/
def check (platform : Platform) (db : AppsDb) (appId : Uuid) (key : String) (now : Instant) :
    MutationRequest → Except CodeAppError Checked
  | createRecord actor name data => checkCreate db appId actor name data key now
  | updateRecord actor recordId expectedVersion data =>
      checkUpdate db appId recordId actor expectedVersion data key now
  | deleteRecord actor recordId expectedVersion =>
      checkDelete db appId recordId actor expectedVersion key now
  | createReminder actor title goal runAt timezone recurrence _ =>
      checkReminder platform db appId actor title goal runAt timezone recurrence key now
  | rollBack userId expectedActiveRevisionId =>
      checkRollback db appId userId expectedActiveRevisionId key

/-- The answer from an event. -/
def answer (platform : Platform) (appId : Uuid) (event : GeneratedAppEvent) (hash : String) :
    MutationRequest → Except CodeAppError MutationResponse
  | createRecord .. => storedRecordFromEvent platform.toInterpreter event "records.create" hash
  | updateRecord .. => storedRecordFromEvent platform.toInterpreter event "records.update" hash
  | deleteRecord .. => do
      discard (replayResponse event "records.delete" hash)
      pure .deleted
  | createReminder .. => storedTaskFromEvent platform.toInterpreter event hash
  | rollBack .. => storedRollbackFromEvent platform.toUnicode event appId hash

/-- The reads of a mutation that is performed. -/
def read (platform : Platform) (db : AppsDb) (appId : Uuid) (now : Instant) (checked : Checked) :
    (request : MutationRequest) → Except CodeAppError request.Content
  | createRecord _ name data => readCreate platform.toUnicode db appId name data now checked
  | updateRecord _ recordId _ data =>
      readUpdate platform.toUnicode db appId recordId data now checked
  | deleteRecord _ recordId _ => readDelete db appId recordId now checked
  | createReminder _ title goal runAt timezone recurrence _ =>
      readReminder db appId title goal runAt timezone recurrence now checked
  | rollBack _ expectedActiveRevisionId => readRollback db appId expectedActiveRevisionId

/-- The limits that are read after that. -/
def measure (db : AppsDb) (appId : Uuid) :
    (request : MutationRequest) → request.Content → Except CodeAppError Unit
  | createRecord .., cleanData => measureCreate db appId cleanData
  | updateRecord _ recordId _ _, cleanData => measureUpdate db appId recordId cleanData
  | deleteRecord .., _ | createReminder .., _ | rollBack .., _ => .ok ()

/-- The writes of a mutation that is performed. -/
def write (platform : Platform) (appId : Uuid) (now : Instant) (checked : Checked) (db : AppsDb) :
    (request : MutationRequest) → request.Content →
      Except CodeAppError (MutationResponse × AppsDb)
  | createRecord _ name _, cleanData =>
      .ok (writeCreate platform appId name cleanData now checked db)
  | updateRecord _ recordId expectedVersion _, cleanData =>
      writeUpdate platform appId recordId expectedVersion cleanData now checked db
  | deleteRecord _ recordId expectedVersion, state =>
      writeDelete appId recordId expectedVersion state now checked db
  | createReminder _ _ _ _ _ _ handle, reminder =>
      writeReminder platform appId reminder handle now checked db
  | rollBack userId _, revisions =>
      writeRollback platform.toUnicode appId userId revisions now (some checked) db

/-- The operation that the event of a mutation names. -/
def operation : MutationRequest → String
  | createRecord .. => "records.create"
  | updateRecord .. => "records.update"
  | deleteRecord .. => "records.delete"
  | createReminder .. => "dot.reminder.create"
  | rollBack .. => "deployment.rollback"

end MutationRequest

/-- A mutation of an app. -/
def mutate (platform : Platform) (db : AppsDb) (appId : Uuid) (key : String) (now : Instant) :
    MutationRequest → Except CodeAppError (MutationResponse × AppsDb)
  | .createRecord actor name data => createDataRecord platform db appId actor name data key now
  | .updateRecord actor recordId expectedVersion data =>
      updateDataRecord platform db appId recordId actor expectedVersion data key now
  | .deleteRecord actor recordId expectedVersion =>
      deleteDataRecord db appId recordId actor expectedVersion key now
  | .createReminder actor title goal runAt timezone recurrence handle =>
      createAppReminder platform db appId actor title goal runAt timezone recurrence handle key now
  | .rollBack userId expectedActiveRevisionId =>
      rollbackOwnedCodeApp platform.toUnicode db appId userId expectedActiveRevisionId (some key) now

/-- A mutation that no event answers. -/
def perform (platform : Platform) (db : AppsDb) (appId : Uuid) (now : Instant)
    (request : MutationRequest) (checked : Checked) :
    Except CodeAppError (MutationResponse × AppsDb) := do
  let content ← request.read platform db appId now checked
  request.measure db appId content
  request.write platform appId now checked db content

/-- Every mutation has the stages of the family. -/
theorem mutate_eq (platform : Platform) (db : AppsDb) (appId : Uuid) (key : String) (now : Instant)
    (request : MutationRequest) :
    mutate platform db appId key now request =
      onceOnly db appId (request.check platform db appId key now)
        (fun event hash => request.answer platform appId event hash)
        (perform platform db appId now request) := by
  cases request <;> rfl

/-- A mutation that succeeds was answered from an event, or performed. -/
theorem mutate_eq_ok {platform : Platform} {db after : AppsDb} {appId : Uuid} {key : String}
    {now : Instant} {request : MutationRequest} {response : MutationResponse}
    (succeeded : mutate platform db appId key now request = .ok (response, after)) :
    ∃ checked, request.check platform db appId key now = .ok checked ∧
      ((∃ event, eventByKey db appId checked.key = some event ∧ after = db ∧
          request.answer platform appId event checked.hash = .ok response) ∨
        (eventByKey db appId checked.key = none ∧
          perform platform db appId now request checked = .ok (response, after))) := by
  simp only [mutate_eq, onceOnly, bind_eq_ok] at succeeded
  obtain ⟨checked, checks, succeeded⟩ := succeeded
  refine ⟨checked, checks, ?_⟩
  split at succeeded
  · rename_i event found
    simp only [bind_eq_ok, pure_eq_ok] at succeeded
    obtain ⟨stored, answered, same⟩ := succeeded
    cases same
    exact Or.inl ⟨event, found, rfl, answered⟩
  · rename_i absent
    exact Or.inr ⟨absent, succeeded⟩

/-! ## Calls -/

/-- A call that changes an app. `outside` stands for the transactions of other parts of the
service. -/
inductive AppCall
  | mutate (appId : Uuid) (key : String) (request : MutationRequest)
  | rollBack (appId userId expectedActiveRevisionId : Uuid)
  | queueOwned (request : OwnedRevisionRequest)
  | claim (workerId : String) (leaseSeconds : Int)
  | complete (result : BuildResult) (token : String)
  | fail (failure : BuildFailure)
  | outside (change : AppsDb → AppsDb)

/-- The tables after a call at a time. -/
def AppCall.run (platform : Platform) (db : AppsDb) (now : Instant) :
    AppCall → Except CodeAppError AppsDb
  | mutate appId key request => (Apps.mutate platform db appId key now request).map Prod.snd
  | rollBack appId userId expectedActiveRevisionId =>
      (rollbackOwnedCodeApp platform.toUnicode db appId userId expectedActiveRevisionId none
        now).map Prod.snd
  | queueOwned request =>
      (queueOwnedCodeAppRevision platform.toUnicode db request now).map Prod.snd
  | claim workerId leaseSeconds => claimNextBuild db workerId leaseSeconds now
  | complete result token => completeBuild platform.toUnicode db result token now
  | fail failure => failBuild platform db failure now
  | outside change => .ok (change db)

/-- One call of a run, at the time that its clock shows. -/
def callStep (platform : Platform) (db : AppsDb) (event : AppCall × Instant) : Option AppsDb :=
  (event.1.run platform db event.2).toOption

/-- The columns of an app that describe its active revision. -/
def GeneratedApp.described (app : GeneratedApp) : Nat × String × String :=
  (app.currentVersion, app.title, app.description)

/-- The other parts of the service change nothing that mutations, builds and deployments
keep: they may add apps, and change who may use them. -/
structure Apart (before after : AppsDb) : Prop where
  described : ∀ id app, before.app? id = some app →
    (after.app? id).map GeneratedApp.described = some app.described
  revisions : after.revisions = before.revisions
  deployments : after.deployments = before.deployments
  records : after.records = before.records
  events : after.events = before.events
  supply : before.nextId ≤ after.nextId

/-- A condition on a run: the other parts of the service stay apart. -/
def apart (db : AppsDb) (event : AppCall × Instant) : Prop :=
  ∀ change, event.1 = .outside change → Apart db (change db)

/-- A call of the modelled service. -/
def AppCall.isOwn : AppCall → Bool
  | outside _ => false
  | _ => true

theorem apart_of_isOwn (db : AppsDb) (event : AppCall × Instant) (isOwn : event.1.isOwn = true) :
    apart db event := by
  intro change isOutside
  rw [isOutside] at isOwn
  cases isOwn

theorem QueueOnly.apart {before after : AppsDb} (only : QueueOnly before after) :
    Apart before after where
  described := by
    intro id app found
    rw [AppsDb.app?, only.apps]
    change (before.app? id).map _ = _
    rw [found, Option.map_some]
  revisions := only.revisions
  deployments := only.deployments
  records := only.records
  events := only.events
  supply := only.supply

/-- What a call can be that succeeds. -/
inductive CallOutcome (platform : Platform) (now : Instant) (db after : AppsDb) : Prop
  | answered : after = db → CallOutcome platform now db after
  | performed {appId : Uuid} {request : MutationRequest} {checked : Checked}
      {response : MutationResponse} {key : String} :
      request.check platform db appId key now = .ok checked →
      eventByKey db appId checked.key = none →
      perform platform db appId now request checked = .ok (response, after) →
      CallOutcome platform now db after
  | rolledBack {appId userId expectedActiveRevisionId : Uuid}
      {revisions : GeneratedAppRevision × GeneratedAppRevision} {response : MutationResponse} :
      readRollback db appId expectedActiveRevisionId = .ok revisions →
      writeRollback platform.toUnicode appId userId revisions now none db =
        .ok (response, after) →
      CallOutcome platform now db after
  | completed {result : BuildResult} {token : String} :
      completeBuild platform.toUnicode db result token now = .ok after →
      CallOutcome platform now db after
  | apart : Apart db after → CallOutcome platform now db after

theorem map_snd_eq_ok {α : Type} {result : Except CodeAppError (α × AppsDb)} {after : AppsDb}
    (mapped : result.map Prod.snd = .ok after) : ∃ a, result = .ok (a, after) := by
  cases result with
  | error error => cases mapped
  | ok pair =>
      cases mapped
      exact ⟨pair.1, rfl⟩

/-- A step of a run by the case of its call. -/
theorem callOutcome {platform : Platform} {db after : AppsDb} {event : AppCall × Instant}
    (allowed : apart db event) (stepped : callStep platform db event = some after) :
    CallOutcome platform event.2 db after := by
  obtain ⟨call, now⟩ := event
  have ran : call.run platform db now = .ok after := by
    cases outcome : call.run platform db now with
    | error error => simp [callStep, outcome, Except.toOption] at stepped
    | ok result =>
        simp only [callStep, outcome, Except.toOption, Option.some.injEq] at stepped
        rw [stepped]
  cases call with
  | mutate appId key request =>
      obtain ⟨response, succeeded⟩ := map_snd_eq_ok ran
      obtain ⟨checked, checks, ⟨_, _, rfl, _⟩ | ⟨absent, performs⟩⟩ := mutate_eq_ok succeeded
      · exact CallOutcome.answered rfl
      · exact CallOutcome.performed checks absent performs
  | rollBack appId userId expectedActiveRevisionId =>
      obtain ⟨response, succeeded⟩ := map_snd_eq_ok ran
      simp only [rollbackOwnedCodeApp, bind_eq_ok] at succeeded
      obtain ⟨_, _, _, _, revisions, reads, writes⟩ := succeeded
      exact CallOutcome.rolledBack reads writes
  | queueOwned request =>
      obtain ⟨job, queued⟩ := map_snd_eq_ok ran
      exact CallOutcome.apart (queueOnly_queueOwnedCodeAppRevision queued).apart
  | claim workerId leaseSeconds =>
      change claimNextBuild db workerId leaseSeconds now = .ok after at ran
      simp only [claimNextBuild, bind_eq_ok, pure_eq_ok] at ran
      obtain ⟨clean, _, rfl⟩ := ran
      exact CallOutcome.apart (queueOnly_claimBuilds _).apart
  | complete result token => exact CallOutcome.completed ran
  | fail failure => exact CallOutcome.apart (queueOnly_failBuild ran).apart
  | outside change =>
      cases ran
      exact CallOutcome.apart (allowed change rfl)

end DotBackend.Apps
