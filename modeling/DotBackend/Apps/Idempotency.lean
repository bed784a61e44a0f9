import DotBackend.Apps.MutationEvents
import DotBackend.Data.JsonCanonical

/-!
# Idempotency keys

A key that a mutation succeeded with belongs to its request from then on: whatever is
called in between, the same request is answered with the same response, and any other
request with the key is refused. The checks of a mutation come first: who is not authorised
any more, or sends a request that is not valid, is told so.
-/

namespace DotBackend.Apps

open Data DotBackend.Schedules Transition

variable {platform : Platform} {db after : AppsDb} {appId : Uuid} {now : Instant} {key : String}
  {checked : Checked} {request repeated : MutationRequest} {response : MutationResponse}

/-! ## The checks, apart -/

namespace MutationRequest

variable {event : GeneratedAppEvent} {hash : String}

/-- The part of the checks that is about the actor. -/
def authorise (db : AppsDb) (appId : Uuid) (now : Instant) :
    MutationRequest → Except CodeAppError AppActor
  | createRecord actor .. | updateRecord actor .. | deleteRecord actor .. => do
      let actor ← reauthorizeActor db appId actor now
      requireWrite actor
      pure actor
  | createReminder actor .. => do
      let actor ← reauthorizeActor db appId actor now
      require (actor.identityVerified && actor.userId.isSome &&
          (actor.role = .owner || actor.role = .editor))
        (.authorization "Only an authenticated app owner or editor can create reminders")
      pure actor
  | rollBack userId _ => authorizeRollback db appId userId

/-- What the request hash is of: the part of the checks that is about the request. -/
def content (platform : Platform) (now : Instant) : MutationRequest → Except CodeAppError Fields
  | createRecord _ name data => do
      let cleanEntity ← entity (some (.str name))
      requireObject data
      pure [("entity", .str cleanEntity), ("data", data)]
  | updateRecord _ recordId expectedVersion data => do
      requireObject data
      pure [("record_id", uuidJson recordId), ("expected_version", .int expectedVersion),
        ("data", data)]
  | deleteRecord _ recordId expectedVersion =>
      pure [("record_id", uuidJson recordId), ("expected_version", .int expectedVersion)]
  | createReminder _ title goal runAt timezone recurrence _ => do
      let reminder ← cleanReminder title goal runAt timezone recurrence
      require (reminder.runAt ≤ now + maxReminderHorizon)
        (.validation "Reminder time is too far in the future")
      pure [("title", .str reminder.title), ("goal", .str reminder.goal),
        ("run_at", instantJson platform reminder.runAt), ("timezone", .str reminder.timezone),
        ("recurrence", .str recurrence)]
  | rollBack _ expectedActiveRevisionId =>
      pure [("expected_active_revision_id", uuidJson expectedActiveRevisionId)]

/-- The same request, whoever makes it. -/
inductive Repeats : MutationRequest → MutationRequest → Prop
  | createRecord {first second : AppActor} {name : String} {data : Json} :
      Repeats (.createRecord first name data) (.createRecord second name data)
  | updateRecord {first second : AppActor} {recordId : Uuid} {expectedVersion : Int}
      {data : Json} : Repeats (.updateRecord first recordId expectedVersion data)
        (.updateRecord second recordId expectedVersion data)
  | deleteRecord {first second : AppActor} {recordId : Uuid} {expectedVersion : Int} :
      Repeats (.deleteRecord first recordId expectedVersion)
        (.deleteRecord second recordId expectedVersion)
  | createReminder {first second : AppActor} {title goal : String} {runAt : IsoDatetime}
      {timezone recurrence handle other : String} :
      Repeats (.createReminder first title goal runAt timezone recurrence handle)
        (.createReminder second title goal runAt timezone recurrence other)
  | rollBack {first second expectedActiveRevisionId : Uuid} :
      Repeats (.rollBack first expectedActiveRevisionId) (.rollBack second expectedActiveRevisionId)

theorem Repeats.operation (repeats : request.Repeats repeated) :
    repeated.operation = request.operation := by
  cases repeats <;> rfl

theorem Repeats.content (repeats : request.Repeats repeated) :
    repeated.content platform now = request.content platform now := by
  cases repeats <;> rfl

/-- A reminder that was near enough once stays so. -/
theorem content_later {later : Instant} {fields : Fields} (onward : now ≤ later)
    (valid : request.content platform now = .ok fields) :
    request.content platform later = .ok fields := by
  cases request with
  | createReminder actor title goal runAt timezone recurrence handle =>
      simp only [content, bind_eq_ok, require_eq_ok, pure_eq_ok, decide_eq_true_eq] at valid ⊢
      obtain ⟨reminder, clean, u, near, fields_eq⟩ := valid
      exact ⟨reminder, clean, u, le_trans near (Int.add_le_add_right onward _), fields_eq⟩
  | _ => exact valid

theorem codeApp_of_locked {app : GeneratedApp} (locked : lockedCodeApp db appId = .ok app) :
    codeApp db appId = .ok app := by
  simp only [lockedCodeApp, bind_eq_ok, require_eq_ok, pure_eq_ok, decide_eq_true_eq] at locked
  obtain ⟨row, active, _, isCode, rfl⟩ := locked
  unfold lockedActiveApp at active
  split at active
  · rename_i found
    split at active
    · rename_i isActive
      cases active
      rw [codeApp, found]
      exact if_pos ⟨isActive, isCode⟩
    · cases active
  · cases active

theorem locked_of_reauthorizeActor {actor authorised : AppActor}
    (authorises : reauthorizeActor db appId actor now = .ok authorised) :
    ∃ app, lockedCodeApp db appId = .ok app := by
  simp only [reauthorizeActor, bind_eq_ok] at authorises
  obtain ⟨app, locked, _⟩ := authorises
  exact ⟨app, locked⟩

/-- The checks pass when the actor is authorised and the request is valid. -/
theorem check_eq_ok : request.check platform db appId key now = .ok checked ↔
    request.authorise db appId now = .ok checked.actor ∧
      idempotencyKeyText key = .ok checked.key ∧
        ∃ fields, request.content platform now = .ok fields ∧
          idempotencyRequestHash request.operation fields = .ok checked.hash := by
  obtain ⟨actor, cleanKey, hash⟩ := checked
  cases request with
  | createRecord sender name data =>
      simp only [check, checkCreate, authorise, content, operation, bind_eq_ok, pure_eq_ok]
      constructor
      · rintro ⟨authorised, first, u, write, cleanEntity, named, v, object, cleaned, text, digest,
          hashed, same⟩
        cases same
        exact ⟨⟨_, first, u, write, rfl⟩, text, _, ⟨cleanEntity, named, v, object, rfl⟩, hashed⟩
      · rintro ⟨⟨authorised, first, u, write, rfl⟩, text, _, ⟨cleanEntity, named, v, object, rfl⟩,
          hashed⟩
        exact ⟨_, first, u, write, cleanEntity, named, v, object, _, text, _, hashed, rfl⟩
  | updateRecord sender recordId expectedVersion data =>
      simp only [check, checkUpdate, authorise, content, operation, bind_eq_ok, pure_eq_ok]
      constructor
      · rintro ⟨authorised, first, u, write, v, object, cleaned, text, digest, hashed, same⟩
        cases same
        exact ⟨⟨_, first, u, write, rfl⟩, text, _, ⟨v, object, rfl⟩, hashed⟩
      · rintro ⟨⟨authorised, first, u, write, rfl⟩, text, _, ⟨v, object, rfl⟩, hashed⟩
        exact ⟨_, first, u, write, v, object, _, text, _, hashed, rfl⟩
  | deleteRecord sender recordId expectedVersion =>
      simp only [check, checkDelete, authorise, content, operation, bind_eq_ok, pure_eq_ok]
      constructor
      · rintro ⟨authorised, first, u, write, cleaned, text, digest, hashed, same⟩
        cases same
        exact ⟨⟨_, first, u, write, rfl⟩, text, _, rfl, hashed⟩
      · rintro ⟨⟨authorised, first, u, write, rfl⟩, text, _, rfl, hashed⟩
        exact ⟨_, first, u, write, _, text, _, hashed, rfl⟩
  | createReminder sender title goal runAt timezone recurrence handle =>
      simp only [check, checkReminder, authorise, content, operation, bind_eq_ok, pure_eq_ok]
      constructor
      · rintro ⟨authorised, first, u, may, _, _, reminder, clean, v, near, cleaned, text, digest,
          hashed, same⟩
        cases same
        exact ⟨⟨_, first, u, may, rfl⟩, text, _, ⟨reminder, clean, v, near, rfl⟩, hashed⟩
      · rintro ⟨⟨authorised, first, u, may, rfl⟩, text, _, ⟨reminder, clean, v, near, rfl⟩, hashed⟩
        obtain ⟨app, locked⟩ := locked_of_reauthorizeActor first
        have looked : discard (codeApp db appId) = .ok () := by
          rw [codeApp_of_locked locked]
          rfl
        exact ⟨_, first, u, may, (), looked, reminder, clean, v, near, _, text, _, hashed, rfl⟩
  | rollBack userId expectedActiveRevisionId =>
      simp only [check, checkRollback, rollbackHash, authorise, content, operation, bind_eq_ok,
        pure_eq_ok]
      constructor
      · rintro ⟨authorised, first, cleaned, text, digest, hashed, same⟩
        cases same
        exact ⟨first, text, _, rfl, hashed⟩
      · rintro ⟨first, text, _, rfl, hashed⟩
        exact ⟨_, first, _, text, _, hashed, rfl⟩

/-! ## Answers -/

theorem answer_detached :
    request.answer platform appId event.detached hash =
      request.answer platform appId event hash := by
  cases request <;> rfl

theorem answer_congr (sameOperation : repeated.operation = request.operation) :
    repeated.answer platform appId event hash = request.answer platform appId event hash := by
  cases request <;> cases repeated <;> first
    | rfl
    | simp [operation] at sameOperation

/-- An event that answers a request is of its operation, and has its hash. -/
theorem answer_eq_ok (answered : request.answer platform appId event hash = .ok response) :
    event.operation = some request.operation ∧ event.requestHash = some hash := by
  have replays : ∃ fields, replayResponse event request.operation hash = .ok fields := by
    cases request with
    | createRecord | updateRecord =>
        simp only [answer, storedRecordFromEvent, bind_eq_ok] at answered
        exact answered.imp fun _ found => found.1
    | deleteRecord =>
        cases replayed : replayResponse event "records.delete" hash with
        | ok fields => exact ⟨fields, replayed⟩
        | error error =>
            rw [answer, replayed] at answered
            cases answered
    | createReminder =>
        simp only [answer, storedTaskFromEvent, bind_eq_ok] at answered
        exact answered.imp fun _ found => found.1
    | rollBack =>
        simp only [answer, storedRollbackFromEvent, bind_eq_ok] at answered
        exact answered.imp fun _ found => found.1
  obtain ⟨fields, replayed⟩ := replays
  rw [replayResponse] at replayed
  split at replayed
  · cases replayed
  · rename_i same
    rw [not_or, not_not, not_not] at same
    exact same

/-- The error of a key that belongs to another request. -/
def keyReused : CodeAppError :=
  .conflict "This idempotency key was already used for a different app mutation"

theorem answer_eq_keyReused
    (differs : event.operation ≠ some request.operation ∨ event.requestHash ≠ some hash) :
    request.answer platform appId event hash = .error keyReused := by
  have refused : replayResponse event request.operation hash = .error keyReused := if_pos differs
  cases request with
  | createRecord | updateRecord =>
      rw [operation] at refused
      rw [answer, storedRecordFromEvent, refused]
      rfl
  | deleteRecord =>
      rw [operation] at refused
      rw [answer, refused]
      rfl
  | createReminder =>
      rw [operation] at refused
      rw [answer, storedTaskFromEvent, refused]
      rfl
  | rollBack =>
      rw [operation] at refused
      rw [answer, storedRollbackFromEvent, refused]
      rfl

end MutationRequest

/-! ## The event behind a success -/

/-- The key of an app belongs to a request that was answered with a response. -/
structure Kept (platform : Platform) (appId : Uuid) (request : MutationRequest)
    (checked : Checked) (response : MutationResponse) (db : AppsDb) : Prop where
  event : ∃ event, eventByKey db appId checked.key = some event ∧
    request.answer platform appId event checked.hash = .ok response

/-- A success leaves its key behind. -/
theorem kept_of_mutate {first : AppsDb}
    (succeeded : mutate platform db appId key now request = .ok (response, first))
    (fits : response.Fits) :
    ∃ checked, request.check platform db appId key now = .ok checked ∧
      Kept platform appId request checked response first := by
  obtain ⟨checked, checks, ⟨event, found, rfl, answered⟩ | ⟨absent, performed⟩⟩ :=
    mutate_eq_ok succeeded
  · exact ⟨checked, checks, ⟨event, found, answered⟩⟩
  · simp only [perform, bind_eq_ok] at performed
    obtain ⟨content, _, _, _, writes⟩ := performed
    obtain ⟨event, appends, eventOf⟩ := appends_write writes
    rw [← eventOf.ofApp, ← eventOf.key] at absent
    obtain ⟨stored, found, detached⟩ := appends.eventByKey_new absent
    rw [eventOf.ofApp, eventOf.key] at found
    refine ⟨checked, checks, ⟨stored, found, ?_⟩⟩
    rw [← MutationRequest.answer_detached, detached]
    exact eventOf.answer fits rfl

theorem Kept.appends {added : List GeneratedAppEvent}
    (kept : Kept platform appId request checked response db) (appends : Appends db after added) :
    Kept platform appId request checked response after := by
  obtain ⟨event, found, answered⟩ := kept.event
  obtain ⟨later, laterFound, detached⟩ := appends.eventByKey found
  refine ⟨later, laterFound, ?_⟩
  rw [← MutationRequest.answer_detached, detached, MutationRequest.answer_detached]
  exact answered

/-- A call with a key that was used is answered from the event, and changes nothing. -/
theorem mutate_of_event (checks : request.check platform db appId key now = .ok checked)
    (found : eventByKey db appId checked.key = some event) :
    mutate platform db appId key now request =
      (request.answer platform appId event checked.hash).map fun response => (response, db) := by
  rw [mutate_eq, onceOnly, checks]
  simp only [bind, Except.bind, found]
  cases request.answer platform appId event checked.hash <;> rfl

/-- The same request is answered with the same response. -/
theorem Kept.replays {again : Checked} {laterKey : String}
    (kept : Kept platform appId request checked response db)
    (checks : repeated.check platform db appId laterKey now = .ok again)
    (sameKey : again.key = checked.key) (sameHash : again.hash = checked.hash)
    (sameOperation : repeated.operation = request.operation) :
    mutate platform db appId laterKey now repeated = .ok (response, db) := by
  obtain ⟨event, found, answered⟩ := kept.event
  rw [← sameKey] at found
  rw [mutate_of_event checks found, sameHash, MutationRequest.answer_congr sameOperation, answered]
  rfl

/-- Another request is refused. -/
theorem Kept.refuses {again : Checked} {laterKey : String}
    (kept : Kept platform appId request checked response db)
    (checks : repeated.check platform db appId laterKey now = .ok again)
    (sameKey : again.key = checked.key)
    (differs : repeated.operation ≠ request.operation ∨ again.hash ≠ checked.hash) :
    mutate platform db appId laterKey now repeated = .error MutationRequest.keyReused := by
  obtain ⟨event, found, answered⟩ := kept.event
  obtain ⟨operation_eq, hash_eq⟩ := MutationRequest.answer_eq_ok answered
  rw [← sameKey] at found
  rw [mutate_of_event checks found, MutationRequest.answer_eq_keyReused]
  · rfl
  · rw [operation_eq, hash_eq, Ne, Ne, Option.some.injEq, Option.some.injEq]
    exact differs.imp Ne.symm Ne.symm

end DotBackend.Apps
