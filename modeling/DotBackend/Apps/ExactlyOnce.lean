import DotBackend.Apps.Idempotency
import DotBackend.Apps.RecordUpdates

/-!
# Mutations exactly once

The law of idempotency keys over runs. After the first success with a key, whatever is called
in between, the same request is answered with the response of the first one; a request of
another operation or content is refused; and no call with the key changes anything. Between
concurrent mutations too, one at most is performed under a key.
-/

namespace DotBackend.Apps

open Data DotBackend.Schedules Transaction Transition

variable {platform : Platform}

/-- The first success of a request with a key, and a state of the app since. -/
structure Succeeded (platform : Platform) (appId : Uuid) (key : String) (now : Instant)
    (request : MutationRequest) (response : MutationResponse) (later : AppsDb) : Prop where
  fits : response.Fits
  since : ∃ db first, mutate platform db appId key now request = .ok (response, first) ∧
    Run (callStep platform) apart first later

section Success

variable {appId : Uuid} {key : String} {now again : Instant} {request other : MutationRequest}
  {response : MutationResponse} {later : AppsDb}

/-- The key still belongs to the request. -/
theorem Succeeded.kept (succeeded : Succeeded platform appId key now request response later) :
    ∃ checked fields, idempotencyKeyText key = .ok checked.key ∧
      request.content platform now = .ok fields ∧
        idempotencyRequestHash request.operation fields = .ok checked.hash ∧
          Kept platform appId request checked response later := by
  rcases succeeded.since with ⟨db, first, success, run⟩
  rcases kept_of_mutate success succeeded.fits with ⟨checked, checks, kept⟩
  rcases MutationRequest.check_eq_ok.mp checks with ⟨_, keyText, fields, content, hashed⟩
  rcases appends_run run with ⟨added, appends⟩
  exact ⟨checked, fields, keyText, content, hashed, kept.appends appends⟩

theorem hash_eq_sha256 {operation hash : String} {fields : Fields}
    (hashed : idempotencyRequestHash operation fields = .ok hash) :
    hash = sha256 (Json.dumps (requestEnvelope operation fields)) := by
  unfold idempotencyRequestHash at hashed
  split at hashed
  · cases hashed
    rfl
  · cases hashed

/-- The same request is answered with the same response, and changes nothing. -/
theorem Succeeded.replays {repeated : MutationRequest} {actor : AppActor}
    (succeeded : Succeeded platform appId key now request response later)
    (repeats : request.Repeats repeated) (onward : now ≤ again)
    (authorised : repeated.authorise later appId again = .ok actor) :
    mutate platform later appId key again repeated = .ok (response, later) := by
  rcases succeeded.kept with ⟨checked, fields, keyText, content, hashed, kept⟩
  have checks : repeated.check platform later appId key again =
      .ok ⟨actor, checked.key, checked.hash⟩ := by
    apply MutationRequest.check_eq_ok.mpr
    refine ⟨authorised, keyText, fields, ?_, ?_⟩
    · rw [repeats.content]
      exact MutationRequest.content_later onward content
    · rw [repeats.operation]
      exact hashed
  exact kept.replays checks rfl rfl repeats.operation

/-- A request with the key that passes its checks and has another hash is refused. -/
theorem Succeeded.refuses {otherKey : String} {otherChecked : Checked} {fields : Fields}
    (succeeded : Succeeded platform appId key now request response later)
    (sameKey : idempotencyKeyText otherKey = idempotencyKeyText key)
    (checks : other.check platform later appId otherKey again = .ok otherChecked)
    (content : request.content platform now = .ok fields)
    (differs : other.operation ≠ request.operation ∨
      otherChecked.hash ≠ sha256 (Json.dumps (requestEnvelope request.operation fields))) :
    mutate platform later appId otherKey again other = .error MutationRequest.keyReused := by
  rcases succeeded.kept with ⟨checked, stored, keyText, storedContent, hashed, kept⟩
  cases content.symm.trans storedContent
  apply kept.refuses checks
  · have otherText := (MutationRequest.check_eq_ok.mp checks).2.1
    rw [sameKey, keyText] at otherText
    exact (Except.ok.inj otherText).symm
  · rw [hash_eq_sha256 hashed]
    exact differs

/-- No success with the key changes anything any more. -/
theorem Succeeded.settled {otherKey : String} {second : MutationResponse} {after : AppsDb}
    (succeeded : Succeeded platform appId key now request response later)
    (sameKey : idempotencyKeyText otherKey = idempotencyKeyText key)
    (repeated : mutate platform later appId otherKey again other = .ok (second, after)) :
    after = later := by
  rcases succeeded.kept with ⟨checked, _, keyText, _, _, kept⟩
  rcases kept.event with ⟨event, found, _⟩
  rcases mutate_eq_ok repeated with ⟨otherChecked, checks, ⟨_, _, same, _⟩ | ⟨absent, _⟩⟩
  · exact same
  · have otherText := (MutationRequest.check_eq_ok.mp checks).2.1
    rw [sameKey, keyText] at otherText
    rw [← Except.ok.inj otherText, found] at absent
    cases absent

end Success

/-- What a key promises. -/
structure ExactlyOnce (platform : Platform) : Prop where
  /-- The same request of an actor who is authorised is answered with the first response. -/
  replays : ∀ {appId key now request response later},
    Succeeded platform appId key now request response later →
      ∀ {repeated again actor}, request.Repeats repeated → now ≤ again →
        repeated.authorise later appId again = .ok actor →
          mutate platform later appId key again repeated = .ok (response, later)
  /-- A request of another operation that passes its own checks is refused. -/
  otherOperation : ∀ {appId key now request response later},
    Succeeded platform appId key now request response later →
      ∀ {other otherKey again checked}, idempotencyKeyText otherKey = idempotencyKeyText key →
        other.check platform later appId otherKey again = .ok checked →
          other.operation ≠ request.operation →
            mutate platform later appId otherKey again other = .error MutationRequest.keyReused
  /-- So is one of another content, where the digest tells the two encodings apart. -/
  otherContent : ∀ {appId key now request response later},
    Succeeded platform appId key now request response later →
      ∀ {other otherKey again checked fields otherFields},
        idempotencyKeyText otherKey = idempotencyKeyText key →
          other.check platform later appId otherKey again = .ok checked →
            request.content platform now = .ok fields →
              other.content platform again = .ok otherFields →
                Json.canonical (requestEnvelope request.operation fields) ≠
                  Json.canonical (requestEnvelope other.operation otherFields) →
                (sha256 (Json.dumps (requestEnvelope request.operation fields)) =
                    sha256 (Json.dumps (requestEnvelope other.operation otherFields)) →
                  Json.dumps (requestEnvelope request.operation fields) =
                    Json.dumps (requestEnvelope other.operation otherFields)) →
                  mutate platform later appId otherKey again other =
                    .error MutationRequest.keyReused
  /-- After the first success no call with the key changes anything. -/
  settled : ∀ {appId key now request response later},
    Succeeded platform appId key now request response later →
      ∀ {other otherKey again second after},
        idempotencyKeyText otherKey = idempotencyKeyText key →
          mutate platform later appId otherKey again other = .ok (second, after) → after = later
  /-- Concurrent mutations are performed under distinct keys, none of which was used. -/
  once : ∀ {start : MutationDb}, start.Fresh →
    ∀ {system}, MutationRun platform (System.idle start) system →
      (system.database.performed.map Performed.eventKey).Nodup ∧
        ∀ key ∈ system.database.performed.map Performed.eventKey, key ∉ start.tables.eventKeys

theorem mutations_exactly_once (platform : Platform) : ExactlyOnce platform where
  replays := by
    intro appId key now request response later succeeded repeated again actor repeats onward
      authorised
    exact succeeded.replays repeats onward authorised
  otherOperation := by
    intro appId key now request response later succeeded other otherKey again checked sameKey checks
      differs
    rcases succeeded.kept with ⟨_, fields, _, content, _⟩
    exact succeeded.refuses sameKey checks content (Or.inl differs)
  otherContent := by
    intro appId key now request response later succeeded other otherKey again checked fields
      otherFields sameKey checks content otherContent differs resists
    apply succeeded.refuses sameKey checks content
    apply Or.inr
    rcases MutationRequest.check_eq_ok.mp checks with ⟨_, _, stored, storedContent, hashed⟩
    cases otherContent.symm.trans storedContent
    rw [hash_eq_sha256 hashed]
    intro sameHash
    exact differs ((Json.dumps_eq_iff _ _).mp (resists sameHash.symm))
  settled := by
    intro appId key now request response later succeeded other otherKey again second after sameKey
      repeated
    exact succeeded.settled sameKey repeated
  once := by
    intro start fresh system run
    rcases extends_of_run fresh.sound run with ⟨more, extends_⟩
    have performed : system.database.performed = more := by
      rw [extends_.performed]
      change start.performed ++ more = more
      rw [fresh.unused, List.nil_append]
    have unique := extends_.nodup
    rw [extends_.events, List.nodup_append] at unique
    rw [performed]
    constructor
    · exact unique.2.1
    · intro key keyMem used
      exact unique.2.2 key used key keyMem rfl

/-- A call that a check of its data refused. -/
def isInvalid {α : Type} : Except CodeAppError α → Bool
  | .error (.validation _) => true
  | _ => false

/-- The checks of a request come before its key is looked up: an update with a key that
belongs to another one is told that its data are not valid. -/
theorem key_is_looked_up_late :
    ∃ response first error,
      mutate Platform.ascii habitTables 1 "first" 0 (habitUpdate "run") = .ok (response, first) ∧
        mutate Platform.ascii first 1 "first" 0 (.updateRecord habitOwner 12 1 (.arr [])) =
          .error (.validation error) := by
  have runs : (mutate Platform.ascii habitTables 1 "first" 0 (habitUpdate "run")).toOption.any
      (fun answer => isInvalid (mutate Platform.ascii answer.2 1 "first" 0
        (.updateRecord habitOwner 12 1 (.arr [])))) = true := by
    decide
  rw [Option.any_eq_true] at runs
  rcases runs with ⟨⟨response, first⟩, succeeded, invalid⟩
  unfold isInvalid at invalid
  split at invalid
  · rename_i error refused
    exact ⟨response, first, error, ok_of_toOption succeeded, refused⟩
  · cases invalid

end DotBackend.Apps
