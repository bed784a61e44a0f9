import DotBackend.Apps.Conformance
import DotBackend.Builder.RevisionBlueprints
import DotBackend.Data.JsonSizes
import DotBackend.Data.Raises

/-!
# Whether a deployed app can be revised

A revision is queued with the manifest, the seeds and the sources of the one before it, as far as
they fit. Each part has its own limit, but the limits add up to more than the limit of the whole
request, and the paths of the sources have none.
-/

namespace DotBackend.Builder

open Data Apps

/-- An error of `_require_json_size`. -/
def isSizeError : CodeAppError → Bool
  | .validation message => " is too large".toList.isSuffixOf message.toList
  | _ => false

/-! ## The context of a revision -/

/-- The paths that stand for sources that are left out. -/
def omittedPaths (revision : GeneratedAppRevision) : List String :=
  ((revision.sourceFiles.map Prod.fst).insertionSort fun a b => a ≤ b).take 64

/-- The bytes of the context apart from its seeds and sources. -/
def fixedContextBytes (revision : GeneratedAppRevision) : Nat :=
  76 + jsonBytes (.str (String.ofList (uuidText revision.id))) +
    jsonBytes (.int revision.revisionNumber) + jsonBytes revision.manifest

/-- The bytes of sources that are left out; there is at least one. -/
def omittedFilesBytes (revision : GeneratedAppRevision) : Nat :=
  26 + ((omittedPaths revision).map fun path => Json.literalBytes path + 1).sum

/-- The bytes of the context: with all, without the sources, or without the seeds as well. -/
def contextBytes (revision : GeneratedAppRevision) : Nat :=
  let fixed := fixedContextBytes revision
  let seeds := jsonBytes (.obj revision.seedData)
  let files := jsonBytes (.obj revision.sourceFiles)
  let omitted := omittedFilesBytes revision
  if fixed + seeds + files ≤ 768000 then fixed + seeds + files
  else if fixed + seeds + omitted ≤ 768000 then fixed + seeds + omitted
  else fixed + 16 + omitted

section Context

variable {revision : GeneratedAppRevision}

/-- The bytes of a context with the given seeds and sources. -/
theorem byteLength_context (seeds files : Json) :
    jsonBytes (.obj [("revision_id", .str (String.ofList (uuidText revision.id))),
      ("revision_number", .int revision.revisionNumber), ("manifest", revision.manifest),
      ("seed_data", seeds), ("source_files", files)]) =
        fixedContextBytes revision + jsonBytes seeds + jsonBytes files := by
  have keys : Json.literalBytes "revision_id" = 13 ∧ Json.literalBytes "revision_number" = 17 ∧
      Json.literalBytes "manifest" = 10 ∧ Json.literalBytes "seed_data" = 11 ∧
      Json.literalBytes "source_files" = 14 := by decide
  rw [jsonBytes, Json.byteLength_obj (List.cons_ne_nil _ _)]
  simp only [List.map_cons, List.map_nil, List.sum_cons, List.sum_nil, keys, fixedContextBytes,
    jsonBytes]
  omega

theorem byteLength_omittedFiles (nonempty : revision.sourceFiles ≠ []) :
    jsonBytes (.obj [("omitted", .bool true),
      ("paths", .arr ((omittedPaths revision).map .str))]) = omittedFilesBytes revision := by
  have somePath : (omittedPaths revision).map Json.str ≠ [] := by
    intro isNil
    have counted := congrArg List.length isNil
    rw [List.length_map, omittedPaths, List.length_take, List.length_insertionSort,
      List.length_map, List.length_nil] at counted
    have positive := List.length_pos_iff.mpr nonempty
    omega
  have keys : Json.literalBytes "omitted" = 9 ∧ Json.literalBytes "paths" = 7 := by decide
  have isTrue : Json.byteLength (.bool true) = 4 := by decide
  rw [jsonBytes, Json.byteLength_obj (List.cons_ne_nil _ _)]
  simp only [List.map_cons, List.map_nil, List.sum_cons, List.sum_nil, keys, isTrue,
    Json.byteLength_arr somePath, List.map_map, Function.comp_def, Json.byteLength_str,
    omittedFilesBytes]
  omega

/-- The context is made, of the size that it has, when it fits, and refused otherwise. -/
theorem revisionContext_cases (nonempty : revision.sourceFiles ≠ []) :
    (contextBytes revision ≤ 768000 ∧ ∃ context, revisionContext revision = .ok context ∧
      jsonBytes (.obj context) = contextBytes revision) ∨
    (768000 < contextBytes revision ∧ revisionContext revision =
      .error (.validation "Base revision context is too large")) := by
  have bare : jsonBytes (.obj [("omitted", .bool true)]) = 16 := by decide
  have omitted := byteLength_omittedFiles nonempty
  rw [omittedPaths] at omitted
  unfold revisionContext contextBytes
  dsimp only
  rw [byteLength_context, byteLength_context, omitted]
  split
  · rename_i fits
    exact Or.inl ⟨fits, _, rfl, byteLength_context _ _⟩
  · split
    · rename_i fits
      refine Or.inl ⟨fits, _, rfl, ?_⟩
      rw [byteLength_context, omitted]
    · rw [requireJsonSize, byteLength_context, omitted, bare]
      by_cases fits : fixedContextBytes revision + 16 + omittedFilesBytes revision ≤ 768000
      · rw [decide_eq_true fits]
        refine Or.inl ⟨fits, _, rfl, ?_⟩
        rw [byteLength_context, bare, omitted]
      · rw [decide_eq_false fits]
        exact Or.inr ⟨Nat.lt_of_not_le fits, rfl⟩

end Context

/-! ## The request -/

/-- The request of a revision, with a blueprint of the given content. -/
def RevisionContent.request (content : RevisionContent) : Fields :=
  [("blueprint", .obj content.blueprint),
    ("app_metadata", .obj [("title", .str content.title),
      ("description", .str content.description)])]

/-- The bytes of the request when its context has the given ones. -/
def requestBytesWith (content : RevisionContent) (contextBytes : Nat) : Nat :=
  210 + 2 * Json.literalBytes content.title + 2 * Json.literalBytes content.description +
    Json.literalBytes content.purpose + Json.literalBytes content.layout +
    Json.literalBytes content.accent + Json.literalBytes content.productBrief +
    Json.literalBytes content.visualDirection + Json.literalBytes content.change +
    jsonBytes (.obj content.manifest) + jsonBytes (.obj content.seedData) + contextBytes

theorem byteLength_request (content : RevisionContent) : jsonBytes (.obj content.request) =
    requestBytesWith content (jsonBytes (.obj content.context)) := by
  have keys : Json.literalBytes "title" = 7 ∧ Json.literalBytes "description" = 13 ∧
      Json.literalBytes "purpose" = 9 ∧ Json.literalBytes "layout" = 8 ∧
      Json.literalBytes "accent" = 8 ∧ Json.literalBytes "product_brief" = 15 ∧
      Json.literalBytes "visual_direction" = 18 ∧ Json.literalBytes "manifest" = 10 ∧
      Json.literalBytes "seed_data" = 11 ∧ Json.literalBytes "revision_request" = 18 ∧
      Json.literalBytes "base_revision" = 15 ∧ Json.literalBytes "blueprint" = 11 ∧
      Json.literalBytes "app_metadata" = 14 := by decide
  rw [jsonBytes, RevisionContent.request, Json.byteLength_obj (List.cons_ne_nil _ _),
    RevisionContent.blueprint]
  simp only [List.map_cons, List.map_nil, List.sum_cons, List.sum_nil, keys, requestBytesWith,
    Json.byteLength_obj (List.cons_ne_nil _ _), Json.byteLength_str, jsonBytes]
  omega

/-! ## The checks around it -/

section Checks

theorem avoids_require {kind : CodeAppError → Prop} {condition : Bool} {error : CodeAppError}
    (otherKind : ¬kind error) : Avoids kind (require condition error) := by
  cases condition with
  | true => exact avoids_ok ()
  | false => exact avoids_error.mpr otherKind

theorem avoids_requireJsonSize {value : Json} {field : String} {bound : Nat}
    (isSize : isSizeError (.validation (field ++ " is too large")) = true) :
    Avoids (isSizeError ·) (requireJsonSize value field bound) ↔ jsonBytes value ≤ bound := by
  have only : RaisesOnly (isSizeError ·) (requireJsonSize value field bound) :=
    raisesOnly_require isSize
  rw [only.avoids_iff]
  simp [requireJsonSize]

/-- A check of a size in front of other steps. -/
theorem avoids_requireJsonSize_bind {α : Type} {value : Json} {field : String} {bound : Nat}
    {next : Unit → Except CodeAppError α}
    (isSize : isSizeError (.validation (field ++ " is too large")) = true) :
    Avoids (isSizeError ·) (requireJsonSize value field bound >>= next) ↔
      jsonBytes value ≤ bound ∧ Avoids (isSizeError ·) (next ()) := by
  rw [avoids_bind, avoids_requireJsonSize isSize]
  constructor
  · rintro ⟨fits, later⟩
    exact ⟨fits, later () (by simp [requireJsonSize, fits])⟩
  · rintro ⟨fits, later⟩
    exact ⟨fits, fun _ _ => later⟩

theorem avoids_cleanKey (key : Option String) : Avoids (isSizeError ·) (cleanKey key) := by
  cases key with
  | none => exact avoids_ok none
  | some key =>
      rw [cleanKey, avoids_bind]
      refine ⟨?_, fun clean _ => avoids_pure (some clean)⟩
      rw [text]
      split
      · exact avoids_error.mpr (by decide)
      · split
        · exact avoids_error.mpr (by decide)
        · exact avoids_ok _

theorem avoids_validatedRequestHash (hash : Option String) :
    Avoids (isSizeError ·) (validatedRequestHash hash) := by
  cases hash with
  | none => exact avoids_ok none
  | some hash =>
      rw [validatedRequestHash]
      split
      · exact avoids_ok _
      · exact avoids_error.mpr (by decide)

/-- The checks of a request raise an error of its size exactly when it is too large. -/
theorem avoids_cleanQueueRequest {queue : QueueRequest} (nonempty : queue.request ≠ []) :
    Avoids (isSizeError ·) (cleanQueueRequest queue) ↔
      jsonBytes (.obj queue.request) ≤ 1000000 := by
  have isRequest : require (!queue.request.isEmpty)
      (CodeAppError.validation "Build request must be a non-empty object") = .ok () := by
    simp [nonempty]
  rw [cleanQueueRequest, avoids_bind_of_ok isRequest,
    avoids_requireJsonSize_bind (by decide)]
  constructor
  · exact And.left
  · intro fits
    refine ⟨fits, ?_⟩
    rw [avoids_bind]
    refine ⟨avoids_cleanKey _, ?_⟩
    intro key _
    rw [avoids_bind]
    refine ⟨avoids_validatedRequestHash _, ?_⟩
    intro given _
    cases given with
    | some hash => exact avoids_pure (key, hash)
    | none =>
        dsimp only
        rw [avoids_bind]
        refine ⟨?_, fun hash _ => avoids_pure (key, hash)⟩
        rw [idempotencyRequestHash]
        split
        · exact avoids_ok _
        · exact avoids_error.mpr (by decide)

theorem avoids_authorize (db : AppsDb) (app : GeneratedApp) (userId : Uuid) :
    Avoids (isSizeError ·) (authorizeUserForLockedApp db app userId) := by
  unfold authorizeUserForLockedApp
  dsimp only
  split
  · exact avoids_ok _
  · split
    · exact avoids_error.mpr (by decide)
    · split
      · exact avoids_error.mpr (by decide)
      · exact avoids_ok _

theorem avoids_lockedCodeApp (db : AppsDb) (appId : Uuid) :
    Avoids (isSizeError ·) (lockedCodeApp db appId) := by
  rw [lockedCodeApp, avoids_bind]
  constructor
  · unfold lockedActiveApp
    split
    · split
      · exact avoids_ok _
      · exact avoids_error.mpr (by decide)
    · exact avoids_error.mpr (by decide)
  · intro app _
    rw [avoids_bind]
    exact ⟨avoids_require (by decide), fun _ _ => avoids_pure app⟩

/-- Queuing raises an error of size exactly when the request is too large. -/
theorem avoids_queueCodeAppRevision {db : AppsDb} {queue : QueueRequest} {now : Instant}
    (nonempty : queue.request ≠ []) :
    Avoids (isSizeError ·) (queueCodeAppRevision db queue now) ↔
      jsonBytes (.obj queue.request) ≤ 1000000 := by
  have cleaned := avoids_cleanQueueRequest nonempty
  rw [queueCodeAppRevision, avoids_bind, startQueue, avoids_bind, cleaned]
  constructor
  · rintro ⟨⟨fits, _⟩, _⟩
    exact fits
  · intro fits
    refine ⟨⟨fits, ?_⟩, ?_⟩
    · rintro ⟨key, hash⟩ _
      simp only [avoids_bind]
      refine ⟨avoids_lockedCodeApp db _, fun app _ => ⟨avoids_authorize db app _,
        fun actor _ => ⟨avoids_require (by decide), ?_⟩⟩⟩
      intro _ _
      split
      · rw [avoids_bind]
        exact ⟨avoids_require (by decide), fun _ _ => avoids_pure _⟩
      · rw [avoids_bind]
        exact ⟨avoids_require (by decide), fun _ _ => avoids_pure none⟩
    · intro started _
      cases started with
      | some replay => exact avoids_pure _
      | none =>
          dsimp only
          rw [avoids_bind, newJob, avoids_bind, cleaned]
          refine ⟨⟨fits, ?_⟩, ?_⟩
          · rintro ⟨key, hash⟩ _
            simp only [enforceUserAppBuildQuota, avoids_bind]
            exact ⟨⟨avoids_require (by decide), fun _ _ => avoids_require (by decide)⟩,
              fun _ _ => avoids_pure _⟩
          · intro job _
            split
            · exact avoids_pure _
            · rw [avoids_bind, refusedJob, avoids_bind, cleaned]
              refine ⟨⟨fits, ?_⟩, fun _ _ => avoids_pure _⟩
              rintro ⟨key, hash⟩ _
              dsimp only
              split
              · rw [avoids_bind]
                exact ⟨avoids_require (by decide), fun _ _ => avoids_pure _⟩
              · exact avoids_error.mpr (by decide)

end Checks

/-! ## Revisions -/

/-- A revision that a build left behind; only its status and the time of its seeds may have changed
since. -/
def CompletedRevision (revision : GeneratedAppRevision) : Prop :=
  ∃ before app job result made, checkBuildResult result = .ok () ∧
    newRevision before app job result = .ok made ∧
    revision = { made with status := revision.status, seedAppliedAt := revision.seedAppliedAt }

/-- The seeds of the blueprint that the active revision was built from. -/
def previousSeeds (db : AppsDb) (request : OwnedRevisionRequest) (revision : GeneratedAppRevision) :
    Fields :=
  jsonObject (Json.lookup (activeBlueprint db request.appId revision.id) "seed_data")

/-- The owner of an app asks for a revision of it with texts of admitted lengths, and without a
manifest or seeds; no build has the key of the request. -/
structure Revisable (db : AppsDb) (request : OwnedRevisionRequest) (owned : OwnedCodeApp)
    (revision : GeneratedAppRevision) (title description change direction : String) : Prop where
  manifest : request.manifest = none
  seedData : request.seedData = none
  keyed : ∃ key hash, cleanKey request.idempotencyKey = .ok key ∧
    validatedRequestHash request.idempotencyRequestHash = .ok hash ∧
    ∀ clean ∈ key, buildByIdempotencyKey db clean = none
  gets : getOwnedCodeApp db request.appId request.userId = .ok owned
  active : owned.revision = some revision
  changed : text (.str request.revisionRequest) "revision_request" 4000 = .ok change
  titled : givenText request.title "title" 120 owned.app.title = .ok title
  described : cleanDescription owned.app request.description = .ok description
  directed : givenText request.visualDirection "visual_direction" 1000 (fallbackText
    (member (activeBlueprint db request.appId revision.id) "visual_direction")
      "purpose-native and mobile-first" 1000) = .ok direction

/-- What is queued for the revision, apart from its context. -/
def inheritedContent (db : AppsDb) (request : OwnedRevisionRequest)
    (revision : GeneratedAppRevision) (title description change direction : String) :
    RevisionContent :=
  revisionContent (activeBlueprint db request.appId revision.id)
    (jsonObject (some revision.manifest)) (previousSeeds db request revision) [] title description
    change direction

section Revisions

variable {unicode : Unicode} {db : AppsDb} {request : OwnedRevisionRequest} {owned : OwnedCodeApp}
  {revision : GeneratedAppRevision} {title description change direction : String} {now : Instant}

theorem CompletedRevision.manifest (completed : CompletedRevision revision) :
    validateManifest revision.manifest = .ok () := by
  rcases completed with ⟨before, app, job, result, made, checks, makes, same⟩
  simp only [newRevision, bind_eq_ok, pure_eq_ok] at makes
  rcases makes with ⟨_, _, _, _, _, _, _, _, _, _, rfl⟩
  simp only [checkBuildResult, bind_eq_ok] at checks
  rcases checks with ⟨_, valid, _⟩
  rw [same]
  exact valid

theorem CompletedRevision.sourceFiles (completed : CompletedRevision revision) :
    revision.sourceFiles ≠ [] := by
  rcases completed with ⟨before, app, job, result, made, checks, makes, same⟩
  simp only [newRevision, bind_eq_ok, pure_eq_ok] at makes
  rcases makes with ⟨_, _, _, _, _, _, _, _, _, _, rfl⟩
  simp only [checkBuildResult, bind_eq_ok, require_eq_ok] at checks
  rcases checks with ⟨_, _, _, _, _, _, _, _, _, filled, _⟩
  rw [same]
  simpa using filled

/-- With all texts accepted, only the sizes of the seeds and of the context are left to check. -/
theorem intendedRevision_of_revisable (completed : CompletedRevision revision)
    (revisable : Revisable db request owned revision title description change direction) :
    intendedRevision unicode db owned revision request =
      requireJsonSize (.obj (previousSeeds db request revision)) "Seed data" 128000 >>= fun _ =>
        revisionContext revision >>= fun context => pure ⟨title, description,
          { inheritedContent db request revision title description change direction with
            context := context }.blueprint⟩ := by
  have described := revisable.described
  have valid := completed.manifest
  rcases obj_of_validateManifest valid with ⟨manifest, isObject⟩
  rw [isObject] at valid
  unfold intendedRevision
  rw [revisable.changed, revisable.manifest, revisable.seedData, revisable.titled]
  cases given : request.description with
  | none =>
      rw [given] at described
      cases described
      simp only [revisable.directed, isObject, valid, Option.getD_none, Option.isSome_none, bind,
        Except.bind, Bool.false_eq_true, if_false, previousSeeds, inheritedContent, revisionContent,
        RevisionContent.blueprint, jsonObject]
  | some given =>
      rw [given, cleanDescription] at described
      simp only [revisable.directed, described, isObject, valid, Option.getD_none,
        Option.isSome_none, bind, Except.bind, Bool.false_eq_true, if_false, previousSeeds,
        inheritedContent, revisionContent, RevisionContent.blueprint, jsonObject]

/-- The steps that are left to a request whose texts are accepted. -/
theorem queueOwned_of_revisable (completed : CompletedRevision revision)
    (revisable : Revisable db request owned revision title description change direction) :
    ∃ key hash, queueOwnedCodeAppRevision unicode db request now =
      requireJsonSize (.obj (previousSeeds db request revision)) "Seed data" 128000 >>= fun _ =>
        revisionContext revision >>= fun context =>
          queueCodeAppRevision db (queueRequestOf request ⟨title, description,
            { inheritedContent db request revision title description change direction with
              context := context }.blueprint⟩ key hash) now := by
  rcases revisable.keyed with ⟨key, hash, keyed, hashed, noReplay⟩
  have body : queueOwnedCodeAppRevision unicode db request now =
      queueIntendedRevision unicode db owned request key hash now := by
    rw [queueOwnedCodeAppRevision, keyed, hashed, revisable.gets]
    cases key with
    | none => rfl
    | some clean =>
        cases hash with
        | none => rfl
        | some given =>
            have isNew := noReplay clean rfl
            simp only [bind, Except.bind, isNew]
  refine ⟨key, hash, ?_⟩
  rw [body, queueIntendedRevision, revisable.active]
  dsimp only
  rw [intendedRevision_of_revisable completed revisable]
  simp only [bind_assoc, pure_bind]

/-- A revision that a build left behind can be revised without an error of size just when the seeds
that it was built with, its context and the whole request are each within their limits. -/
theorem avoids_size_errors_iff (completed : CompletedRevision revision)
    (revisable : Revisable db request owned revision title description change direction) :
    Avoids (isSizeError ·) (queueOwnedCodeAppRevision unicode db request now) ↔
      jsonBytes (.obj (previousSeeds db request revision)) ≤ 128000 ∧
      contextBytes revision ≤ 768000 ∧
      requestBytesWith (inheritedContent db request revision title description change direction)
        (contextBytes revision) ≤ 1000000 := by
  rcases @queueOwned_of_revisable unicode _ _ _ _ _ _ _ _ now completed revisable with
    ⟨key, hash, steps⟩
  rw [steps, avoids_requireJsonSize_bind (by decide)]
  rcases revisionContext_cases completed.sourceFiles with ⟨fits, context, makes, measured⟩ |
    ⟨tooLarge, refused⟩
  · rw [avoids_bind_of_ok makes, avoids_queueCodeAppRevision (List.cons_ne_nil _ _)]
    have requested := byteLength_request
      { inheritedContent db request revision title description change direction with
        context := context }
    rw [measured] at requested
    change _ ∧ jsonBytes (.obj (RevisionContent.request _)) ≤ _ ↔ _
    rw [requested]
    exact ⟨fun ⟨seedsFit, requestFits⟩ => ⟨seedsFit, fits, requestFits⟩,
      fun ⟨seedsFit, _, requestFits⟩ => ⟨seedsFit, requestFits⟩⟩
  · rw [refused]
    constructor
    · rintro ⟨_, raised⟩
      exact absurd (by decide) (avoids_error.mp raised)
    · rintro ⟨_, fits, _⟩
      omega

end Revisions

/-! ## An app and its sources -/

def habitRow : GeneratedApp := habitApp.apps.head (List.cons_ne_nil _ _)

def habitJob : GeneratedAppBuildJob := habitApp.jobs.head (List.cons_ne_nil _ _)

/-- The revision that a build of the app leaves behind with the given sources. -/
def habitRevision (files : Fields) : GeneratedAppRevision :=
  ⟨10, 1, 1, "Habits", "", .ready, habitManifest,
    [("habits", .arr [.obj [("name", .str "read")]])], none, files, habitArtifact, "1"⟩

/-- The app after that build. -/
def builtHabits (files : Fields) : AppsDb where
  __ := habitApp
  revisions := [habitRevision files]
  deployments := [⟨1, 10, none, 1⟩]
  jobs := [{ habitJob with status := .succeeded, resultRevisionId := some 10 }]

def streaksRequest : OwnedRevisionRequest :=
  ⟨7, 1, "streaks", none, none, none, none, none, none, none, none, none⟩

theorem completed_habitRevision (path : String) :
    CompletedRevision (habitRevision [(path, .null)]) := by
  refine ⟨habitApp, habitRow, habitJob, { habitBuild 3 with sourceFiles := [(path, .null)] },
    habitRevision [(path, .null)], ?_, ?_, rfl⟩
  · have rest : checkBuildResult (habitBuild 3) = .ok () := by decide +kernel
    exact rest
  · simp only [newRevision, bind_eq_ok, pure_eq_ok]
    exact ⟨"Habits", by decide, "", by decide, (), by decide, (),
      by decide, "1", by decide, rfl⟩

theorem revisable_habits (files : Fields) : Revisable (builtHabits files) streaksRequest
    ⟨habitRow, some (habitRevision files), some ⟨1, 10, none, 1⟩, ⟨.owner, some 7, none, true⟩⟩
    (habitRevision files) "Habits" "" "streaks" "purpose-native and mobile-first" where
  manifest := rfl
  seedData := rfl
  keyed := ⟨none, none, rfl, rfl, by simp⟩
  gets := by rfl
  active := rfl
  changed := by decide
  titled := rfl
  described := rfl
  directed := by
    have inherited : member (activeBlueprint (builtHabits []) 1 10) "visual_direction" = .null := by
      decide
    change givenText none _ _
      (fallbackText (member (activeBlueprint (builtHabits []) 1 10) _) _ _) = _
    rw [inherited]
    rfl

/-- An app with a short path can be revised. -/
theorem short_path_is_revised :
    Avoids (isSizeError ·) (queueOwnedCodeAppRevision Unicode.ascii
      (builtHabits [("main.tsx", .null)]) streaksRequest 0) :=
  (avoids_size_errors_iff (completed_habitRevision "main.tsx") (revisable_habits _)).mpr
    (by decide)

/-- The text of the letter `a`, repeated. -/
def repeated (length : Nat) : String := String.ofList (List.replicate length 'a')

theorem literalBytes_repeated (length : Nat) :
    Json.literalBytes (repeated length) = length + 2 := by
  have one : Json.charBytes 'a' = 1 := by decide
  rw [Json.literalBytes, repeated, String.toList_ofList, List.map_replicate, List.sum_replicate,
    one]
  simp [Nat.add_comm]

theorem contextBytes_long {path : String} (long : 768000 < Json.literalBytes path) :
    768000 < contextBytes (habitRevision [(path, .null)]) := by
  have files : 768000 < jsonBytes (.obj [(path, .null)]) := by
    rw [jsonBytes, Json.byteLength_obj (List.cons_ne_nil _ _), List.map_singleton,
      List.sum_singleton]
    dsimp only
    omega
  have omitted : 768000 < omittedFilesBytes (habitRevision [(path, .null)]) := by
    have paths : omittedPaths (habitRevision [(path, .null)]) = [path] := rfl
    rw [omittedFilesBytes, paths, List.map_singleton, List.sum_singleton]
    omega
  change 768000 < jsonBytes (.obj (habitRevision [(path, .null)]).sourceFiles) at files
  unfold contextBytes
  dsimp only
  split
  · omega
  · split
    · omega
    · omega

theorem not_revised_of_long {path : String} (long : 768000 < Json.literalBytes path) :
    queueOwnedCodeAppRevision Unicode.ascii (builtHabits [(path, .null)]) streaksRequest 0 =
      .error (.validation "Base revision context is too large") := by
  have completed := completed_habitRevision path
  have revisable := revisable_habits [(path, .null)]
  rcases @queueOwned_of_revisable Unicode.ascii _ _ _ _ _ _ _ _ 0 completed revisable with
    ⟨key, hash, steps⟩
  have refused := ((revisionContext_cases completed.sourceFiles).resolve_left fun fits =>
    Nat.not_le.mpr (contextBytes_long long) fits.1).2
  rw [steps, refused]
  have seeds : requireJsonSize (.obj (previousSeeds (builtHabits []) streaksRequest
      (habitRevision []))) "Seed data" 128000 = .ok () := by decide
  change (requireJsonSize (.obj (previousSeeds (builtHabits []) streaksRequest
    (habitRevision []))) "Seed data" 128000 >>= _) = _
  rw [seeds]
  rfl

/-- A revision whose only file has a path of 800,000 characters cannot be revised any more. -/
theorem long_path_is_not_revised :
    CompletedRevision (habitRevision [(repeated 800000, .null)]) ∧
    ∃ owned, Revisable (builtHabits [(repeated 800000, .null)]) streaksRequest owned
      (habitRevision [(repeated 800000, .null)]) "Habits" "" "streaks"
      "purpose-native and mobile-first" ∧
    queueOwnedCodeAppRevision Unicode.ascii (builtHabits [(repeated 800000, .null)])
      streaksRequest 0 = .error (.validation "Base revision context is too large") := by
  have long : 768000 < Json.literalBytes (repeated 800000) := by
    rw [literalBytes_repeated]
    omega
  exact ⟨completed_habitRevision _, _, revisable_habits _, not_revised_of_long long⟩

end DotBackend.Builder
