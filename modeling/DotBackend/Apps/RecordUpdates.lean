import DotBackend.Apps.MutationIsolation

/-!
# No lost update

Updates and deletions of records under any interleaving: every update that is performed
expected a version of its own, the version counts the updates, the content is the patched
content of the version that was expected, nothing follows a deletion, and a call that raises
has changed nothing. An update that is answered from an event is not performed again.
-/

namespace DotBackend.Apps

open Data Transaction Transition

/-! ## Patches -/

section Patches

variable {merged data : Fields} {member : String × Json} {name : String}

/-- What a member of a patch makes of its name: a `null` removes it. -/
def patchedValue (value : Json) : Option Json :=
  if value = .null then none else some value

/-- A member of a patch leaves the other names alone. -/
theorem lookup_mergeMember_of_ne (different : member.1 ≠ name) :
    Json.lookup (mergeMember merged member) name = Json.lookup merged name := by
  unfold mergeMember
  split
  · induction merged with
    | nil => rfl
    | cons first rest ih =>
        by_cases isKey : first.1 = member.1
        · rw [List.filter_cons_of_neg (by simp [isKey]), ih, Json.lookup_cons,
            if_neg (isKey ▸ different)]
        · rw [List.filter_cons_of_pos (by simp [isKey]), Json.lookup_cons, Json.lookup_cons,
            ih]
  · split
    · clear * - different
      induction merged with
      | nil => rfl
      | cons first rest ih =>
          rw [List.map_cons, Json.lookup_cons, Json.lookup_cons, ih]
          by_cases isKey : first.1 = member.1
          · rw [if_pos isKey, if_neg different, if_neg (isKey ▸ different)]
          · rw [if_neg isKey]
    · rw [Json.lookup, List.find?_append, Json.lookup, List.find?_singleton,
        if_neg (by simpa using different), Option.or_none]

theorem lookup_mergeMember_self :
    Json.lookup (mergeMember merged member) member.1 = patchedValue member.2 := by
  unfold mergeMember patchedValue
  split
  · rw [Json.lookup, List.find?_eq_none.mpr]
    · rfl
    · intro other otherMem
      simpa using (List.mem_filter.mp otherMem).2
  · split
    · rename_i _ present
      induction merged with
      | nil => cases present
      | cons first rest ih =>
          rw [List.map_cons, Json.lookup_cons]
          by_cases isKey : first.1 = member.1
          · rw [if_pos isKey, if_pos rfl]
          · rw [if_neg isKey, if_neg isKey]
            apply ih
            simpa [isKey] using present
    · rename_i _ absent
      have notFound : merged.find? (fun other => other.1 = member.1) = none := by
        rw [List.find?_eq_none]
        exact fun other otherMem isKey => absent (List.any_eq_true.mpr ⟨other, otherMem, isKey⟩)
      rw [Json.lookup, List.find?_append, notFound, Option.none_or, List.find?_singleton,
        if_pos (decide_eq_true rfl), Option.map_some]

/-- The names of a patch have its values, and are removed by `null`; the others stay. -/
theorem lookup_mergeData (unique : (data.map Prod.fst).Nodup) (current : Fields) (name : String) :
    Json.lookup (mergeData current data) name =
      match Json.lookup data name with
      | some value => patchedValue value
      | none => Json.lookup current name := by
  induction data generalizing current with
  | nil => rfl
  | cons member rest ih =>
      rw [List.map_cons, List.nodup_cons] at unique
      change Json.lookup (mergeData (mergeMember current member) rest) name = _
      rw [ih unique.2, Json.lookup_cons]
      by_cases isKey : member.1 = name
      · have notLater : Json.lookup rest name = none := by
          rw [← Option.not_isSome_iff_eq_none, Json.lookup_isSome_iff, ← isKey]
          exact unique.1
        rw [notLater, if_pos isKey, ← isKey]
        exact lookup_mergeMember_self
      · rw [if_neg isKey, lookup_mergeMember_of_ne isKey]

end Patches
/-! ## Runs -/

/-- The runs of any number of concurrent mutations. -/
abbrev MutationRun (platform : Platform) :
    System MutationDb MutationRow MutationPoint → System MutationDb MutationRow MutationPoint →
      Prop :=
  Run (System.step (mutationProtocol platform)) fun _ _ => True

/-- Tables with their keys, before the first mutation. -/
structure MutationDb.Fresh (db : MutationDb) : Prop where
  keyed : db.tables.RecordsKeyed
  unique : db.tables.eventKeys.Nodup
  unused : db.performed = []

section Runs

variable {platform : Platform} {start source : MutationDb}
  {system after later : System MutationDb MutationRow MutationPoint}
  {event : Event MutationPoint Instant}

theorem MutationDb.Fresh.sound (fresh : start.Fresh) :
    (mutationOutline platform start).Sound (System.idle start) := by
  apply Outline.sound_idle
  refine ⟨[], ?_, fresh.keyed, ?_, fresh.unique, fun id => Life.refl⟩
  · exact (List.append_nil _).symm
  · exact (List.append_nil _).symm

/-- Every state of a run may be taken as the first one. -/
theorem sound_rebase (sound : (mutationOutline platform source).Sound system) :
    (mutationOutline platform system.database).Sound system where
  exclusive := sound.exclusive
  global := by
    obtain ⟨more, extends_⟩ := sound.global
    refine ⟨[], ?_, extends_.keyed, ?_, extends_.nodup, fun id => Life.refl⟩
    · exact (List.append_nil _).symm
    · exact (List.append_nil _).symm
  local_ := sound.local_

/-- What a run adds to the state that it starts from. -/
theorem extends_of_run (sound : (mutationOutline platform source).Sound system)
    (run : MutationRun platform system later) : system.database.Faithful later.database :=
  ((sound_rebase sound).run run).global

/-- A step that performs a mutation. -/
theorem performs_of_step (sound : (mutationOutline platform source).Sound system)
    (stepped : system.step (mutationProtocol platform) event = some after) {done : Performed}
    (performed : after.database.performed = system.database.performed ++ [done]) :
    ∃ checked content now tables,
      done.request.ReadFrom system.database.tables done.appId content ∧
        done.request.write platform done.appId now checked system.database.tables content =
          .ok (done.response, tables) ∧ after.database.tables = tables := by
  rcases step_commits stepped with same | ⟨appId, checked, request, content, now, atPoint, commit, _⟩
  · rw [same, List.self_eq_append_right] at performed
    cases performed
  · obtain ⟨response, tables, writes, after_eq⟩ := commit.writes
    rw [after_eq, List.append_cancel_left_eq, List.singleton_inj] at performed
    subst performed
    exact ⟨checked, content, now, tables, (sound.local_ atPoint).2, writes, by rw [after_eq]⟩

/-- A record that is stored is the live cell of its identifier. -/
theorem cell_of_mem {db : AppsDb} (keyed : db.RecordsKeyed) {record : GeneratedAppDataRecord}
    (recordMem : record ∈ db.records) : db.cell record.id = .live record.version record.data :=
  cell_of_find (keyed.unique.find?_eq_some recordMem)

/-- The first version, where every record was at the first one. -/
theorem AppsDb.first_cell {db : AppsDb} (fromOne : ∀ stored ∈ db.records, stored.version = 1)
    (id : Uuid) : (db.cell id).first = 1 := by
  rw [cell]
  split
  · rename_i stored found
    exact fromOne stored (List.mem_of_find?_eq_some found)
  · split
    · rfl
    · rfl

theorem not_mem_of_cell_dead {db : AppsDb} {id : Uuid} (dead : db.cell id = .dead)
    {record : GeneratedAppDataRecord} (recordMem : record ∈ db.records) : record.id ≠ id := by
  intro sameId
  rw [AppsDb.cell] at dead
  split at dead
  · cases dead
  · rename_i absent
    exact List.find?_eq_none.mp absent record recordMem (decide_eq_true sameId)

/-- The record under an identifier, where it is one of the app. -/
theorem record?_of_find {db : AppsDb} {appId recordId : Uuid} {record : GeneratedAppDataRecord}
    (found : db.records.find? (fun row => row.id = recordId) = some record)
    (ofApp : record.appId = appId) : db.record? appId recordId = some record := by
  rw [AppsDb.record?, List.find?_eq_some_iff_append] at *
  obtain ⟨isRecord, earlier, others, records_eq, notEarlier⟩ := found
  refine ⟨by simpa [ofApp] using isRecord, earlier, others, records_eq, ?_⟩
  intro row rowMem
  have different := notEarlier row rowMem
  simp only [Bool.not_eq_true', decide_eq_false_iff_not, not_and] at different ⊢
  exact fun sameId => absurd sameId different

theorem recordHistory_append (performed more : List Performed) (id : Uuid) :
    recordHistory (performed ++ more) id = recordHistory performed id ++ recordHistory more id :=
  List.filterMap_append

/-- A session that is to return a response, or to raise, changes nothing and ends. -/
theorem step_of_ending (stepped : system.step (mutationProtocol platform) event = some after)
    {point : MutationPoint} (atPoint : system.points event.session = some point)
    (ending : (∃ response, point = .returned response) ∨ ∃ error, point = .raised error) :
    after.database = system.database ∧ after.points event.session = none := by
  have moves := System.step_moves stepped
  generalize after.database = database, after.points event.session = target at moves ⊢
  cases moves with
  | start idle _ =>
      rw [Event.session] at atPoint
      rw [idle] at atPoint
      cases atPoint
  | crash => exact ⟨rfl, rfl⟩
  | advance ofSession leads =>
      rw [Event.session] at atPoint
      cases ofSession.symm.trans atPoint
      rcases ending with ⟨response, rfl⟩ | ⟨error, rfl⟩
      · cases leads
        exact ⟨rfl, rfl⟩
      · cases leads
        exact ⟨rfl, rfl⟩

/-- A step that changes something performs one mutation, and its session is to return. -/
theorem changes_of_step (stepped : system.step (mutationProtocol platform) event = some after)
    (changes : after.database ≠ system.database) :
    ∃ done, after.database.performed = system.database.performed ++ [done] ∧
      after.points event.session = some (.returned done.response) := by
  rcases step_commits stepped with same | ⟨appId, checked, request, content, now, _, commit, goes⟩
  · exact absurd same changes
  · obtain ⟨response, tables, _, after_eq⟩ := commit.writes
    have performed : after.database.performed =
        system.database.performed ++ [⟨appId, checked.key, request, response⟩] := by
      rw [after_eq]
    refine ⟨_, performed, ?_⟩
    rw [goes, performed, List.getLast?_concat]
    rfl

/-- The steps of one call of a session: it is not started again. -/
def sameCall (session : Nat) (state : System MutationDb MutationRow MutationPoint)
    (event : Event MutationPoint Instant) : Prop :=
  event.session = session → (state.points session).isSome = true

/-- A session that is to return does not raise in the same call. -/
theorem not_raised_of_returned {session : Nat} {response : MutationResponse}
    (atReturn : system.points session = some (.returned response))
    (run : Run (System.step (mutationProtocol platform)) (sameCall session) system later)
    (error : CodeAppError) : later.points session ≠ some (.raised error) := by
  have stays : later.points session = some (.returned response) ∨ later.points session = none := by
    apply run.invariant fun state =>
      state.points session = some (.returned response) ∨ state.points session = none
    · intro before event next beforePoint allowed stepped
      by_cases isOwn : event.session = session
      · subst isOwn
        rcases beforePoint with returned | ended
        · exact Or.inr (step_of_ending stepped returned (Or.inl ⟨response, rfl⟩)).2
        · rw [sameCall, ended] at allowed
          cases allowed rfl
      · rw [System.step_points stepped (Ne.symm isOwn)]
        exact beforePoint
    · exact Or.inl atReturn
  rcases stays with returned | ended
  · rw [returned]
    rintro ⟨⟩
  · rw [ended]
    rintro ⟨⟩

end Runs

/-! ## The law -/

/-- What holds of the records in every run of concurrent mutations from a state. -/
structure NoLostUpdates (platform : Platform) (start : MutationDb) : Prop where
  /-- The updates of a record expected distinct versions. -/
  distinct : ∀ {system}, MutationRun platform (System.idle start) system →
    ∀ recordId, (expectedVersions (recordHistory system.database.performed recordId)).Nodup
  /-- The version of a record counts its updates. -/
  counted : ∀ {system}, MutationRun platform (System.idle start) system →
    ∀ record ∈ system.database.tables.records,
      record.version = (start.tables.cell record.id).first +
        (expectedVersions (recordHistory system.database.performed record.id)).length
  /-- Where no record was updated before the run, it is one more than their number. -/
  countedFromOne : (∀ stored ∈ start.tables.records, stored.version = 1) →
    ∀ {system}, MutationRun platform (System.idle start) system →
      ∀ record ∈ system.database.tables.records,
        record.version = 1 +
          (expectedVersions (recordHistory system.database.performed record.id)).length
  /-- An update finds the record at the version that it expects, and leaves it patched. -/
  updated : ∀ {system}, MutationRun platform (System.idle start) system →
    ∀ {event after}, system.step (mutationProtocol platform) event = some after →
      ∀ {appId key actor recordId expectedVersion data response},
        after.database.performed = system.database.performed ++
          [⟨appId, key, .updateRecord actor recordId expectedVersion data, response⟩] →
        ∃ current revised, system.database.tables.record? appId recordId = some current ∧
          current.version = expectedVersion ∧
            after.database.tables.record? appId recordId = some revised ∧
              revised.version = expectedVersion + 1 ∧
                revised.data = mergeData current.data (jsonObject (some data)) ∧
                  response = .record revised.stored
  /-- A patch gives its names their values, and a `null` removes a name. -/
  patched : ∀ {data : Fields}, (data.map Prod.fst).Nodup → ∀ current name,
    Json.lookup (mergeData current data) name =
      match Json.lookup data name with
      | some value => patchedValue value
      | none => Json.lookup current name
  /-- A version of a record has one content. -/
  content : ∀ {system}, MutationRun platform (System.idle start) system →
    ∀ {later}, MutationRun platform system later →
      ∀ first ∈ system.database.tables.records, ∀ second ∈ later.database.tables.records,
        first.id = second.id → first.version = second.version → first.data = second.data
  /-- A deletion finds the record at the version that it expects; after it there is no such
  record, and no update or deletion of one. -/
  deleted : ∀ {system}, MutationRun platform (System.idle start) system →
    ∀ {event after}, system.step (mutationProtocol platform) event = some after →
      ∀ {appId key actor recordId expectedVersion response},
        after.database.performed = system.database.performed ++
          [⟨appId, key, .deleteRecord actor recordId expectedVersion, response⟩] →
        (∃ current, system.database.tables.record? appId recordId = some current ∧
          current.version = expectedVersion) ∧
        ∀ {later}, MutationRun platform after later →
          (∀ record ∈ later.database.tables.records, record.id ≠ recordId) ∧
            recordHistory later.database.performed recordId =
              recordHistory after.database.performed recordId
  /-- A step changes nothing, or it performs one mutation, and its session is to return. -/
  changes : ∀ {system}, MutationRun platform (System.idle start) system →
    ∀ {event after}, system.step (mutationProtocol platform) event = some after →
      after.database = system.database ∨
        ∃ done, after.database.performed = system.database.performed ++ [done] ∧
          after.points event.session = some (.returned done.response)
  /-- No step of a call that raises changes anything. -/
  raised : ∀ {system}, MutationRun platform (System.idle start) system →
    ∀ {event after}, system.step (mutationProtocol platform) event = some after →
      ∀ {later}, Run (System.step (mutationProtocol platform)) (sameCall event.session) after
        later → ∀ {error}, later.points event.session = some (.raised error) →
          after.database = system.database

section Updates

variable {platform : Platform} {start : MutationDb}
  {system after : System MutationDb MutationRow MutationPoint}
  {event : Event MutationPoint Instant} {appId recordId : Uuid} {key : String} {actor : AppActor}
  {expectedVersion : Int} {data : Json} {response : MutationResponse}

/-- What a run made of every record, from a state without history. -/
theorem MutationDb.Fresh.lives (fresh : start.Fresh)
    (run : MutationRun platform (System.idle start) system) (id : Uuid) :
    Life mergeData (start.tables.cell id) (recordHistory system.database.performed id)
      (system.database.tables.cell id) := by
  obtain ⟨more, extends_⟩ := extends_of_run fresh.sound run
  rw [extends_.performed]
  change Life mergeData _ (recordHistory (start.performed ++ more) id) _
  rw [fresh.unused, List.nil_append]
  exact extends_.lives id

/-- The version that an update expects is the one that it finds. -/
theorem update_of_step (sound : (mutationOutline platform start).Sound system)
    (stepped : system.step (mutationProtocol platform) event = some after)
    (performed : after.database.performed = system.database.performed ++
      [⟨appId, key, .updateRecord actor recordId expectedVersion data, response⟩]) :
    ∃ current revised, system.database.tables.record? appId recordId = some current ∧
      current.version = expectedVersion ∧
        after.database.tables.record? appId recordId = some revised ∧
          revised.version = expectedVersion + 1 ∧
            revised.data = mergeData current.data (jsonObject (some data)) ∧
              response = .record revised.stored := by
  obtain ⟨_, extends_⟩ := sound.global
  obtain ⟨checked, content, now, tables, reads, writes, rfl⟩ :=
    performs_of_step sound stepped performed
  obtain ⟨current, found, rfl⟩ := reads
  obtain ⟨swapped, swappedFound, rfl, rfl, tables_eq⟩ := writeUpdate_eq_ok writes
  cases found.symm.trans swappedFound
  have ofApp := (record?_eq_some found).2.2
  refine ⟨current, _, found, rfl, ?_, rfl, rfl, rfl⟩
  rw [tables_eq]
  apply record?_of_find
  · exact find?_reviseRecord_self extends_.keyed found _ _ now
  · exact ofApp

/-- After a deletion the record is no more. -/
theorem deletion_of_step (sound : (mutationOutline platform start).Sound system)
    (stepped : system.step (mutationProtocol platform) event = some after)
    (performed : after.database.performed = system.database.performed ++
      [⟨appId, key, .deleteRecord actor recordId expectedVersion, response⟩]) :
    (∃ current, system.database.tables.record? appId recordId = some current ∧
      current.version = expectedVersion) ∧ after.database.tables.cell recordId = .dead := by
  obtain ⟨_, extends_⟩ := sound.global
  obtain ⟨checked, content, now, tables, reads, writes, rfl⟩ :=
    performs_of_step sound stepped performed
  obtain ⟨current, found, rfl, _, tables_eq⟩ := writeDelete_eq_ok writes
  refine ⟨⟨current, found, rfl⟩, ?_⟩
  rw [tables_eq]
  exact cell_removeRecord extends_.keyed found

end Updates

theorem no_lost_updates {platform : Platform} {start : MutationDb} (fresh : start.Fresh) :
    NoLostUpdates platform start where
  distinct := by
    intro system run recordId
    exact (fresh.lives run recordId).expectedVersions_nodup
  counted := by
    intro system run record recordMem
    obtain ⟨_, extends_⟩ := extends_of_run fresh.sound run
    exact ((fresh.lives run record.id).counts.2 _ _ (cell_of_mem extends_.keyed recordMem)).1
  countedFromOne := by
    intro fromOne system run record recordMem
    obtain ⟨_, extends_⟩ := extends_of_run fresh.sound run
    have counted := (fresh.lives run record.id).counts.2 _ _ (cell_of_mem extends_.keyed recordMem)
    rw [counted.1, AppsDb.first_cell fromOne]
  updated := by
    intro system run event after stepped appId key actor recordId expectedVersion data response
      performed
    exact update_of_step (fresh.sound.run run) stepped performed
  patched := by
    intro data unique current name
    exact lookup_mergeData unique current name
  content := by
    intro system run later onward first firstMem second secondMem sameId sameVersion
    have sound := fresh.sound.run run
    obtain ⟨_, before⟩ := sound.global
    obtain ⟨more, extends_⟩ := extends_of_run sound onward
    have life := extends_.lives first.id
    rw [cell_of_mem before.keyed firstMem, sameId, cell_of_mem extends_.keyed secondMem,
      sameVersion] at life
    exact life.same_version.2.symm
  deleted := by
    intro system run event after stepped appId key actor recordId expectedVersion response performed
    have sound := fresh.sound.run run
    obtain ⟨found, dead⟩ := deletion_of_step sound stepped performed
    refine ⟨found, ?_⟩
    intro later onward
    obtain ⟨more, extends_⟩ := extends_of_run (sound.step trivial stepped) onward
    have life := extends_.lives recordId
    rw [dead] at life
    obtain ⟨noMore, stillDead⟩ := life.dead
    constructor
    · intro record recordMem
      exact not_mem_of_cell_dead stillDead recordMem
    · rw [extends_.performed, recordHistory_append, noMore, List.append_nil]
  changes := by
    intro system run event after stepped
    by_cases same : after.database = system.database
    · exact Or.inl same
    · exact Or.inr (changes_of_step stepped same)
  raised := by
    intro system run event after stepped later onward error atRaised
    by_contra changes
    obtain ⟨done, _, atReturn⟩ := changes_of_step stepped changes
    exact not_raised_of_returned atReturn onward error atRaised

/-! ## Two updates of one version -/

/-- The deployed app, with a record that was not updated yet. -/
def habitTables : AppsDb where
  __ := habitApp
  revisions := [⟨10, 1, 1, "Habits", "", .ready, habitManifest, [], some 0, [], habitArtifact, "1"⟩]
  deployments := [⟨1, 10, none, 1⟩]
  records := [⟨12, 1, "habit", [("name", .str "swim")], 15, 1, some 7, some 7, 0, 0⟩]
  nextId := 13

/-- An update of the first version of the record. -/
def habitUpdate (name : String) : MutationRequest :=
  .updateRecord habitOwner 12 1 (.obj [("name", .str name)])

/-- Both start before either has the lock. -/
def habitUpdates : List (Event MutationPoint Instant) :=
  [.start 0 (.call 1 "first" (habitUpdate "run")),
      .start 1 (.call 1 "second" (habitUpdate "walk"))] ++
    List.replicate 6 (.advance 1 0) ++ List.replicate 5 (.advance 0 0)

/-- The session ended with an error. -/
def hasRaised : Option MutationPoint → Bool
  | some (.raised _) => true
  | _ => false

/-- One of them is performed, the other one raises. -/
theorem no_lost_updates_habit :
    ∃ later, MutationRun Platform.ascii (System.idle ⟨habitTables, []⟩) later ∧
      (later.database.tables.records.map fun record => (record.version, record.data)) =
        [(2, [("name", .str "walk")])] ∧
      (∃ error, later.points 0 = some (.raised error)) ∧
      ∀ record ∈ later.database.tables.records, record.version = 1 +
        (expectedVersions (recordHistory later.database.performed record.id)).length := by
  have runs : (execute (System.step (mutationProtocol Platform.ascii)) (fun _ _ => true)
      (System.idle ⟨habitTables, []⟩) habitUpdates).any (fun later =>
        (later.database.tables.records.map fun record => (record.version, record.data)) =
          [(2, [("name", .str "walk")])] &&
        hasRaised (later.points 0)) = true := by
    decide
  simp only [Option.any_eq_true, Bool.and_eq_true, decide_eq_true_eq] at runs
  rcases runs with ⟨later, toLater, records, raises⟩
  have run : MutationRun Platform.ascii (System.idle ⟨habitTables, []⟩) later :=
    (run_of_execute toLater).mono fun _ _ _ => trivial
  have fresh : MutationDb.Fresh ⟨habitTables, []⟩ := ⟨⟨by decide, by decide⟩, by decide, rfl⟩
  refine ⟨later, run, records, ?_, ?_⟩
  · unfold hasRaised at raises
    split at raises
    · rename_i error atRaised
      exact ⟨error, atRaised⟩
    · cases raises
  · apply (no_lost_updates fresh).countedFromOne _ run
    decide

end DotBackend.Apps
