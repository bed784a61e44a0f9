import DotBackend.Builder.RecordView
import Mathlib.Data.List.Nodup

/-!
# What a record view comes to

Each request of the runtime is settled once and then no longer pending, whatever messages arrive
and whichever timers fire. While no answer to an earlier refresh arrives after that to the last
one, what the hook shows is the answer to the last refresh.
-/

namespace DotBackend.Builder

open Data Transition

/-! ## The condition -/

/-- The last refresh that was issued has been answered. -/
def lastAnswered (runtime : AppRuntime) : Prop :=
  ∃ requestId result, runtime.refreshes.getLast? = some requestId ∧
    (requestId, .ok result) ∈ runtime.settled

/-- No answer to a refresh arrives when the last one has been answered: it would be to an earlier
one. -/
def InOrder (runtime : AppRuntime) : RuntimeEvent → Prop
  | .receive fromParent data _ =>
      ∀ requestId result, answerOf fromParent data = some (requestId, .ok result) →
        runtime.awaiting? requestId = some .refresh → ¬ lastAnswered runtime
  | _ => True

/-! ## The invariant -/

/-- What is known of a runtime: its requests are pending or settled, and each is so once. -/
structure Accounted (runtime : AppRuntime) : Prop where
  distinct : runtime.issued.Nodup
  issued_perm : runtime.issued.Perm
    (runtime.pending.map Prod.fst ++ runtime.settled.map Prod.fst)
  refreshes_issued : ∀ requestId ∈ runtime.refreshes, requestId ∈ runtime.issued
  awaited : ∀ entry ∈ runtime.pending, entry.1 ∈ runtime.refreshes → entry.2 = .refresh

/-- What the hook shows is the answer to the last refresh. -/
def ShowsLast (runtime : AppRuntime) : Prop :=
  ∀ requestId result, runtime.refreshes.getLast? = some requestId →
    (requestId, .ok result) ∈ runtime.settled →
    runtime.view.records = recordsOf result ∧ runtime.view.recordMeta = metaOf result

section Steps

variable {runtime next : AppRuntime} {requestId newId : String}

theorem Accounted.mem_issued (accounted : Accounted runtime) :
    requestId ∈ runtime.issued ↔ requestId ∈ runtime.pending.map Prod.fst ∨
      requestId ∈ runtime.settled.map Prod.fst := by
  rw [accounted.issued_perm.mem_iff, List.mem_append]

theorem accounted_bridgeRequest (accounted : Accounted runtime) (isNew : newId ∉ runtime.issued)
    (awaiting : Awaiting) : Accounted (runtime.bridgeRequest newId awaiting) := by
  constructor
  · apply List.Nodup.append accounted.distinct (List.nodup_singleton newId)
    rw [List.disjoint_singleton]
    exact isNew
  · change (runtime.issued ++ [newId]).Perm
      ((runtime.pending ++ [(newId, awaiting)]).map Prod.fst ++ runtime.settled.map Prod.fst)
    rw [List.map_append, List.append_assoc]
    have grown := accounted.issued_perm.append_right [newId]
    rw [List.append_assoc] at grown
    exact grown.trans (List.perm_append_comm.append_left _)
  · intro requestId refreshMem
    exact List.mem_append_left _ (accounted.refreshes_issued requestId refreshMem)
  · intro entry entryMem isRefresh
    rcases List.mem_append.mp entryMem with earlier | isThis
    · exact accounted.awaited entry earlier isRefresh
    · rw [List.mem_singleton.mp isThis] at isRefresh
      exact absurd (accounted.refreshes_issued newId isRefresh) isNew

theorem accounted_refresh (accounted : Accounted runtime) (isNew : newId ∉ runtime.issued) :
    Accounted (runtime.refresh newId) := by
  have issued := accounted_bridgeRequest accounted isNew .refresh
  constructor
  · exact issued.distinct
  · exact issued.issued_perm
  · intro requestId refreshMem
    rcases List.mem_append.mp refreshMem with earlier | isThis
    · exact List.mem_append_left _ (accounted.refreshes_issued requestId earlier)
    · exact List.mem_append_right _ isThis
  · intro entry entryMem isRefresh
    rcases List.mem_append.mp entryMem with earlier | isThis
    · rcases List.mem_append.mp isRefresh with wasRefresh | isNewest
      · exact accounted.awaited entry earlier wasRefresh
      · have keyIssued : entry.1 ∈ runtime.issued :=
          accounted.mem_issued.mpr (Or.inl (List.mem_map_of_mem earlier))
        rw [List.mem_singleton.mp isNewest] at keyIssued
        exact absurd keyIssued isNew
    · rw [List.mem_singleton.mp isThis]

/-- A refresh that is issued has not been answered. -/
theorem showsLast_refresh (accounted : Accounted runtime) (isNew : newId ∉ runtime.issued) :
    ShowsLast (runtime.refresh newId) := by
  intro requestId result isLast isSettled
  have isNewest : requestId = newId := by
    change (runtime.refreshes ++ [newId]).getLast? = some requestId at isLast
    rw [List.getLast?_concat, Option.some.injEq] at isLast
    exact isLast.symm
  change (requestId, .ok result) ∈ runtime.settled at isSettled
  exfalso
  apply isNew
  rw [← isNewest, accounted.mem_issued]
  exact Or.inr (List.mem_map_of_mem (f := Prod.fst) isSettled)

/-- A pending request that is settled is no longer pending. -/
theorem accounted_settled (accounted : Accounted runtime) {awaiting : Awaiting}
    (isPending : runtime.awaiting? requestId = some awaiting) (settlement : Settlement) :
    Accounted { runtime with
      pending := runtime.pending.filter fun entry => entry.1 ≠ requestId
      settled := runtime.settled ++ [(requestId, settlement)] } := by
  constructor
  · exact accounted.distinct
  · have pendingDistinct : (runtime.pending.map Prod.fst).Nodup :=
      (List.nodup_append.mp (accounted.issued_perm.nodup accounted.distinct)).1
    have keyMem : requestId ∈ runtime.pending.map Prod.fst := by
      rw [AppRuntime.awaiting?, Option.map_eq_some_iff] at isPending
      rcases isPending with ⟨entry, found, _⟩
      have isKey := List.find?_some found
      rw [← of_decide_eq_true isKey]
      exact List.mem_map_of_mem (List.mem_of_find?_eq_some found)
    have isErased : (runtime.pending.filter fun entry => entry.1 ≠ requestId).map Prod.fst =
        (runtime.pending.map Prod.fst).erase requestId := by
      rw [pendingDistinct.erase_eq_filter, List.filter_map]
      congr 1
      apply List.filter_congr
      intro entry _
      by_cases isKey : entry.1 = requestId
      · simp [isKey]
      · simp [isKey]
    change runtime.issued.Perm
      ((runtime.pending.filter fun entry => entry.1 ≠ requestId).map Prod.fst ++
        (runtime.settled ++ [(requestId, settlement)]).map Prod.fst)
    rw [isErased, List.map_append, ← List.append_assoc]
    have taken := (List.perm_cons_erase keyMem).append_right (runtime.settled.map Prod.fst)
    have moved := (List.perm_append_singleton requestId ((runtime.pending.map Prod.fst).erase
      requestId ++ runtime.settled.map Prod.fst)).symm
    exact accounted.issued_perm.trans (taken.trans moved)
  · exact accounted.refreshes_issued
  · intro entry entryMem isRefresh
    exact accounted.awaited entry (List.mem_of_mem_filter entryMem) isRefresh

theorem accounted_invalidateRecords (accounted : Accounted runtime)
    (isNew : newId ∉ runtime.issued) (entity : Option Json) :
    Accounted (runtime.invalidateRecords entity newId) := by
  unfold AppRuntime.invalidateRecords
  split
  · split
    · exact accounted_refresh accounted isNew
    · exact accounted
  · split
    · exact accounted_refresh accounted isNew
    · exact accounted

theorem accounted_proceed (accounted : Accounted runtime) (isNew : newId ∉ runtime.issued)
    (awaiting : Awaiting) (settlement : Settlement) :
    Accounted (runtime.proceed awaiting settlement newId) := by
  unfold AppRuntime.proceed
  split
  · exact ⟨accounted.distinct, accounted.issued_perm, accounted.refreshes_issued, accounted.awaited⟩
  · exact ⟨accounted.distinct, accounted.issued_perm, accounted.refreshes_issued, accounted.awaited⟩
  · split
    · exact accounted_invalidateRecords accounted isNew _
    · exact accounted
  · exact accounted
  · exact accounted

theorem accounted_settle (accounted : Accounted runtime) (isNew : newId ∉ runtime.issued)
    (settlement : Settlement) : Accounted (runtime.settle requestId settlement newId) := by
  unfold AppRuntime.settle
  split
  · exact accounted
  · rename_i awaiting isPending
    exact accounted_proceed (accounted_settled accounted isPending settlement) isNew awaiting
      settlement

theorem accounted_runtimeStep {event : RuntimeEvent} (accounted : Accounted runtime)
    (stepped : runtimeStep runtime event = some next) : Accounted next := by
  unfold runtimeStep at stepped
  split at stepped
  · cases stepped
  · rename_i isNew
    cases event with
    | effect entity limit offset newId =>
        simp only at stepped
        split at stepped
        · cases stepped
        · cases stepped
          have sameRequests : Accounted { runtime with
              query := clampQuery entity limit offset, subscribed := some entity } :=
            ⟨accounted.distinct, accounted.issued_perm, accounted.refreshes_issued,
              accounted.awaited⟩
          exact accounted_refresh sameRequests isNew
    | refresh newId =>
        simp only at stepped
        split at stepped
        · cases stepped
          exact accounted_refresh accounted isNew
        · cases stepped
    | runAction operation args newId =>
        cases stepped
        exact accounted_bridgeRequest accounted isNew _
    | request newId =>
        cases stepped
        exact accounted_bridgeRequest accounted isNew _
    | receive fromParent data newId =>
        simp only at stepped
        split at stepped
        · cases stepped
          exact accounted_settle accounted isNew _
        · cases stepped
          exact accounted
    | timeout requestId newId =>
        simp only at stepped
        split at stepped
        · cases stepped
          exact accounted_settle accounted isNew _
        · cases stepped

/-! ## What is shown -/

/-- What is shown stays the last answer when only other things change. -/
theorem showsLast_of_same (shows : ShowsLast runtime)
    (refreshes : next.refreshes = runtime.refreshes) (settled : next.settled = runtime.settled)
    (records : next.view.records = runtime.view.records)
    (recordMeta : next.view.recordMeta = runtime.view.recordMeta) : ShowsLast next := by
  intro requestId result isLast isSettled
  rw [refreshes] at isLast
  rw [settled] at isSettled
  rw [records, recordMeta]
  exact shows requestId result isLast isSettled

theorem showsLast_invalidateRecords (accounted : Accounted runtime)
    (isNew : newId ∉ runtime.issued) (shows : ShowsLast runtime) (entity : Option Json) :
    ShowsLast (runtime.invalidateRecords entity newId) := by
  unfold AppRuntime.invalidateRecords
  split
  · split
    · exact showsLast_refresh accounted isNew
    · exact shows
  · split
    · exact showsLast_refresh accounted isNew
    · exact shows

/-- A promise is settled in order when it is not that of a refresh, or fails, or the last refresh
has not been answered. -/
theorem showsLast_settle (accounted : Accounted runtime) (isNew : newId ∉ runtime.issued)
    (shows : ShowsLast runtime) {settlement : Settlement}
    (inOrder : ∀ result, settlement = .ok result →
      runtime.awaiting? requestId = some .refresh → ¬ lastAnswered runtime) :
    ShowsLast (runtime.settle requestId settlement newId) := by
  unfold AppRuntime.settle
  split
  · exact shows
  · rename_i awaiting isPending
    have settledAccounted := accounted_settled accounted isPending settlement
    cases settlement with
    | error failure =>
        -- A failure is not an answer, and changes no records.
        have stillShows : ShowsLast { runtime with
            pending := runtime.pending.filter fun entry => entry.1 ≠ requestId
            settled := runtime.settled ++ [(requestId, .error failure)] } := by
          intro lastId result isLast isSettled
          rcases List.mem_append.mp isSettled with earlier | isThis
          · exact shows lastId result isLast earlier
          · rw [List.mem_singleton, Prod.mk.injEq] at isThis
            cases isThis.2
        cases awaiting with
        | refresh => exact showsLast_of_same stillShows rfl rfl rfl rfl
        | runAction operation args => exact stillShows
        | other => exact stillShows
    | ok result =>
        by_cases isRefresh : awaiting = .refresh
        · -- The answer is shown, and no other one has been given to the last refresh.
          rw [isRefresh] at isPending ⊢
          intro lastId answer isLast isSettled
          rcases List.mem_append.mp isSettled with earlier | isThis
          · exact absurd ⟨lastId, answer, isLast, earlier⟩ (inOrder result rfl isPending)
          · rw [List.mem_singleton, Prod.mk.injEq, Except.ok.injEq] at isThis
            rw [isThis.2]
            exact ⟨rfl, rfl⟩
        · have stillShows : ShowsLast { runtime with
              pending := runtime.pending.filter fun entry => entry.1 ≠ requestId
              settled := runtime.settled ++ [(requestId, .ok result)] } := by
            intro lastId answer isLast isSettled
            rcases List.mem_append.mp isSettled with earlier | isThis
            · exact shows lastId answer isLast earlier
            · rw [List.mem_singleton, Prod.mk.injEq] at isThis
              exfalso
              apply isRefresh
              rw [AppRuntime.awaiting?, Option.map_eq_some_iff] at isPending
              rcases isPending with ⟨entry, found, rfl⟩
              have isKey := List.find?_some found
              apply accounted.awaited entry (List.mem_of_find?_eq_some found)
              rw [of_decide_eq_true isKey, ← isThis.1]
              exact List.mem_of_getLast? isLast
          cases awaiting with
          | refresh => exact absurd rfl isRefresh
          | runAction operation args =>
              unfold AppRuntime.proceed
              simp only
              split
              · exact showsLast_invalidateRecords settledAccounted isNew stillShows _
              · exact stillShows
          | other => exact stillShows

theorem showsLast_runtimeStep {event : RuntimeEvent} (accounted : Accounted runtime)
    (shows : ShowsLast runtime) (inOrder : InOrder runtime event)
    (stepped : runtimeStep runtime event = some next) : ShowsLast next := by
  unfold runtimeStep at stepped
  split at stepped
  · cases stepped
  · rename_i isNew
    cases event with
    | effect entity limit offset newId =>
        simp only at stepped
        split at stepped
        · cases stepped
        · cases stepped
          have sameRequests : Accounted { runtime with
              query := clampQuery entity limit offset, subscribed := some entity } :=
            ⟨accounted.distinct, accounted.issued_perm, accounted.refreshes_issued,
              accounted.awaited⟩
          exact showsLast_refresh sameRequests isNew
    | refresh newId =>
        simp only at stepped
        split at stepped
        · cases stepped
          exact showsLast_refresh accounted isNew
        · cases stepped
    | runAction operation args newId =>
        cases stepped
        exact showsLast_of_same shows rfl rfl rfl rfl
    | request newId =>
        cases stepped
        exact showsLast_of_same shows rfl rfl rfl rfl
    | receive fromParent data newId =>
        simp only at stepped
        split at stepped
        · rename_i requestId settlement answered
          cases stepped
          apply showsLast_settle accounted isNew shows
          rintro result rfl isPending
          exact inOrder requestId result answered isPending
        · cases stepped
          exact shows
    | timeout requestId newId =>
        simp only at stepped
        split at stepped
        · cases stepped
          apply showsLast_settle accounted isNew shows
          intro result isOk
          cases isOk
        · cases stepped

end Steps

/-! ## Runs -/

/-- What a record view comes to: no request is settled twice or forgotten, each is pending or
settled, and once none is pending, the records shown are the answer to the last refresh. -/
structure Converges (runtime : AppRuntime) : Prop where
  settledOnce : (runtime.settled.map Prod.fst).Nodup
  pendingOrSettled : ∀ requestId ∈ runtime.issued,
    (requestId ∈ runtime.pending.map Prod.fst ∧ requestId ∉ runtime.settled.map Prod.fst) ∨
      (requestId ∉ runtime.pending.map Prod.fst ∧ requestId ∈ runtime.settled.map Prod.fst)
  allSettled : (∀ requestId ∈ runtime.issued, requestId ∈ runtime.settled.map Prod.fst) →
    runtime.pending = [] ∧
    ∀ requestId result, runtime.refreshes.getLast? = some requestId →
      (requestId, .ok result) ∈ runtime.settled →
      runtime.view.records = recordsOf result ∧ runtime.view.recordMeta = metaOf result

theorem converges_of_accounted {runtime : AppRuntime} (accounted : Accounted runtime)
    (shows : ShowsLast runtime) : Converges runtime := by
  have distinct := accounted.issued_perm.nodup accounted.distinct
  rw [List.nodup_append] at distinct
  rcases distinct with ⟨_, settledDistinct, apart⟩
  constructor
  · exact settledDistinct
  · intro requestId isIssued
    rcases accounted.mem_issued.mp isIssued with isPending | isSettled
    · exact Or.inl ⟨isPending, fun isSettled => apart _ isPending _ isSettled rfl⟩
    · exact Or.inr ⟨fun isPending => apart _ isPending _ isSettled rfl, isSettled⟩
  · intro allSettled
    refine ⟨?_, shows⟩
    rw [List.eq_nil_iff_forall_not_mem]
    intro entry entryMem
    have keyMem : entry.1 ∈ runtime.pending.map Prod.fst := List.mem_map_of_mem entryMem
    have isIssued := accounted.mem_issued.mpr (Or.inl keyMem)
    exact apart _ keyMem _ (allSettled entry.1 isIssued) rfl

/-- In a run in which no answer to an earlier refresh arrives after that to the last one, the record
view converges. -/
theorem record_view_converges {runtime : AppRuntime}
    (run : Run runtimeStep InOrder initialRuntime runtime) : Converges runtime := by
  have kept : Accounted runtime ∧ ShowsLast runtime := by
    apply run.invariant fun runtime => Accounted runtime ∧ ShowsLast runtime
    · rintro before event after ⟨accounted, shows⟩ inOrder stepped
      exact ⟨accounted_runtimeStep accounted stepped,
        showsLast_runtimeStep accounted shows inOrder stepped⟩
    · constructor
      · exact ⟨List.nodup_nil, List.Perm.refl [], by simp [initialRuntime],
          by simp [initialRuntime]⟩
      · intro requestId result isLast
        cases isLast
  exact converges_of_accounted kept.1 kept.2

/-- A response of the host with the records of a refresh. -/
def recordsResponse (requestId : String) (records : List Json) : Json :=
  .obj [("protocol_version", .int 1), ("type", .str "dot.app.response"),
    ("request_id", .str requestId), ("ok", .bool true), ("result", .obj [("data", .arr records)])]

/-- A hook is mounted, and an action that creates a record makes it refresh. -/
def createdMeanwhile : List RuntimeEvent :=
  [.effect "habits" none none "first",
    .runAction "records.create" (.obj [("entity", .str "habits")]) "create",
    .receive true (recordsResponse "create" []) "second"]

/-- Both refreshes are answered in their order. -/
def answeredInOrder : List RuntimeEvent :=
  createdMeanwhile ++ [.receive true (recordsResponse "first" []) "unused",
    .receive true (recordsResponse "second" [.str "run"]) "unused"]

/-- The first refresh is answered last. -/
def answeredOutOfOrder : List RuntimeEvent :=
  createdMeanwhile ++ [.receive true (recordsResponse "second" [.str "run"]) "unused",
    .receive true (recordsResponse "first" []) "unused"]

/-- What the runtime is when both refreshes are answered. -/
def bothAnswered (records : List Json) (settled : List (String × Settlement)) : AppRuntime where
  query := ⟨"habits", 50, 0⟩
  subscribed := some "habits"
  view := ⟨records, .obj [], false, none⟩
  pending := []
  issued := ["first", "create", "second"]
  refreshes := ["first", "second"]
  settled := ("create", .ok (.obj [("data", .arr [])])) :: settled

def firstAnswer : String × Settlement :=
  ("first", .ok (.obj [("data", .arr [])]))

def secondAnswer : String × Settlement :=
  ("second", .ok (.obj [("data", .arr [.str "run"])]))

/-- A check of a list of events that are no responses out of order. -/
def inOrderCheck (runtime : AppRuntime) : RuntimeEvent → Bool
  | .receive fromParent data _ =>
      match answerOf fromParent data with
      | some (requestId, .ok _) =>
          decide (runtime.awaiting? requestId ≠ some .refresh) ||
            !runtime.settled.any fun settlement =>
              decide (runtime.refreshes.getLast? = some settlement.1) && settlement.2.isOk
      | _ => true
  | _ => true

theorem inOrder_of_check (runtime : AppRuntime) (event : RuntimeEvent)
    (passes : inOrderCheck runtime event = true) : InOrder runtime event := by
  cases event with
  | receive fromParent data newId =>
      rintro requestId result answered isPending ⟨lastId, answer, isLast, isSettled⟩
      simp only [inOrderCheck, answered, isPending, ne_eq, not_true_eq_false, decide_false,
        Bool.false_or, Bool.not_eq_true', List.any_eq_false] at passes
      apply passes _ isSettled
      simp [isLast, Except.isOk, Except.toBool]
  | effect entity limit offset newId => trivial
  | refresh newId => trivial
  | runAction operation args newId => trivial
  | request newId => trivial
  | timeout requestId newId => trivial

theorem record_view_converges_created :
    Run runtimeStep InOrder initialRuntime
      (bothAnswered [.str "run"] [firstAnswer, secondAnswer]) ∧
    Converges (bothAnswered [.str "run"] [firstAnswer, secondAnswer]) := by
  have executed : execute runtimeStep inOrderCheck initialRuntime answeredInOrder =
      some (bothAnswered [.str "run"] [firstAnswer, secondAnswer]) := by
    decide
  have run := (run_of_execute executed).mono inOrder_of_check
  exact ⟨run, record_view_converges run⟩

/-- The first answer, which comes last, hides the record that was created. -/
theorem created_record_hidden :
    Run runtimeStep (fun _ _ => True) initialRuntime
      (bothAnswered [] [secondAnswer, firstAnswer]) ∧
    ¬ Converges (bothAnswered [] [secondAnswer, firstAnswer]) := by
  have executed : execute runtimeStep (fun _ _ => true) initialRuntime answeredOutOfOrder =
      some (bothAnswered [] [secondAnswer, firstAnswer]) := by
    decide
  constructor
  · exact (run_of_execute executed).mono fun _ _ _ => trivial
  · intro converges
    have allSettled : ∀ requestId ∈ (bothAnswered [] [secondAnswer, firstAnswer]).issued,
        requestId ∈ (bothAnswered [] [secondAnswer, firstAnswer]).settled.map Prod.fst := by
      decide
    have shown := (converges.allSettled allSettled).2 "second" (.obj [("data", .arr [.str "run"])])
      rfl (List.mem_cons_of_mem _ List.mem_cons_self)
    exact absurd shown.1 (by decide)

end DotBackend.Builder
