import DotBackend.Agents.ToolJournal

/-!
# The results of journaled tool calls

The rows of the journal are written under four different guards. What the commits have in
common is that a row keeps its identity, that a settled row is not written, and that a row
is written only by who holds its lock; this carries a proof outline of `execute`.
-/

namespace DotBackend.Agents

open Data Transaction Transition

variable {db : JournalDb} {point : CallPoint} {held : Held CallKey}

/-! ## Steps -/

/-- The commits in a database: the rows written, the database afterwards, and where the
session goes on. -/
inductive Writes (db : JournalDb) :
    CallPoint → List CallKey → JournalDb → Option CallPoint → Prop
  | draw {call : ToolCall} :
      Writes db (.execute call) [] db.draw (some (.select call db.draw.claimants))
  | insert {call : ToolCall} {claimant : Nat} {now : Instant} : db.call? call.key = none →
      Writes db (.insert call claimant now) [] (db.insertCall call claimant now)
        (some (.work call claimant))
  | reclaim {call : ToolCall} {claimant : Nat} {now : Instant} {lease : Option Instant} :
      db.reclaimable call.key lease = true →
      Writes db (.reclaim call claimant now lease) [call.key] (db.reclaimCall call claimant now)
        (some (.work call claimant))
  | renew {call : ToolCall} {claimant : Nat} {now : Instant} :
      db.renewable call.key claimant = true →
      Writes db (.work call claimant) [call.key] (db.renewCall call now)
        (some (.work call claimant))
  | settle {call : ToolCall} {claimant : Nat} {result : ToolResult} :
      Writes db (.settle call claimant result) [call.key] (db.settleCall call result)
        (some (.returned call result))

/-- The other moves of a session. -/
inductive Goes (db : JournalDb) : CallPoint → Option CallPoint → Prop
  | select {call : ToolCall} {claimant : Nat} {now : Instant} :
      Goes db (.select call claimant)
        (some (startToolCall call claimant now (db.call? call.key)))
  | insert {call : ToolCall} {claimant : Nat} {now : Instant} :
      Goes db (.insert call claimant now) (some (.select call claimant))
  | reclaim {call : ToolCall} {claimant : Nat} {now : Instant} {lease : Option Instant} :
      Goes db (.reclaim call claimant now lease) (some (.select call claimant))
  | beat {call : ToolCall} {claimant : Nat} :
      Goes db (.work call claimant) (some (.work call claimant))
  | work {call : ToolCall} {claimant : Nat} {result : ToolResult} :
      Goes db (.work call claimant) (some (.finish call claimant result))
  | finish {call : ToolCall} {claimant : Nat} {result : ToolResult} :
      Goes db (.finish call claimant result)
        (some (finishToolCall call claimant result (db.call? call.key)))
  | returned {call : ToolCall} {result : ToolResult} : Goes db (.returned call result) none
  | raised {call : ToolCall} : Goes db (.raised call) none

theorem writes_of_request {input : ToolInput}
    {rows : JournalDb → List CallKey} {permitted : JournalDb → Bool}
    {write : JournalDb → JournalDb} {next : JournalDb → Option CallPoint}
    {refused : Option CallPoint}
    (requested : point.request input = .commit rows permitted write next refused)
    (isPermitted : permitted db = true) :
    Writes db point (rows db) (write db) (next (write db)) := by
  cases point with
  | execute call =>
      cases requested
      exact Writes.draw
  | insert call claimant now =>
      cases requested
      exact Writes.insert (Option.isNone_iff_eq_none.mp isPermitted)
  | reclaim call claimant now lease =>
      cases requested
      simp only [isPermitted, if_true]
      exact Writes.reclaim isPermitted
  | work call claimant =>
      rw [CallPoint.request] at requested
      split at requested
      · cases requested
        simp only [isPermitted, if_true]
        exact Writes.renew isPermitted
      · cases requested
  | settle call claimant result =>
      cases requested
      exact Writes.settle
  | select _ _ | finish _ _ _ | returned _ _ | raised _ => cases requested

/-- A session that advances commits, or leaves the database as it is. -/
theorem writes_or_goes {after : JournalDb} {input : ToolInput}
    {target : Option CallPoint} (leads : (point.request input).Leads db after target) :
    (∃ rows, Writes db point rows after target) ∨ (after = db ∧ Goes db point target) := by
  cases point with
  | execute call =>
      cases leads with
      | commit _ => exact Or.inl ⟨_, Writes.draw⟩
      | refused impossible => cases impossible
  | select call claimant =>
      cases leads
      exact Or.inr ⟨rfl, Goes.select⟩
  | insert call claimant now =>
      cases leads with
      | commit isPermitted =>
          exact Or.inl ⟨_, Writes.insert (Option.isNone_iff_eq_none.mp isPermitted)⟩
      | refused _ => exact Or.inr ⟨rfl, Goes.insert⟩
  | reclaim call claimant now lease =>
      cases leads with
      | commit isPermitted => exact Or.inl ⟨_, Writes.reclaim isPermitted⟩
      | refused _ => exact Or.inr ⟨rfl, Goes.reclaim⟩
  | work call claimant =>
      rw [CallPoint.request] at leads
      split at leads
      · cases leads with
        | commit isPermitted => exact Or.inl ⟨_, Writes.renew isPermitted⟩
        | refused _ => exact Or.inr ⟨rfl, Goes.beat⟩
      · cases leads
        exact Or.inr ⟨rfl, Goes.work⟩
  | finish call claimant result =>
      cases leads
      exact Or.inr ⟨rfl, Goes.finish⟩
  | settle call claimant result =>
      cases leads with
      | commit _ => exact Or.inl ⟨_, Writes.settle⟩
      | refused impossible => cases impossible
  | returned call result =>
      cases leads
      exact Or.inr ⟨rfl, Goes.returned⟩
  | raised call =>
      cases leads
      exact Or.inr ⟨rfl, Goes.raised⟩

/-! ## Rows -/

namespace JournalDb

variable {db : JournalDb} {key other : CallKey} {change : AgentToolCall → AgentToolCall}
  {row : AgentToolCall}

/-- The unique constraint. -/
def Keyed (db : JournalDb) : Prop :=
  Table.UniqueOn (fun row => some row.key) db.calls

theorem call?_updateCall (keeps : ∀ row, (change row).key = row.key) :
    (db.updateCall key change).call? other =
      if other = key then (db.call? other).map change else db.call? other :=
  Table.find?_update_key AgentToolCall.key change keeps key other db.calls

theorem call?_insertCall {call : ToolCall} {claimant : Nat} {now : Instant}
    (isNew : db.call? call.key = none) :
    (db.insertCall call claimant now).call? other =
      if other = call.key then some (call.row claimant now) else db.call? other := by
  have rowKey : (call.row claimant now).key = call.key := rfl
  simp only [call?, insertCall, List.find?_append] at isNew ⊢
  by_cases isCall : other = call.key
  · simp [isCall, isNew, rowKey]
  · simp [isCall, rowKey, Ne.symm isCall]

theorem of_reclaimable {lease : Option Instant} (reclaimable : db.reclaimable key lease = true) :
    ∃ row, db.call? key = some row ∧ row.status = .running := by
  rw [JournalDb.reclaimable, Option.any_eq_true] at reclaimable
  obtain ⟨row, found, guard⟩ := reclaimable
  rw [Bool.and_eq_true, decide_eq_true_eq] at guard
  exact ⟨row, found, guard.1⟩

theorem of_renewable {claimant : Nat} (renewable : db.renewable key claimant = true) :
    ∃ row, db.call? key = some row ∧ row.status = .running ∧ row.claimedBy = some claimant := by
  rw [JournalDb.renewable, Option.any_eq_true] at renewable
  obtain ⟨row, found, guard⟩ := renewable
  rw [Bool.and_eq_true, decide_eq_true_eq, decide_eq_true_eq] at guard
  exact ⟨row, found, guard⟩

end JournalDb

/-- The row was claimed for the call: by the same tool with the same arguments, or with
arguments that Python takes to be equal. -/
def AgentToolCall.Matches (row : AgentToolCall) (call : ToolCall) : Prop :=
  row.toolName = call.name ∧
    (row.arguments = call.arguments ∨ row.arguments.equals call.arguments = true)

theorem AgentToolCall.matches_of_validFor {row : AgentToolCall} {call : ToolCall}
    (valid : row.validFor call = true) : row.Matches call := by
  rw [validFor, Bool.and_eq_true, decide_eq_true_eq] at valid
  exact ⟨valid.1, Or.inr valid.2⟩

theorem AgentToolCall.Matches.of_eq {row later : AgentToolCall} {call : ToolCall}
    (matching : row.Matches call) (name_eq : later.toolName = row.toolName)
    (arguments_eq : later.arguments = row.arguments) : later.Matches call := by
  rw [Matches, name_eq, arguments_eq]
  exact matching

theorem AgentToolCall.journalResult_eq_none {row : AgentToolCall} :
    row.journalResult = none ↔ row.status = .running := by
  unfold journalResult
  split <;> simp [*]

theorem AgentToolCall.journalResult_settled (result : ToolResult) (row : AgentToolCall) :
    (row.settled result).journalResult = some result := by
  rcases result with ⟨output, succeeded⟩
  cases succeeded <;> rfl

/-! ## What a commit leaves as it is -/

/-- A later state: rows keep their identity, settled rows and rows whose lock another
session holds are the same, and claims are kept. -/
structure Evolves (rows : List CallKey) (before after : JournalDb) : Prop where
  identity : ∀ {key row}, before.call? key = some row →
    ∃ later, after.call? key = some later ∧
      later.toolName = row.toolName ∧ later.arguments = row.arguments
  final : ∀ {key row result}, before.call? key = some row → row.journalResult = some result →
    after.call? key = some row
  untouched : ∀ {key row}, key ∉ rows → before.call? key = some row → after.call? key = some row
  claims : ∀ claim ∈ before.claims, claim ∈ after.claims

theorem JournalDb.call?_of_update {change : AgentToolCall → AgentToolCall}
    {after : JournalDb} {key other : CallKey} (keeps : ∀ row, (change row).key = row.key)
    (calls_eq : after.calls = (db.updateCall key change).calls) :
    after.call? other = if other = key then (db.call? other).map change else db.call? other := by
  rw [call?, calls_eq]
  exact call?_updateCall keeps

/-- The update of one running row. -/
theorem evolves_of_update (change : AgentToolCall → AgentToolCall) {after : JournalDb}
    {key : CallKey} {running : AgentToolCall} (found : db.call? key = some running)
    (isRunning : running.status = .running) (keeps : ∀ row, (change row).key = row.key)
    (identity : ∀ row, (change row).toolName = row.toolName ∧
      (change row).arguments = row.arguments)
    (calls_eq : after.calls = (db.updateCall key change).calls)
    (claims : ∀ claim ∈ db.claims, claim ∈ after.claims) : Evolves [key] db after := by
  have lookup : ∀ other, after.call? other =
      if other = key then (db.call? other).map change else db.call? other :=
    fun other => JournalDb.call?_of_update keeps calls_eq
  constructor
  · intro other row rowFound
    rw [lookup, rowFound]
    by_cases isKey : other = key
    · exact ⟨change row, by rw [if_pos isKey, Option.map_some], identity row⟩
    · exact ⟨row, if_neg isKey, rfl, rfl⟩
  · intro other row result rowFound settled
    by_cases isKey : other = key
    · subst isKey
      cases found.symm.trans rowFound
      rw [AgentToolCall.journalResult_eq_none.mpr isRunning] at settled
      cases settled
    · rw [lookup, if_neg isKey, rowFound]
  · intro other row notWritten rowFound
    rw [lookup, if_neg (fun isKey => notWritten (List.mem_singleton.mpr isKey)), rowFound]
  · exact claims

/-! ## The proof outline -/

/-- The row of the call is there, and was claimed for the same call. -/
def Journaled (db : JournalDb) (call : ToolCall) : Prop :=
  ∃ row, db.call? call.key = some row ∧ row.Matches call

/-- What holds at the point of a session. -/
def CallPoint.Local (db : JournalDb) : CallPoint → Held CallKey → Prop
  | .execute _, _ | .select _ _, _ | .insert _ _ _, _ | .raised _, _ => True
  | .reclaim call _ _ _, _ => Journaled db call
  | .work call claimant, _ | .finish call claimant _, _ =>
      Journaled db call ∧ (call.key, claimant) ∈ db.claims
  | .settle call claimant _, held =>
      held call.key ∧ (call.key, claimant) ∈ db.claims ∧
        ∃ row, db.call? call.key = some row ∧ row.Matches call ∧
          row.status = .running ∧ row.claimedBy = some claimant
  | .returned call result, _ =>
      ∃ row, db.call? call.key = some row ∧ row.Matches call ∧
        row.journalResult = some result

/-- What holds in every state: the results stored for a call are the result of its row, and
a running row is claimed by its newest claimant. -/
structure JournalDb.Consistent (db : JournalDb) : Prop where
  keyed : db.Keyed
  results : ∀ key, db.resultsOf key = ((db.call? key).bind AgentToolCall.journalResult).toList
  newest : ∀ {key row}, db.call? key = some row → row.status = .running →
    row.claimedBy = db.newestClaim key

theorem Evolves.journaled {rows : List CallKey} {before after : JournalDb} {call : ToolCall}
    (evolves : Evolves rows before after) (journaled : Journaled before call) :
    Journaled after call := by
  obtain ⟨row, found, matching⟩ := journaled
  obtain ⟨later, laterFound, name_eq, arguments_eq⟩ := evolves.identity found
  exact ⟨later, laterFound, matching.of_eq name_eq arguments_eq⟩

/-- What a commit leaves as it is covers what holds at the points of the other sessions. -/
theorem Evolves.local {rows : List CallKey} {before after : JournalDb}
    (evolves : Evolves rows before after)
    (atPoint : point.Local before held) (notWritten : ∀ key, held key → key ∉ rows) :
    point.Local after held := by
  cases point with
  | execute _ | select _ _ | insert _ _ _ | raised _ => trivial
  | reclaim call claimant now lease => exact evolves.journaled atPoint
  | work call claimant | finish call claimant result =>
      exact ⟨evolves.journaled atPoint.1, evolves.claims _ atPoint.2⟩
  | settle call claimant result =>
      obtain ⟨holds, claimed, row, found, isOwn⟩ := atPoint
      exact ⟨holds, evolves.claims _ claimed, row,
        evolves.untouched (notWritten _ holds) found, isOwn⟩
  | returned call result =>
      obtain ⟨row, found, matching, stored⟩ := atPoint
      exact ⟨row, evolves.final found stored, matching, stored⟩

theorem Writes.evolves {after : JournalDb} {rows : List CallKey}
    {target : Option CallPoint} (writes : Writes db point rows after target)
    (atPoint : point.Local db held) : Evolves rows db after := by
  cases writes with
  | draw =>
      constructor
      · exact fun found => ⟨_, found, rfl, rfl⟩
      · exact fun found _ => found
      · exact fun _ found => found
      · exact fun _ => id
  | @insert call claimant now isNew =>
      have kept : ∀ {key row}, db.call? key = some row →
          (db.insertCall call claimant now).call? key = some row := by
        intro key row found
        have notNew : key ≠ call.key := by
          rintro rfl
          cases isNew.symm.trans found
        rw [JournalDb.call?_insertCall isNew, if_neg notNew, found]
      constructor
      · exact fun found => ⟨_, kept found, rfl, rfl⟩
      · exact fun found _ => kept found
      · exact fun _ found => kept found
      · exact fun _ => List.mem_cons_of_mem _
  | @reclaim call claimant now lease reclaimable =>
      obtain ⟨row, found, isRunning⟩ := JournalDb.of_reclaimable reclaimable
      exact evolves_of_update (AgentToolCall.reclaimed claimant now) found isRunning
        (fun _ => rfl) (fun _ => ⟨rfl, rfl⟩) rfl fun _ => List.mem_cons_of_mem _
  | @renew call claimant now renewable =>
      obtain ⟨row, found, isRunning, _⟩ := JournalDb.of_renewable renewable
      exact evolves_of_update (AgentToolCall.renewed now) found isRunning
        (fun _ => rfl) (fun _ => ⟨rfl, rfl⟩) rfl fun _ => id
  | @settle call claimant result =>
      obtain ⟨_, _, row, found, _, isRunning, _⟩ := atPoint
      exact evolves_of_update (AgentToolCall.settled result) found isRunning
        (fun _ => rfl) (fun _ => ⟨rfl, rfl⟩) rfl fun _ => id

/-! ### Consistency -/

theorem JournalDb.resultsOf_settleCall {call : ToolCall} {result : ToolResult}
    {key : CallKey} :
    (db.settleCall call result).resultsOf key =
      if key = call.key then result :: db.resultsOf key else db.resultsOf key := by
  by_cases isCall : key = call.key
  · simp [resultsOf, settleCall, updateCall, isCall]
  · simp [resultsOf, settleCall, updateCall, isCall, Ne.symm isCall]

theorem JournalDb.newestClaim_cons {after : JournalDb} (claimed : CallKey) (claimant : Nat)
    {key : CallKey} (claims_eq : after.claims = (claimed, claimant) :: db.claims) :
    after.newestClaim key = if key = claimed then some claimant else db.newestClaim key := by
  by_cases isClaimed : key = claimed
  · simp [newestClaim, claims_eq, isClaimed]
  · simp [newestClaim, claims_eq, isClaimed, Ne.symm isClaimed]

theorem Writes.consistent {after : JournalDb} {rows : List CallKey}
    {target : Option CallPoint} (writes : Writes db point rows after target)
    (consistent : db.Consistent) (atPoint : point.Local db held) : after.Consistent := by
  cases writes with
  | draw => exact ⟨consistent.keyed, consistent.results, consistent.newest⟩
  | @insert call claimant now isNew =>
      constructor
      · apply Table.UniqueOn.append consistent.keyed
        intro other otherMem sameKey
        have differs := List.find?_eq_none.mp isNew other otherMem
        rw [decide_eq_true_eq] at differs
        exact differs sameKey
      · intro key
        change db.resultsOf key = _
        rw [consistent.results, JournalDb.call?_insertCall isNew]
        by_cases isCall : key = call.key
        · rw [if_pos isCall, isCall, isNew]
          rfl
        · rw [if_neg isCall]
      · intro key row found isRunning
        rw [JournalDb.newestClaim_cons call.key claimant rfl]
        rw [JournalDb.call?_insertCall isNew] at found
        by_cases isCall : key = call.key
        · rw [if_pos isCall] at found ⊢
          cases found
          rfl
        · rw [if_neg isCall] at found ⊢
          exact consistent.newest found isRunning
  | @reclaim call claimant now lease reclaimable =>
      have lookup : ∀ key, (db.reclaimCall call claimant now).call? key =
          if key = call.key then (db.call? key).map (AgentToolCall.reclaimed claimant now)
          else db.call? key :=
        fun key => JournalDb.call?_of_update (fun _ => rfl) rfl
      constructor
      · exact Table.UniqueOn.update consistent.keyed _ fun _ => rfl
      · intro key
        change db.resultsOf key = _
        rw [consistent.results, lookup]
        by_cases isCall : key = call.key
        · rw [if_pos isCall, Option.bind_map]
          rfl
        · rw [if_neg isCall]
      · intro key row found isRunning
        rw [JournalDb.newestClaim_cons call.key claimant rfl]
        rw [lookup] at found
        by_cases isCall : key = call.key
        · rw [if_pos isCall, Option.map_eq_some_iff] at found
          obtain ⟨old, _, rfl⟩ := found
          rw [if_pos isCall]
          rfl
        · rw [if_neg isCall] at found ⊢
          exact consistent.newest found isRunning
  | @renew call claimant now renewable =>
      have lookup : ∀ key, (db.renewCall call now).call? key =
          if key = call.key then (db.call? key).map (AgentToolCall.renewed now)
          else db.call? key :=
        fun key => JournalDb.call?_of_update (fun _ => rfl) rfl
      constructor
      · exact Table.UniqueOn.update consistent.keyed _ fun _ => rfl
      · intro key
        change db.resultsOf key = _
        rw [consistent.results, lookup]
        by_cases isCall : key = call.key
        · rw [if_pos isCall, Option.bind_map]
          rfl
        · rw [if_neg isCall]
      · intro key row found isRunning
        change row.claimedBy = db.newestClaim key
        rw [lookup] at found
        by_cases isCall : key = call.key
        · rw [if_pos isCall, Option.map_eq_some_iff] at found
          obtain ⟨old, oldFound, rfl⟩ := found
          have claimed : old.claimedBy = db.newestClaim key :=
            consistent.newest oldFound isRunning
          exact claimed
        · rw [if_neg isCall] at found
          exact consistent.newest found isRunning
  | @settle call claimant result =>
      obtain ⟨_, _, running, runningFound, _, isRunning, _⟩ := atPoint
      have lookup : ∀ key, (db.settleCall call result).call? key =
          if key = call.key then (db.call? key).map (AgentToolCall.settled result)
          else db.call? key :=
        fun key => JournalDb.call?_of_update (fun _ => rfl) rfl
      constructor
      · exact Table.UniqueOn.update consistent.keyed _ fun _ => rfl
      · intro key
        rw [JournalDb.resultsOf_settleCall, consistent.results, lookup]
        by_cases isCall : key = call.key
        · have noResult := AgentToolCall.journalResult_eq_none.mpr isRunning
          simp [isCall, runningFound, noResult, AgentToolCall.journalResult_settled]
        · rw [if_neg isCall, if_neg isCall]
      · intro key row found stillRunning
        change row.claimedBy = db.newestClaim key
        rw [lookup] at found
        by_cases isCall : key = call.key
        · rw [if_pos isCall, Option.map_eq_some_iff] at found
          obtain ⟨old, _, rfl⟩ := found
          have settled := AgentToolCall.journalResult_settled result old
          rw [AgentToolCall.journalResult_eq_none.mpr stillRunning] at settled
          cases settled
        · rw [if_neg isCall] at found
          exact consistent.newest found stillRunning

/-! ### The points of a session -/

/-- A session that commits establishes what holds at its next point. -/
theorem Writes.target {after : JournalDb} {next : CallPoint} {rows : List CallKey}
    {later : Held CallKey} (writes : Writes db point rows after (some next))
    (atPoint : point.Local db held) : next.Local after later := by
  have evolves := writes.evolves atPoint
  cases writes with
  | draw => trivial
  | @insert call claimant now isNew =>
      refine ⟨⟨call.row claimant now, ?_, rfl, Or.inl rfl⟩, List.mem_cons_self⟩
      rw [JournalDb.call?_insertCall isNew, if_pos rfl]
  | reclaim _ => exact ⟨evolves.journaled atPoint, List.mem_cons_self⟩
  | renew _ => exact ⟨evolves.journaled atPoint.1, atPoint.2⟩
  | @settle call claimant result =>
      obtain ⟨_, _, row, found, matching, _⟩ := atPoint
      refine ⟨row.settled result, ?_, matching, AgentToolCall.journalResult_settled result row⟩
      have lookup : (db.settleCall call result).call? call.key =
          if call.key = call.key then (db.call? call.key).map (AgentToolCall.settled result)
          else db.call? call.key :=
        JournalDb.call?_of_update (fun _ => rfl) rfl
      rw [lookup, if_pos rfl, found, Option.map_some]

theorem startToolCall_local {call : ToolCall} {claimant : Nat} {now : Instant}
     :
    (startToolCall call claimant now (db.call? call.key)).Local db held := by
  cases found : db.call? call.key with
  | none => trivial
  | some row =>
      rw [startToolCall]
      split
      · rename_i valid
        have matching := AgentToolCall.matches_of_validFor valid
        split
        · rename_i result stored
          exact ⟨row, found, matching, stored⟩
        · split
          · exact ⟨row, found, matching⟩
          · trivial
      · trivial

theorem finishToolCall_local {call : ToolCall} {claimant : Nat}
    {result : ToolResult} (holds : held call.key)
    (journaled : Journaled db call) (claimed : (call.key, claimant) ∈ db.claims) :
    (finishToolCall call claimant result (db.call? call.key)).Local db held := by
  obtain ⟨row, found, matching⟩ := journaled
  rw [found, finishToolCall]
  split
  · rename_i stored isStored
    exact ⟨row, found, matching, isStored⟩
  · rename_i notStored
    split
    · rename_i isOwn
      exact ⟨holds, claimed, row, found, matching,
        AgentToolCall.journalResult_eq_none.mp notStored, isOwn⟩
    · trivial

/-- The proof outline of the journal. -/
def journalOutline (registered : List String) :
    Outline (toolJournal registered) fun _ _ => True where
  Global := JournalDb.Consistent
  Local db point held := point.Local db held
  start := by
    intro database point starts _
    cases point with
    | execute call => trivial
    | _ => cases starts
  read := by
    intro database point input next held requested _ atPoint
    cases point with
    | select call claimant =>
        cases requested
        exact startToolCall_local
    | work call claimant =>
        simp only [toolJournal, CallPoint.request] at requested
        split at requested <;> cases requested
    | _ => cases requested
  lock := by
    intro database point input rows next held requested _ atPoint
    cases point with
    | finish call claimant result =>
        cases requested
        exact finishToolCall_local (Or.inl List.mem_cons_self) atPoint.1 atPoint.2
    | work call claimant =>
        simp only [toolJournal, CallPoint.request] at requested
        split at requested <;> cases requested
    | _ => cases requested
  skipLocked := by
    intro database point input candidates next held chosen requested
    cases point with
    | work call claimant =>
        simp only [toolJournal, CallPoint.request] at requested
        split at requested <;> cases requested
    | _ => cases requested
  rollback := by
    intro database point input next target held requested next_eq _ atPoint
    cases point with
    | work call claimant =>
        simp only [toolJournal, CallPoint.request] at requested
        split at requested
        · cases requested
        · cases requested
          cases next_eq
          exact atPoint
    | returned call result | raised call =>
        cases requested
        cases next_eq
    | _ => cases requested
  refused := by
    intro database point input rows permitted write next refused target held requested
      refused_eq _ atPoint
    cases point with
    | insert call claimant now | reclaim call claimant now lease =>
        cases requested
        cases refused_eq
        trivial
    | work call claimant =>
        simp only [toolJournal, CallPoint.request] at requested
        split at requested
        · cases requested
          cases refused_eq
          exact atPoint
        · cases requested
    | execute call | settle call claimant result =>
        cases requested
        cases refused_eq
    | _ => cases requested
  commit := by
    intro system session point input rows permitted write next refused commits _ consistent atPoint
    have writes := writes_of_request commits.requested commits.permitted
    constructor
    · exact writes.consistent consistent atPoint
    · intro target next_eq
      rw [next_eq] at writes
      exact writes.target atPoint
  interference := by
    intro system session point input rows permitted write next refused commits _ _ atPoint
      other held otherPoint disjoint
    have writes := writes_of_request commits.requested commits.permitted
    exact (writes.evolves atPoint).local otherPoint fun key holds => (disjoint key holds).1

end DotBackend.Agents
