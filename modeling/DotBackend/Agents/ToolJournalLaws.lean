import DotBackend.Agents.ToolJournalResults

/-!
# The laws of the tool-call journal

A journaled call has at most one result, every call that returns returns it, a claimant
whose claim was taken over writes no row any more, and a call that reuses the identity of
another call raises and writes no row.
-/

namespace DotBackend.Agents

open Data Transaction Transition

/-! ## Claimants -/

theorem startToolCall_claimant {call : ToolCall} {claimant token : Nat} {now : Instant}
    {found : Option AgentToolCall}
    (holds : (startToolCall call claimant now found).claimant = some token) : token = claimant := by
  cases found with
  | none =>
      cases holds
      rfl
  | some row =>
      rw [startToolCall] at holds
      split at holds
      · split at holds
        · cases holds
        · split at holds <;> cases holds <;> rfl
      · cases holds

theorem finishToolCall_claimant {call : ToolCall} {claimant token : Nat} {result : ToolResult}
    {found : Option AgentToolCall}
    (holds : (finishToolCall call claimant result found).claimant = some token) :
    token = claimant ∧ (finishToolCall call claimant result found).unclaimed = false := by
  cases found with
  | none => cases holds
  | some row =>
      rw [finishToolCall] at holds ⊢
      split at holds
      · cases holds
      · split at holds
        · rename_i isOwn
          cases holds
          refine ⟨rfl, ?_⟩
          simp only [isOwn, if_true]
          rfl
        · cases holds

/-- A claimant is drawn afresh and claims at most once. -/
theorem claimantLedger_lawful (registered : List String) :
    claimantLedger.Lawful (toolJournal registered) where
  start := by
    intro point starts
    cases point with
    | execute call => rfl
    | _ => cases starts
  moves := by
    intro point input before after target leads
    rcases writes_or_goes leads with ⟨rows, writes⟩ | ⟨rfl, goes⟩
    · cases writes with
      | draw =>
          refine Ledger.Moves.draws rfl rfl ?_
          rintro next token ⟨⟩ ⟨⟩
          rfl
      | insert _ | reclaim _ =>
          refine Ledger.Moves.spends rfl rfl rfl rfl ?_
          rintro next token ⟨⟩ ⟨⟩
          exact ⟨rfl, rfl⟩
      | renew _ =>
          refine Ledger.Moves.keeps rfl rfl ?_
          rintro next token ⟨⟩ holds
          exact ⟨holds, id⟩
      | settle =>
          refine Ledger.Moves.keeps rfl rfl ?_
          rintro next token ⟨⟩ ⟨⟩
    · refine Ledger.Moves.keeps rfl rfl ?_
      intro next token next_eq holds
      cases goes with
      | select =>
          cases next_eq
          cases startToolCall_claimant holds
          exact ⟨rfl, fun _ => rfl⟩
      | insert | reclaim | beat | work =>
          cases next_eq
          exact ⟨holds, id⟩
      | finish =>
          cases next_eq
          obtain ⟨rfl, claimed⟩ := finishToolCall_claimant holds
          exact ⟨rfl, fun unclaimed => absurd claimed (Bool.not_eq_false _ |>.mpr unclaimed)⟩
      | returned | raised => cases next_eq

/-- A claim that was taken over stays taken over. -/
theorem Writes.overtaken {db after : JournalDb} {point : CallPoint} {rows : List CallKey}
    {target : Option CallPoint} {key : CallKey} {claimant : Nat}
    (writes : Writes db point rows after target)
    (unclaimed : ∀ token, point.claimant = some token → point.unclaimed = true →
      token ∉ db.claims.map Prod.snd)
    (overtaken : db.Overtaken key claimant) : after.Overtaken key claimant := by
  obtain ⟨claimed, notNewest⟩ := overtaken
  have spent : claimant ∈ db.claims.map Prod.snd := List.mem_map_of_mem claimed
  have of_claim : ∀ {call : ToolCall} {other : Nat}, other ∉ db.claims.map Prod.snd →
      after.claims = (call.key, other) :: db.claims → after.Overtaken key claimant := by
    intro call other isNew claims_eq
    refine ⟨claims_eq ▸ List.mem_cons_of_mem _ claimed, ?_⟩
    rw [JournalDb.newestClaim_cons call.key other claims_eq]
    split
    · rintro ⟨⟩
      exact isNew spent
    · exact notNewest
  cases writes with
  | insert _ => exact of_claim (unclaimed _ rfl rfl) rfl
  | reclaim _ => exact of_claim (unclaimed _ rfl rfl) rfl
  | draw | renew _ | settle => exact ⟨claimed, notNewest⟩

/-- A claimant whose claim was taken over writes no row. -/
theorem Writes.calls_of_overtaken {db after : JournalDb} {point : CallPoint}
    {rows : List CallKey} {target : Option CallPoint} {key : CallKey} {claimant : Nat}
    {held : Held CallKey} (writes : Writes db point rows after target)
    (consistent : db.Consistent) (once : (db.claims.map Prod.snd).Nodup)
    (atPoint : point.Local db held) (holds : point.claimant = some claimant)
    (unclaimed : point.unclaimed = true → claimant ∉ db.claims.map Prod.snd)
    (overtaken : db.Overtaken key claimant) : after.calls = db.calls := by
  obtain ⟨claimed, notNewest⟩ := overtaken
  have spent : claimant ∈ db.claims.map Prod.snd := List.mem_map_of_mem claimed
  -- the row that a session writes is one that it is the newest claimant of
  have notOwn : ∀ {call : ToolCall} {row : AgentToolCall}, (call.key, claimant) ∈ db.claims →
      db.call? call.key = some row → row.status = .running → row.claimedBy ≠ some claimant := by
    intro call row ownClaim found isRunning isOwn
    have sameClaim := List.inj_on_of_nodup_map once ownClaim claimed rfl
    cases sameClaim
    exact notNewest ((consistent.newest found isRunning).symm.trans isOwn)
  cases writes with
  | draw => rfl
  | insert _ | reclaim _ =>
      cases holds
      exact absurd spent (unclaimed rfl)
  | renew renewable =>
      cases holds
      obtain ⟨row, found, isRunning, isOwn⟩ := JournalDb.of_renewable renewable
      exact absurd isOwn (notOwn atPoint.2 found isRunning)
  | settle =>
      cases holds
      obtain ⟨_, ownClaim, row, found, _, isRunning, isOwn⟩ := atPoint
      exact absurd isOwn (notOwn ownClaim found isRunning)

/-! ## Runs -/

/-- The states that the calls of a registry reach from an empty journal. -/
abbrev JournalRun (registered : List String) :
    System JournalDb CallKey CallPoint → System JournalDb CallKey CallPoint → Prop :=
  Run (System.step (toolJournal registered)) fun _ _ => True

section Steps

variable {registered : List String} {system after : System JournalDb CallKey CallPoint}
  {event : Event CallPoint ToolInput}

/-- What holds in every state of a run. -/
structure JournalInvariant (registered : List String)
    (system : System JournalDb CallKey CallPoint) : Prop where
  sound : (journalOutline registered).Sound system
  balanced : claimantLedger.Balanced system

theorem JournalInvariant.run {target : System JournalDb CallKey CallPoint}
    (invariant : JournalInvariant registered system) (run : JournalRun registered system target) :
    JournalInvariant registered target :=
  ⟨invariant.sound.run run,
    invariant.balanced.run (claimantLedger_lawful registered) run⟩

theorem journalInvariant_empty (registered : List String) :
    JournalInvariant registered (System.idle JournalDb.empty) where
  sound := by
    apply Outline.sound_idle
    constructor
    · exact List.nodup_nil
    · exact fun _ => rfl
    · intro key row found
      cases found
  balanced := Ledger.balanced_idle rfl

/-- A session that advances commits, or leaves the database as it is. -/
theorem advance_writes_or_goes {session : Nat} {input : ToolInput} {point : CallPoint}
    (stepped : system.step (toolJournal registered) (.advance session input) = some after)
    (atPoint : system.points session = some point) :
    (∃ rows, Writes system.database point rows after.database (after.points session)) ∨
      (after.database = system.database ∧ Goes system.database point (after.points session)) := by
  rw [System.step, atPoint, Option.bind_some] at stepped
  exact writes_or_goes (System.serve_leads stepped)

/-- A step leaves the database as it is, or is a commit of a session at its point. -/
theorem step_writes (stepped : system.step (toolJournal registered) event = some after) :
    after.database = system.database ∨
      ∃ point rows, system.points event.session = some point ∧
        Writes system.database point rows after.database (after.points event.session) := by
  cases event with
  | start session point =>
      rw [System.step] at stepped
      split at stepped
      · cases stepped
        exact Or.inl rfl
      · cases stepped
  | crash session =>
      cases stepped
      exact Or.inl rfl
  | advance session input =>
      cases atPoint : system.points session with
      | none =>
          rw [System.step, atPoint] at stepped
          cases stepped
      | some point =>
          rcases advance_writes_or_goes stepped atPoint with ⟨rows, writes⟩ | ⟨same, _⟩
          · exact Or.inr ⟨point, rows, atPoint, writes⟩
          · exact Or.inl same

theorem JournalInvariant.step_evolves (invariant : JournalInvariant registered system)
    (stepped : system.step (toolJournal registered) event = some after) :
    ∃ rows, Evolves rows system.database after.database := by
  rcases step_writes stepped with same | ⟨point, rows, atPoint, writes⟩
  · rw [same]
    refine ⟨[], ?_, ?_, ?_, ?_⟩
    · exact fun found => ⟨_, found, rfl, rfl⟩
    · exact fun found _ => found
    · exact fun _ found => found
    · exact fun _ => id
  · exact ⟨rows, writes.evolves (invariant.sound.local_ atPoint)⟩

/-- What every commit keeps, every run keeps. -/
theorem JournalInvariant.run_keeps {later : System JournalDb CallKey CallPoint}
    (invariant : JournalInvariant registered system) (run : JournalRun registered system later)
    (Kept : JournalDb → Prop)
    (kept : ∀ {rows before after}, Evolves rows before after → Kept before → Kept after)
    (initially : Kept system.database) : Kept later.database := by
  have stays : JournalInvariant registered later ∧ Kept later.database := by
    apply run.invariant fun state => JournalInvariant registered state ∧ Kept state.database
    · rintro before event after ⟨beforeInvariant, beforeKept⟩ allowed stepped
      obtain ⟨rows, evolves⟩ := beforeInvariant.step_evolves stepped
      exact ⟨beforeInvariant.run (Run.tail Run.refl allowed stepped), kept evolves beforeKept⟩
    · exact ⟨invariant, initially⟩
  exact stays.2

end Steps

/-! ## The laws -/

/-- The row of the call was claimed for another one. -/
def JournalDb.Reused (db : JournalDb) (call : ToolCall) : Prop :=
  ∃ row, db.call? call.key = some row ∧ ¬ row.Matches call

theorem Evolves.reused {rows : List CallKey} {before after : JournalDb} {call : ToolCall}
    (evolves : Evolves rows before after) (reused : before.Reused call) : after.Reused call := by
  obtain ⟨row, found, differs⟩ := reused
  obtain ⟨later, laterFound, name_eq, arguments_eq⟩ := evolves.identity found
  exact ⟨later, laterFound, fun matching =>
    differs (matching.of_eq name_eq.symm arguments_eq.symm)⟩

theorem JournalDb.Reused.not_journaled {db : JournalDb} {call : ToolCall}
    (reused : db.Reused call) : ¬ Journaled db call := by
  rintro ⟨row, found, matching⟩
  obtain ⟨other, otherFound, differs⟩ := reused
  cases found.symm.trans otherFound
  exact differs matching

/-- A session that executes a call whose identity belongs to another one writes no row. -/
theorem Writes.calls_of_reused {db after : JournalDb} {point : CallPoint} {rows : List CallKey}
    {target : Option CallPoint} {held : Held CallKey} (writes : Writes db point rows after target)
    (atPoint : point.Local db held) (reused : db.Reused point.call) : after.calls = db.calls := by
  cases writes with
  | draw => rfl
  | insert isNew =>
      obtain ⟨row, found, _⟩ := reused
      cases isNew.symm.trans found
  | reclaim _ => exact absurd atPoint reused.not_journaled
  | renew _ => exact absurd atPoint.1 reused.not_journaled
  | settle =>
      obtain ⟨_, _, row, found, matching, _⟩ := atPoint
      exact absurd ⟨row, found, matching⟩ reused.not_journaled

/-- The laws of the journal, for the calls of any number of sessions in any order, with any
heartbeats, leases that run out, and crashes. -/
structure ToolCallsSettleOnce (registered : List String) : Prop where
  /-- At most one result is ever stored for a call. -/
  once : ∀ {system}, JournalRun registered (System.idle JournalDb.empty) system →
    ∀ key, (system.database.resultsOf key).length ≤ 1
  /-- A settled row is never written again. -/
  final : ∀ {system later}, JournalRun registered (System.idle JournalDb.empty) system →
    JournalRun registered system later → ∀ {key row result},
      system.database.call? key = some row → row.journalResult = some result →
        later.database.call? key = some row
  /-- A call that returns returns the stored result. -/
  returned : ∀ {system}, JournalRun registered (System.idle JournalDb.empty) system →
    ∀ {session call result}, system.points session = some (.returned call result) →
      system.database.resultsOf call.key = [result]
  /-- A reclaim takes the call over from whoever claimed it before. -/
  reclaimed : ∀ {system}, JournalRun registered (System.idle JournalDb.empty) system →
    ∀ {session call claimant now lease input after},
      system.points session = some (.reclaim call claimant now lease) →
        system.step (toolJournal registered) (.advance session input) = some after →
          after.points session = some (.work call claimant) →
            ∀ {other}, (call.key, other) ∈ system.database.claims →
              after.database.Overtaken call.key other
  /-- Once its claim was taken over, a claimant writes no row. -/
  overtaken : ∀ {system later}, JournalRun registered (System.idle JournalDb.empty) system →
    JournalRun registered system later → ∀ {key claimant},
      system.database.Overtaken key claimant → ∀ {event point after},
        later.points event.session = some point → point.claimant = some claimant →
          later.step (toolJournal registered) event = some after →
            after.database.calls = later.database.calls
  /-- A call whose identity belongs to another call writes no row and does not return. -/
  reused : ∀ {system later}, JournalRun registered (System.idle JournalDb.empty) system →
    JournalRun registered system later → ∀ {call}, system.database.Reused call →
      ∀ {session point}, later.points session = some point → point.call = call →
        (∀ result, point ≠ .returned call result) ∧
          ∀ {event after}, event.session = session →
            later.step (toolJournal registered) event = some after →
              after.database.calls = later.database.calls
  /-- It raises as soon as it has read the row. -/
  raised : ∀ {system}, JournalRun registered (System.idle JournalDb.empty) system →
    ∀ {call}, system.database.Reused call → ∀ {session claimant input after},
      system.points session = some (.select call claimant) →
        system.step (toolJournal registered) (.advance session input) = some after →
          after.points session = some (.raised call)

theorem tool_calls_settle_once (registered : List String) : ToolCallsSettleOnce registered where
  once := by
    intro system run key
    have consistent := ((journalInvariant_empty registered).run run).sound.global
    rw [consistent.results key]
    cases (system.database.call? key).bind AgentToolCall.journalResult with
    | none => exact Nat.zero_le 1
    | some result => exact Nat.le_refl 1
  final := by
    intro system later run onward key row result found settled
    have invariant := (journalInvariant_empty registered).run run
    apply invariant.run_keeps onward fun db => db.call? key = some row
    · exact fun evolves rowFound => evolves.final rowFound settled
    · exact found
  returned := by
    intro system run session call result atPoint
    have sound := ((journalInvariant_empty registered).run run).sound
    obtain ⟨row, found, _, stored⟩ := sound.local_ atPoint
    rw [sound.global.results call.key, found, Option.bind_some, stored]
    rfl
  reclaimed := by
    intro system run session call claimant now lease input after atPoint stepped atWork other
      claimed
    have balanced := ((journalInvariant_empty registered).run run).balanced
    have isNew : claimant ∉ system.database.claims.map Prod.snd :=
      balanced.unspent atPoint rfl rfl
    rcases advance_writes_or_goes stepped atPoint with ⟨rows, writes⟩ | ⟨_, goes⟩
    · rw [atWork] at writes
      generalize after.database = database at writes ⊢
      cases writes with
      | reclaim _ =>
          refine ⟨List.mem_cons_of_mem _ claimed, ?_⟩
          rw [JournalDb.newestClaim_cons call.key claimant rfl, if_pos rfl]
          rintro ⟨⟩
          exact isNew (List.mem_map_of_mem claimed)
    · rw [atWork] at goes
      cases goes
  overtaken := by
    intro system later run onward key claimant overtaken event point after atPoint holds stepped
    have stays : JournalInvariant registered later ∧ later.database.Overtaken key claimant := by
      apply onward.invariant fun state =>
        JournalInvariant registered state ∧ state.database.Overtaken key claimant
      · rintro before event after ⟨invariant, beforeOvertaken⟩ allowed stepped
        refine ⟨invariant.run (Run.tail Run.refl allowed stepped), ?_⟩
        rcases step_writes stepped with same | ⟨point, rows, atPoint, writes⟩
        · rw [same]
          exact beforeOvertaken
        · exact writes.overtaken (fun token => invariant.balanced.unspent atPoint) beforeOvertaken
      · exact ⟨(journalInvariant_empty registered).run run, overtaken⟩
    obtain ⟨invariant, laterOvertaken⟩ := stays
    rcases step_writes stepped with same | ⟨other, rows, atOther, writes⟩
    · rw [same]
    · cases atOther.symm.trans atPoint
      exact writes.calls_of_overtaken invariant.sound.global invariant.balanced.once
        (invariant.sound.local_ atPoint) holds (invariant.balanced.unspent atPoint holds)
        laterOvertaken
  reused := by
    intro system later run onward call reused session point atPoint isCall
    have invariant := (journalInvariant_empty registered).run run
    have laterReused : later.database.Reused call :=
      invariant.run_keeps onward (fun db => db.Reused call) (fun evolves => evolves.reused) reused
    have sound := (invariant.run onward).sound
    constructor
    · rintro result rfl
      obtain ⟨row, found, matching, _⟩ := sound.local_ atPoint
      exact laterReused.not_journaled ⟨row, found, matching⟩
    · rintro event after rfl stepped
      rcases step_writes stepped with same | ⟨other, rows, atOther, writes⟩
      · rw [same]
      · cases atOther.symm.trans atPoint
        rw [← isCall] at laterReused
        exact writes.calls_of_reused (sound.local_ atPoint) laterReused
  raised := by
    intro system run call reused session claimant input after atPoint stepped
    obtain ⟨row, found, differs⟩ := reused
    have notValid : ¬ row.validFor call = true :=
      fun valid => differs (AgentToolCall.matches_of_validFor valid)
    rw [System.step, atPoint] at stepped
    cases stepped
    simp only [System.moveTo, Function.update_self, found, startToolCall, notValid, if_false,
      Bool.false_eq_true]

end DotBackend.Agents
