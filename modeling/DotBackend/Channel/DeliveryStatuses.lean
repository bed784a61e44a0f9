import DotBackend.Channel.Deliveries

/-!
# The status of a delivery

Every transaction that reports on a delivery decides the status from the row that it read
and writes it later. As long as each status that is written is still what its rule gives for
the stored row, a delivery that was delivered or read is never set back, and without
failures the status is the highest of those reported, in whatever order they came.
-/

namespace DotBackend.Channel

open Data Transition Transaction

variable {point : DeliveryPoint} {loaded assigned : MessageDelivery} {report : Report}
  {system : System DeliveryDb Uuid DeliveryPoint} {input : DeliveryInput} {db : DeliveryDb}

/-! ## What a report makes of a status -/

/-- The status after a report: a failure counts until the message is known to have arrived,
and any other report advances. -/
def DeliveryStatus.told (reported current : DeliveryStatus) : DeliveryStatus :=
  match reported with
  | .failed => if current = .delivered ∨ current = .read then current else .failed
  | _ => if current.order ≤ reported.order then reported else current

namespace DeliveryStatus

variable {reported current : DeliveryStatus}

theorem told_delivered : told reported .delivered = .delivered ∨ told reported .delivered = .read := by
  cases reported <;> simp [told, order]

@[simp]
theorem told_read : told reported .read = .read := by
  cases reported <;> simp [told, order]

theorem told_eq_or : told reported current = reported ∨ told reported current = current := by
  cases reported <;> simp only [told] <;> split <;> simp

/-- A report that is no failure leads to the higher of the two. -/
theorem order_told (noFailure : reported ≠ .failed) :
    (told reported current).order = max current.order reported.order := by
  cases reported with
  | failed => exact absurd rfl noFailure
  | pending | sent | delivered | read => cases current <;> rfl

end DeliveryStatus

namespace MessageDelivery

variable {delivery : MessageDelivery}

theorem status_advance (target : DeliveryStatus) (noFailure : target ≠ .failed) :
    (delivery.advance target).status = target.told delivery.status := by
  unfold advance
  cases target with
  | failed => exact absurd rfl noFailure
  | pending | sent | delivered | read =>
      simp only [DeliveryStatus.told]
      split <;> rfl

theorem status_markFailed : delivery.markFailed.status = DeliveryStatus.failed.told delivery.status := by
  unfold markFailed DeliveryStatus.told
  cases status : delivery.status <;> simp [status]

theorem status_markSent {externalId : Option String} {now : Instant} :
    (delivery.markSent externalId now).status = DeliveryStatus.sent.told delivery.status := by
  simp only [markSent, DeliveryStatus.told]
  cases delivery.status <;> simp [DeliveryStatus.order]

theorem status_applyEvent {event : LifecycleEvent} {now : Instant} :
    (delivery.applyEvent event now).status = event.type.status.told delivery.status := by
  unfold applyEvent
  cases type : event.type with
  | sent | delivered | read => exact status_advance _ DeliveryStatus.noConfusion
  | failed =>
      simp only [LifecycleEventType.status, DeliveryStatus.told]
      cases delivery.status <;> simp

end MessageDelivery

/-- Every settlement assigns what the report makes of the status that was loaded, and is
about the delivery that was loaded. -/
theorem Settling.status_assigned {next : Option DeliveryPoint}
    (settling : Settling point loaded assigned report next) :
    assigned.status = report.status.told loaded.status ∧ report.applied = some loaded.id := by
  cases settling with
  | failed => exact ⟨MessageDelivery.status_markFailed, rfl⟩
  | sent => exact ⟨MessageDelivery.status_markSent, rfl⟩
  | lifecycle => exact ⟨MessageDelivery.status_applyEvent, rfl⟩

/-! ## The condition -/

/-- The rule by which a session at a point assigns a row, with the row that it loaded. -/
def DeliveryPoint.rule : DeliveryPoint →
    Option (MessageDelivery × (MessageDelivery → MessageDelivery))
  | .writeFailed loaded => some (loaded, MessageDelivery.markFailed)
  | .writeSent _ _ loaded externalId now => some (loaded, MessageDelivery.markSent externalId now)
  | .writeLifecycle _ event loaded now => some (loaded, MessageDelivery.applyEvent event now)
  | _ => none

/-- A session that assigns a new status assigns the one that its rule gives for the row as
it is stored by then. -/
def decidedOnStored (system : System DeliveryDb Uuid DeliveryPoint) :
    Event DeliveryPoint DeliveryInput → Bool
  | .advance session _ =>
      ((system.points session).bind DeliveryPoint.rule).all fun (loaded, rule) =>
        (rule loaded).status = loaded.status ||
          (system.database.delivery? loaded.id).all fun stored =>
            (rule stored).status = (rule loaded).status
  | _ => true

theorem Settling.decided {session : Nat}
    {stored : MessageDelivery}
    {next : Option DeliveryPoint}
    (settling : Settling point loaded assigned report next)
    (atPoint : system.points session = some point)
    (allowed : decidedOnStored system (.advance session input) = true)
    (found : system.database.delivery? loaded.id = some stored) :
    report.status.told loaded.status = loaded.status ∨
      report.status.told stored.status = report.status.told loaded.status := by
  cases settling with
  | failed =>
      simpa [decidedOnStored, atPoint, DeliveryPoint.rule, found,
        MessageDelivery.status_markFailed] using allowed
  | sent =>
      simpa [decidedOnStored, atPoint, DeliveryPoint.rule, found,
        MessageDelivery.status_markSent] using allowed
  | lifecycle =>
      simpa [decidedOnStored, atPoint, DeliveryPoint.rule, found,
        MessageDelivery.status_applyEvent] using allowed

/-- The status that is stored by a settlement that was decided on the stored row. -/
theorem Settling.status_merged {stored : MessageDelivery}
    {next : Option DeliveryPoint}
    (settling : Settling point loaded assigned report next)
    (decided : report.status.told loaded.status = loaded.status ∨
      report.status.told stored.status = report.status.told loaded.status) :
    (report.status.told loaded.status = loaded.status ∧
        (loaded.merge assigned stored).status = stored.status) ∨
      (loaded.merge assigned stored).status = report.status.told stored.status := by
  have merged : (loaded.merge assigned stored).status =
      mergeColumn loaded.status (report.status.told loaded.status) stored.status := by
    rw [← settling.status_assigned.1]
    rfl
  by_cases unassigned : report.status.told loaded.status = loaded.status
  · apply Or.inl
    refine ⟨unassigned, ?_⟩
    rw [merged, unassigned, mergeColumn_unassigned]
  · apply Or.inr
    rw [merged, mergeColumn_assigned unassigned]
    exact (decided.resolve_left unassigned).symm

/-! ## Deliveries are not set back -/

/-- What may follow a status that tells of an arrival. -/
def DeliveryStatus.MayBecome (current later : DeliveryStatus) : Prop :=
  (current = .delivered → later = .delivered ∨ later = .read) ∧ (current = .read → later = .read)

namespace DeliveryStatus.MayBecome

variable {first second third reported : DeliveryStatus}

theorem refl : first.MayBecome first :=
  ⟨fun isDelivered => Or.inl isDelivered, fun isRead => isRead⟩

theorem trans (before : first.MayBecome second) (after : second.MayBecome third) :
    first.MayBecome third := by
  constructor
  · intro isDelivered
    rcases before.1 isDelivered with isDelivered | isRead
    · exact after.1 isDelivered
    · exact Or.inr (after.2 isRead)
  · intro isRead
    exact after.2 (before.2 isRead)

theorem told : first.MayBecome (reported.told first) := by
  constructor
  · rintro rfl
    exact DeliveryStatus.told_delivered
  · rintro rfl
    exact DeliveryStatus.told_read

end DeliveryStatus.MayBecome

/-- Every delivery is still there, and was not set back. -/
structure DeliveriesAdvance (before after : DeliveryDb) : Prop where
  keeps : KeepsDeliveries before after
  advance : ∀ row ∈ before.deliveries, ∀ later ∈ after.deliveries, later.id = row.id →
    row.status.MayBecome later.status

namespace DeliveriesAdvance

variable {before middle after : DeliveryDb}

theorem of_same (keyed : before.Keyed) (sameRows : after.deliveries = before.deliveries)
    (sameSupply : after.nextId = before.nextId) : DeliveriesAdvance before after where
  keeps := KeepsDeliveries.of_same keyed sameRows sameSupply
  advance := by
    intro row rowMem later laterMem sameId
    rw [sameRows] at laterMem
    rw [keyed.eq_of_mem laterMem rowMem sameId]
    exact DeliveryStatus.MayBecome.refl

theorem trans (first : DeliveriesAdvance before middle) (second : DeliveriesAdvance middle after) :
    DeliveriesAdvance before after where
  keeps := first.keeps.trans second.keeps
  advance := by
    intro row rowMem later laterMem sameId
    obtain ⟨between, betweenMem, same⟩ := first.keeps.stays row rowMem
    have toBetween := first.advance row rowMem between betweenMem same.id
    exact toBetween.trans (second.advance between betweenMem later laterMem
      (sameId.trans same.id.symm))

end DeliveriesAdvance

/-- A commit under the condition sets no delivery back. -/
theorem DeliveryWriting.advances {session : Nat}
    {rows : DeliveryDb → List Uuid}
    {permitted : DeliveryDb → Bool} {write : DeliveryDb → DeliveryDb}
    {next : DeliveryDb → Option DeliveryPoint}
    (writing : DeliveryWriting point input rows permitted write next)
    (atPoint : system.points session = some point)
    (allowed : decidedOnStored system (.advance session input) = true)
    (keyed : system.database.Keyed) :
    DeliveriesAdvance system.database (write system.database) := by
  cases writing with
  | @settle _ _ loaded assigned report next settling =>
      refine ⟨KeepsDeliveries.settle keyed _ _ _, ?_⟩
      intro row rowMem later laterMem sameId
      rcases DeliveryDb.mem_updateDelivery laterMem with ⟨oldMem, _⟩ | ⟨old, oldMem, isLoaded, rfl⟩
      · rw [keyed.eq_of_mem oldMem rowMem sameId]
        exact DeliveryStatus.MayBecome.refl
      · cases keyed.eq_of_mem oldMem rowMem sameId
        have found := keyed.delivery?_eq oldMem
        rw [isLoaded] at found
        rcases settling.status_merged (settling.decided atPoint allowed found) with
          ⟨_, isStored⟩ | isTold
        · rw [isStored]
          exact DeliveryStatus.MayBecome.refl
        · rw [isTold]
          exact DeliveryStatus.MayBecome.told
  | insert =>
      refine ⟨KeepsDeliveries.insert keyed _ _ _, ?_⟩
      intro row rowMem later laterMem sameId
      rcases List.mem_append.mp laterMem with oldMem | newMem
      · rw [keyed.eq_of_mem oldMem rowMem sameId]
        exact DeliveryStatus.MayBecome.refl
      · rw [List.mem_singleton.mp newMem] at sameId
        have known := keyed.known row rowMem
        rw [← sameId] at known
        exact absurd known (Nat.lt_irrefl _)
  | returned _ | raised =>
      exact DeliveriesAdvance.of_same keyed DeliveryDb.acceptMessage_deliveries
        DeliveryDb.acceptMessage_nextId
  | ignore => exact DeliveriesAdvance.of_same keyed rfl rfl

/-! ## The highest report -/

/-- A status of a list that none of the list exceeds. -/
def DeliveryStatus.IsHighest (status : DeliveryStatus) (statuses : List DeliveryStatus) : Prop :=
  status ∈ statuses ∧ ∀ other ∈ statuses, other.order ≤ status.order

instance (status : DeliveryStatus) (statuses : List DeliveryStatus) :
    Decidable (status.IsHighest statuses) :=
  inferInstanceAs (Decidable (_ ∧ _))

namespace DeliveryStatus.IsHighest

variable {current reported : DeliveryStatus} {statuses : List DeliveryStatus}

/-- A report that does not exceed the highest. -/
theorem absorb (highest : current.IsHighest statuses) (lower : reported.order ≤ current.order) :
    current.IsHighest (statuses ++ [reported]) := by
  constructor
  · exact List.mem_append_left _ highest.1
  · intro other otherMem
    rcases List.mem_append.mp otherMem with oldMem | newMem
    · exact highest.2 other oldMem
    · rw [List.mem_singleton.mp newMem]
      exact lower

theorem told (highest : current.IsHighest statuses) (noFailure : reported ≠ .failed) :
    (reported.told current).IsHighest (statuses ++ [reported]) := by
  have order_eq : (reported.told current).order = max current.order reported.order :=
    DeliveryStatus.order_told noFailure
  constructor
  · have toldOr : reported.told current = reported ∨ reported.told current = current :=
      DeliveryStatus.told_eq_or
    rcases toldOr with same | same
    · rw [same]
      exact List.mem_append_right _ (List.mem_singleton_self reported)
    · rw [same]
      exact List.mem_append_left _ highest.1
  · intro other otherMem
    rw [order_eq]
    rcases List.mem_append.mp otherMem with oldMem | newMem
    · exact le_trans (highest.2 other oldMem) (le_max_left _ _)
    · rw [List.mem_singleton.mp newMem]
      exact le_max_right _ _

end DeliveryStatus.IsHighest

/-- The statuses that were applied to a delivery, in order. -/
def DeliveryDb.received (db : DeliveryDb) (id : Uuid) : List DeliveryStatus :=
  (db.reports.filter fun report => report.applied = some id).map (·.status)

/-- The status of a delivery at the beginning; a new one is pending. -/
def DeliveryDb.initialStatus (db : DeliveryDb) (id : Uuid) : DeliveryStatus :=
  ((db.delivery? id).map (·.status)).getD .pending

theorem DeliveryDb.received_append {after : DeliveryDb}
    (reports : after.reports = db.reports ++ [report]) (id : Uuid) :
    after.received id =
      db.received id ++ if report.applied = some id then [report.status] else [] := by
  rw [received, reports, List.filter_append, List.map_append]
  congr 1
  by_cases isApplied : report.applied = some id
  · simp [isApplied]
  · simp [isApplied]

/-- Without failures a delivery has the highest of the statuses applied to it. -/
structure Tally (initial : Uuid → DeliveryStatus) (db : DeliveryDb) : Prop where
  keyed : db.Keyed
  fresh : ∀ id, db.nextId ≤ id → initial id = .pending ∧ db.received id = []
  highest : ∀ row ∈ db.deliveries, .failed ∉ db.received row.id →
    row.status.IsHighest (initial row.id :: db.received row.id)

/-- What commits do to the reports and, without failures, to the orders of the statuses. -/
structure Reports (before after : DeliveryDb) : Prop where
  supply : before.nextId ≤ after.nextId
  received : ∀ id, ∀ status ∈ before.received id, status ∈ after.received id
  grows : ∀ id < before.nextId, .failed ∉ after.received id →
    ∀ later ∈ after.deliveries, later.id = id →
      ∃ row ∈ before.deliveries, row.id = id ∧ row.status.order ≤ later.status.order

/-- The status that a session has read is not above the one that is stored, unless a failure
was reported since. -/
def NotAhead (db : DeliveryDb) (loaded : MessageDelivery) : Prop :=
  loaded.id < db.nextId ∧ (.failed ∉ db.received loaded.id →
    ∀ row ∈ db.deliveries, row.id = loaded.id → loaded.status.order ≤ row.status.order)

theorem NotAhead.keeps {before after : DeliveryDb} (notAhead : NotAhead before loaded)
    (reports : Reports before after) :
    NotAhead after loaded := by
  refine ⟨lt_of_lt_of_le notAhead.1 reports.supply, ?_⟩
  intro noFailure later laterMem sameId
  obtain ⟨row, rowMem, rowId, grown⟩ :=
    reports.grows loaded.id notAhead.1 noFailure later laterMem sameId
  have notBefore : .failed ∉ before.received loaded.id := fun failed =>
    noFailure (reports.received _ _ failed)
  exact le_trans (notAhead.2 notBefore row rowMem rowId) grown

/-- A commit that writes no delivery and reports nothing of one. -/
theorem Tally.of_same {initial : Uuid → DeliveryStatus} {before after : DeliveryDb}
    (tally : Tally initial before) (sameRows : after.deliveries = before.deliveries)
    (sameSupply : after.nextId = before.nextId)
    (sameReports : ∀ id, after.received id = before.received id) :
    Tally initial after ∧ Reports before after := by
  have keeps := KeepsDeliveries.of_same tally.keyed sameRows sameSupply
  constructor
  · refine ⟨keeps.keyed, ?_, ?_⟩
    · intro id isFresh
      rw [sameSupply] at isFresh
      rw [sameReports]
      exact tally.fresh id isFresh
    · intro row rowMem
      rw [sameRows] at rowMem
      rw [sameReports]
      exact tally.highest row rowMem
  · refine ⟨keeps.supply, ?_, ?_⟩
    · intro id status statusMem
      rw [sameReports]
      exact statusMem
    · intro id _ _ later laterMem sameId
      rw [sameRows] at laterMem
      exact ⟨later, laterMem, sameId, le_refl _⟩

/-- A settlement under the condition. -/
theorem Tally.settle {initial : Uuid → DeliveryStatus} {db : DeliveryDb}
    {point : DeliveryPoint} {loaded assigned stored : MessageDelivery} {report : Report}
    {next : Option DeliveryPoint} (tally : Tally initial db)
    (settling : Settling point loaded assigned report next) (notAhead : NotAhead db loaded)
    (found : db.delivery? loaded.id = some stored)
    (decided : report.status.told loaded.status = loaded.status ∨
      report.status.told stored.status = report.status.told loaded.status) :
    Tally initial (writeDelivery loaded assigned report db) ∧
      Reports db (writeDelivery loaded assigned report db) := by
  have keeps := KeepsDeliveries.settle tally.keyed loaded assigned report
  have reported : ∀ id, (writeDelivery loaded assigned report db).received id =
      db.received id ++ if report.applied = some id then [report.status] else [] :=
    DeliveryDb.received_append rfl
  obtain ⟨storedMem, storedId⟩ := DeliveryDb.of_delivery? found
  have onLoaded : ∀ status, report.applied = some status ↔ loaded.id = status := by
    intro status
    rw [settling.status_assigned.2, Option.some.injEq]
  -- what the settlement makes of the stored status when no failure is reported
  have outcome : report.status ≠ .failed → .failed ∉ db.received loaded.id →
      (report.status.order ≤ stored.status.order ∧
          (loaded.merge assigned stored).status = stored.status) ∨
        (loaded.merge assigned stored).status = report.status.told stored.status := by
    intro noFailure notBefore
    rcases settling.status_merged decided with ⟨unassigned, isStored⟩ | isTold
    · apply Or.inl
      have order_eq : (report.status.told loaded.status).order =
          max loaded.status.order report.status.order := DeliveryStatus.order_told noFailure
      rw [unassigned] at order_eq
      have ahead := notAhead.2 notBefore stored storedMem storedId
      exact ⟨by omega, isStored⟩
    · exact Or.inr isTold
  constructor
  · refine ⟨keeps.keyed, ?_, ?_⟩
    · intro id isFresh
      obtain ⟨isPending, noReports⟩ := tally.fresh id isFresh
      have different : loaded.id ≠ id := fun same => by
        have known := notAhead.1
        rw [same] at known
        exact absurd known (Nat.not_lt.mpr isFresh)
      rw [reported, noReports, if_neg (mt (onLoaded id).mp different)]
      exact ⟨isPending, rfl⟩
    · intro later laterMem noFailure
      rw [reported] at noFailure ⊢
      rcases DeliveryDb.mem_updateDelivery laterMem with ⟨oldMem, isOther⟩ | ⟨old, oldMem, isLoaded, rfl⟩
      · rw [if_neg (mt (onLoaded later.id).mp (Ne.symm isOther)), List.append_nil] at noFailure ⊢
        exact tally.highest later oldMem noFailure
      · cases tally.keyed.eq_of_mem oldMem storedMem (isLoaded.trans storedId.symm)
        have sameId : (loaded.merge assigned stored).id = loaded.id := isLoaded
        rw [sameId, if_pos ((onLoaded _).mpr rfl)] at noFailure ⊢
        simp only [List.mem_append, List.mem_singleton, not_or] at noFailure
        have highest := tally.highest stored oldMem
        rw [isLoaded] at highest
        rcases outcome (Ne.symm noFailure.2) noFailure.1 with ⟨lower, isStored⟩ | isTold
        · rw [isStored]
          exact (highest noFailure.1).absorb lower
        · rw [isTold]
          exact (highest noFailure.1).told (Ne.symm noFailure.2)
  · refine ⟨keeps.supply, ?_, ?_⟩
    · intro id status statusMem
      rw [reported]
      exact List.mem_append_left _ statusMem
    · intro id _ noFailure later laterMem sameId
      rcases DeliveryDb.mem_updateDelivery laterMem with ⟨oldMem, _⟩ | ⟨old, oldMem, isLoaded, rfl⟩
      · exact ⟨later, oldMem, sameId, le_refl _⟩
      · cases tally.keyed.eq_of_mem oldMem storedMem (isLoaded.trans storedId.symm)
        refine ⟨stored, oldMem, sameId, ?_⟩
        have isLoadedId : loaded.id = id := isLoaded.symm.trans sameId
        rw [reported, if_pos ((onLoaded _).mpr isLoadedId), ← isLoadedId] at noFailure
        simp only [List.mem_append, List.mem_singleton, not_or] at noFailure
        rcases outcome (Ne.symm noFailure.2) noFailure.1 with ⟨_, isStored⟩ | isTold
        · rw [isStored]
        · rw [isTold, DeliveryStatus.order_told (Ne.symm noFailure.2)]
          exact le_max_left _ _

theorem Tally.insert {initial : Uuid → DeliveryStatus} {db : DeliveryDb} (tally : Tally initial db)
    (turn : Turn) (ordinal : Nat) (reply : PersistedReply) :
    Tally initial (insertDelivery turn ordinal reply db) ∧
      Reports db (insertDelivery turn ordinal reply db) := by
  have keeps := KeepsDeliveries.insert tally.keyed turn ordinal reply
  constructor
  · refine ⟨keeps.keyed, ?_, ?_⟩
    · exact fun id isFresh => tally.fresh id (Nat.le_of_succ_le isFresh)
    · intro later laterMem noFailure
      rcases List.mem_append.mp laterMem with oldMem | newMem
      · exact tally.highest later oldMem noFailure
      · rw [List.mem_singleton.mp newMem]
        obtain ⟨isPending, noReports⟩ := tally.fresh db.nextId (le_refl _)
        have received : (insertDelivery turn ordinal reply db).received db.nextId = [] := noReports
        rw [received, isPending]
        exact (by decide : DeliveryStatus.pending.IsHighest [DeliveryStatus.pending])
  · refine ⟨keeps.supply, fun _ _ statusMem => statusMem, ?_⟩
    intro id known _ later laterMem sameId
    rcases List.mem_append.mp laterMem with oldMem | newMem
    · exact ⟨later, oldMem, sameId, le_refl _⟩
    · rw [List.mem_singleton.mp newMem] at sameId
      exact absurd (sameId ▸ known) (Nat.lt_irrefl _)

/-! ## Runs -/

/-- What a session relies on at a point. -/
def StatusRead (db : DeliveryDb) (point : DeliveryPoint) : Prop :=
  ∀ loaded rule, point.rule = some (loaded, rule) → NotAhead db loaded

/-- A commit under the condition, at a point whose assertion holds. -/
theorem DeliveryWriting.tallies {initial : Uuid → DeliveryStatus}
    {session : Nat} {rows : DeliveryDb → List Uuid} {permitted : DeliveryDb → Bool}
    {write : DeliveryDb → DeliveryDb} {next : DeliveryDb → Option DeliveryPoint}
    (writing : DeliveryWriting point input rows permitted write next)
    (atPoint : system.points session = some point)
    (isPermitted : permitted system.database = true)
    (allowed : decidedOnStored system (.advance session input) = true)
    (tally : Tally initial system.database) (read : StatusRead system.database point) :
    Tally initial (write system.database) ∧ Reports system.database (write system.database) := by
  cases writing with
  | settle settling =>
      obtain ⟨isThere, _⟩ := Bool.and_eq_true_iff.mp isPermitted
      obtain ⟨stored, found⟩ := Option.isSome_iff_exists.mp isThere
      apply tally.settle settling _ found (settling.decided atPoint allowed found)
      cases settling <;> exact read _ _ rfl
  | insert => exact tally.insert _ _ _
  | returned _ | raised =>
      apply tally.of_same
      · exact DeliveryDb.acceptMessage_deliveries
      · exact DeliveryDb.acceptMessage_nextId
      · intro id
        rw [DeliveryDb.received, DeliveryDb.acceptMessage_reports]
        rfl
  | ignore =>
      apply tally.of_same
      · rfl
      · rfl
      · intro id
        rw [DeliveryDb.received_append rfl, if_neg (Option.some_ne_none id).symm, List.append_nil]

/-- Reading a row of a delivery. -/
theorem Tally.notAhead {initial : Uuid → DeliveryStatus} (tally : Tally initial db)
    (loadedMem : loaded ∈ db.deliveries) :
    NotAhead db loaded := by
  refine ⟨tally.keyed.known loaded loadedMem, ?_⟩
  intro _ row rowMem sameId
  rw [tally.keyed.eq_of_mem rowMem loadedMem sameId]

theorem statusRead_of_no_rule (noRule : point.rule = none) : StatusRead db point := by
  intro loaded rule isRule
  rw [noRule] at isRule
  cases isRule

/-- The entry points: attempts, the settlements on their own, and webhooks. -/
def DeliveryPoint.isTransaction : DeliveryPoint → Bool
  | .createDelivery _ 0 | .markFailed _ | .markSent _ _ _ _ | .lifecycle _ _ => true
  | _ => false

/-- The proof outline under the condition. -/
def statusOutline (initial : Uuid → DeliveryStatus) :
    Outline (deliveryProtocol DeliveryPoint.isTransaction)
      fun system event => decidedOnStored system event = true where
  Global := Tally initial
  Local db point _ := StatusRead db point
  start := by
    intro database point mayStart _
    apply statusRead_of_no_rule
    cases point <;> first | rfl | cases mayStart
  read := by
    intro database point input next held requested tally _
    have reading := reading_of_read requested database
    generalize next database = target at reading ⊢
    cases reading with
    | failed found | sent found =>
        rintro loaded rule ⟨⟩
        exact tally.notAhead (DeliveryDb.of_delivery? found).1
    | lifecycle found =>
        rintro loaded rule ⟨⟩
        exact tally.notAhead (List.mem_of_find?_eq_some found)
    | finished | existing _ _ | missing _ | send | skip _ _ | gone | ignore =>
        exact statusRead_of_no_rule rfl
  lock requested := absurd requested request_ne_lock
  skipLocked requested := absurd requested request_ne_skipLocked
  rollback := by
    intro database point input next target held requested target_eq _ _
    subst target_eq
    obtain ⟨id, rfl⟩ := next_of_rollback requested
    exact statusRead_of_no_rule rfl
  refused := by
    intro database point input rows permitted write next refused target held requested
      target_eq _ _
    rw [(writing_of_commit requested).2] at target_eq
    cases target_eq
  commit := by
    intro system session point input rows permitted write next refused commits allowed
      tally read
    have writing := (writing_of_commit commits.requested).1
    refine ⟨(writing.tallies commits.at_point commits.permitted allowed tally read).1, ?_⟩
    intro target target_eq
    apply statusRead_of_no_rule
    cases writing with
    | settle settling =>
        cases settling <;> cases target_eq
        rfl
    | insert | returned _ | raised =>
        cases target_eq
        rfl
    | ignore => cases target_eq
  interference := by
    intro system session point input rows permitted write next refused commits allowed
      tally read other held otherRead apart loaded rule isRule
    have writing := (writing_of_commit commits.requested).1
    exact (otherRead loaded rule isRule).keeps
      (writing.tallies commits.at_point commits.permitted allowed tally read).2

theorem Tally.begin (keyed : db.Keyed) (unreported : db.reports = []) :
    Tally db.initialStatus db := by
  have noReports : ∀ id, db.received id = [] := by
    intro id
    rw [DeliveryDb.received, unreported]
    rfl
  refine ⟨keyed, ?_, ?_⟩
  · intro id isFresh
    refine ⟨?_, noReports id⟩
    cases found : db.delivery? id with
    | none => rw [DeliveryDb.initialStatus, found, Option.map_none, Option.getD_none]
    | some row =>
        obtain ⟨rowMem, rfl⟩ := DeliveryDb.of_delivery? found
        exact absurd (keyed.known row rowMem) (Nat.not_lt.mpr isFresh)
  · intro row rowMem _
    rw [noReports, DeliveryDb.initialStatus, keyed.delivery?_eq rowMem]
    constructor
    · exact List.mem_singleton_self row.status
    · intro other otherMem
      rw [List.mem_singleton.mp otherMem]
      exact le_refl row.status.order

/-- The step relation of the transactions on deliveries. -/
abbrev deliveryStep := System.step (deliveryProtocol DeliveryPoint.isTransaction)

theorem advances_of_step {initial : Uuid → DeliveryStatus}
    {before after : System DeliveryDb Uuid DeliveryPoint} {event : Event DeliveryPoint DeliveryInput}
    (sound : (statusOutline initial).Sound before) (allowed : decidedOnStored before event = true)
    (stepped : deliveryStep before event = some after) :
    DeliveriesAdvance before.database after.database := by
  have keyed : before.database.Keyed := sound.global.keyed
  rcases System.step_database stepped with same | ⟨session, point, input, rows, permitted,
    write, next, refused, rfl, commits, written⟩
  · rw [same]
    exact DeliveriesAdvance.of_same keyed rfl rfl
  · rw [written]
    exact (writing_of_commit commits.requested).1.advances commits.at_point allowed keyed

/-- The webhooks about a delivery: those that were applied to it and those that name it. -/
def DeliveryDb.reportsOn (db : DeliveryDb) (row : MessageDelivery) : List Report :=
  db.reports.filter fun report => report.applied = some row.id ||
    report.webhook.any fun (provider, event) => row.provider = provider && event.names row

/-- Every webhook that names the delivery was applied to it. -/
def DeliveryDb.FoundBy (db : DeliveryDb) (row : MessageDelivery) : Prop :=
  ∀ report ∈ db.reportsOn row, report.applied = some row.id

theorem DeliveryDb.FoundBy.received_eq {row : MessageDelivery}
    (foundBy : db.FoundBy row) : db.received row.id = (db.reportsOn row).map (·.status) := by
  rw [received, reportsOn]
  congr 1
  apply List.filter_congr
  intro report reportMem
  by_cases isApplied : report.applied = some row.id
  · simp [isApplied]
  · have notOn : report ∉ db.reportsOn row := fun isOn => isApplied (foundBy report isOn)
    rw [reportsOn, List.mem_filter] at notOn
    simpa [isApplied, reportMem] using notOn

/-- In a run in which every status is decided on the stored row, a delivery that was
delivered is only ever delivered or read, and one that was read stays read; and a delivery
that every webhook about it found has, unless a failure was reported, the highest status of
those reported. -/
theorem decided_statuses_advance {db : DeliveryDb}
    {earlier later : System DeliveryDb Uuid DeliveryPoint} (keyed : db.Keyed)
    (unreported : db.reports = [])
    (started : Run deliveryStep (fun system event => decidedOnStored system event = true)
      (System.idle db) earlier)
    (continued : Run deliveryStep (fun system event => decidedOnStored system event = true)
      earlier later) :
    (∀ row ∈ earlier.database.deliveries, ∃ stays ∈ later.database.deliveries,
      stays.id = row.id ∧
        (row.status = .delivered → stays.status = .delivered ∨ stays.status = .read) ∧
        (row.status = .read → stays.status = .read)) ∧
    ∀ row ∈ later.database.deliveries, later.database.FoundBy row →
      .failed ∉ (later.database.reportsOn row).map (·.status) →
        row.status.IsHighest
          (db.initialStatus row.id :: (later.database.reportsOn row).map (·.status)) := by
  have idle : (statusOutline db.initialStatus).Sound (System.idle db) :=
    Outline.sound_idle (Tally.begin keyed unreported)
  have sound := idle.run started
  have laterSound := sound.run continued
  constructor
  · intro row rowMem
    have advances : (statusOutline db.initialStatus).Sound later ∧
        DeliveriesAdvance earlier.database later.database := by
      apply continued.invariant (fun system => (statusOutline db.initialStatus).Sound system ∧
        DeliveriesAdvance earlier.database system.database)
      · rintro before event after ⟨soundBefore, advanced⟩ allowed stepped
        exact ⟨soundBefore.step allowed stepped,
          advanced.trans (advances_of_step soundBefore allowed stepped)⟩
      · exact ⟨sound, DeliveriesAdvance.of_same sound.global.keyed rfl rfl⟩
    obtain ⟨stays, staysMem, same⟩ := advances.2.keeps.stays row rowMem
    exact ⟨stays, staysMem, same.id, advances.2.advance row rowMem stays staysMem same.id⟩
  · intro row rowMem foundBy noFailure
    rw [← foundBy.received_eq] at noFailure ⊢
    exact laterSound.global.highest row rowMem noFailure

/-! ## A delivery that is set back -/

def sampleTurn : Turn :=
  ⟨[⟨10, "hey"⟩], 20, "turn-1"⟩

/-- A turn with one reply, whose delivery is pending. -/
def pendingDelivery : DeliveryDb where
  messages := []
  channels := []
  deliveries := [⟨0, 10, 20, linq, none, some "turn-1", .pending, none, none, none⟩]
  nextId := 1
  accepted := [("turn-1", "hey")]
  reports := []

/-- The provider tells that the message was delivered. -/
def deliveredEvent (externalId idempotencyKey : Option String) : LifecycleEvent :=
  ⟨.delivered, externalId, idempotencyKey, none⟩

def deliveryTick (session : Nat) : Event DeliveryPoint DeliveryInput :=
  .advance session ⟨0, .returned (some "message-1")⟩

/-- The sender records the result of its call. -/
def recordSent : List (Event DeliveryPoint DeliveryInput) :=
  [.start 1 (.markSent sampleTurn 0 0 (some "message-1")), deliveryTick 1, deliveryTick 1]

/-- A webhook is handled. -/
def handleWebhook (event : LifecycleEvent) : List (Event DeliveryPoint DeliveryInput) :=
  [.start 2 (.lifecycle linq event), deliveryTick 2, deliveryTick 2]

/-- The sender reads the pending row before a webhook says that the message was delivered,
and writes that it was sent afterwards; or a webhook that only names the identifier of the
provider arrives before the sender records it, and is lost. -/
theorem overtaken_result_sets_back :
    (∃ earlier later : System DeliveryDb Uuid DeliveryPoint,
      Run deliveryStep (fun _ _ => True) (System.idle pendingDelivery) earlier ∧
      Run deliveryStep (fun _ _ => True) earlier later ∧
      (earlier.database.deliveries.map fun row => (row.id, row.status)) = [(0, .delivered)] ∧
      (later.database.deliveries.map fun row => (row.id, row.status)) = [(0, .sent)] ∧
      later.database.received 0 = [.delivered, .sent]) ∧
    ∃ later : System DeliveryDb Uuid DeliveryPoint,
      Run deliveryStep (fun _ _ => True) (System.idle pendingDelivery) later ∧
      ∃ row ∈ later.database.deliveries,
        row.status = .sent ∧ (later.database.reportsOn row).map (·.status) = [.delivered, .sent] := by
  have goesBack : (execute deliveryStep (fun _ _ => true) (System.idle pendingDelivery)
      (recordSent.take 2 ++ handleWebhook (deliveredEvent none (some "turn-1")))).any
      (fun earlier =>
        ((earlier.database.deliveries.map fun row => (row.id, row.status)) = [(0, .delivered)]) &&
        (execute deliveryStep (fun _ _ => true) earlier [deliveryTick 1]).any fun later =>
          ((later.database.deliveries.map fun row => (row.id, row.status)) = [(0, .sent)]) &&
          later.database.received 0 = [.delivered, .sent]) = true := by
    decide
  have isLost : (execute deliveryStep (fun _ _ => true) (System.idle pendingDelivery)
      (handleWebhook (deliveredEvent (some "message-1") none) ++ recordSent)).any
      (fun later => later.database.deliveries.any fun row => row.status = .sent &&
        (later.database.reportsOn row).map (·.status) = [.delivered, .sent]) = true := by
    decide
  simp only [Option.any_eq_true, List.any_eq_true, Bool.and_eq_true, decide_eq_true_eq]
    at goesBack isLost
  rcases goesBack with ⟨earlier, toEarlier, isDelivered, later, toLater, isSent, received⟩
  rcases isLost with ⟨last, toLast, row, rowMem, rowSent, reports⟩
  constructor
  · exact ⟨earlier, later, (run_of_execute toEarlier).mono fun _ _ _ => True.intro,
      (run_of_execute toLater).mono fun _ _ _ => True.intro, isDelivered, isSent, received⟩
  · exact ⟨last, (run_of_execute toLast).mono fun _ _ _ => True.intro, row, rowMem, rowSent,
      reports⟩

/-- The sender records its result before the webhook is handled. -/
theorem punctual_result_advances :
    ∃ earlier later : System DeliveryDb Uuid DeliveryPoint,
      (earlier.database.deliveries.map fun row => (row.id, row.status)) = [(0, .delivered)] ∧
      (∀ row ∈ earlier.database.deliveries, ∃ stays ∈ later.database.deliveries,
        stays.id = row.id ∧
          (row.status = .delivered → stays.status = .delivered ∨ stays.status = .read) ∧
          (row.status = .read → stays.status = .read)) ∧
      ∀ row ∈ later.database.deliveries, later.database.FoundBy row →
        .failed ∉ (later.database.reportsOn row).map (·.status) →
          row.status.IsHighest (pendingDelivery.initialStatus row.id ::
            (later.database.reportsOn row).map (·.status)) := by
  have runs : (execute deliveryStep decidedOnStored (System.idle pendingDelivery)
      (recordSent ++ handleWebhook (deliveredEvent (some "message-1") none))).any
      (fun earlier =>
        ((earlier.database.deliveries.map fun row => (row.id, row.status)) = [(0, .delivered)]) &&
        (execute deliveryStep decidedOnStored earlier
          (handleWebhook ⟨.sent, none, some "turn-1", none⟩)).isSome) = true := by
    decide
  simp only [Option.any_eq_true, Bool.and_eq_true, decide_eq_true_eq,
    Option.isSome_iff_exists] at runs
  rcases runs with ⟨earlier, toEarlier, isDelivered, later, toLater⟩
  have keyed : pendingDelivery.Keyed := ⟨by decide, by decide⟩
  exact ⟨earlier, later, isDelivered,
    decided_statuses_advance keyed rfl (run_of_execute toEarlier) (run_of_execute toLater)⟩

end DotBackend.Channel
