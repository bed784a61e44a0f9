import Mathlib.Tactic.Ring
import DotBackend.Schedules.Task
import DotBackend.Transition.Run

/-!
# The time of day of a recurring task

Between two cycles only the instant of the next occurrence is stored, and each cycle reads
the time of day off the wall clock again. Where every reading that the cycles arrive at
exists, the time of day is that of the first occurrence; a reading that the wall clock
skips moves it for good.
-/

namespace DotBackend.Schedules

open Data Transition

/-! ## Wall clocks -/

namespace Zone

/-- The wall clock shows a reading at some instant. -/
def Reads (zone : Zone) (reading : Int) : Prop :=
  ∃ now, zone.wall now = reading

/-- A reading that exists names an instant at which the wall clock shows it. -/
structure Exact (zone : Zone) : Prop where
  wall_instant : ∀ now fold, zone.wall (zone.instant (zone.wall now) fold) = zone.wall now

def timeOfDay (zone : Zone) (now : Instant) : Int :=
  zone.wall now % day

/-- The reading at the start of the local date of an instant. -/
def localDate (zone : Zone) (now : Instant) : Int :=
  zone.wall now - zone.timeOfDay now

theorem Exact.wall_instant_of_reads {zone : Zone} (exact : zone.Exact) {reading : Int}
    (reads : zone.Reads reading) (fold : Bool) : zone.wall (zone.instant reading fold) = reading := by
  obtain ⟨now, rfl⟩ := reads
  exact exact.wall_instant now fold

end Zone

/-! ## The next reading -/

/-- The first reading, whole steps after a candidate, that is later than `after`. -/
structure NextReading (step candidate after reading : Int) : Prop where
  whole : ∃ count : Nat, reading = candidate + count * step
  later : after < reading
  first : reading = candidate ∨ reading - step ≤ after

/-- The loop arrives at the next reading. -/
theorem nextReading_advanceWall {step after candidate : Int} {fuel : Nat}
    (enough : after < candidate + fuel * step) :
    NextReading step candidate after (advanceWall step after fuel candidate) := by
  induction fuel generalizing candidate with
  | zero =>
      have later : after < candidate := by simpa using enough
      exact ⟨⟨0, by simp [advanceWall]⟩, later, Or.inl rfl⟩
  | succ fuel ih =>
      rw [advanceWall]
      split
      · rename_i notLater
        have enoughLeft : after < candidate + step + fuel * step := by
          have split_fuel : ((fuel + 1 : Nat) : Int) * step = fuel * step + step := by
            push_cast
            ring
          omega
        obtain ⟨⟨count, count_eq⟩, later, first⟩ := ih enoughLeft
        refine ⟨⟨count + 1, ?_⟩, later, Or.inr ?_⟩
        · rw [count_eq]
          push_cast
          ring
        · rcases first with isFirst | isReached
          · omega
          · exact isReached
      · rename_i isLater
        exact ⟨⟨0, by simp⟩, not_le.mp isLater, Or.inl rfl⟩

theorem NextReading.unique {step candidate after reading other : Int} (positive : 0 < step)
    (next : NextReading step candidate after reading)
    (otherNext : NextReading step candidate after other) : reading = other := by
  have notBefore : ∀ {a b : Int}, NextReading step candidate after a →
      NextReading step candidate after b → ¬a < b := by
    rintro a b ⟨⟨count, rfl⟩, later, _⟩ ⟨⟨more, rfl⟩, _, first⟩ before
    have fewer : (count : Int) < more := by
      by_contra notFewer
      have := Int.mul_le_mul_of_nonneg_right (not_lt.mp notFewer) positive.le
      omega
    have atLeast : ((count : Int) + 1) * step ≤ more * step :=
      Int.mul_le_mul_of_nonneg_right (by omega) positive.le
    have one_more : ((count : Int) + 1) * step = count * step + step := by ring
    rcases first with isCandidate | isReached
    · have := Int.mul_nonneg (Int.natCast_nonneg count) positive.le
      omega
    · omega
  exact le_antisymm (not_lt.mp (notBefore otherNext next)) (not_lt.mp (notBefore next otherNext))

/-- The days between two occurrences of a recurring task. -/
def ScheduledTask.period (task : ScheduledTask) : Int :=
  if task.recurrence = .daily then day else 7 * day

theorem ScheduledTask.period_pos (task : ScheduledTask) : 0 < task.period := by
  unfold ScheduledTask.period
  split <;> decide

theorem ScheduledTask.day_dvd_period (task : ScheduledTask) : day ∣ task.period := by
  unfold ScheduledTask.period
  split
  · exact dvd_refl day
  · exact Dvd.intro_left 7 rfl

/-- The next run is at the next reading. -/
theorem nextRecurringRun_eq {zone : Zone} {task : ScheduledTask} {now : Instant} :
    ∃ reading, NextReading task.period (zone.wall task.scheduledFor) (zone.wall now) reading ∧
      nextRecurringRun zone task now = zone.instant reading (zone.fold task.scheduledFor) := by
  refine ⟨_, ?_, rfl⟩
  apply nextReading_advanceWall
  change _ < _ + ((((zone.wall now - zone.wall task.scheduledFor) / task.period + 1).toNat : Nat) :
    Int) * task.period
  set behind := zone.wall now - zone.wall task.scheduledFor with behind_eq
  have positive := task.period_pos
  have exceeds : behind < (behind / task.period + 1) * task.period :=
    Int.lt_ediv_add_one_mul_self behind positive
  have enough : (behind / task.period + 1) * task.period ≤
      (((behind / task.period + 1).toNat : Nat) : Int) * task.period :=
    Int.mul_le_mul_of_nonneg_right (Int.self_le_toNat _) positive.le
  omega

/-! ## Cycles -/

/-- When a worker claims a task, with which arguments, and when it completes it. -/
structure Cycle where
  claimedAt : Instant
  maxAttempts : Nat
  taskId : Option Uuid
  completedAt : Instant

/-- A complete cycle of `_claim_task` and `_complete_task`. -/
def cycle (zones : String → Option Zone) (task : ScheduledTask) (times : Cycle) :
    Option ScheduledTask :=
  if task.eligible times.claimedAt times.maxAttempts times.taskId then
    (task.claimed times.claimedAt).completed? zones times.completedAt
  else none

/-- The next reading of the time of day, after a completion, exists. -/
def ReadingExists (zones : String → Option Zone) (task : ScheduledTask) (times : Cycle) : Prop :=
  ∀ zone, zones task.timezone = some zone → ∀ reading,
    NextReading task.period (zone.wall task.scheduledFor) (zone.wall times.completedAt) reading →
      zone.Reads reading

theorem cycle_eq_some {zones : String → Option Zone} {task next : ScheduledTask} {times : Cycle}
    (recurs : task.recurrence ≠ .once) (cycled : cycle zones task times = some next) :
    ∃ zone, zones task.timezone = some zone ∧ next.timezone = task.timezone ∧
      next.recurrence = task.recurrence ∧
      next.scheduledFor = nextRecurringRun zone task times.completedAt := by
  unfold cycle at cycled
  split at cycled
  · unfold ScheduledTask.completed? at cycled
    simp only at cycled
    split at cycled
    · rename_i isOnce
      exact absurd isOnce recurs
    · obtain ⟨zone, known, rfl⟩ := Option.map_eq_some_iff.mp cycled
      exact ⟨zone, known, rfl, rfl, rfl⟩
  · cases cycled

/-- A cycle that arrives at a reading that exists keeps the time of day. -/
theorem timeOfDay_cycle {zones : String → Option Zone} {zone : Zone} {task next : ScheduledTask}
    {times : Cycle} (exact : zone.Exact) (known : zones task.timezone = some zone)
    (recurs : task.recurrence ≠ .once) (readingExists : ReadingExists zones task times)
    (cycled : cycle zones task times = some next) :
    zone.timeOfDay next.scheduledFor = zone.timeOfDay task.scheduledFor := by
  obtain ⟨sameZone, sameKnown, _, _, movesTo⟩ := cycle_eq_some recurs cycled
  cases known.symm.trans sameKnown
  obtain ⟨reading, isNext, run_eq⟩ :=
    @nextRecurringRun_eq zone task times.completedAt
  have reads := readingExists zone known reading isNext
  obtain ⟨count, reading_eq⟩ := isNext.whole
  have wholeDays : day ∣ count * task.period := Dvd.dvd.mul_left task.day_dvd_period _
  rw [Zone.timeOfDay, movesTo, run_eq, exact.wall_instant_of_reads reads, reading_eq]
  exact Int.emod_eq_emod_iff_emod_sub_eq_zero.mpr (by
    rw [add_sub_cancel_left]
    exact Int.emod_eq_zero_of_dvd wholeDays)

/-- After any cycles that all arrive at readings that exist, a recurring task has the time
of day of its first occurrence. -/
theorem time_of_day_kept {zones : String → Option Zone} {zone : Zone} {first later : ScheduledTask}
    (exact : zone.Exact) (known : zones first.timezone = some zone)
    (recurs : first.recurrence ≠ .once) (run : Run (cycle zones) (ReadingExists zones) first later) :
    zone.timeOfDay later.scheduledFor = zone.timeOfDay first.scheduledFor := by
  have kept : later.timezone = first.timezone ∧ later.recurrence = first.recurrence ∧
      zone.timeOfDay later.scheduledFor = zone.timeOfDay first.scheduledFor := by
    induction run with
    | refl => exact ⟨rfl, rfl, rfl⟩
    | @tail middle target times _ readingExists cycled ih =>
        obtain ⟨sameZone, sameRecurrence, sameTime⟩ := ih
        have middleRecurs : middle.recurrence ≠ .once := by rwa [sameRecurrence]
        have middleKnown : zones middle.timezone = some zone := by rwa [sameZone]
        obtain ⟨_, _, zone_eq, recurrence_eq, _⟩ := cycle_eq_some middleRecurs cycled
        refine ⟨zone_eq.trans sameZone, recurrence_eq.trans sameRecurrence, ?_⟩
        exact (timeOfDay_cycle exact middleKnown middleRecurs readingExists cycled).trans sameTime
  exact kept.2.2

/-! ## A skipped hour -/

/-- The occurrence has the time of day of the first one, unless that does not exist on its
date. -/
def KeepsTimeOfDay (zone : Zone) (first later : ScheduledTask) : Prop :=
  zone.Reads (zone.localDate later.scheduledFor + zone.timeOfDay first.scheduledFor) →
    zone.timeOfDay later.scheduledFor = zone.timeOfDay first.scheduledFor

def hour : Int := 3600 * second

/-- Seven o'clock of universal time on 10 March 2024: New York moves its clocks from two to
three. -/
def springForward : Int := 1710054000 * second

def newYorkWall (now : Int) : Int :=
  if now < springForward then now - 5 * hour else now - 4 * hour

/-- A reading that is skipped is taken to be before the move, or after it when it is
folded. -/
def newYorkInstant (reading : Int) (fold : Bool) : Int :=
  if reading < springForward - 5 * hour || (reading < springForward - 4 * hour && !fold) then
    reading + 5 * hour
  else reading + 4 * hour

theorem hour_pos : 0 < hour := by decide

theorem newYork_later (now reading : Int) (isLater : newYorkWall now + day ≤ reading) :
    now < newYorkInstant reading false := by
  have dayLonger : 5 * hour < day := by decide
  have hourPositive := hour_pos
  unfold newYorkWall at isLater
  unfold newYorkInstant
  simp only [Bool.not_false, Bool.and_true, Bool.or_eq_true, decide_eq_true_eq]
  split at isLater <;> split <;> omega

/-- New York around that day. -/
def newYork : Zone where
  wall := newYorkWall
  fold _ := false
  instant := newYorkInstant
  later := newYork_later

theorem newYorkWall_newYorkInstant (now : Int) (fold : Bool) :
    newYorkWall (newYorkInstant (newYorkWall now) fold) = newYorkWall now := by
  have hourPositive := hour_pos
  by_cases before : now < springForward
  · have isBefore : now - 5 * hour < springForward - 5 * hour := by omega
    have same : newYorkInstant (newYorkWall now) fold = now := by
      rw [newYorkWall, if_pos before, newYorkInstant, if_pos (by simp [isBefore])]
      omega
    rw [same]
  · have notBefore : ¬now - 4 * hour < springForward - 5 * hour := by omega
    have notSkipped : ¬now - 4 * hour < springForward - 4 * hour := by omega
    have same : newYorkInstant (newYorkWall now) fold = now := by
      rw [newYorkWall, if_neg before, newYorkInstant, if_neg (by simp [notBefore, notSkipped])]
      omega
    rw [same]

theorem newYork_exact : newYork.Exact where
  wall_instant := newYorkWall_newYorkInstant

/-- Outside of the hour that is skipped every reading exists. -/
theorem newYork_reads {reading : Int} (notSkipped : reading < springForward - 5 * hour ∨
    springForward - 4 * hour ≤ reading) : newYork.Reads reading := by
  have hourPositive := hour_pos
  rcases notSkipped with before | after
  · refine ⟨reading + 5 * hour, ?_⟩
    have isBefore : reading + 5 * hour < springForward := by omega
    change newYorkWall _ = _
    rw [newYorkWall, if_pos isBefore]
    omega
  · refine ⟨reading + 4 * hour, ?_⟩
    have isAfter : ¬reading + 4 * hour < springForward := by omega
    change newYorkWall _ = _
    rw [newYorkWall, if_neg isAfter]
    omega

def newYorkZones (name : String) : Option Zone :=
  if name = "America/New_York" then some newYork else none

/-- A daily task, first due on the day before the clocks are moved. -/
def dailyTask (firstRun : Instant) : ScheduledTask where
  id := 1
  userId := 7
  actionType := "agent.reminder"
  idempotencyKey := "daily"
  title := "stretch"
  timezone := "America/New_York"
  recurrence := .daily
  scheduledFor := firstRun
  nextAttemptAt := firstRun
  status := .active
  attempts := 0
  runCount := 0
  lockedAt := none
  lastRunAt := none
  completedAt := none
  cancelledAt := none
  error := none
  createdAt := firstRun - day

/-- A cycle that begins a minute after a time. -/
def cycleAfter (due : Instant) : Cycle :=
  ⟨due + 60 * second, 5, none, due + 120 * second⟩

/-- A check on a cycle in New York: it arrives, in two steps at most, at a reading that is
not skipped. -/
def noSkip (task : ScheduledTask) (times : Cycle) : Bool :=
  task.timezone = "America/New_York" &&
    let candidate := newYork.wall task.scheduledFor
    let after := newYork.wall times.completedAt
    let reading := advanceWall task.period after 2 candidate
    after < candidate + 2 * task.period &&
      (reading < springForward - 5 * hour || springForward - 4 * hour ≤ reading)

/-- Half past two in the night, on the day before. -/
def halfPastTwo : Instant := springForward - day + 1800 * second

/-- Half past two in the afternoon, on the day before. -/
def halfPastTwoLater : Instant := halfPastTwo + 12 * hour

/-- A task of every night is due an hour later once the hour was skipped. -/
theorem skipped_hour_moves_time_of_day :
    ¬∀ (zones : String → Option Zone) (zone : Zone) (first later : ScheduledTask), zone.Exact →
      zones first.timezone = some zone → first.recurrence ≠ .once →
        Run (cycle zones) (fun _ _ => True) first later → KeepsTimeOfDay zone first later := by
  intro keeps
  have runs : (execute (cycle newYorkZones) (fun _ _ => true) (dailyTask halfPastTwo)
      [cycleAfter halfPastTwo, cycleAfter (halfPastTwo + day)]).any (fun later =>
        later.scheduledFor = halfPastTwo + 2 * day) = true := by
    decide
  simp only [Option.any_eq_true, decide_eq_true_eq] at runs
  obtain ⟨later, toLater, due⟩ := runs
  have kept := keeps newYorkZones newYork (dailyTask halfPastTwo) later newYork_exact rfl (by decide)
    ((run_of_execute toLater).mono fun _ _ _ => trivial)
  have existsAgain : newYork.Reads (newYork.localDate later.scheduledFor +
      newYork.timeOfDay (dailyTask halfPastTwo).scheduledFor) := by
    apply newYork_reads
    rw [due]
    exact Or.inr (by decide)
  have moved := kept existsAgain
  rw [due] at moved
  exact absurd moved (by decide)

theorem readingExists_of_noSkip (task : ScheduledTask) (times : Cycle)
    (checked : noSkip task times = true) : ReadingExists newYorkZones task times := by
  simp only [noSkip, Bool.and_eq_true, Bool.or_eq_true, decide_eq_true_eq] at checked
  obtain ⟨isNewYork, enough, notSkipped⟩ := checked
  intro zone known reading next
  have zone_eq : newYork = zone := by
    simpa [newYorkZones, isNewYork] using known
  subst zone_eq
  have reading_eq := next.unique task.period_pos (nextReading_advanceWall enough)
  rw [reading_eq]
  exact newYork_reads notSkipped

/-- A task of every afternoon keeps its time of day. -/
theorem afternoons_keep_time_of_day :
    ∃ later : ScheduledTask, later.scheduledFor = halfPastTwoLater + 2 * day - hour ∧
      newYork.timeOfDay later.scheduledFor =
        newYork.timeOfDay (dailyTask halfPastTwoLater).scheduledFor := by
  have runs : (execute (cycle newYorkZones) (fun task times => noSkip task times)
      (dailyTask halfPastTwoLater) [cycleAfter halfPastTwoLater,
        cycleAfter (halfPastTwoLater + day - hour)]).any (fun later =>
        later.scheduledFor = halfPastTwoLater + 2 * day - hour) = true := by
    decide
  simp only [Option.any_eq_true, decide_eq_true_eq] at runs
  obtain ⟨later, toLater, due⟩ := runs
  refine ⟨later, due, ?_⟩
  apply @time_of_day_kept newYorkZones newYork _ _ newYork_exact rfl
  · decide
  · exact (run_of_execute toLater).mono readingExists_of_noSkip

end DotBackend.Schedules
