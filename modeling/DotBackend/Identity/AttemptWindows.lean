import DotBackend.Identity.AttemptLimits
import Mathlib.Tactic.Linarith

/-!
# What a limiter admits

What is recorded under the key of a rule are the accepted calls that are still in its window. So
a call is refused exactly if a window is full, no window is ever overfull, and a caller that waits
as long as it was told finds room.
-/

namespace DotBackend.Identity

open Data

variable {unicode : Unicode} {limiter : RateLimiter}

/-! ## Accepted calls -/

section Accepted

variable {rule : RateLimitRule} {key : String} {past : List Checked} {call : Call}

theorem accepted_append (more : List Checked) :
    accepted unicode rule key (past ++ more) =
      accepted unicode rule key past ++ accepted unicode rule key more := by
  rw [accepted, List.filter_append, List.map_append]
  rfl

theorem accepted_singleton (exceeded : Option RateLimitExceeded) :
    accepted unicode rule key [⟨call, exceeded⟩] =
      if exceeded = none ∧ scopedKey unicode call.attempt rule = key then [call.time] else [] := by
  cases exceeded with
  | none =>
      by_cases isKey : scopedKey unicode call.attempt rule = key
      · simp [accepted, isKey]
      · simp [accepted, isKey]
  | some exceeded => simp [accepted]

theorem mem_accepted {time : ℚ} (timeMem : time ∈ accepted unicode rule key past) :
    ∃ checked ∈ past, checked.call.time = time := by
  rcases List.mem_map.mp timeMem with ⟨checked, checkedMem, same⟩
  exact ⟨checked, List.mem_of_mem_filter checkedMem, same⟩

end Accepted

theorem serve_append (calls : List Call) (call : Call) :
    serve unicode limiter (calls ++ [call]) =
      (serve unicode limiter calls).step unicode limiter call :=
  List.foldl_concat ..

/-! ## The invariant -/

/-- What is known of a limiter at a time that none of its calls is later than. -/
structure InStep (unicode : Unicode) (limiter : RateLimiter) (now : ℚ) (served : Served) : Prop where
  past_le : ∀ checked ∈ served.past, checked.call.time ≤ now
  sorted : (served.past.map (·.call.time)).Pairwise (· ≤ ·)
  remembers : ∀ rule ∈ limiter.rules, ∀ attempt, Remembers rule.windowSeconds now
    (accepted unicode rule (scopedKey unicode attempt rule) served.past)
    (served.events (scopedKey unicode attempt rule))
  within : ∀ rule ∈ limiter.rules, ∀ key,
    AtMostRecent rule.windowSeconds rule.limit (accepted unicode rule key served.past)

namespace InStep

variable {now later : ℚ} {served : Served} {rule : RateLimitRule} {attempt : Attempt} {call : Call}

theorem empty (unicode : Unicode) (limiter : RateLimiter) (now : ℚ) :
    InStep unicode limiter now Served.empty where
  past_le := List.forall_mem_nil _
  sorted := List.Pairwise.nil
  remembers _ _ _ := Remembers.nil
  within _ _ _ _ := Nat.zero_le _

theorem mono (inStep : InStep unicode limiter now served) (isLater : now ≤ later) :
    InStep unicode limiter later served where
  past_le checked checkedMem := le_trans (inStep.past_le checked checkedMem) isLater
  sorted := inStep.sorted
  remembers rule ruleMem attempt := (inStep.remembers rule ruleMem attempt).mono isLater
  within := inStep.within

theorem accepted_le (inStep : InStep unicode limiter now served) (key : String) :
    ∀ time ∈ accepted unicode rule key served.past, time ≤ now := by
  intro time timeMem
  rcases mem_accepted timeMem with ⟨checked, checkedMem, rfl⟩
  exact inStep.past_le checked checkedMem

theorem accepted_sorted (inStep : InStep unicode limiter now served) (key : String) :
    (accepted unicode rule key served.past).Pairwise (· ≤ ·) := by
  exact List.Pairwise.sublist (List.filter_sublist.map _) inStep.sorted

/-- What is left under a key after a check are the accepted calls in the window. -/
theorem expire_eq (inStep : InStep unicode limiter now served) (ruleMem : rule ∈ limiter.rules) :
    expire rule.windowSeconds now (served.events (scopedKey unicode attempt rule)) =
      recent rule.windowSeconds now
        (accepted unicode rule (scopedKey unicode attempt rule) served.past) :=
  (inStep.remembers rule ruleMem attempt).expire_eq_recent (inStep.accepted_sorted _)
    (inStep.accepted_le _)

theorem isFull_iff (inStep : InStep unicode limiter now served) (ruleMem : rule ∈ limiter.rules) :
    IsFull (scopedKey unicode attempt) now served.events rule ↔
      (recent rule.windowSeconds now
        (accepted unicode rule (scopedKey unicode attempt rule) served.past)).length = rule.limit := by
  rw [IsFull, inStep.expire_eq ruleMem]
  constructor
  · intro isFull
    exact Nat.le_antisymm (inStep.within rule ruleMem _ now) isFull
  · intro isLimit
    exact le_of_eq isLimit.symm

/-- Dropping old times under any keys forgets nothing that a rule needs. -/
theorem remembers_dropped (inStep : InStep unicode limiter now served) (ruleMem : rule ∈ limiter.rules)
    {attempt another : Attempt} {kept : List ℚ}
    (dropped : kept = served.events (scopedKey unicode attempt rule) ∨ ∃ other ∈ limiter.rules,
      scopedKey unicode another other = scopedKey unicode attempt rule ∧
        kept = expire other.windowSeconds now (served.events (scopedKey unicode attempt rule))) :
    Remembers rule.windowSeconds now
      (accepted unicode rule (scopedKey unicode attempt rule) served.past) kept := by
  have remembers := inStep.remembers rule ruleMem attempt
  rcases dropped with rfl | ⟨other, otherMem, sameKey, rfl⟩
  · exact remembers
  · have sameRule : other = rule := rule_of_scope otherMem ruleMem (scope_of_scopedKey sameKey)
    rw [sameRule]
    exact remembers.expire

theorem sorted_step (inStep : InStep unicode limiter call.time served) :
    ((served.step unicode limiter call).past.map (·.call.time)).Pairwise (· ≤ ·) := by
  rw [Served.step, List.map_append, List.pairwise_append]
  refine ⟨inStep.sorted, List.pairwise_singleton .., ?_⟩
  intro time timeMem last lastMem
  rcases List.mem_map.mp timeMem with ⟨checked, checkedMem, rfl⟩
  rcases List.mem_map.mp lastMem with ⟨newest, newestMem, rfl⟩
  rw [List.mem_singleton.mp newestMem]
  exact inStep.past_le checked checkedMem

/-- A call keeps the invariant. -/
theorem step (inStep : InStep unicode limiter call.time served) :
    InStep unicode limiter call.time (served.step unicode limiter call) := by
  have past_le : ∀ checked ∈ (served.step unicode limiter call).past,
      checked.call.time ≤ call.time := by
    rw [Served.step, List.forall_mem_append]
    refine ⟨inStep.past_le, ?_⟩
    intro checked checkedMem
    rw [List.mem_singleton.mp checkedMem]
  rcases @check_cases unicode limiter call.time served.events call.attempt with
    ⟨_, _, _, isRefused, dropped⟩ | ⟨notFull, isAccepted, recorded⟩
  · -- a refused call is accepted under no rule
    have sameAccepted : ∀ rule key, accepted unicode rule key (served.step unicode limiter call).past =
        accepted unicode rule key served.past := by
      intro rule key
      rw [Served.step, accepted_append, accepted_singleton, isRefused, if_neg (by simp),
        List.append_nil]
    constructor
    · exact past_le
    · exact inStep.sorted_step
    · intro rule ruleMem attempt
      rw [sameAccepted]
      exact inStep.remembers_dropped ruleMem (dropped _)
    · intro rule ruleMem key
      rw [sameAccepted]
      exact inStep.within rule ruleMem key
  · have nowAccepted : ∀ rule key, accepted unicode rule key (served.step unicode limiter call).past =
        accepted unicode rule key served.past ++
          if scopedKey unicode call.attempt rule = key then [call.time] else [] := by
      intro rule key
      rw [Served.step, accepted_append, accepted_singleton, isAccepted]
      simp
    constructor
    · exact past_le
    · exact inStep.sorted_step
    · intro rule ruleMem attempt
      rcases recorded (scopedKey unicode attempt rule) with ⟨kept, dropped, events_eq⟩
      have remembers := inStep.remembers_dropped ruleMem dropped
      have isKey : scopedKey unicode attempt rule ∈
          limiter.rules.map (scopedKey unicode call.attempt) ↔
          scopedKey unicode call.attempt rule = scopedKey unicode attempt rule := by
        constructor
        · intro keyMem
          rcases List.mem_map.mp keyMem with ⟨other, otherMem, same⟩
          have sameRule := rule_of_scope otherMem ruleMem (scope_of_scopedKey same)
          rw [sameRule] at same
          exact same
        · intro same
          exact List.mem_map.mpr ⟨rule, ruleMem, same⟩
      rw [nowAccepted]
      change Remembers _ _ _ ((check unicode limiter call.time call.attempt served.events).2 _)
      rw [events_eq]
      by_cases same : scopedKey unicode call.attempt rule = scopedKey unicode attempt rule
      · rw [if_pos same, if_pos (isKey.mpr same)]
        exact remembers.append
      · rw [if_neg same, if_neg fun keyMem => same (isKey.mp keyMem), List.append_nil]
        exact remembers
    · intro rule ruleMem key
      rw [nowAccepted]
      split
      · rename_i isKey
        apply (inStep.within rule ruleMem key).append (inStep.accepted_le key)
        have room := notFull rule ruleMem
        rw [IsFull, inStep.expire_eq ruleMem, isKey, not_le] at room
        exact room
      · rw [List.append_nil]
        exact inStep.within rule ruleMem key

end InStep

/-- Every run of a clock that does not go back keeps the invariant. -/
theorem inStep_serve {calls : List Call} {now : ℚ}
    (nondecreasing : calls.Pairwise fun first second => first.time ≤ second.time)
    (past : ∀ call ∈ calls, call.time ≤ now) :
    InStep unicode limiter now (serve unicode limiter calls) := by
  induction calls using List.reverseRecOn generalizing now with
  | nil => exact InStep.empty unicode limiter now
  | append_singleton calls call ih =>
      rw [List.pairwise_append] at nondecreasing
      rcases nondecreasing with ⟨earlier, _, notLater⟩
      rw [serve_append]
      apply InStep.mono _ (past call (List.mem_append_right _ (List.mem_singleton.mpr rfl)))
      apply InStep.step
      apply ih earlier
      intro other otherMem
      exact notLater other otherMem call (List.mem_singleton.mpr rfl)

/-! ## The limiter -/

/-- What comes of a call after others. -/
def outcome (unicode : Unicode) (limiter : RateLimiter) (before : List Call) (call : Call) :
    Option RateLimitExceeded :=
  (check unicode limiter call.time call.attempt (serve unicode limiter before).events).1

/-- The accepted calls with the key of a call under a rule, after others. -/
def acceptedLike (unicode : Unicode) (limiter : RateLimiter) (rule : RateLimitRule) (call : Call)
    (before : List Call) : List ℚ :=
  accepted unicode rule (scopedKey unicode call.attempt rule) (serve unicode limiter before).past

/-- The limiter keeps windows that slide with the clock. -/
structure SlidingWindows (unicode : Unicode) (limiter : RateLimiter) (calls : List Call) : Prop where
  /-- No window of a rule and a key has more accepted calls than the limit. -/
  within : ∀ rule ∈ limiter.rules, ∀ key t, (recent rule.windowSeconds t
    (accepted unicode rule key (serve unicode limiter calls).past)).length ≤ rule.limit
  /-- A call is refused exactly if some rule has a full window. -/
  refuses : ∀ before call after, calls = before ++ call :: after →
    ((outcome unicode limiter before call).isSome = true ↔ ∃ rule ∈ limiter.rules,
      (recent rule.windowSeconds call.time
        (acceptedLike unicode limiter rule call before)).length = rule.limit)
  /-- Nothing is recorded for a refused call. -/
  unrecorded : ∀ before call after, calls = before ++ call :: after →
    (outcome unicode limiter before call).isSome = true → ∀ key,
      (serve unicode limiter (before ++ [call])).events key <:+
        (serve unicode limiter before).events key
  /-- Whoever waits as long as it was told has room under the rule that refused it. -/
  retries : ∀ before call meanwhile again after exceeded,
    calls = before ++ call :: meanwhile ++ again :: after →
    outcome unicode limiter before call = some exceeded →
    scopedKey unicode again.attempt exceeded.rule = scopedKey unicode call.attempt exceeded.rule →
    (∀ other ∈ meanwhile, scopedKey unicode other.attempt exceeded.rule ≠
      scopedKey unicode call.attempt exceeded.rule) →
    call.time + exceeded.retryAfterSeconds ≤ again.time →
    (recent exceeded.rule.windowSeconds again.time (acceptedLike unicode limiter exceeded.rule again
      (before ++ call :: meanwhile))).length < exceeded.rule.limit ∧
    ∀ refusal, outcome unicode limiter (before ++ call :: meanwhile) again = some refusal →
      refusal.rule ≠ exceeded.rule

section Limiter

variable {calls before meanwhile after : List Call} {call again : Call}
  {exceeded : RateLimitExceeded}

theorem exists_last_time (calls : List Call) : ∃ now, ∀ call ∈ calls, call.time ≤ now := by
  induction calls with
  | nil => exact ⟨0, List.forall_mem_nil _⟩
  | cons call calls ih =>
      rcases ih with ⟨now, past⟩
      refine ⟨max call.time now, List.forall_mem_cons.mpr ⟨le_max_left _ _, ?_⟩⟩
      intro other otherMem
      exact le_trans (past other otherMem) (le_max_right _ _)

/-- Calls before another are not later. -/
theorem inStep_before (nondecreasing : calls.Pairwise fun first second => first.time ≤ second.time)
    (split : calls = before ++ call :: after) :
    InStep unicode limiter call.time (serve unicode limiter before) := by
  rw [split, List.pairwise_append] at nondecreasing
  rcases nondecreasing with ⟨earlier, _, notLater⟩
  apply inStep_serve earlier
  intro other otherMem
  exact notLater other otherMem call List.mem_cons_self

/-- A refusal names a rule that has no room, and the time until its oldest call has left. -/
theorem outcome_eq_some (inStep : InStep unicode limiter call.time (serve unicode limiter before))
    (refused : outcome unicode limiter before call = some exceeded) :
    exceeded.rule ∈ limiter.rules ∧
      (recent exceeded.rule.windowSeconds call.time
        (acceptedLike unicode limiter exceeded.rule call before)).length = exceeded.rule.limit ∧
      exceeded.retryAfterSeconds = retryAfter exceeded.rule call.time
        ((recent exceeded.rule.windowSeconds call.time
          (acceptedLike unicode limiter exceeded.rule call before)).headD call.time) := by
  rcases @check_cases unicode limiter call.time (serve unicode limiter before).events call.attempt with
    ⟨rule, ruleMem, isFull, isRefused, _⟩ | ⟨_, isAccepted, _⟩
  · rw [outcome, isRefused, Option.some.injEq] at refused
    rw [← refused]
    refine ⟨ruleMem, (inStep.isFull_iff ruleMem).mp isFull, ?_⟩
    dsimp only
    rw [inStep.expire_eq ruleMem]
    rfl
  · rw [outcome, isAccepted] at refused
    cases refused

theorem refuses_iff (inStep : InStep unicode limiter call.time (serve unicode limiter before)) :
    (outcome unicode limiter before call).isSome = true ↔ ∃ rule ∈ limiter.rules,
      (recent rule.windowSeconds call.time
        (acceptedLike unicode limiter rule call before)).length = rule.limit := by
  constructor
  · intro isSome
    rcases Option.isSome_iff_exists.mp isSome with ⟨exceeded, refused⟩
    rcases outcome_eq_some inStep refused with ⟨ruleMem, isFull, _⟩
    exact ⟨exceeded.rule, ruleMem, isFull⟩
  · rintro ⟨rule, ruleMem, isLimit⟩
    rcases @check_cases unicode limiter call.time (serve unicode limiter before).events
      call.attempt with ⟨_, _, _, isRefused, _⟩ | ⟨notFull, _, _⟩
    · rw [outcome, isRefused]
      rfl
    · exact absurd ((inStep.isFull_iff ruleMem).mpr isLimit) (notFull rule ruleMem)

theorem unrecorded_of_refused (refused : (outcome unicode limiter before call).isSome = true)
    (key : String) : (serve unicode limiter (before ++ [call])).events key <:+
      (serve unicode limiter before).events key := by
  rw [serve_append]
  change (check unicode limiter call.time call.attempt (serve unicode limiter before).events).2 key <:+ _
  rcases @check_cases unicode limiter call.time (serve unicode limiter before).events call.attempt with
    ⟨_, _, _, _, dropped⟩ | ⟨_, isAccepted, _⟩
  · rcases dropped key with kept | ⟨rule, _, _, expired⟩
    · rw [kept]
    · rw [expired]
      exact List.dropWhile_suffix _
  · rw [outcome, isAccepted] at refused
    cases refused

theorem past_serve_append :
    (serve unicode limiter (before ++ [call])).past = (serve unicode limiter before).past ++
      [⟨call, outcome unicode limiter before call⟩] := by
  rw [serve_append]
  rfl

/-- Calls with other keys change nothing under a key. -/
theorem accepted_serve_of_others {rule : RateLimitRule} {key : String}
    (others : ∀ other ∈ meanwhile, scopedKey unicode other.attempt rule ≠ key) :
    accepted unicode rule key (serve unicode limiter (before ++ meanwhile)).past =
      accepted unicode rule key (serve unicode limiter before).past := by
  induction meanwhile using List.reverseRecOn with
  | nil => rw [List.append_nil]
  | append_singleton meanwhile last ih =>
      rw [List.forall_mem_append] at others
      have differs := others.2 last (List.mem_singleton.mpr rfl)
      rw [← List.append_assoc, past_serve_append, accepted_append, accepted_singleton,
        if_neg fun isKey => differs isKey.2, List.append_nil]
      exact ih others.1

/-- A full window has room again when the returned delay is over. -/
theorem room_after_delay (inStep : InStep unicode limiter call.time (serve unicode limiter before))
    (refused : outcome unicode limiter before call = some exceeded)
    (sameKey : scopedKey unicode again.attempt exceeded.rule =
      scopedKey unicode call.attempt exceeded.rule)
    (others : ∀ other ∈ meanwhile, scopedKey unicode other.attempt exceeded.rule ≠
      scopedKey unicode call.attempt exceeded.rule)
    (waited : call.time + exceeded.retryAfterSeconds ≤ again.time) :
    (recent exceeded.rule.windowSeconds again.time (acceptedLike unicode limiter exceeded.rule again
      (before ++ call :: meanwhile))).length < exceeded.rule.limit := by
  rcases outcome_eq_some inStep refused with ⟨_, isLimit, retry_eq⟩
  have unchanged : acceptedLike unicode limiter exceeded.rule again (before ++ call :: meanwhile) =
      acceptedLike unicode limiter exceeded.rule call before := by
    have ofRefused : accepted unicode exceeded.rule (scopedKey unicode call.attempt exceeded.rule)
        (serve unicode limiter (before ++ [call])).past =
        acceptedLike unicode limiter exceeded.rule call before := by
      rw [past_serve_append, refused, accepted_append, accepted_singleton, if_neg (by simp),
        List.append_nil]
      rfl
    rw [acceptedLike, sameKey, List.append_cons, accepted_serve_of_others others, ofRefused]
  rw [unchanged]
  cases window : recent exceeded.rule.windowSeconds call.time
      (acceptedLike unicode limiter exceeded.rule call before) with
  | nil =>
      rw [window] at isLimit
      have positive := exceeded.rule.limit_pos
      rw [← isLimit] at positive
      exact absurd positive (by simp)
  | cons first rest =>
      rw [window] at isLimit retry_eq
      have enough : exceeded.rule.windowSeconds - (call.time - first) ≤
          exceeded.retryAfterSeconds := by
        rw [retry_eq, retryAfter, List.headD_cons]
        exact le_trans (Int.le_ceil _) (Int.cast_le.mpr (le_max_right _ _))
      have freed : first + exceeded.rule.windowSeconds ≤ again.time := by linarith
      have fewer : (recent exceeded.rule.windowSeconds again.time
          (acceptedLike unicode limiter exceeded.rule call before)).length ≤ rest.length :=
        recent_freed (inStep.accepted_le _) window freed
      rw [List.length_cons] at isLimit
      omega

end Limiter

/-- The limiter keeps sliding windows whatever is asked of it, as long as its clock does not go
back. -/
theorem limiter_keeps_sliding_windows (unicode : Unicode) (limiter : RateLimiter)
    (calls : List Call)
    (nondecreasing : calls.Pairwise fun first second => first.time ≤ second.time) :
    SlidingWindows unicode limiter calls where
  within := by
    intro rule ruleMem key t
    rcases exists_last_time calls with ⟨now, past⟩
    exact (inStep_serve nondecreasing past).within rule ruleMem key t
  refuses := by
    intro before call after split
    exact refuses_iff (inStep_before nondecreasing split)
  unrecorded := by
    intro before call after _ refused key
    exact unrecorded_of_refused refused key
  retries := by
    intro before call meanwhile again after exceeded split refused sameKey others waited
    have earlier : calls = before ++ call :: (meanwhile ++ again :: after) := by
      rw [split, List.append_assoc]
      rfl
    have inStep : InStep unicode limiter call.time (serve unicode limiter before) :=
      inStep_before nondecreasing earlier
    have againInStep : InStep unicode limiter again.time
        (serve unicode limiter (before ++ call :: meanwhile)) := inStep_before nondecreasing split
    have room := room_after_delay inStep refused sameKey others waited
    refine ⟨room, ?_⟩
    intro refusal isRefused sameRule
    rcases outcome_eq_some againInStep isRefused with ⟨_, isLimit, _⟩
    rw [sameRule] at isLimit
    exact absurd isLimit (Nat.ne_of_lt room)

/-- Two attempts in a minute under a limit of one, and a third when the minute is over. -/
def hastyCalls : List Call :=
  [⟨0, ⟨"10.0.0.1", "ann@example.com"⟩⟩, ⟨20, ⟨"10.0.0.1", "ann@example.com"⟩⟩,
    ⟨60, ⟨"10.0.0.1", "ann@example.com"⟩⟩]

theorem limiter_keeps_sliding_windows_hasty :
    SlidingWindows Unicode.ascii (authEligibilityRateLimiter 1 10 10) hastyCalls :=
  limiter_keeps_sliding_windows Unicode.ascii (authEligibilityRateLimiter 1 10 10) hastyCalls
    (by decide)

end DotBackend.Identity
