import DotBackend.Data.RecentTimes
import DotBackend.Data.Sha256
import DotBackend.Data.Text
import Mathlib.Algebra.Order.Ring.Rat
import Mathlib.Data.List.Nodup
import Mathlib.Data.Rat.Floor

/-!
# Limits of attempts

The public endpoints for signing in and for the waitlist count the attempts of a client and those
for an identifier, under several rules at once. An attempt is refused if a rule has no room, and
recorded under every rule if all have.
-/

namespace DotBackend.Identity

open Data

/-! ## Rules -/

/-- What a rule counts attempts by. -/
inductive Subject
  | client
  | identifier
  deriving DecidableEq

structure Attempt where
  clientAddress : String
  normalizedIdentifier : String
  deriving DecidableEq

def Subject.of (attempt : Attempt) : Subject → String
  | client => attempt.clientAddress
  | identifier => attempt.normalizedIdentifier

/-- `RateLimitRule`; `scope` is its namespace. -/
structure RateLimitRule where
  scope : String
  limit : Nat
  windowSeconds : ℚ
  subject : Subject
  limit_pos : 1 ≤ limit
  deriving DecidableEq

/-- The rules of a limiter have different namespaces. -/
structure RateLimiter where
  rules : List RateLimitRule
  distinct : (rules.map (·.scope)).Nodup

/-- `max(1, limit)`. -/
def atLeastOne (limit : Int) : Nat :=
  (max 1 limit).toNat

theorem atLeastOne_pos (limit : Int) : 1 ≤ atLeastOne limit := by
  unfold atLeastOne
  omega

/-- `AuthEligibilityRateLimiter`. -/
def authEligibilityRateLimiter (ipPerMinute ipPerHour identifierPerHour : Int) : RateLimiter where
  rules := [⟨"ip-minute", atLeastOne ipPerMinute, 60, .client, atLeastOne_pos _⟩,
    ⟨"ip-hour", atLeastOne ipPerHour, 3600, .client, atLeastOne_pos _⟩,
    ⟨"identifier-hour", atLeastOne identifierPerHour, 3600, .identifier, atLeastOne_pos _⟩]
  distinct := by
    simp only [List.map_cons, List.map_nil]
    decide

/-- `WaitlistRateLimiter`; the identifier is the email address. -/
def waitlistRateLimiter (ipPerMinute ipPerHour emailPerHour : Int) : RateLimiter where
  rules := [⟨"ip-minute", atLeastOne ipPerMinute, 60, .client, atLeastOne_pos _⟩,
    ⟨"ip-hour", atLeastOne ipPerHour, 3600, .client, atLeastOne_pos _⟩,
    ⟨"email-hour", atLeastOne emailPerHour, 3600, .identifier, atLeastOne_pos _⟩]
  distinct := by
    simp only [List.map_cons, List.map_nil]
    decide

/-! ## Checks -/

/-- `_events`: the times recorded under each key, the oldest first. -/
abbrev Events := String → List ℚ

/-- `RateLimitExceeded`, with the rule that had no room. -/
structure RateLimitExceeded where
  rule : RateLimitRule
  retryAfterSeconds : Int
  deriving DecidableEq

/-- `_opaque_key`. -/
def opaqueKey (unicode : Unicode) (value : String) : String :=
  sha256 (Text.casefold unicode (Text.strip value.toList))

/-- The key of an attempt under a rule. -/
def scopedKey (unicode : Unicode) (attempt : Attempt) (rule : RateLimitRule) : String :=
  rule.scope ++ ":" ++ opaqueKey unicode (rule.subject.of attempt)

/-- `max(1, math.ceil(rule.window_seconds - (now - events[0])))`. -/
def retryAfter (rule : RateLimitRule) (now oldest : ℚ) : Int :=
  max 1 ⌈rule.windowSeconds - (now - oldest)⌉

/-- The loop over the rules. Times that have left a window are dropped whatever the outcome. -/
def checkRules (keyOf : RateLimitRule → String) (now : ℚ) :
    List RateLimitRule → Events → Option RateLimitExceeded × Events
  | [], events => (none, events)
  | rule :: rules, events =>
      let kept := expire rule.windowSeconds now (events (keyOf rule))
      let events := Function.update events (keyOf rule) kept
      if rule.limit ≤ kept.length then
        (some ⟨rule, retryAfter rule now (kept.headD now)⟩, events)
      else checkRules keyOf now rules events

/-- The time is recorded under each key. -/
def record (now : ℚ) (keys : List String) (events : Events) : Events :=
  keys.foldl (fun events key => Function.update events key (events key ++ [now])) events

/-- `check`. -/
def check (unicode : Unicode) (limiter : RateLimiter) (now : ℚ) (attempt : Attempt)
    (events : Events) : Option RateLimitExceeded × Events :=
  match checkRules (scopedKey unicode attempt) now limiter.rules events with
  | (some exceeded, events) => (some exceeded, events)
  | (none, events) => (none, record now (limiter.rules.map (scopedKey unicode attempt)) events)

/-! ## Runs -/

structure Call where
  time : ℚ
  attempt : Attempt
  deriving DecidableEq

/-- A call with what came of it. -/
structure Checked where
  call : Call
  exceeded : Option RateLimitExceeded
  deriving DecidableEq

/-- A limiter after some calls: what came of them, and what is recorded. -/
structure Served where
  past : List Checked
  events : Events

def Served.empty : Served :=
  ⟨[], fun _ => []⟩

def Served.step (unicode : Unicode) (limiter : RateLimiter) (served : Served) (call : Call) : Served :=
  let outcome := check unicode limiter call.time call.attempt served.events
  ⟨served.past ++ [⟨call, outcome.1⟩], outcome.2⟩

def serve (unicode : Unicode) (limiter : RateLimiter) (calls : List Call) : Served :=
  calls.foldl (Served.step unicode limiter) Served.empty

/-- The times of the accepted calls with a key under a rule. -/
def accepted (unicode : Unicode) (rule : RateLimitRule) (key : String) (past : List Checked) :
    List ℚ :=
  (past.filter fun checked => checked.exceeded.isNone &&
    scopedKey unicode checked.call.attempt rule = key).map (·.call.time)

/-! ## Keys -/

section Keys

variable {unicode : Unicode} {limiter : RateLimiter} {rule other : RateLimitRule}
  {attempt another : Attempt}

/-- Keys of different rules differ, since all digests have the same length. -/
theorem scope_of_scopedKey (same : scopedKey unicode attempt rule = scopedKey unicode another other) :
    rule.scope = other.scope := by
  have sameText := congrArg String.toList same
  rw [scopedKey, scopedKey, String.toList_append, String.toList_append, String.toList_append,
    String.toList_append] at sameText
  have sameLength : (opaqueKey unicode (rule.subject.of attempt)).toList.length =
      (opaqueKey unicode (other.subject.of another)).toList.length := by
    rw [opaqueKey, opaqueKey, length_sha256, length_sha256]
  have scopes := (List.append_inj_left' sameText sameLength)
  exact String.toList_inj.mp (List.append_cancel_right scopes)

theorem rule_of_scope (ruleMem : rule ∈ limiter.rules) (otherMem : other ∈ limiter.rules)
    (same : rule.scope = other.scope) : rule = other :=
  List.inj_on_of_nodup_map limiter.distinct ruleMem otherMem same

theorem nodup_scopedKeys : (limiter.rules.map (scopedKey unicode attempt)).Nodup := by
  apply List.Nodup.map_on _ (List.Nodup.of_map _ limiter.distinct)
  intro rule ruleMem other otherMem same
  exact rule_of_scope ruleMem otherMem (scope_of_scopedKey same)

end Keys

/-! ## One check -/

section Check

variable {unicode : Unicode} {limiter : RateLimiter} {keyOf : RateLimitRule → String} {now : ℚ}
  {rules : List RateLimitRule} {events : Events} {attempt : Attempt}

/-- A rule has no room. -/
def IsFull (keyOf : RateLimitRule → String) (now : ℚ) (events : Events) (rule : RateLimitRule) :
    Prop :=
  rule.limit ≤ (expire rule.windowSeconds now (events (keyOf rule))).length

/-- What the loop over the rules does: it stops at a rule that has no room, and drops old times
under some of the keys. -/
theorem checkRules_cases (distinct : (rules.map keyOf).Nodup) :
    (∀ key, (checkRules keyOf now rules events).2 key = events key ∨ ∃ rule ∈ rules,
      keyOf rule = key ∧ (checkRules keyOf now rules events).2 key =
        expire rule.windowSeconds now (events key)) ∧
    (((checkRules keyOf now rules events).1 = none ∧
        ∀ rule ∈ rules, ¬ IsFull keyOf now events rule) ∨
      ∃ rule ∈ rules, IsFull keyOf now events rule ∧ (checkRules keyOf now rules events).1 =
        some ⟨rule, retryAfter rule now
          ((expire rule.windowSeconds now (events (keyOf rule))).headD now)⟩) := by
  induction rules generalizing events with
  | nil => exact ⟨fun _ => Or.inl rfl, Or.inl ⟨rfl, List.forall_mem_nil _⟩⟩
  | cons rule rules ih =>
      rw [List.map_cons, List.nodup_cons] at distinct
      rw [checkRules]
      by_cases full : rule.limit ≤ (expire rule.windowSeconds now (events (keyOf rule))).length
      · rw [if_pos full]
        constructor
        · intro key
          by_cases isKey : keyOf rule = key
          · right
            rw [← isKey]
            exact ⟨rule, List.mem_cons_self, rfl, Function.update_self ..⟩
          · left
            exact Function.update_of_ne (Ne.symm isKey) ..
        · exact Or.inr ⟨rule, List.mem_cons_self, full, rfl⟩
      · rw [if_neg full]
        generalize updated : Function.update events (keyOf rule)
          (expire rule.windowSeconds now (events (keyOf rule))) = pruned
        have others : ∀ key, key ≠ keyOf rule → pruned key = events key := by
          intro key notKey
          rw [← updated, Function.update_of_ne notKey]
        have sameRules : ∀ other ∈ rules, pruned (keyOf other) = events (keyOf other) := by
          intro other otherMem
          exact others _ fun same => distinct.1 (same ▸ List.mem_map_of_mem otherMem)
        rcases @ih pruned distinct.2 with ⟨dropped, outcome⟩
        constructor
        · intro key
          rcases dropped key with kept | ⟨other, otherMem, isKey, expired⟩
          · by_cases isKey : keyOf rule = key
            · right
              refine ⟨rule, List.mem_cons_self, isKey, ?_⟩
              rw [kept, ← isKey, ← updated, Function.update_self]
            · left
              rw [kept, others key (Ne.symm isKey)]
          · right
            refine ⟨other, List.mem_cons_of_mem rule otherMem, isKey, ?_⟩
            rw [expired, ← isKey, sameRules other otherMem]
        · rcases outcome with ⟨isNone, notFull⟩ | ⟨other, otherMem, isFull, isSome⟩
          · left
            refine ⟨isNone, List.forall_mem_cons.mpr ⟨full, ?_⟩⟩
            intro other otherMem isFull
            apply notFull other otherMem
            rw [IsFull, sameRules other otherMem]
            exact isFull
          · right
            rw [IsFull, sameRules other otherMem] at isFull
            rw [sameRules other otherMem] at isSome
            exact ⟨other, List.mem_cons_of_mem rule otherMem, isFull, isSome⟩

theorem record_apply {keys : List String} (distinct : keys.Nodup) (key : String) :
    record now keys events key = if key ∈ keys then events key ++ [now] else events key := by
  induction keys generalizing events with
  | nil => rfl
  | cons first keys ih =>
      rw [List.nodup_cons] at distinct
      change record now keys (Function.update events first (events first ++ [now])) key = _
      rw [ih distinct.2]
      by_cases isFirst : key = first
      · rw [isFirst, if_neg distinct.1, Function.update_self, if_pos List.mem_cons_self]
      · rw [Function.update_of_ne isFirst]
        simp [isFirst]

/-- A check refuses if a rule has no room, and records nothing then; else it records the time
under the key of each rule. -/
theorem check_cases :
    (∃ rule ∈ limiter.rules, IsFull (scopedKey unicode attempt) now events rule ∧
      (check unicode limiter now attempt events).1 = some ⟨rule, retryAfter rule now
        ((expire rule.windowSeconds now (events (scopedKey unicode attempt rule))).headD now)⟩ ∧
      ∀ key, (check unicode limiter now attempt events).2 key = events key ∨
        ∃ rule ∈ limiter.rules, scopedKey unicode attempt rule = key ∧
          (check unicode limiter now attempt events).2 key =
            expire rule.windowSeconds now (events key)) ∨
    ((∀ rule ∈ limiter.rules, ¬ IsFull (scopedKey unicode attempt) now events rule) ∧
      (check unicode limiter now attempt events).1 = none ∧
      ∀ key, ∃ kept, (kept = events key ∨ ∃ rule ∈ limiter.rules,
          scopedKey unicode attempt rule = key ∧ kept = expire rule.windowSeconds now (events key)) ∧
        (check unicode limiter now attempt events).2 key =
          if key ∈ limiter.rules.map (scopedKey unicode attempt) then kept ++ [now] else kept) := by
  have distinct := @nodup_scopedKeys unicode limiter attempt
  rcases @checkRules_cases (scopedKey unicode attempt) now limiter.rules events distinct with
    ⟨dropped, outcome⟩
  rw [check]
  generalize checkRules (scopedKey unicode attempt) now limiter.rules events = result
    at dropped outcome
  rcases result with ⟨exceeded, pruned⟩
  rcases outcome with ⟨isNone, notFull⟩ | ⟨rule, ruleMem, isFull, isSome⟩
  · right
    dsimp only at isNone
    rw [isNone]
    refine ⟨notFull, rfl, ?_⟩
    intro key
    exact ⟨pruned key, dropped key, record_apply distinct key⟩
  · left
    dsimp only at isSome
    rw [isSome]
    exact ⟨rule, ruleMem, isFull, rfl, dropped⟩

end Check

end DotBackend.Identity
