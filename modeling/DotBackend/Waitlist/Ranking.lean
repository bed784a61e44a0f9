import DotBackend.Data.RowNumber
import DotBackend.Data.Table
import DotBackend.Identity.Handles
import DotBackend.Transition.Run
import Mathlib.Data.Prod.Lex
import Mathlib.Order.OrderDual

/-!
# The waitlist

An entry ranks by its referrals, then by its age, then by its identifier. A new entry ranks
last but for entries of its own instant; its referrer gains one referral and moves forward,
past any other entry at most once.
-/

namespace DotBackend.Waitlist

open Data Identity

/-! ## Entries -/

structure WaitlistEntry where
  id : Uuid
  normalizedEmail : String
  referralCode : String
  referredById : Option Uuid
  source : Option String
  utmSource : Option String
  utmMedium : Option String
  utmCampaign : Option String
  utmTerm : Option String
  utmContent : Option String
  createdAt : Instant
  deriving DecidableEq

inductive WaitlistError
  | valueError (message : String)
  | runtimeError (message : String)
  | identityError (error : IdentityError)
  | noResultFound
  deriving DecidableEq

structure WaitlistResult where
  entry : WaitlistEntry
  joined : Bool
  position : Nat
  referralCount : Nat
  deriving DecidableEq

/-- `_optional_text`. -/
def optionalText (value : Option String) (maxLength : Nat) : Except WaitlistError (Option String) :=
  match value with
  | none => .ok none
  | some value =>
      let clean := Text.singleSpaced value.toList
      if clean = [] then .ok none
      else if maxLength < clean.length then
        .error (.valueError s!"Value must be at most {maxLength} characters")
      else .ok (some (String.ofList clean))

def entryByEmail (entries : List WaitlistEntry) (normalizedEmail : String) :
    Option WaitlistEntry :=
  entries.find? fun entry => entry.normalizedEmail = normalizedEmail

def entryByReferralCode (entries : List WaitlistEntry) (referralCode : Option String) :
    Except WaitlistError (Option WaitlistEntry) := do
  match ← optionalText referralCode 64 with
  | none => pure none
  | some cleanCode => pure (entries.find? fun entry => entry.referralCode = cleanCode)

/-! ## Ranking -/

/-- The number of entries that an entry has referred. -/
def referralCount (entries : List WaitlistEntry) (id : Uuid) : Nat :=
  entries.countP fun entry => entry.referredById = some id

/-- `referral_count DESC, created_at ASC, id ASC`. -/
def rankKey (entries : List WaitlistEntry) (entry : WaitlistEntry) : ℕᵒᵈ ×ₗ ℤ ×ₗ ℕ :=
  toLex (OrderDual.toDual (referralCount entries entry.id), toLex (entry.createdAt, entry.id))

/-- `_result`. -/
def result (entries : List WaitlistEntry) (entry : WaitlistEntry) (joined : Bool) :
    Except WaitlistError WaitlistResult :=
  match (RowNumber.rowNumbers (rankKey entries) entries).find? fun ranked =>
      ranked.1.id = entry.id with
  | some (ranked, position) =>
      .ok { entry, joined, position, referralCount := referralCount entries ranked.id }
  | none => .error .noResultFound

/-! ## Joining -/

structure JoinRequest where
  email : String
  referralCode : Option String
  source : Option String
  utmSource : Option String
  utmMedium : Option String
  utmCampaign : Option String
  utmTerm : Option String
  utmContent : Option String

/-- What an attempt to insert draws: an identifier, a code and the time. -/
structure Attempt where
  id : Uuid
  referralCode : String
  createdAt : Instant

/-- The unique columns of the table. -/
def conflicts (entries : List WaitlistEntry) (entry : WaitlistEntry) : Bool :=
  entries.any fun other => other.id = entry.id || other.normalizedEmail = entry.normalizedEmail ||
    other.referralCode = entry.referralCode

/-- The loop over the attempts: a conflict is either a known email or a used code. -/
def allocate (entries : List WaitlistEntry) (newEntry : Attempt → WaitlistEntry) :
    List Attempt → Except WaitlistError (List WaitlistEntry × WaitlistResult)
  | [] => .error (.runtimeError "Could not allocate a unique waitlist referral code")
  | attempt :: later =>
      let entry := newEntry attempt
      if conflicts entries entry then
        match entryByEmail entries entry.normalizedEmail with
        | some existing => (result entries existing false).map fun found => (entries, found)
        | none => allocate entries newEntry later
      else
        (result (entries ++ [entry]) entry true).map fun found => (entries ++ [entry], found)

def referralCodeAttempts : Nat := 5

/-- `join_waitlist`: the table after the transaction and the result. -/
def joinWaitlist (numbering : Numbering) (request : JoinRequest) (attempts : Nat → Attempt)
    (entries : List WaitlistEntry) : Except WaitlistError (List WaitlistEntry × WaitlistResult) := do
  let normalizedEmail ←
    (normalizeEmailAddress numbering request.email).mapError WaitlistError.identityError
  match entryByEmail entries normalizedEmail with
  | some existing => (result entries existing false).map fun found => (entries, found)
  | none =>
      let referrer ← entryByReferralCode entries request.referralCode
      let source ← optionalText request.source 64
      let utmSource ← optionalText request.utmSource 120
      let utmMedium ← optionalText request.utmMedium 120
      let utmCampaign ← optionalText request.utmCampaign 200
      let utmTerm ← optionalText request.utmTerm 200
      let utmContent ← optionalText request.utmContent 200
      allocate entries (fun attempt => {
          id := attempt.id, normalizedEmail, referralCode := attempt.referralCode
          referredById := referrer.map (·.id), source, utmSource, utmMedium, utmCampaign, utmTerm
          utmContent, createdAt := attempt.createdAt })
        ((List.range referralCodeAttempts).map attempts)

/-! ## Histories -/

/-- One call: an exception leaves the table as it was. -/
def joinStep (numbering : Numbering) (entries : List WaitlistEntry)
    (call : JoinRequest × (Nat → Attempt)) : Option (List WaitlistEntry) :=
  match joinWaitlist numbering call.1 call.2 entries with
  | .ok (after, _) => some after
  | .error _ => some entries

/-- The clock does not go back. -/
def Nondecreasing (entries : List WaitlistEntry) (attempts : Nat → Attempt) : Prop :=
  ∀ entry ∈ entries, ∀ i, entry.createdAt ≤ (attempts i).createdAt

/-- Any sequence of calls. -/
abbrev WaitlistRun (numbering : Numbering) :=
  Transition.Run (joinStep numbering) fun entries call => Nondecreasing entries call.2

/-! ## The table -/

/-- The unique columns and the reference to the referrer. -/
structure Consistent (entries : List WaitlistEntry) : Prop where
  ids : Table.UniqueOn (fun entry => some entry.id) entries
  emails : Table.UniqueOn (fun entry => some entry.normalizedEmail) entries
  codes : Table.UniqueOn (fun entry => some entry.referralCode) entries
  referrers : ∀ entry ∈ entries, ∀ id, entry.referredById = some id →
    ∃ referrer ∈ entries, referrer.id = id

/-- The position that `_result` reports. -/
def position (entries : List WaitlistEntry) (entry : WaitlistEntry) : Nat :=
  (((RowNumber.rowNumbers (rankKey entries) entries).find? fun ranked =>
    ranked.1.id = entry.id).map Prod.snd).getD 0

section Positions

variable {entries : List WaitlistEntry} {entry other : WaitlistEntry}

theorem Consistent.nodup (consistent : Consistent entries) : (entries.map (·.id)).Nodup := by
  have ids := consistent.ids
  rw [Table.UniqueOn, ← Function.comp_def some, List.filterMap_eq_map] at ids
  exact ids

theorem Consistent.eq_of_id (consistent : Consistent entries) (entryMem : entry ∈ entries)
    (otherMem : other ∈ entries) (same : entry.id = other.id) : entry = other :=
  consistent.ids.eq_of_mem entryMem otherMem (congrArg some same) rfl

/-- More referrals first, then earlier, then the smaller identifier. -/
theorem rankKey_lt_iff : rankKey entries other < rankKey entries entry ↔
    referralCount entries entry.id < referralCount entries other.id ∨
      referralCount entries other.id = referralCount entries entry.id ∧
        (other.createdAt < entry.createdAt ∨
          other.createdAt = entry.createdAt ∧ other.id < entry.id) := by
  rw [rankKey, rankKey, Prod.Lex.toLex_lt_toLex, Prod.Lex.toLex_lt_toLex, OrderDual.toDual_lt_toDual,
    OrderDual.toDual_inj]

theorem Consistent.distinct (consistent : Consistent entries) :
    (entries.map (rankKey entries)).Nodup := by
  apply List.Nodup.map_on ?_ (List.Nodup.of_map _ consistent.nodup)
  intro a aMem b bMem same
  have notBefore : ¬ rankKey entries a < rankKey entries b := by
    rw [same]
    exact lt_irrefl _
  have notAfter : ¬ rankKey entries b < rankKey entries a := by
    rw [same]
    exact lt_irrefl _
  rw [rankKey_lt_iff] at notBefore notAfter
  apply consistent.eq_of_id aMem bMem
  unfold Uuid Instant at *
  omega

/-- The row that the query finds. -/
theorem Consistent.find_ranked (consistent : Consistent entries) (entryMem : entry ∈ entries) :
    (RowNumber.rowNumbers (rankKey entries) entries).find? (fun ranked => ranked.1.id = entry.id) =
      some (entry, position entries entry) ∧
    position entries entry =
      entries.countP (fun other => rankKey entries other < rankKey entries entry) + 1 := by
  have isNumbered : (entry, entries.countP (fun other => rankKey entries other <
      rankKey entries entry) + 1) ∈ RowNumber.rowNumbers (rankKey entries) entries :=
    (RowNumber.mem_rowNumbers_iff consistent.distinct).mpr ⟨entryMem, rfl⟩
  cases found : (RowNumber.rowNumbers (rankKey entries) entries).find? fun ranked =>
      ranked.1.id = entry.id with
  | none => simpa using List.find?_eq_none.mp found _ isNumbered
  | some ranked =>
      have sameId : ranked.1.id = entry.id := by simpa using List.find?_some found
      rcases (RowNumber.mem_rowNumbers_iff consistent.distinct).mp (List.mem_of_find?_eq_some found)
        with ⟨rankedMem, number_eq⟩
      have isEntry := consistent.eq_of_id rankedMem entryMem sameId
      have position_eq : position entries entry = ranked.2 := by
        rw [position, found]
        rfl
      rw [position_eq, ← isEntry]
      exact ⟨rfl, number_eq⟩

theorem Consistent.result_eq (consistent : Consistent entries) (entryMem : entry ∈ entries)
    (joined : Bool) : result entries entry joined = .ok {
      entry, joined, position := position entries entry
      referralCount := referralCount entries entry.id } := by
  rw [result, (consistent.find_ranked entryMem).1]

/-- The positions are the numbers from one. -/
theorem Consistent.positions (consistent : Consistent entries) :
    (entries.map (position entries)).Perm (List.range' 1 entries.length) := by
  have ofNumbered : ∀ ranked ∈ RowNumber.rowNumbers (rankKey entries) entries,
      position entries ranked.1 = ranked.2 := by
    intro ranked rankedMem
    rcases (RowNumber.mem_rowNumbers_iff consistent.distinct).mp rankedMem with ⟨entryMem, number_eq⟩
    rw [(consistent.find_ranked entryMem).2, number_eq]
  have perm := (RowNumber.map_fst_rowNumbers (rankKey entries) entries).map (position entries)
  have numbers : (RowNumber.rowNumbers (rankKey entries) entries).map
      (position entries ∘ Prod.fst) = (RowNumber.rowNumbers (rankKey entries) entries).map Prod.snd :=
    List.map_congr_left ofNumbered
  rw [List.map_map, numbers] at perm
  exact perm.symm.trans (List.Perm.of_eq (RowNumber.map_snd_rowNumbers _ entries))

end Positions

/-! ## A new entry -/

/-- What a join with a new entry does to the table. -/
structure Joined (entries : List WaitlistEntry) (entry : WaitlistEntry) : Prop where
  unique : conflicts entries entry = false
  referrer : ∀ id, entry.referredById = some id → ∃ referrer ∈ entries, referrer.id = id
  latest : ∀ other ∈ entries, other.createdAt ≤ entry.createdAt

section NewEntry

variable {entries : List WaitlistEntry} {entry other third : WaitlistEntry}

theorem Joined.differs (joined : Joined entries entry) (otherMem : other ∈ entries) :
    other.id ≠ entry.id ∧ other.normalizedEmail ≠ entry.normalizedEmail ∧
      other.referralCode ≠ entry.referralCode := by
  have unique := List.any_eq_false.mp joined.unique other otherMem
  simpa [and_assoc] using unique

theorem Joined.consistent (joined : Joined entries entry) (consistent : Consistent entries) :
    Consistent (entries ++ [entry]) where
  ids := consistent.ids.append fun _ otherMem => (joined.differs otherMem).1
  emails := consistent.emails.append fun _ otherMem => (joined.differs otherMem).2.1
  codes := consistent.codes.append fun _ otherMem => (joined.differs otherMem).2.2
  referrers := by
    intro other otherMem id refers
    have known : ∃ referrer ∈ entries, referrer.id = id := by
      rcases List.mem_append.mp otherMem with isOld | isNew
      · exact consistent.referrers other isOld id refers
      · rw [List.mem_singleton.mp isNew] at refers
        exact joined.referrer id refers
    rcases known with ⟨referrer, referrerMem, isReferrer⟩
    exact ⟨referrer, List.mem_append_left _ referrerMem, isReferrer⟩

/-- Only the referrer gains a referral. -/
theorem referralCount_append (entries : List WaitlistEntry) (entry : WaitlistEntry) (id : Uuid) :
    referralCount (entries ++ [entry]) id =
      referralCount entries id + if entry.referredById = some id then 1 else 0 := by
  rw [referralCount, List.countP_append, referralCount]
  by_cases refers : entry.referredById = some id
  · simp [refers]
  · simp [refers]

/-- Nobody has referred to an entry that did not exist. -/
theorem Joined.no_referrals (joined : Joined entries entry) (consistent : Consistent entries) :
    referralCount (entries ++ [entry]) entry.id = 0 := by
  have isNew : ∀ id, (∃ referrer ∈ entries, referrer.id = id) → id ≠ entry.id := by
    rintro id ⟨referrer, referrerMem, rfl⟩
    exact (joined.differs referrerMem).1
  rw [referralCount, List.countP_eq_zero]
  intro other otherMem refers
  rw [decide_eq_true_eq] at refers
  rcases List.mem_append.mp otherMem with isOld | isLast
  · exact isNew entry.id (consistent.referrers other isOld entry.id refers) rfl
  · rw [List.mem_singleton.mp isLast] at refers
    exact isNew entry.id (joined.referrer entry.id refers) rfl

/-- The position after the join counts the entries from before and perhaps the new one. -/
theorem Joined.position_eq (joined : Joined entries entry) (consistent : Consistent entries)
    (otherMem : other ∈ entries) : position (entries ++ [entry]) other =
      entries.countP (fun third => rankKey (entries ++ [entry]) third <
        rankKey (entries ++ [entry]) other) +
      (if rankKey (entries ++ [entry]) entry < rankKey (entries ++ [entry]) other then 1 else 0) +
        1 := by
  rw [((joined.consistent consistent).find_ranked (List.mem_append_left _ otherMem)).2,
    List.countP_append, List.countP_singleton]
  simp only [decide_eq_true_eq]

/-- A new entry ranks before an older one only without referrals and in the same instant. -/
theorem Joined.before_only (joined : Joined entries entry) (consistent : Consistent entries)
    (otherMem : other ∈ entries)
    (before : rankKey (entries ++ [entry]) entry < rankKey (entries ++ [entry]) other) :
    referralCount (entries ++ [entry]) other.id = 0 ∧ other.createdAt = entry.createdAt ∧
      entry.id < other.id := by
  have latest := joined.latest other otherMem
  rw [rankKey_lt_iff, joined.no_referrals consistent] at before
  unfold Uuid Instant at *
  omega

/-- The referrer is not passed by anybody. -/
theorem Joined.referrer_position_le (joined : Joined entries entry) (consistent : Consistent entries)
    (otherMem : other ∈ entries) (isReferrer : entry.referredById = some other.id) :
    position (entries ++ [entry]) other ≤ position entries other := by
  have gains : referralCount (entries ++ [entry]) other.id = referralCount entries other.id + 1 := by
    rw [referralCount_append, if_pos isReferrer]
  have notBefore : ¬ rankKey (entries ++ [entry]) entry < rankKey (entries ++ [entry]) other := by
    intro before
    have noReferrals := (joined.before_only consistent otherMem before).1
    omega
  rw [joined.position_eq consistent otherMem, if_neg notBefore, (consistent.find_ranked otherMem).2]
  apply Nat.succ_le_succ
  apply List.countP_mono_left
  intro third thirdMem isBefore
  rw [decide_eq_true_eq, rankKey_lt_iff] at isBefore ⊢
  have thirdCount := referralCount_append entries entry third.id
  by_cases isOther : third.id = other.id
  · rw [consistent.eq_of_id thirdMem otherMem isOther] at isBefore
    unfold Uuid Instant at *
    omega
  · rw [if_neg] at thirdCount
    · unfold Uuid Instant at *
      omega
    · rw [isReferrer]
      exact fun same => isOther (Option.some.inj same).symm

/-- Who passes another entry when a new entry is added. -/
theorem overtakes (notReferrer : entry.referredById ≠ some other.id)
    (after : rankKey (entries ++ [entry]) third < rankKey (entries ++ [entry]) other)
    (before : ¬ rankKey entries third < rankKey entries other) :
    entry.referredById = some third.id := by
  by_contra notThird
  rw [rankKey_lt_iff, referralCount_append, referralCount_append, if_neg notReferrer,
    if_neg notThird, Nat.add_zero, Nat.add_zero, ← rankKey_lt_iff] at after
  exact before after

/-- An entry that does not refer the new one loses one position, or two in one case: it has no
referrals, the new entry ranks before it because both are of the same instant, and so is the
referrer, which passes it. -/
theorem Joined.position_le (joined : Joined entries entry) (consistent : Consistent entries)
    (otherMem : other ∈ entries) (notReferrer : entry.referredById ≠ some other.id) :
    position (entries ++ [entry]) other ≤ position entries other + 1 ∨
      position (entries ++ [entry]) other = position entries other + 2 ∧
        referralCount entries other.id = 0 ∧ other.createdAt = entry.createdAt ∧
          entry.id < other.id ∧ ∃ referrer ∈ entries, entry.referredById = some referrer.id ∧
            referrer.createdAt = entry.createdAt ∧ other.id < referrer.id := by
  rw [joined.position_eq consistent otherMem, (consistent.find_ranked otherMem).2]
  have same : referralCount (entries ++ [entry]) other.id = referralCount entries other.id := by
    rw [referralCount_append, if_neg notReferrer, Nat.add_zero]
  by_cases passes : ∃ third ∈ entries,
      rankKey (entries ++ [entry]) third < rankKey (entries ++ [entry]) other ∧
        ¬ rankKey entries third < rankKey entries other
  · rcases passes with ⟨third, thirdMem, after, before⟩
    have isReferrer := overtakes notReferrer after before
    have counted : entries.countP (fun third => rankKey (entries ++ [entry]) third <
          rankKey (entries ++ [entry]) other) ≤
        entries.countP (fun third => rankKey entries third < rankKey entries other) + 1 := by
      apply RowNumber.countP_le_succ third.id consistent.nodup
      intro fourth fourthMem isAfter notBefore
      have alsoReferrer := overtakes notReferrer (of_decide_eq_true isAfter)
        (of_decide_eq_false notBefore)
      exact Option.some.inj (alsoReferrer.symm.trans isReferrer)
    by_cases first : rankKey (entries ++ [entry]) entry < rankKey (entries ++ [entry]) other
    · rcases joined.before_only consistent otherMem first with ⟨noReferrals, sameInstant, smaller⟩
      rw [if_pos first]
      have latest := joined.latest third thirdMem
      rw [rankKey_lt_iff] at before
      have notOther : third.id ≠ other.id := by
        intro isOther
        rw [isOther] at isReferrer
        exact notReferrer isReferrer
      rcases Nat.lt_or_ge (entries.countP fun third => rankKey entries third < rankKey entries other)
        (entries.countP fun third => rankKey (entries ++ [entry]) third <
          rankKey (entries ++ [entry]) other) with gains | stays
      · right
        refine ⟨by omega, by omega, sameInstant, smaller, third, thirdMem, isReferrer, ?_, ?_⟩
        · unfold Uuid Instant at *
          omega
        · unfold Uuid Instant at *
          omega
      · left
        omega
    · rw [if_neg first]
      left
      omega
  · have counted : entries.countP (fun third => rankKey (entries ++ [entry]) third <
          rankKey (entries ++ [entry]) other) ≤
        entries.countP (fun third => rankKey entries third < rankKey entries other) := by
      apply List.countP_mono_left
      intro third thirdMem isAfter
      rw [decide_eq_true_eq] at isAfter ⊢
      by_contra notBefore
      exact passes ⟨third, thirdMem, isAfter, notBefore⟩
    left
    split <;> omega

end NewEntry

/-! ## Calls -/

section Calls

variable {numbering : Numbering} {request : JoinRequest} {attempts : Nat → Attempt}
  {entries after : List WaitlistEntry} {found : WaitlistResult}

theorem exists_of_map {table : List WaitlistEntry} {outcome : Except WaitlistError WaitlistResult}
    (mapped : outcome.map (fun found => (table, found)) = .ok (after, found)) :
    outcome = .ok found ∧ table = after := by
  cases outcome with
  | error _ => cases mapped
  | ok _ =>
      cases mapped
      exact ⟨rfl, rfl⟩

/-- The result carries the entry and the flag it was asked for. -/
theorem result_eq_ok {entry : WaitlistEntry} {joined : Bool}
    (isResult : result entries entry joined = .ok found) :
    found.entry = entry ∧ found.joined = joined := by
  unfold result at isResult
  split at isResult
  · cases isResult
    exact ⟨rfl, rfl⟩
  · cases isResult

/-- The outcomes of a call that succeeds. -/
inductive Outcome (request : JoinRequest) (attempts : Nat → Attempt)
    (entries : List WaitlistEntry) : List WaitlistEntry → WaitlistResult → Prop
  | existing {found : WaitlistResult} : found.joined = false →
      Outcome request attempts entries entries found
  | new {found : WaitlistResult} {referrer : Option WaitlistEntry} {i : Nat} : found.joined = true →
      conflicts entries found.entry = false →
      found.entry.createdAt = (attempts i).createdAt →
      entryByReferralCode entries request.referralCode = .ok referrer →
      found.entry.referredById = referrer.map (·.id) →
      Outcome request attempts entries (entries ++ [found.entry]) found

theorem outcome_allocate {newEntry : Attempt → WaitlistEntry} {drawn : List Attempt}
    {referrer : Option WaitlistEntry} (isDrawn : ∀ attempt ∈ drawn, ∃ i, attempts i = attempt)
    (time : ∀ attempt, (newEntry attempt).createdAt = attempt.createdAt)
    (isReferrer : entryByReferralCode entries request.referralCode = .ok referrer)
    (refers : ∀ attempt, (newEntry attempt).referredById = referrer.map (·.id))
    (allocated : allocate entries newEntry drawn = .ok (after, found)) :
    Outcome request attempts entries after found := by
  induction drawn with
  | nil => cases allocated
  | cons attempt later ih =>
      rw [allocate] at allocated
      split at allocated
      · split at allocated
        · rcases exists_of_map allocated with ⟨isResult, rfl⟩
          exact Outcome.existing (result_eq_ok isResult).2
        · exact ih (fun other otherMem =>
            isDrawn other (List.mem_cons_of_mem attempt otherMem)) allocated
      · rename_i noConflict
        rcases exists_of_map allocated with ⟨isResult, rfl⟩
        rcases result_eq_ok isResult with ⟨entry_eq, joined_eq⟩
        rcases isDrawn attempt List.mem_cons_self with ⟨i, rfl⟩
        rw [← entry_eq]
        apply Outcome.new joined_eq
        · rw [entry_eq]
          exact Bool.not_eq_true _ |>.mp noConflict
        · rw [entry_eq, time]
        · exact isReferrer
        · rw [entry_eq, refers]

theorem outcome_joinWaitlist
    (joined : joinWaitlist numbering request attempts entries = .ok (after, found)) :
    Outcome request attempts entries after found := by
  unfold joinWaitlist at joined
  rcases bind_eq_ok.mp joined with ⟨normalizedEmail, _, joined⟩
  split at joined
  · rcases exists_of_map joined with ⟨isResult, rfl⟩
    exact Outcome.existing (result_eq_ok isResult).2
  · rcases bind_eq_ok.mp joined with ⟨referrer, isReferrer, joined⟩
    rcases bind_eq_ok.mp joined with ⟨source, _, joined⟩
    rcases bind_eq_ok.mp joined with ⟨utmSource, _, joined⟩
    rcases bind_eq_ok.mp joined with ⟨utmMedium, _, joined⟩
    rcases bind_eq_ok.mp joined with ⟨utmCampaign, _, joined⟩
    rcases bind_eq_ok.mp joined with ⟨utmTerm, _, joined⟩
    rcases bind_eq_ok.mp joined with ⟨utmContent, _, joined⟩
    apply outcome_allocate ?_ (fun _ => rfl) isReferrer (fun _ => rfl) joined
    intro attempt isDrawn
    rcases List.mem_map.mp isDrawn with ⟨i, _, isAttempt⟩
    exact ⟨i, isAttempt⟩

/-- The referrer is an entry. -/
theorem mem_of_entryByReferralCode {referralCode : Option String} {referrer : WaitlistEntry}
    (isReferrer : entryByReferralCode entries referralCode = .ok (some referrer)) :
    referrer ∈ entries := by
  rcases bind_eq_ok.mp isReferrer with ⟨clean, _, lookup⟩
  split at lookup
  · cases lookup
  · exact List.mem_of_find?_eq_some (Except.ok.inj lookup)

/-- A new entry joins the table. -/
theorem joined_of_outcome (clock : Nondecreasing entries attempts)
    (outcome : Outcome request attempts entries after found) (isNew : found.joined = true) :
    after = entries ++ [found.entry] ∧ Joined entries found.entry ∧
      ∃ referrer, entryByReferralCode entries request.referralCode = .ok referrer ∧
        found.entry.referredById = referrer.map (·.id) := by
  cases outcome with
  | existing notNew => cases notNew.symm.trans isNew
  | @new _ referrer i _ noConflict time isReferrer refers =>
      refine ⟨rfl, ⟨noConflict, ?_, ?_⟩, referrer, isReferrer, refers⟩
      · intro id refersId
        rw [refers] at refersId
        rcases Option.map_eq_some_iff.mp refersId with ⟨row, rfl, isRow⟩
        exact ⟨row, mem_of_entryByReferralCode isReferrer, isRow⟩
      · intro other otherMem
        rw [time]
        exact clock other otherMem i

/-- A call keeps the table consistent. -/
theorem Consistent.joinStep (consistent : Consistent entries)
    {call : JoinRequest × (Nat → Attempt)} (clock : Nondecreasing entries call.2)
    (stepped : joinStep numbering entries call = some after) : Consistent after := by
  unfold Waitlist.joinStep at stepped
  split at stepped
  · rename_i later found joined
    cases stepped
    have outcome := outcome_joinWaitlist joined
    cases isNew : found.joined with
    | true =>
        rcases joined_of_outcome clock outcome isNew with ⟨rfl, isJoined, _⟩
        exact isJoined.consistent consistent
    | false =>
        cases outcome with
        | existing _ => exact consistent
        | new isNew' _ _ _ _ => cases isNew.symm.trans isNew'
  · cases stepped
    exact consistent

theorem WaitlistRun.consistent (run : WaitlistRun numbering [] entries) : Consistent entries := by
  apply run.invariant Consistent
  · exact fun _ _ _ consistent clock stepped => consistent.joinStep clock stepped
  · exact ⟨List.nodup_nil, List.nodup_nil, List.nodup_nil, List.forall_mem_nil _⟩

/-- Joining again gives the entry that there is. -/
theorem joinWaitlist_again (consistent : Consistent entries) {existing : WaitlistEntry}
    (existingMem : existing ∈ entries) (attempts : Nat → Attempt)
    (same : normalizeEmailAddress numbering request.email = .ok existing.normalizedEmail) :
    joinWaitlist numbering request attempts entries = .ok (entries, {
      entry := existing, joined := false, position := position entries existing
      referralCount := referralCount entries existing.id }) := by
  have isFound : entryByEmail entries existing.normalizedEmail = some existing :=
    consistent.emails.find?_eq_some existingMem
  have mapped : Except.mapError WaitlistError.identityError (.ok existing.normalizedEmail) =
    .ok existing.normalizedEmail := rfl
  rw [joinWaitlist, same]
  simp only [mapped, bind, Except.bind, isFound, consistent.result_eq existingMem]
  rfl

end Calls

/-- After any history the positions are a bijection onto 1..n and joining again changes nothing.
A new join gives its referrer one referral and nobody else, does not worsen the position of the
referrer, and worsens any other by at most one, but by two for an entry without referrals that
is as old as the new entry and the referrer and whose identifier is between theirs. -/
theorem waitlist_ranking (numbering : Numbering) (entries : List WaitlistEntry)
    (run : WaitlistRun numbering [] entries) :
    (entries.map (position entries)).Perm (List.range' 1 entries.length) ∧
      (∀ request attempts, ∀ existing ∈ entries,
        normalizeEmailAddress numbering request.email = .ok existing.normalizedEmail →
          joinWaitlist numbering request attempts entries = .ok (entries, {
            entry := existing, joined := false, position := position entries existing
            referralCount := referralCount entries existing.id })) ∧
      ∀ request attempts after found, Nondecreasing entries attempts →
        joinWaitlist numbering request attempts entries = .ok (after, found) → found.joined = true →
          after = entries ++ [found.entry] ∧
          (∃ referrer, entryByReferralCode entries request.referralCode = .ok referrer ∧
            found.entry.referredById = referrer.map (·.id)) ∧
          (∀ entry ∈ entries, referralCount after entry.id = referralCount entries entry.id +
            if found.entry.referredById = some entry.id then 1 else 0) ∧
          referralCount after found.entry.id = 0 ∧
          (∀ entry ∈ entries, found.entry.referredById = some entry.id →
            position after entry ≤ position entries entry) ∧
          ∀ entry ∈ entries, found.entry.referredById ≠ some entry.id →
            position after entry ≤ position entries entry + 1 ∨
            position after entry = position entries entry + 2 ∧
              referralCount entries entry.id = 0 ∧ entry.createdAt = found.entry.createdAt ∧
                found.entry.id < entry.id ∧ ∃ referrer ∈ entries,
                  found.entry.referredById = some referrer.id ∧
                    referrer.createdAt = found.entry.createdAt ∧ entry.id < referrer.id := by
  have consistent := run.consistent
  refine ⟨consistent.positions, ?_, ?_⟩
  · intro request attempts existing existingMem same
    exact joinWaitlist_again consistent existingMem attempts same
  · intro request attempts after found clock joined isNew
    rcases joined_of_outcome clock (outcome_joinWaitlist joined) isNew with ⟨rfl, isJoined, referred⟩
    refine ⟨rfl, referred, ?_, isJoined.no_referrals consistent, ?_, ?_⟩
    · exact fun entry _ => referralCount_append entries found.entry entry.id
    · exact fun entry entryMem => isJoined.referrer_position_le consistent entryMem
    · exact fun entry entryMem => isJoined.position_le consistent entryMem

/-! ### Three entries of one instant -/

/-- An entry of the instant 0. -/
def entryOf (id : Uuid) (name : String) (referredById : Option Uuid) : WaitlistEntry where
  id := id
  normalizedEmail := name ++ "@example.com"
  referralCode := name
  referredById := referredById
  source := none
  utmSource := none
  utmMedium := none
  utmCampaign := none
  utmTerm := none
  utmContent := none
  createdAt := 0

def requestOf (name : String) (referralCode : Option String) : JoinRequest where
  email := name ++ "@example.com"
  referralCode := referralCode
  source := none
  utmSource := none
  utmMedium := none
  utmCampaign := none
  utmTerm := none
  utmContent := none

def drawing (id : Uuid) (name : String) : Nat → Attempt :=
  fun _ => ⟨id, name, 0⟩

/-- Two have joined. -/
def annaAndBen : List WaitlistEntry := [entryOf 2 "anna" none, entryOf 3 "ben" none]

theorem run_annaAndBen : WaitlistRun Numbering.ascii [] annaAndBen := by
  have first : joinStep Numbering.ascii [] (requestOf "anna" none, drawing 2 "anna") =
      some [entryOf 2 "anna" none] := by
    decide
  have second : joinStep Numbering.ascii [entryOf 2 "anna" none]
      (requestOf "ben" none, drawing 3 "ben") = some annaAndBen := by
    decide
  apply Transition.Run.tail (Transition.Run.tail Transition.Run.refl ?_ first) ?_ second
  · exact List.forall_mem_nil _
  · intro entry entryMem _
    rw [List.mem_singleton.mp entryMem]
    exact le_refl _

theorem waitlist_ranking_annaAndBen :
    annaAndBen.map (position annaAndBen) = [1, 2] ∧
      (annaAndBen.map (position annaAndBen)).Perm (List.range' 1 annaAndBen.length) :=
  ⟨by decide, (waitlist_ranking Numbering.ascii annaAndBen run_annaAndBen).1⟩

/-- Ben refers Cleo in the same instant: Anna, who was first, becomes third. -/
theorem anna_loses_two_positions :
    WaitlistRun Numbering.ascii [] annaAndBen ∧
      Nondecreasing annaAndBen (drawing 1 "cleo") ∧
      (∃ found, joinWaitlist Numbering.ascii (requestOf "cleo" (some "ben")) (drawing 1 "cleo")
        annaAndBen = .ok (annaAndBen ++ [entryOf 1 "cleo" (some 3)], found)) ∧
      position annaAndBen (entryOf 2 "anna" none) = 1 ∧
      position (annaAndBen ++ [entryOf 1 "cleo" (some 3)]) (entryOf 2 "anna" none) = 3 := by
  refine ⟨run_annaAndBen, ?_, ⟨⟨entryOf 1 "cleo" (some 3), true, 2, 0⟩, ?_⟩, ?_, ?_⟩
  · have sameInstant : ∀ entry ∈ annaAndBen, entry.createdAt ≤ 0 := by decide
    exact fun entry entryMem _ => sameInstant entry entryMem
  · decide
  · decide
  · decide

end DotBackend.Waitlist
