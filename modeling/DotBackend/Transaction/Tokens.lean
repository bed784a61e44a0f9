import DotBackend.Transaction.ReadCommitted

/-!
# Tokens of sessions

A session draws a fresh token from a supply, such as a random identifier, and may spend
it in one of its commits. A token belongs to one session and is spent at most once.
-/

namespace DotBackend.Transaction

open Transition

variable {σ ρ π ε : Type}

/-- The tokens in a protocol: the one a session holds at a point, the points at which it
is still to be spent, how many were drawn so far, and which ones were spent. -/
structure Ledger (σ π : Type) where
  token : π → Option Nat
  unspent : π → Bool
  drawn : σ → Nat
  spent : σ → List Nat

/-- A session that goes on keeps its token or drops it, draws a new one, or spends the
one that it holds. -/
inductive Ledger.Moves (ledger : Ledger σ π) (point : π) (before after : σ)
    (target : Option π) : Prop
  | keeps : ledger.drawn after = ledger.drawn before → ledger.spent after = ledger.spent before →
      (∀ next token, target = some next → ledger.token next = some token →
        ledger.token point = some token ∧
          (ledger.unspent next = true → ledger.unspent point = true)) →
      Moves ledger point before after target
  | draws : ledger.drawn after = ledger.drawn before + 1 →
      ledger.spent after = ledger.spent before →
      (∀ next token, target = some next → ledger.token next = some token →
        token = ledger.drawn after) →
      Moves ledger point before after target
  | spends {token : Nat} : ledger.token point = some token → ledger.unspent point = true →
      ledger.drawn after = ledger.drawn before →
      ledger.spent after = token :: ledger.spent before →
      (∀ next held, target = some next → ledger.token next = some held →
        held = token ∧ ledger.unspent next = false) →
      Moves ledger point before after target

/-- The laws of the tokens. -/
structure Ledger.Lawful (ledger : Ledger σ π) (protocol : Protocol σ ρ π ε) : Prop where
  start : ∀ {point}, protocol.starts point = true → ledger.token point = none
  moves : ∀ {point input before after target},
    (protocol.request point input).Leads before after target →
      ledger.Moves point before after target

/-- Tokens are held by one session each and spent once. -/
structure Ledger.Balanced (ledger : Ledger σ π) (system : System σ ρ π) : Prop where
  held_le : ∀ {session point token}, system.points session = some point →
    ledger.token point = some token → token ≤ ledger.drawn system.database
  spent_le : ∀ {token}, token ∈ ledger.spent system.database →
    token ≤ ledger.drawn system.database
  exclusive : ∀ {first second point other token}, system.points first = some point →
    ledger.token point = some token → system.points second = some other →
      ledger.token other = some token → first = second
  unspent : ∀ {session point token}, system.points session = some point →
    ledger.token point = some token → ledger.unspent point = true →
      token ∉ ledger.spent system.database
  once : (ledger.spent system.database).Nodup

namespace Ledger

variable {ledger : Ledger σ π} {protocol : Protocol σ ρ π ε} {system after : System σ ρ π}

/-- A step that gives the session no new token and spends none. -/
private theorem Balanced.of_kept (balanced : ledger.Balanced system) (session : Nat)
    (others : ∀ other, other ≠ session → after.points other = system.points other)
    (sameDrawn : ledger.drawn after.database = ledger.drawn system.database)
    (sameSpent : ledger.spent after.database = ledger.spent system.database)
    (own : ∀ next token, after.points session = some next → ledger.token next = some token →
      ∃ point, system.points session = some point ∧ ledger.token point = some token ∧
        (ledger.unspent next = true → ledger.unspent point = true)) :
    ledger.Balanced after := by
  -- whatever a session holds afterwards, it held before
  have before : ∀ {other next token}, after.points other = some next →
      ledger.token next = some token →
        ∃ point, system.points other = some point ∧ ledger.token point = some token ∧
          (ledger.unspent next = true → ledger.unspent point = true) := by
    intro other next token atNext holds
    by_cases isOwn : other = session
    · subst isOwn
      exact own next token atNext holds
    · rw [others other isOwn] at atNext
      exact ⟨next, atNext, holds, id⟩
  constructor
  · intro other next token atNext holds
    obtain ⟨point, atPoint, held, _⟩ := before atNext holds
    rw [sameDrawn]
    exact balanced.held_le atPoint held
  · intro token isSpent
    rw [sameSpent] at isSpent
    rw [sameDrawn]
    exact balanced.spent_le isSpent
  · intro first second point other token atPoint holds atOther otherHolds
    obtain ⟨_, firstAt, firstHeld, _⟩ := before atPoint holds
    obtain ⟨_, secondAt, secondHeld, _⟩ := before atOther otherHolds
    exact balanced.exclusive firstAt firstHeld secondAt secondHeld
  · intro other next token atNext holds isUnspent
    obtain ⟨point, atPoint, held, stillUnspent⟩ := before atNext holds
    rw [sameSpent]
    exact balanced.unspent atPoint held (stillUnspent isUnspent)
  · rw [sameSpent]
    exact balanced.once

/-- A new token is none that a session holds or that was spent. -/
private theorem Balanced.of_drawn (balanced : ledger.Balanced system) (session : Nat)
    (others : ∀ other, other ≠ session → after.points other = system.points other)
    (oneMore : ledger.drawn after.database = ledger.drawn system.database + 1)
    (sameSpent : ledger.spent after.database = ledger.spent system.database)
    (own : ∀ next token, after.points session = some next → ledger.token next = some token →
      token = ledger.drawn after.database) :
    ledger.Balanced after := by
  have fresh : ∀ {other point token}, other ≠ session → after.points other = some point →
      ledger.token point = some token → token ≤ ledger.drawn system.database := by
    intro other point token notOwn atPoint holds
    rw [others other notOwn] at atPoint
    exact balanced.held_le atPoint holds
  constructor
  · intro other next token atNext holds
    by_cases isOwn : other = session
    · subst isOwn
      exact Nat.le_of_eq (own next token atNext holds)
    · have older := fresh isOwn atNext holds
      omega
  · intro token isSpent
    rw [sameSpent] at isSpent
    have older := balanced.spent_le isSpent
    omega
  · intro first second point other token atPoint holds atOther otherHolds
    by_cases firstOwn : first = session
    · subst firstOwn
      by_cases secondOwn : second = first
      · exact secondOwn.symm
      · have older := fresh secondOwn atOther otherHolds
        have newest := own point token atPoint holds
        omega
    · by_cases secondOwn : second = session
      · subst secondOwn
        have older := fresh firstOwn atPoint holds
        have newest := own other token atOther otherHolds
        omega
      · rw [others first firstOwn] at atPoint
        rw [others second secondOwn] at atOther
        exact balanced.exclusive atPoint holds atOther otherHolds
  · intro other next token atNext holds isUnspent isSpent
    rw [sameSpent] at isSpent
    by_cases isOwn : other = session
    · subst isOwn
      have newest := own next token atNext holds
      have older := balanced.spent_le isSpent
      omega
    · rw [others other isOwn] at atNext
      exact balanced.unspent atNext holds isUnspent isSpent
  · rw [sameSpent]
    exact balanced.once

/-- A session spends the token that only it holds. -/
private theorem Balanced.of_spent (balanced : ledger.Balanced system) {session : Nat}
    {point : π} {token : Nat} (atPoint : system.points session = some point)
    (holds : ledger.token point = some token) (isUnspent : ledger.unspent point = true)
    (others : ∀ other, other ≠ session → after.points other = system.points other)
    (sameDrawn : ledger.drawn after.database = ledger.drawn system.database)
    (oneMore : ledger.spent after.database = token :: ledger.spent system.database)
    (own : ∀ next held, after.points session = some next → ledger.token next = some held →
      held = token ∧ ledger.unspent next = false) :
    ledger.Balanced after := by
  have before : ∀ {other next held}, after.points other = some next →
      ledger.token next = some held →
        ∃ point, system.points other = some point ∧ ledger.token point = some held := by
    intro other next held atNext nextHolds
    by_cases isOwn : other = session
    · subst isOwn
      rw [(own next held atNext nextHolds).1]
      exact ⟨point, atPoint, holds⟩
    · rw [others other isOwn] at atNext
      exact ⟨next, atNext, nextHolds⟩
  constructor
  · intro other next held atNext nextHolds
    obtain ⟨_, atBefore, heldBefore⟩ := before atNext nextHolds
    rw [sameDrawn]
    exact balanced.held_le atBefore heldBefore
  · intro held isSpent
    rw [oneMore] at isSpent
    rw [sameDrawn]
    rcases List.mem_cons.mp isSpent with rfl | spentBefore
    · exact balanced.held_le atPoint holds
    · exact balanced.spent_le spentBefore
  · intro first second firstPoint secondPoint held firstAt firstHolds secondAt secondHolds
    obtain ⟨_, firstBefore, firstHeld⟩ := before firstAt firstHolds
    obtain ⟨_, secondBefore, secondHeld⟩ := before secondAt secondHolds
    exact balanced.exclusive firstBefore firstHeld secondBefore secondHeld
  · intro other next held atNext nextHolds stillUnspent isSpent
    rw [oneMore] at isSpent
    by_cases isOwn : other = session
    · subst isOwn
      rw [(own next held atNext nextHolds).2] at stillUnspent
      cases stillUnspent
    · rw [others other isOwn] at atNext
      rcases List.mem_cons.mp isSpent with rfl | spentBefore
      · exact isOwn (balanced.exclusive atNext nextHolds atPoint holds)
      · exact balanced.unspent atNext nextHolds stillUnspent spentBefore
  · rw [oneMore]
    exact List.nodup_cons.mpr ⟨balanced.unspent atPoint holds isUnspent, balanced.once⟩

/-- Before the first token is drawn. -/
theorem balanced_idle {database : σ} (noneSpent : ledger.spent database = []) :
    ledger.Balanced (System.idle database : System σ ρ π) where
  held_le := by
    intro session point token atPoint
    cases atPoint
  spent_le := by
    intro token isSpent
    change token ∈ ledger.spent database at isSpent
    rw [noneSpent] at isSpent
    cases isSpent
  exclusive := by
    intro first second point other token atPoint
    cases atPoint
  unspent := by
    intro session point token atPoint
    cases atPoint
  once := by
    change (ledger.spent database).Nodup
    rw [noneSpent]
    exact List.nodup_nil

variable [DecidableEq ρ]

theorem Balanced.step (balanced : ledger.Balanced system) (lawful : ledger.Lawful protocol)
    {event : Event π ε} (stepped : system.step protocol event = some after) :
    ledger.Balanced after := by
  have others : ∀ other, other ≠ event.session → after.points other = system.points other :=
    fun _ notOwn => System.step_points stepped notOwn
  have moves := System.step_moves stepped
  generalize atTarget : after.points event.session = target at moves
  generalize nowDatabase : after.database = database at moves
  cases moves with
  | @start session point _ starts =>
      apply balanced.of_kept session others
      · rw [nowDatabase]
      · rw [nowDatabase]
      · intro next token atNext holds
        cases atTarget.symm.trans atNext
        rw [lawful.start starts] at holds
        cases holds
  | @crash session =>
      apply balanced.of_kept session others
      · rw [nowDatabase]
      · rw [nowDatabase]
      · intro next token atNext
        cases atTarget.symm.trans atNext
  | @advance session input point _ _ atPoint leads =>
      subst nowDatabase
      cases lawful.moves leads with
      | keeps sameDrawn sameSpent own =>
          apply balanced.of_kept session others sameDrawn sameSpent
          intro next token atNext holds
          exact ⟨point, atPoint, own next token (atTarget.symm.trans atNext) holds⟩
      | draws oneMore sameSpent own =>
          apply balanced.of_drawn session others oneMore sameSpent
          intro next token atNext holds
          exact own next token (atTarget.symm.trans atNext) holds
      | spends holds isUnspent sameDrawn oneMore own =>
          apply balanced.of_spent atPoint holds isUnspent others sameDrawn oneMore
          intro next held atNext nextHolds
          exact own next held (atTarget.symm.trans atNext) nextHolds

/-- In every run, a token is held by one session and spent at most once. -/
theorem Balanced.run {condition : System σ ρ π → Event π ε → Prop} {target : System σ ρ π}
    (balanced : ledger.Balanced system) (lawful : ledger.Lawful protocol)
    (run : Run (System.step protocol) condition system target) : ledger.Balanced target :=
  run.invariant ledger.Balanced (fun _ _ _ before _ stepped => before.step lawful stepped)
    balanced

end Ledger

end DotBackend.Transaction
