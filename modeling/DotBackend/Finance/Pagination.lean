import DotBackend.Finance.Sync
import DotBackend.Transition.Loop

/-!
# Reading all pages of a sync

The pages are requested one after the other, each with the cursor that the page before it named.
A provider whose data changes meanwhile refuses to go on, and the reading starts over, at most
twice. Nothing checks that a page which announces more names a cursor that was not requested
before: exactly then no cursor is requested twice.
-/

namespace DotBackend.Finance

open Data Transition

/-! ## The loop -/

/-- `page.get("has_more") is True`. -/
def announcesMore (page : Json) : Bool :=
  get page "has_more" = .bool true

/-- The cursor after a page: a page that names none leaves it as it is. -/
def cursorAfter (page : Json) (cursor : Option String) : Option String :=
  match get page "next_cursor" with
  | .str nextCursor => some nextCursor
  | _ => cursor

/-- `TRANSACTIONS_SYNC_MUTATION_DURING_PAGINATION`. -/
def isMutation (failure : List Char × Option String) : Bool :=
  failure.2 = some "TRANSACTIONS_SYNC_MUTATION_DURING_PAGINATION"

/-- The variables of the loop before a request, with the cursors that were requested before it in
the same attempt. -/
structure PageLoad where
  mutationAttempt : Nat
  cursor : Option String
  pages : List Json
  requested : List (Option String)

/-- The beginning of an attempt. -/
def startAttempt (originalCursor : Option String) (mutationAttempt : Nat) : PageLoad :=
  ⟨mutationAttempt, originalCursor, [], []⟩

/-- What a provider does in each of the attempts, as a function of the cursor. -/
abbrev Provider := Nat → Option String → Answer

/-- One request of `_load_transaction_pages`, and what follows from its answer. -/
def loadStep (provider : Provider) (originalCursor : Option String) (load : PageLoad) :
    PageLoad ⊕ Except SyncError (List Json) :=
  match provider load.mutationAttempt load.cursor with
  | .ok page =>
      if announcesMore page then
        .inl { load with
          cursor := cursorAfter page load.cursor
          pages := load.pages ++ [page]
          requested := load.requested ++ [load.cursor] }
      else .inr (.ok (load.pages ++ [page]))
  | .error failure =>
      if isMutation failure ∧ load.mutationAttempt < 2 then
        .inl (startAttempt originalCursor (load.mutationAttempt + 1))
      else .inr (.error (.provider failure.1 failure.2))

/-- The loop ends with a result. -/
def Loads (provider : Provider) (originalCursor : Option String)
    (result : Except SyncError (List Json)) : Prop :=
  Loop.Ends (loadStep provider originalCursor) (startAttempt originalCursor 0) result

/-- The loop comes to a request. -/
def Requests (provider : Provider) (originalCursor : Option String) (load : PageLoad) : Prop :=
  Loop.Reaches (loadStep provider originalCursor) (startAttempt originalCursor 0) load

/-! ## Chains of pages -/

section Chains

variable (answer : Option String → Answer) (originalCursor : Option String)

/-- Pages that announce more, one after the other: the cursors that they answer, and the cursor
that the last of them leads to. -/
inductive Chain : List (Option String) → List Json → Option String → Prop
  | start : Chain [] [] originalCursor
  | next {cursors : List (Option String)} {pages : List Json} {cursor : Option String}
      {page : Json} : Chain cursors pages cursor → answer cursor = .ok page →
      announcesMore page = true →
      Chain (cursors ++ [cursor]) (pages ++ [page]) (cursorAfter page cursor)

variable {answer originalCursor} {cursors : List (Option String)} {pages : List Json}
  {cursor : Option String}

/-- Each cursor of a chain is answered with a page that leads to another one, or to the last. -/
theorem Chain.answered (chain : Chain answer originalCursor cursors pages cursor)
    {requested : Option String} (requestedMem : requested ∈ cursors) :
    ∃ page, answer requested = .ok page ∧ announcesMore page = true ∧
      cursorAfter page requested ∈ cursors ++ [cursor] := by
  induction chain with
  | start => cases requestedMem
  | @next cursors pages cursor page _ isAnswer more ih =>
      rcases List.mem_append.mp requestedMem with earlier | isLast
      · rcases ih earlier with ⟨other, otherAnswer, otherMore, leads⟩
        exact ⟨other, otherAnswer, otherMore, List.mem_append_left _ leads⟩
      · rw [List.mem_singleton.mp isLast]
        exact ⟨page, isAnswer, more, List.mem_append_right _ List.mem_cons_self⟩

end Chains

/-- The attempts that are made: one more after each that a mutation interrupts. -/
inductive Attempted (provider : Provider) (originalCursor : Option String) : Nat → Prop
  | first : Attempted provider originalCursor 0
  | again {mutationAttempt : Nat} {cursors : List (Option String)} {pages : List Json}
      {cursor : Option String} {failure : List Char × Option String} :
      Attempted provider originalCursor mutationAttempt → mutationAttempt < 2 →
      Chain (provider mutationAttempt) originalCursor cursors pages cursor →
      provider mutationAttempt cursor = .error failure → isMutation failure = true →
      Attempted provider originalCursor (mutationAttempt + 1)

/-- Where the loop is: in an attempt that is made, at the end of a chain of it. -/
structure AtRequest (provider : Provider) (originalCursor : Option String) (load : PageLoad) :
    Prop where
  attempted : Attempted provider originalCursor load.mutationAttempt
  chain : Chain (provider load.mutationAttempt) originalCursor load.requested load.pages load.cursor

section Steps

variable {provider : Provider} {originalCursor : Option String} {load next : PageLoad}

/-- A request that the loop goes on after: its page announces more, or a mutation interrupts the
attempt. -/
theorem loadStep_eq_inl (stepped : loadStep provider originalCursor load = .inl next) :
    (∃ page, provider load.mutationAttempt load.cursor = .ok page ∧ announcesMore page = true ∧
      next = ⟨load.mutationAttempt, cursorAfter page load.cursor, load.pages ++ [page],
        load.requested ++ [load.cursor]⟩) ∨
    ∃ failure, provider load.mutationAttempt load.cursor = .error failure ∧
      isMutation failure = true ∧ load.mutationAttempt < 2 ∧
      next = startAttempt originalCursor (load.mutationAttempt + 1) := by
  rw [loadStep] at stepped
  cases answered : provider load.mutationAttempt load.cursor with
  | ok page =>
      rw [answered] at stepped
      simp only at stepped
      split at stepped
      · rename_i more
        cases stepped
        exact Or.inl ⟨page, rfl, more, rfl⟩
      · cases stepped
  | error failure =>
      rw [answered] at stepped
      simp only at stepped
      split at stepped
      · rename_i again
        cases stepped
        exact Or.inr ⟨failure, rfl, again.1, again.2, rfl⟩
      · cases stepped

/-- A request that the loop ends with: its page is the last one, or the provider fails. -/
theorem loadStep_eq_inr {result : Except SyncError (List Json)}
    (stopped : loadStep provider originalCursor load = .inr result) :
    (∃ page, provider load.mutationAttempt load.cursor = .ok page ∧ announcesMore page = false ∧
      result = .ok (load.pages ++ [page])) ∨
    ∃ failure, provider load.mutationAttempt load.cursor = .error failure ∧
      ¬ (isMutation failure = true ∧ load.mutationAttempt < 2) ∧
      result = .error (.provider failure.1 failure.2) := by
  rw [loadStep] at stopped
  cases answered : provider load.mutationAttempt load.cursor with
  | ok page =>
      rw [answered] at stopped
      simp only at stopped
      split at stopped
      · cases stopped
      · rename_i last
        cases stopped
        exact Or.inl ⟨page, rfl, Bool.not_eq_true _ |>.mp last, rfl⟩
  | error failure =>
      rw [answered] at stopped
      simp only at stopped
      split at stopped
      · cases stopped
      · rename_i fails
        cases stopped
        exact Or.inr ⟨failure, rfl, fails, rfl⟩

/-- A page that announces more is followed by a request for the cursor after it. -/
theorem loadStep_of_announced {page : Json}
    (answered : provider load.mutationAttempt load.cursor = .ok page)
    (more : announcesMore page = true) :
    loadStep provider originalCursor load =
      .inl ⟨load.mutationAttempt, cursorAfter page load.cursor, load.pages ++ [page],
        load.requested ++ [load.cursor]⟩ := by
  rw [loadStep, answered]
  simp only [if_pos more]

theorem AtRequest.step (atRequest : AtRequest provider originalCursor load)
    (stepped : loadStep provider originalCursor load = .inl next) :
    AtRequest provider originalCursor next := by
  rcases loadStep_eq_inl stepped with
    ⟨page, answered, more, rfl⟩ | ⟨failure, answered, mutation, fewer, rfl⟩
  · constructor
    · exact atRequest.attempted
    · exact Chain.next atRequest.chain answered more
  · constructor
    · exact Attempted.again atRequest.attempted fewer atRequest.chain answered mutation
    · exact Chain.start

/-- The requests of the loop are the ends of the chains of the attempts that are made. -/
theorem requests_iff : Requests provider originalCursor load ↔
    AtRequest provider originalCursor load := by
  constructor
  · intro requests
    apply requests.invariant (AtRequest provider originalCursor)
    · intro before after atRequest stepped
      exact atRequest.step stepped
    · exact ⟨Attempted.first, Chain.start⟩
  · rintro ⟨attempted, chain⟩
    have begins : ∀ {mutationAttempt : Nat}, Attempted provider originalCursor mutationAttempt →
        Requests provider originalCursor (startAttempt originalCursor mutationAttempt) →
        ∀ {cursors pages cursor},
          Chain (provider mutationAttempt) originalCursor cursors pages cursor →
          Requests provider originalCursor ⟨mutationAttempt, cursor, pages, cursors⟩ := by
      intro mutationAttempt _ started cursors pages cursor chain
      induction chain with
      | start => exact started
      | next _ answered more ih =>
          exact Loop.Reaches.tail ih (loadStep_of_announced answered more)
    have started : ∀ {mutationAttempt : Nat}, Attempted provider originalCursor mutationAttempt →
        Requests provider originalCursor (startAttempt originalCursor mutationAttempt) := by
      intro mutationAttempt attempted
      induction attempted with
      | first => exact Loop.Reaches.refl
      | again earlier fewer chain answered mutation ih =>
          apply Loop.Reaches.tail (begins earlier ih chain)
          rw [loadStep, answered]
          simp only [if_pos (And.intro mutation fewer)]
    exact begins attempted (started attempted) chain

end Steps

/-! ## What is loaded -/

/-- The pages of a chain to its end. -/
def WholeChain (answer : Option String → Answer) (originalCursor : Option String)
    (pages : List Json) : Prop :=
  ∃ cursors earlier cursor page, Chain answer originalCursor cursors earlier cursor ∧
    answer cursor = .ok page ∧ announcesMore page = false ∧ pages = earlier ++ [page]

/-- In each attempt that is made, a page that announces more leads to a cursor that was not
requested before it. -/
def NamesNewCursors (provider : Provider) (originalCursor : Option String) : Prop :=
  ∀ mutationAttempt cursors pages cursor page, Attempted provider originalCursor mutationAttempt →
    Chain (provider mutationAttempt) originalCursor cursors pages cursor →
    provider mutationAttempt cursor = .ok page → announcesMore page = true →
    cursorAfter page cursor ∉ cursors ++ [cursor]

/-- The only failures are mutations, at most two of them in succession. -/
def OnlyMutates (provider : Provider) (originalCursor : Option String) : Prop :=
  ∀ mutationAttempt cursors pages cursor failure,
    Attempted provider originalCursor mutationAttempt →
    Chain (provider mutationAttempt) originalCursor cursors pages cursor →
    provider mutationAttempt cursor = .error failure →
    isMutation failure = true ∧ mutationAttempt < 2

/-- The attempts that are made announce only so many pages. -/
def Finite (provider : Provider) (originalCursor : Option String) : Prop :=
  ∃ bound, ∀ mutationAttempt cursors pages cursor,
    Attempted provider originalCursor mutationAttempt →
    Chain (provider mutationAttempt) originalCursor cursors pages cursor → cursors.length ≤ bound

/-- What a load of all pages promises. -/
structure LoadsPages (provider : Provider) (originalCursor : Option String) : Prop where
  /-- What is returned is one chain of one attempt, to its end. -/
  chain : ∀ pages, Loads provider originalCursor (.ok pages) →
    ∃ mutationAttempt, Attempted provider originalCursor mutationAttempt ∧
      WholeChain (provider mutationAttempt) originalCursor pages
  returns : Finite provider originalCursor → OnlyMutates provider originalCursor →
    ∃ pages, Loads provider originalCursor (.ok pages)
  /-- No cursor is requested twice in an attempt. -/
  distinct : ∀ load, Requests provider originalCursor load →
    (load.requested ++ [load.cursor]).Nodup
  /-- A page that announces more without a new cursor makes the load fail. -/
  fails : ∀ load page, Requests provider originalCursor load →
    provider load.mutationAttempt load.cursor = .ok page → announcesMore page = true →
    cursorAfter page load.cursor ∈ load.requested ++ [load.cursor] →
    ∃ error, Loads provider originalCursor (.error error)

section Loaded

variable {provider : Provider} {originalCursor : Option String}

theorem wholeChain_of_loads {pages : List Json}
    (loads : Loads provider originalCursor (.ok pages)) :
    ∃ mutationAttempt, Attempted provider originalCursor mutationAttempt ∧
      WholeChain (provider mutationAttempt) originalCursor pages := by
  rcases loads with ⟨load, requests, stopped⟩
  have atRequest := requests_iff.mp requests
  rcases loadStep_eq_inr stopped with ⟨page, answered, last, isResult⟩ | ⟨_, _, _, isResult⟩
  · cases isResult
    exact ⟨load.mutationAttempt, atRequest.attempted, load.requested, load.pages, load.cursor, page,
      atRequest.chain, answered, last, rfl⟩
  · cases isResult

/-- Finitely many announced pages are loaded: an attempt gets longer, or a later one begins. -/
theorem loads_of_finite (finite : Finite provider originalCursor) :
    ∃ result, Loads provider originalCursor result := by
  rcases finite with ⟨bound, isBound⟩
  apply Loop.ends_of_decreasing (AtRequest provider originalCursor)
    (fun load => (2 - load.mutationAttempt) * (bound + 1) + (bound - load.requested.length))
  · intro before after atRequest stepped
    have still := atRequest.step stepped
    have fits := isBound _ _ _ _ still.attempted still.chain
    refine ⟨still, ?_⟩
    rcases loadStep_eq_inl stepped with ⟨page, _, _, rfl⟩ | ⟨failure, _, _, fewer, rfl⟩
    · simp only [List.length_append, List.length_singleton] at fits ⊢
      omega
    · have left : 2 - before.mutationAttempt = 2 - (before.mutationAttempt + 1) + 1 := by omega
      simp only [startAttempt, List.length_nil, left, Nat.add_mul, Nat.one_mul]
      omega
  · exact ⟨Attempted.first, Chain.start⟩

theorem loads_ok_of_finite (finite : Finite provider originalCursor)
    (onlyMutates : OnlyMutates provider originalCursor) :
    ∃ pages, Loads provider originalCursor (.ok pages) := by
  rcases loads_of_finite finite with ⟨result, load, requests, stopped⟩
  have atRequest := requests_iff.mp requests
  rcases loadStep_eq_inr stopped with ⟨page, _, _, rfl⟩ | ⟨failure, answered, fails, _⟩
  · exact ⟨_, load, requests, stopped⟩
  · exact absurd (onlyMutates _ _ _ _ _ atRequest.attempted atRequest.chain answered) fails

/-- Along chains that lead to new cursors only, the cursors are different. -/
theorem nodup_of_namesNewCursors (names : NamesNewCursors provider originalCursor)
    {mutationAttempt : Nat} (attempted : Attempted provider originalCursor mutationAttempt)
    {cursors : List (Option String)} {pages : List Json} {cursor : Option String}
    (chain : Chain (provider mutationAttempt) originalCursor cursors pages cursor) :
    (cursors ++ [cursor]).Nodup := by
  induction chain with
  | start => exact List.nodup_singleton _
  | next chain answered more ih =>
      apply List.Nodup.append ih (List.nodup_singleton _)
      rw [List.disjoint_singleton]
      exact names _ _ _ _ _ attempted chain answered more

/-- Once a page leads back to a cursor that was requested before, the loop does not end. -/
theorem endless_of_requested_again {load : PageLoad} {page : Json}
    (requests : Requests provider originalCursor load)
    (answered : provider load.mutationAttempt load.cursor = .ok page)
    (more : announcesMore page = true)
    (again : cursorAfter page load.cursor ∈ load.requested ++ [load.cursor])
    (result : Except SyncError (List Json)) : ¬ Loads provider originalCursor result := by
  intro loads
  have fromLoad : Loop.Ends (loadStep provider originalCursor) load result := loads.from requests
  have chain := (requests_iff.mp requests).chain
  -- The cursors of the chain lead to one another, and its last one back to one of them.
  apply Loop.not_ends_of_invariant (fun later => later.mutationAttempt = load.mutationAttempt ∧
    later.cursor ∈ load.requested ++ [load.cursor]) _ _ fromLoad
  · rintro later ⟨sameAttempt, laterMem⟩
    have leads : ∃ page, provider later.mutationAttempt later.cursor = .ok page ∧
        announcesMore page = true ∧
          cursorAfter page later.cursor ∈ load.requested ++ [load.cursor] := by
      rw [sameAttempt]
      rcases List.mem_append.mp laterMem with earlier | isLast
      · exact chain.answered earlier
      · rw [List.mem_singleton.mp isLast]
        exact ⟨page, answered, more, again⟩
    rcases leads with ⟨page, laterAnswered, laterMore, laterNext⟩
    exact ⟨_, loadStep_of_announced laterAnswered laterMore, sameAttempt, laterNext⟩
  · exact ⟨rfl, List.mem_append_right _ List.mem_cons_self⟩

/-- All that a load promises holds exactly if no page that announces more leads back to a cursor
that was requested before. -/
theorem loadsPages_iff (provider : Provider) (originalCursor : Option String) :
    LoadsPages provider originalCursor ↔ NamesNewCursors provider originalCursor := by
  constructor
  · intro loadsPages mutationAttempt cursors pages cursor page attempted chain answered more
    have nextRequest : Requests provider originalCursor
        ⟨mutationAttempt, cursorAfter page cursor, pages ++ [page], cursors ++ [cursor]⟩ :=
      requests_iff.mpr ⟨attempted, Chain.next chain answered more⟩
    have different := loadsPages.distinct _ nextRequest
    rw [List.nodup_append] at different
    intro isMem
    exact different.2.2 _ isMem _ List.mem_cons_self rfl
  · intro names
    constructor
    · intro pages loads
      exact wholeChain_of_loads loads
    · exact loads_ok_of_finite
    · intro load requests
      have atRequest := requests_iff.mp requests
      exact nodup_of_namesNewCursors names atRequest.attempted atRequest.chain
    · intro load page requests answered more isMem
      have atRequest := requests_iff.mp requests
      exact absurd isMem (names _ _ _ _ _ atRequest.attempted atRequest.chain answered more)

end Loaded

/-- A provider that always announces more and never names a cursor. -/
def stuckProvider : Provider :=
  fun _ _ => .ok (.obj [("has_more", .bool true)])

theorem stuckProvider_endless :
    (∀ result, ¬ Loads stuckProvider none result) ∧ ¬ LoadsPages stuckProvider none := by
  have requests : Requests stuckProvider none (startAttempt none 0) := Loop.Reaches.refl
  have answered : stuckProvider 0 none = .ok (.obj [("has_more", .bool true)]) := rfl
  have endless : ∀ result, ¬ Loads stuckProvider none result :=
    endless_of_requested_again requests answered rfl List.mem_cons_self
  constructor
  · exact endless
  · intro loadsPages
    rcases loadsPages.fails (startAttempt none 0) (.obj [("has_more", .bool true)]) requests rfl rfl
      List.mem_cons_self with ⟨error, fails⟩
    exact endless _ fails

end DotBackend.Finance
