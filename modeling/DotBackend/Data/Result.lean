/-!
# Results of fallible code

A function that may raise returns `Except`; a success of a sequence of steps is a
success of every step.
-/

namespace DotBackend.Data

variable {ε α β : Type}

/-- Raise unless a condition holds. -/
def require (condition : Bool) (error : ε) : Except ε Unit :=
  if condition then .ok () else .error error

@[simp]
theorem require_eq_ok {condition : Bool} {error : ε} {u : Unit} :
    require condition error = .ok u ↔ condition = true := by
  cases condition <;> simp [require]

@[simp]
theorem bind_eq_ok {first : Except ε α} {next : α → Except ε β} {result : β} :
    (first >>= next) = .ok result ↔ ∃ a, first = .ok a ∧ next a = .ok result := by
  cases first with
  | error error => simp [bind, Except.bind]
  | ok a => simp [bind, Except.bind]

@[simp]
theorem pure_eq_ok {a result : α} : (pure a : Except ε α) = .ok result ↔ a = result := by
  simp [pure, Except.pure]

theorem map_eq_ok {first : Except ε α} {f : α → β} {result : β} :
    first.map f = .ok result ↔ ∃ a, first = .ok a ∧ f a = result := by
  cases first with
  | error error => simp [Except.map]
  | ok a => simp [Except.map]

/-- A check that is made under a condition only. -/
theorem of_checked {condition : Prop} [Decidable condition] {check : Except ε Unit}
    {next : Except ε α} {a : α}
    (passes : (if condition then check >>= fun _ => next else next) = .ok a) : next = .ok a := by
  split at passes
  · simp only [bind_eq_ok] at passes
    rcases passes with ⟨_, _, passes⟩
    exact passes
  · exact passes

theorem ok_of_toOption {outcome : Except ε α} {result : α}
    (some_eq : outcome.toOption = some result) : outcome = .ok result := by
  cases outcome with
  | error error => cases some_eq
  | ok value =>
      cases some_eq
      rfl

/-- A computation that is seen to succeed has a result. -/
theorem exists_eq_ok {result : Except ε α} (succeeds : result.isOk = true) :
    ∃ a, result = .ok a := by
  cases result with
  | error error => exact absurd succeeds Bool.false_ne_true
  | ok a => exact ⟨a, rfl⟩

@[simp]
theorem mapError_eq_ok {η : Type} {convert : ε → η} {result : Except ε α} {a : α} :
    result.mapError convert = .ok a ↔ result = .ok a := by
  cases result with
  | error error =>
      constructor
      · rintro ⟨⟩
      · rintro ⟨⟩
  | ok value =>
      change Except.ok value = _ ↔ _
      rw [Except.ok.injEq, Except.ok.injEq]

/-- A loop whose body may raise. -/
def forEach (check : α → Except ε Unit) : List α → Except ε Unit
  | [] => .ok ()
  | a :: rest => do
      check a
      forEach check rest

@[simp]
theorem forEach_eq_ok {check : α → Except ε Unit} {items : List α} {u : Unit} :
    forEach check items = .ok u ↔ ∀ a ∈ items, check a = .ok () := by
  induction items with
  | nil => simp [forEach]
  | cons a rest ih =>
      simp only [forEach, bind_eq_ok, ih, List.forall_mem_cons]
      constructor
      · rintro ⟨_, first, others⟩
        exact ⟨first, others⟩
      · rintro ⟨first, others⟩
        exact ⟨(), first, others⟩

/-! ## Loops that read an item and then act on what they read -/

/-- What a loop reads of its items, each of which yields something or nothing. -/
def collect (read : α → Except ε (Option β)) : List α → Except ε (List β)
  | [] => .ok []
  | a :: rest => do
      let first ← read a
      let others ← collect read rest
      pure (first.toList ++ others)

/-- A loop that acts on what it reads of each item does, when it succeeds, what reading all
items first and then acting does. -/
theorem foldlM_eq_ok {σ : Type} {step : σ → α → Except ε σ} {read : α → Except ε (Option β)}
    {act : σ → β → σ}
    (step_eq : ∀ state a, step state a = (read a).map fun found => found.toList.foldl act state)
    {items : List α} {state result : σ} :
    items.foldlM step state = .ok result ↔
      ∃ found, collect read items = .ok found ∧ found.foldl act state = result := by
  induction items generalizing state with
  | nil => simp [collect, pure, Except.pure]
  | cons a rest ih =>
      rw [List.foldlM_cons, step_eq]
      cases isRead : read a with
      | error error => simp [collect, isRead, bind, Except.bind, Except.map]
      | ok first =>
          simp only [Except.map, bind_eq_ok, Except.ok.injEq, exists_eq_left', collect, isRead,
            ih, pure_eq_ok]
          constructor
          · rintro ⟨found, others, reaches⟩
            refine ⟨first.toList ++ found, ⟨found, others, rfl⟩, ?_⟩
            rw [List.foldl_append]
            exact reaches
          · rintro ⟨found, ⟨others, othersRead, rfl⟩, reaches⟩
            rw [List.foldl_append] at reaches
            exact ⟨others, othersRead, reaches⟩

end DotBackend.Data
