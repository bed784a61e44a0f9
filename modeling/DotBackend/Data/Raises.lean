import DotBackend.Data.Result

/-!
# Which errors are raised

Whether a computation raises errors of a kind, and whether it raises no others. A sequence
of steps avoids a kind of errors exactly when every step that is reached does.
-/

namespace DotBackend.Data

variable {ε α β : Type} {kind : ε → Prop} {result : Except ε α}

/-- No error of a kind is raised. -/
def Avoids (kind : ε → Prop) (result : Except ε α) : Prop :=
  ∀ error, result = .error error → ¬ kind error

/-- No error of another kind is raised. -/
def RaisesOnly (kind : ε → Prop) (result : Except ε α) : Prop :=
  ∀ error, result = .error error → kind error

@[simp]
theorem avoids_ok (a : α) : Avoids kind (.ok a : Except ε α) := by
  intro error raised
  cases raised

@[simp]
theorem avoids_pure (a : α) : Avoids kind (pure a : Except ε α) :=
  avoids_ok a

@[simp]
theorem avoids_error {error : ε} : Avoids kind (.error error : Except ε α) ↔ ¬ kind error := by
  constructor
  · intro avoids
    exact avoids error rfl
  · rintro other error raised
    cases raised
    exact other

/-- A sequence avoids what each of its steps avoids. -/
theorem avoids_bind {first : Except ε α} {next : α → Except ε β} :
    Avoids kind (first >>= next) ↔
      Avoids kind first ∧ ∀ a, first = .ok a → Avoids kind (next a) := by
  cases first with
  | error error =>
      change Avoids kind (.error error) ↔ _
      constructor
      · intro avoids
        refine ⟨avoids_error.mpr (avoids_error.mp avoids), ?_⟩
        intro a isOk
        cases isOk
      · rintro ⟨avoids, _⟩
        exact avoids_error.mpr (avoids_error.mp avoids)
  | ok a =>
      change Avoids kind (next a) ↔ _
      constructor
      · intro avoids
        refine ⟨avoids_ok a, ?_⟩
        rintro b same
        cases same
        exact avoids
      · rintro ⟨_, later⟩
        exact later a rfl

/-- After a step that succeeds. -/
theorem avoids_bind_of_ok {first : Except ε α} {next : α → Except ε β} {a : α}
    (isOk : first = .ok a) : Avoids kind (first >>= next) ↔ Avoids kind (next a) := by
  rw [isOk]
  rfl

/-- A computation that can only raise errors of a kind avoids them by succeeding. -/
theorem RaisesOnly.avoids_iff (only : RaisesOnly kind result) :
    Avoids kind result ↔ ∃ a, result = .ok a := by
  constructor
  · intro avoids
    cases outcome : result with
    | error error => exact absurd (only error outcome) (avoids error outcome)
    | ok a => exact ⟨a, rfl⟩
  · rintro ⟨a, isOk⟩ error raised
    cases isOk.symm.trans raised

/-- A first step that can only raise errors of a kind has to succeed. -/
theorem RaisesOnly.avoids_bind_iff {first : Except ε α} {next : α → Except ε β}
    (only : RaisesOnly kind first) :
    Avoids kind (first >>= next) ↔ ∃ a, first = .ok a ∧ Avoids kind (next a) := by
  rw [avoids_bind, only.avoids_iff]
  constructor
  · rintro ⟨⟨a, isOk⟩, later⟩
    exact ⟨a, isOk, later a isOk⟩
  · rintro ⟨a, isOk, avoids⟩
    refine ⟨⟨a, isOk⟩, ?_⟩
    intro b isOkToo
    cases isOk.symm.trans isOkToo
    exact avoids

theorem raisesOnly_ok (a : α) : RaisesOnly kind (.ok a : Except ε α) := by
  intro error raised
  cases raised

theorem raisesOnly_error {error : ε} (isKind : kind error) :
    RaisesOnly kind (.error error : Except ε α) := by
  intro other raised
  cases raised
  exact isKind

theorem raisesOnly_require {condition : Bool} {error : ε} (isKind : kind error) :
    RaisesOnly kind (require condition error) := by
  cases condition with
  | true => exact raisesOnly_ok ()
  | false => exact raisesOnly_error isKind

theorem raisesOnly_bind {first : Except ε α} {next : α → Except ε β}
    (only : RaisesOnly kind first) (later : ∀ a, RaisesOnly kind (next a)) :
    RaisesOnly kind (first >>= next) := by
  cases first with
  | error error => exact raisesOnly_error (only error rfl)
  | ok a => exact later a

theorem raisesOnly_discard {first : Except ε α} (only : RaisesOnly kind first) :
    RaisesOnly kind (discard first : Except ε PUnit) :=
  raisesOnly_bind only fun _ => raisesOnly_ok ()

theorem discard_eq_ok {first : Except ε α} {u : PUnit} :
    (discard first : Except ε PUnit) = .ok u ↔ ∃ a, first = .ok a := by
  cases first with
  | error error =>
      constructor
      · intro raised
        cases raised
      · rintro ⟨a, raised⟩
        cases raised
  | ok a =>
      constructor
      · intro _
        exact ⟨a, rfl⟩
      · intro _
        rfl

theorem raisesOnly_forEach {check : α → Except ε Unit}
    (only : ∀ a, RaisesOnly kind (check a)) (items : List α) :
    RaisesOnly kind (forEach check items) := by
  induction items with
  | nil => exact raisesOnly_ok ()
  | cons item rest ih =>
      exact raisesOnly_bind (only item) fun _ => ih

end DotBackend.Data
