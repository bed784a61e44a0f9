import Mathlib.Data.List.Basic

/-!
# Nested delimiters

Texts in which every opening delimiter is closed by its own closing one, and what is between the
two is such a text as well. A stack of the delimiters that are open recognizes them.
-/

namespace DotBackend.Data

variable {α : Type}

/-- Delimiters: those that open, and what each of those that close does close. -/
structure Delimiters (α : Type) where
  opens : α → Bool
  closes : α → Option α

/-- Delimiters are closed in the order opposite to that in which they were opened. -/
inductive Nested (delimiters : Delimiters α) : List α → Prop
  | nil : Nested delimiters []
  | other {a : α} {rest : List α} (notOpening : delimiters.opens a = false)
      (notClosing : delimiters.closes a = none) (nested : Nested delimiters rest) :
      Nested delimiters (a :: rest)
  | pair {opening closing : α} {inner rest : List α} (opens : delimiters.opens opening = true)
      (notOpening : delimiters.opens closing = false)
      (closes : delimiters.closes closing = some opening) (nested : Nested delimiters inner)
      (others : Nested delimiters rest) :
      Nested delimiters (opening :: (inner ++ closing :: rest))

section Delimiters

variable {delimiters : Delimiters α} {first second text : List α} {stack : List α}

theorem Nested.append (nested : Nested delimiters first) (others : Nested delimiters second) :
    Nested delimiters (first ++ second) := by
  induction nested with
  | nil => exact others
  | other notOpening notClosing _ ih =>
      exact Nested.other notOpening notClosing ih
  | pair opens notOpening closes nested _ _ ih =>
      rw [List.cons_append, List.append_assoc, List.cons_append]
      exact Nested.pair opens notOpening closes nested ih

/-- A text closes what is on a stack, each after nested text. -/
def Closing (delimiters : Delimiters α) : List α → List α → Prop
  | [], text => Nested delimiters text
  | top :: below, text => ∃ inner closing rest, text = inner ++ closing :: rest ∧
      Nested delimiters inner ∧ delimiters.opens closing = false ∧
      delimiters.closes closing = some top ∧ Closing delimiters below rest

theorem Closing.prepend (nested : Nested delimiters first)
    (closing : Closing delimiters stack text) : Closing delimiters stack (first ++ text) := by
  cases stack with
  | nil => exact nested.append closing
  | cons top below =>
      rcases closing with ⟨inner, last, rest, rfl, isNested, isClosing⟩
      exact ⟨first ++ inner, last, rest, by rw [List.append_assoc], nested.append isNested,
        isClosing⟩

/-! ## The stack of open delimiters -/

variable [DecidableEq α]

/-- A closing delimiter takes what it closes from the top of the stack. -/
def Delimiters.step (delimiters : Delimiters α) (stack : List α) (a : α) : Option (List α) :=
  if delimiters.opens a then some (a :: stack)
  else
    match delimiters.closes a, stack with
    | none, _ => some stack
    | some opening, top :: below => if top = opening then some below else none
    | some _, [] => none

/-- What is open after a text. -/
def Delimiters.after (delimiters : Delimiters α) (stack : List α) (text : List α) :
    Option (List α) :=
  text.foldlM delimiters.step stack

@[simp]
theorem Delimiters.after_nil : delimiters.after stack [] = some stack :=
  rfl

theorem Delimiters.after_cons (a : α) :
    delimiters.after stack (a :: text) =
      (delimiters.step stack a).bind fun next => delimiters.after next text := by
  simp only [after, List.foldlM_cons]
  rfl

theorem Delimiters.after_append :
    delimiters.after stack (first ++ second) =
      (delimiters.after stack first).bind fun next => delimiters.after next second := by
  simp only [after, List.foldlM_append]
  rfl

/-- Nested text leaves what was open before it. -/
theorem Nested.after (nested : Nested delimiters text) (stack : List α) :
    delimiters.after stack text = some stack := by
  induction nested generalizing stack with
  | nil => rfl
  | other notOpening notClosing _ ih =>
      have step : ∀ {a}, delimiters.opens a = false → delimiters.closes a = none →
          delimiters.step stack a = some stack := by
        intro a notOpening notClosing
        simp [Delimiters.step, notOpening, notClosing]
      rw [Delimiters.after_cons, step notOpening notClosing, Option.bind_some,
        ih]
  | @pair opening closing inner rest opens notOpening closes _ _ innerAfter restAfter =>
      have opened : delimiters.step stack opening = some (opening :: stack) := by
        simp [Delimiters.step, opens]
      have closed : delimiters.step (opening :: stack) closing = some stack := by
        simp [Delimiters.step, notOpening, closes]
      rw [Delimiters.after_cons, opened, Option.bind_some, Delimiters.after_append, innerAfter,
        Option.bind_some, Delimiters.after_cons, closed, Option.bind_some, restAfter]

theorem closing_of_after (allClosed : delimiters.after stack text = some []) :
    Closing delimiters stack text := by
  induction text generalizing stack with
  | nil =>
      cases allClosed
      exact Nested.nil
  | cons a text ih =>
      rw [Delimiters.after_cons, Option.bind_eq_some_iff] at allClosed
      rcases allClosed with ⟨next, step, allClosed⟩
      have later := ih allClosed
      unfold Delimiters.step at step
      split at step
      · rename_i opens
        cases step
        rcases later with ⟨inner, closing, rest, rfl, nested, notOpening, closes, isClosing⟩
        have isPair := Nested.pair opens notOpening closes nested Nested.nil
        have prepended := Closing.prepend isPair isClosing
        rwa [List.cons_append, List.append_assoc] at prepended
      · rename_i notOpening
        rw [Bool.not_eq_true] at notOpening
        split at step
        · rename_i notClosing
          cases step
          exact Closing.prepend (Nested.other notOpening notClosing Nested.nil) later
        · rename_i opening top below closes
          split at step
          · rename_i same
            cases step
            rw [← same] at closes
            exact ⟨[], a, text, rfl, Nested.nil, notOpening, closes, later⟩
          · cases step
        · cases step

/-- The stack is empty before and after exactly the nested texts. -/
theorem nested_iff_after : Nested delimiters text ↔ delimiters.after [] text = some [] := by
  constructor
  · intro nested
    exact nested.after []
  · intro allClosed
    exact closing_of_after allClosed

instance : Decidable (Nested delimiters text) :=
  decidable_of_iff _ nested_iff_after.symm

end Delimiters

end DotBackend.Data
