import DotBackend.Data.Text
import Mathlib.Data.List.TakeWhile

/-!
# Clean texts

A text is clean when it begins with a character that is no whitespace and is no longer than
a bound. What is left of a text that was stripped and cut is clean or empty, and a clean text
with single spaces is still within its bound.
-/

namespace DotBackend.Data.Text

/-- The text begins with a character that is no whitespace, and has at most `bound` ones. -/
def Clean (bound : Nat) (text : List Char) : Prop :=
  text.head?.any (fun c => !isSpace c) = true ∧ text.length ≤ bound

instance (bound : Nat) (text : List Char) : Decidable (Clean bound text) :=
  inferInstanceAs (Decidable (_ ∧ _))

theorem head?_dropWhile (drop : Char → Bool) (text : List Char) :
    (text.dropWhile drop).head?.all (fun c => !drop c) = true := by
  induction text with
  | nil => rfl
  | cons c rest ih =>
      rw [List.dropWhile_cons]
      split
      · exact ih
      · rename_i kept
        simpa using kept

/-- A text that was trimmed begins with a character that was not to be dropped. -/
theorem head?_trim (drop : Char → Bool) (text : List Char) :
    (trim drop text).head?.all (fun c => !drop c) = true := by
  have trailing : trim drop text <+: text.dropWhile drop := by
    rw [← List.reverse_reverse (text.dropWhile drop)]
    exact List.reverse_prefix.mpr (List.dropWhile_suffix drop)
  have leading := head?_dropWhile drop text
  rcases trailing with ⟨rest, whole⟩
  rw [← whole] at leading
  cases trimmed : trim drop text with
  | nil => rfl
  | cons c others =>
      rw [trimmed] at leading
      exact leading

/-- What is left of a text that was stripped and cut. -/
theorem clean_take_strip {bound : Nat} {text : List Char} (positive : 0 < bound)
    (visible : strip text ≠ []) : Clean bound ((strip text).take bound) := by
  have first := head?_trim isSpace text
  change (strip text).head?.all _ = true at first
  cases stripped : strip text with
  | nil => exact absurd stripped visible
  | cons c rest =>
      rw [stripped] at first
      obtain ⟨smaller, rfl⟩ := Nat.exists_eq_succ_of_ne_zero (Nat.ne_of_gt positive)
      exact ⟨first, List.length_take_le _ _⟩

theorem clean_strip {bound : Nat} {text : List Char} (visible : strip text ≠ [])
    (fits : (strip text).length ≤ bound) : Clean bound (strip text) := by
  have first := head?_trim isSpace text
  change (strip text).head?.all _ = true at first
  cases stripped : strip text with
  | nil => exact absurd stripped visible
  | cons c rest =>
      rw [stripped] at first fits
      exact ⟨first, fits⟩

theorem Clean.mono {bound larger : Nat} {text : List Char} (clean : Clean bound text)
    (less : bound ≤ larger) : Clean larger text :=
  ⟨clean.1, Nat.le_trans clean.2 less⟩

/-- A text with a character that stays is not trimmed away. -/
theorem trim_ne_nil {drop : Char → Bool} {text : List Char} {c : Char} (cMem : c ∈ text)
    (kept : drop c = false) : trim drop text ≠ [] := by
  intro gone
  rw [trim, List.reverse_eq_nil_iff, List.dropWhile_eq_nil_iff] at gone
  have leading : c ∈ text.dropWhile drop := by
    rw [← List.takeWhile_append_dropWhile (p := drop) (l := text)] at cMem
    rcases List.mem_append.mp cMem with dropped | left
    · have isDropped := List.mem_takeWhile_imp dropped
      rw [kept] at isDropped
      cases isDropped
    · exact left
  have isDropped := gone c (List.mem_reverse.mpr leading)
  rw [kept] at isDropped
  cases isDropped

theorem Clean.strip_ne_nil {bound : Nat} {text : List Char} (clean : Clean bound text) :
    strip text ≠ [] := by
  obtain ⟨first, _⟩ := clean
  cases text with
  | nil => cases first
  | cons c rest =>
      apply trim_ne_nil List.mem_cons_self
      simpa using first

/-- A text whose ends stay is not trimmed. -/
theorem trim_eq_self_of_ends {drop : Char → Bool} {text : List Char}
    (first : ∀ c, text.head? = some c → drop c = false)
    (last : ∀ c, text.getLast? = some c → drop c = false) : trim drop text = text := by
  have leading : ∀ {chars : List Char}, (∀ c, chars.head? = some c → drop c = false) →
      chars.dropWhile drop = chars := by
    intro chars kept
    cases chars with
    | nil => rfl
    | cons c rest => rw [List.dropWhile_cons, kept c rfl, if_neg Bool.false_ne_true]
  rw [trim, leading first, leading, List.reverse_reverse]
  intro c isFirst
  rw [List.head?_reverse] at isFirst
  exact last c isFirst

/-! ## Single spaces -/

/-- The words of a text, each with a separator, are no longer than the text with one. -/
theorem sum_wordsFrom_le (word text : List Char) :
    ((wordsFrom word text).map fun word => word.length + 1).sum ≤
      word.length + text.length + 1 := by
  induction text generalizing word with
  | nil =>
      rw [wordsFrom]
      split
      · exact Nat.zero_le _
      · simp
  | cons c rest ih =>
      rw [wordsFrom]
      split
      · have later := ih []
        rw [List.length_nil] at later
        split
        · rw [List.length_cons]
          omega
        · rw [List.map_cons, List.sum_cons, List.length_reverse, List.length_cons]
          omega
      · have later := ih (c :: word)
        rw [List.length_cons] at later ⊢
        omega

theorem length_intercalate_le (words : List (List Char)) :
    ([' '].intercalate words).length ≤ (words.map fun word => word.length + 1).sum - 1 := by
  induction words with
  | nil => exact Nat.le_refl 0
  | cons word rest ih =>
      cases rest with
      | nil => simp [List.intercalate]
      | cons next later =>
          have joined : [' '].intercalate (word :: next :: later) =
              word ++ ' ' :: [' '].intercalate (next :: later) := by
            simp [List.intercalate]
          rw [joined, List.length_append, List.length_cons, List.map_cons, List.sum_cons]
          rw [List.map_cons, List.sum_cons] at ih ⊢
          omega

/-- Single spaces make a text no longer. -/
theorem length_singleSpaced_le (text : List Char) : (singleSpaced text).length ≤ text.length := by
  have joined := length_intercalate_le (words text)
  have counted := sum_wordsFrom_le [] text
  rw [List.length_nil] at counted
  change _ ≤ ((wordsFrom [] text).map _).sum - 1 at joined
  rw [singleSpaced]
  omega

end DotBackend.Data.Text
