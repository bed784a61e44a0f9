import DotBackend.Data.CleanText

/-!
# Single spaces

A text with single spaces between its words has them already: splitting it gives the words
back, and there is nothing to strip.
-/

namespace DotBackend.Data.Text

/-- A word: characters without whitespace, at least one. -/
def Solid (word : List Char) : Prop :=
  word ≠ [] ∧ ∀ c ∈ word, isSpace c = false

/-- The words of a text are solid. -/
theorem solid_of_mem_wordsFrom {read text word : List Char}
    (readSolid : ∀ c ∈ read, isSpace c = false) (wordMem : word ∈ wordsFrom read text) :
    Solid word := by
  have isSolid : ∀ {read : List Char}, (∀ c ∈ read, isSpace c = false) → ¬ read.isEmpty = true →
      Solid read.reverse := by
    intro read solid notEmpty
    constructor
    · intro empty
      rw [List.reverse_eq_nil_iff] at empty
      rw [empty] at notEmpty
      exact notEmpty rfl
    · intro c cMem
      exact solid c (List.mem_reverse.mp cMem)
  induction text generalizing read with
  | nil =>
      rw [wordsFrom] at wordMem
      split at wordMem
      · cases wordMem
      · rename_i notEmpty
        rw [List.mem_singleton.mp wordMem]
        exact isSolid readSolid notEmpty
  | cons c rest ih =>
      rw [wordsFrom] at wordMem
      split at wordMem
      · split at wordMem
        · exact ih (List.forall_mem_nil _) wordMem
        · rename_i notEmpty
          rcases List.mem_cons.mp wordMem with rfl | wordMem
          · exact isSolid readSolid notEmpty
          · exact ih (List.forall_mem_nil _) wordMem
      · rename_i notSpace
        apply ih _ wordMem
        intro other otherMem
        rcases List.mem_cons.mp otherMem with rfl | otherMem
        · exact Bool.eq_false_iff.mpr notSpace
        · exact readSolid other otherMem

theorem solid_of_mem_words {text word : List Char} (wordMem : word ∈ words text) : Solid word :=
  solid_of_mem_wordsFrom (List.forall_mem_nil _) wordMem

theorem wordsFrom_append {word : List Char} (solid : ∀ c ∈ word, isSpace c = false)
    (read rest : List Char) :
    wordsFrom read (word ++ rest) = wordsFrom (word.reverse ++ read) rest := by
  induction word generalizing read with
  | nil => rfl
  | cons c word ih =>
      rcases List.forall_mem_cons.mp solid with ⟨first, others⟩
      rw [List.cons_append, wordsFrom, first, if_neg Bool.false_ne_true,
        ih others, List.reverse_cons, List.append_assoc]
      rfl

/-- Splitting words that are joined by spaces gives the words back. -/
theorem words_intercalate {found : List (List Char)} (solid : ∀ word ∈ found, Solid word) :
    words ([' '].intercalate found) = found := by
  induction found with
  | nil => rfl
  | cons word rest ih =>
      rcases List.forall_mem_cons.mp solid with ⟨⟨notEmpty, isSolid⟩, others⟩
      have readWord : (word.reverse ++ []).isEmpty = false := by
        cases word with
        | nil => exact absurd rfl notEmpty
        | cons c word => simp
      cases rest with
      | nil =>
          have alone : [' '].intercalate [word] = word ++ [] := by simp [List.intercalate]
          rw [words, alone, wordsFrom_append isSolid, wordsFrom, readWord]
          simp
      | cons next later =>
          have joined : [' '].intercalate (word :: next :: later) =
              word ++ ' ' :: [' '].intercalate (next :: later) := by
            simp [List.intercalate]
          have laterWords := ih others
          rw [words] at laterWords
          rw [words, joined, wordsFrom_append isSolid, wordsFrom, if_pos (by decide), readWord,
            if_neg Bool.false_ne_true, laterWords]
          simp

theorem singleSpaced_singleSpaced (text : List Char) :
    singleSpaced (singleSpaced text) = singleSpaced text := by
  rw [singleSpaced, singleSpaced, words_intercalate fun _ wordMem => solid_of_mem_words wordMem]

/-! ## Nothing to strip -/

theorem head?_intercalate {found : List (List Char)} (solid : ∀ word ∈ found, Solid word) (c : Char)
    (isFirst : ([' '].intercalate found).head? = some c) : isSpace c = false := by
  cases found with
  | nil => cases isFirst
  | cons word rest =>
      rcases List.forall_mem_cons.mp solid with ⟨⟨notEmpty, isSolid⟩, _⟩
      cases word with
      | nil => exact absurd rfl notEmpty
      | cons first word =>
          have isHead : ([' '].intercalate ((first :: word) :: rest)).head? = some first := by
            cases rest <;> simp [List.intercalate]
          rw [isHead] at isFirst
          cases isFirst
          exact isSolid c List.mem_cons_self

theorem getLast?_intercalate {found : List (List Char)} (solid : ∀ word ∈ found, Solid word)
    (c : Char) (isLast : ([' '].intercalate found).getLast? = some c) : isSpace c = false := by
  induction found with
  | nil => cases isLast
  | cons word rest ih =>
      rcases List.forall_mem_cons.mp solid with ⟨⟨notEmpty, isSolid⟩, others⟩
      cases rest with
      | nil =>
          have alone : [' '].intercalate [word] = word := by simp [List.intercalate]
          rw [alone] at isLast
          exact isSolid c (List.mem_of_getLast? isLast)
      | cons next later =>
          have joined : [' '].intercalate (word :: next :: later) =
              (word ++ [' ']) ++ [' '].intercalate (next :: later) := by
            simp [List.intercalate]
          have notNil : [' '].intercalate (next :: later) ≠ [] := by
            intro empty
            have same := words_intercalate others
            rw [empty] at same
            cases same
          rw [joined, List.getLast?_append_of_ne_nil _ notNil] at isLast
          exact ih others isLast

theorem strip_singleSpaced (text : List Char) : strip (singleSpaced text) = singleSpaced text :=
  trim_eq_self_of_ends (head?_intercalate fun _ wordMem => solid_of_mem_words wordMem)
    (getLast?_intercalate fun _ wordMem => solid_of_mem_words wordMem)

end DotBackend.Data.Text
