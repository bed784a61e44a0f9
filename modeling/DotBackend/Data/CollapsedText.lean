import DotBackend.Data.CleanText

/-!
# Collapsed texts

A text in which every run of other characters was replaced by one mark, and then trimmed.
The result depends on which characters are kept and where the runs are, not on what the runs
consist of.
-/

namespace DotBackend.Data.Text

variable {keep : Char → Bool} {mark c : Char} {inRun : Bool} {text : List Char}

/-! ## Collapsing -/

theorem length_collapse_le (keep : Char → Bool) (mark : Char) (inRun : Bool) (text : List Char) :
    (collapse keep mark inRun text).length ≤ text.length := by
  induction text generalizing inRun with
  | nil => exact Nat.le_refl 0
  | cons c rest ih =>
      rw [collapse]
      split
      · exact Nat.succ_le_succ (ih false)
      · split
        · exact Nat.le_succ_of_le (ih true)
        · exact Nat.succ_le_succ (ih true)

theorem collapse_eq_self (keeps : ∀ c ∈ text, keep c = true) :
    collapse keep mark inRun text = text := by
  induction text generalizing inRun with
  | nil => rfl
  | cons c rest ih =>
      obtain ⟨first, others⟩ := List.forall_mem_cons.mp keeps
      rw [collapse, if_pos first, ih others]

/-- The characters of a collapsed text. -/
theorem mem_collapse (collapsed : c ∈ collapse keep mark inRun text) :
    c = mark ∨ c ∈ text ∧ keep c = true := by
  induction text generalizing inRun with
  | nil => cases collapsed
  | cons first rest ih =>
      have later : c = mark ∨ c ∈ rest ∧ keep c = true →
          c = mark ∨ c ∈ first :: rest ∧ keep c = true := by
        rintro (isMark | ⟨inRest, kept⟩)
        · exact Or.inl isMark
        · exact Or.inr ⟨List.mem_cons_of_mem first inRest, kept⟩
      rw [collapse] at collapsed
      split at collapsed
      · rename_i kept
        rcases List.mem_cons.mp collapsed with rfl | inRest
        · exact Or.inr ⟨List.mem_cons_self, kept⟩
        · exact later (ih inRest)
      · split at collapsed
        · exact later (ih collapsed)
        · rcases List.mem_cons.mp collapsed with isMark | inRest
          · exact Or.inl isMark
          · exact later (ih inRest)

theorem mem_collapse_of_keep (kept : keep c = true) (cMem : c ∈ text) :
    c ∈ collapse keep mark inRun text := by
  induction text generalizing inRun with
  | nil => cases cMem
  | cons first rest ih =>
      rw [collapse]
      rcases List.mem_cons.mp cMem with rfl | inRest
      · rw [if_pos kept]
        exact List.mem_cons_self
      · split
        · exact List.mem_cons_of_mem first (ih inRest)
        · split
          · exact ih inRest
          · exact List.mem_cons_of_mem mark (ih inRest)

/-- Characters that are not kept may be replaced by others. -/
theorem collapse_map {change : Char → Char} (agrees : ∀ c ∈ text, keep (change c) = keep c)
    (fixes : ∀ c ∈ text, keep c = true → change c = c) :
    collapse keep mark inRun (text.map change) = collapse keep mark inRun text := by
  induction text generalizing inRun with
  | nil => rfl
  | cons c rest ih =>
      obtain ⟨first, others⟩ := List.forall_mem_cons.mp agrees
      obtain ⟨firstFixed, othersFixed⟩ := List.forall_mem_cons.mp fixes
      have later := fun inRun => @ih inRun others othersFixed
      rw [List.map_cons, collapse, collapse, first, later, later]
      split
      · rename_i kept
        rw [firstFixed kept]
      · rfl

/-- Another mark. -/
theorem collapse_eq_map {other : Char → Bool} {change : Char → Char}
    (agrees : ∀ c ∈ text, other c = keep c) (fixes : ∀ c ∈ text, keep c = true → change c = c) :
    collapse other (change mark) inRun text = (collapse keep mark inRun text).map change := by
  induction text generalizing inRun with
  | nil => rfl
  | cons c rest ih =>
      obtain ⟨first, others⟩ := List.forall_mem_cons.mp agrees
      obtain ⟨firstFixed, othersFixed⟩ := List.forall_mem_cons.mp fixes
      have later := fun inRun => @ih inRun others othersFixed
      rw [collapse, collapse, first, later, later]
      split
      · rename_i kept
        rw [List.map_cons, firstFixed kept]
      · split
        · rfl
        · rfl

/-! ## Trimming -/

theorem trim_map {drop other : Char → Bool} {change : Char → Char}
    (agrees : ∀ c, other (change c) = drop c) (text : List Char) :
    trim other (text.map change) = (trim drop text).map change := by
  have sameDrop : other ∘ change = drop := funext agrees
  rw [trim, trim, List.dropWhile_map, sameDrop, ← List.map_reverse, List.dropWhile_map, sameDrop,
    List.map_reverse]

theorem mem_of_mem_trim {drop : Char → Bool} (trimmed : c ∈ trim drop text) : c ∈ text :=
  ( trim_infix drop text).subset trimmed

/-- A character that is not dropped stays. -/
theorem mem_trim {drop : Char → Bool} (cMem : c ∈ text) (kept : drop c = false) :
    c ∈ trim drop text := by
  have stays : ∀ chars : List Char, c ∈ chars → c ∈ chars.dropWhile drop := by
    intro chars inChars
    rw [← List.takeWhile_append_dropWhile (p := drop) (l := chars)] at inChars
    rcases List.mem_append.mp inChars with dropped | left
    · have isDropped := List.mem_takeWhile_imp dropped
      rw [kept] at isDropped
      cases isDropped
    · exact left
  rw [trim, List.mem_reverse]
  apply stays
  rw [List.mem_reverse]
  exact stays text cMem

/-! ## Single words -/

/-- A text without whitespace is one word. -/
theorem singleSpaced_eq_self (solid : ∀ c ∈ text, isSpace c = false) : singleSpaced text = text := by
  have oneWord : ∀ word rest : List Char, (∀ c ∈ rest, isSpace c = false) →
      wordsFrom word rest =
        if (word.reverse ++ rest).isEmpty then [] else [word.reverse ++ rest] := by
    intro word rest allSolid
    induction rest generalizing word with
    | nil => cases word <;> simp [wordsFrom]
    | cons c rest ih =>
        obtain ⟨first, others⟩ := List.forall_mem_cons.mp allSolid
        rw [wordsFrom, first, if_neg Bool.false_ne_true, ih (c :: word) others]
        simp
  rw [singleSpaced, words, oneWord [] text solid]
  cases text with
  | nil => rfl
  | cons c rest => simp [List.intercalate]

end DotBackend.Data.Text
