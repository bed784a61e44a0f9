import DotBackend.Agents.TextStyle
import DotBackend.Data.SubstitutionLaws

/-!
# Cleaned texts

Cleaning takes off the markup of a text once, pattern after pattern, so that what one pattern
uncovers for an earlier one stays: a quote in a quote, or a heading in a quote. Each time that
cleaning changes a text it makes it shorter, so that cleaning again and again comes to a text in
which no pattern matches, and such a text is left as it is.
-/

namespace DotBackend.Agents

open Data Data.Text

/-! ## The patterns shorten -/

theorem shrinking_unwrap {mark : List Char} (hasMark : mark ≠ []) (delimiter : Char) :
    Shrinking (unwrap mark delimiter) := by
  intro before text length replacement found
  have positive : 0 < mark.length := List.length_pos_iff.mpr hasMark
  rw [unwrap] at found
  split at found
  · rename_i opens
    simp only at found
    split at found
    · rename_i closes
      cases found
      have opened := (List.isPrefixOf_iff_prefix.mp opens).length_le
      have closed := (List.isPrefixOf_iff_prefix.mp closes.2).length_le
      have content := (List.takeWhile_prefix (fun c => decide (c ≠ delimiter ∧ c ≠ '\n'))
        (l := text.drop mark.length)).length_le
      rw [List.length_drop, List.length_drop] at closed
      rw [List.length_drop] at content
      constructor
      · omega
      · omega
    · cases found
  · cases found

theorem shrinking_emphasisAsterisk : Shrinking emphasisAsterisk := by
  intro before text length replacement found
  rw [emphasisAsterisk] at found
  split at found
  · rename_i unwrapped
    split at found
    · cases found
    · cases found
      exact shrinking_unwrap (by decide) '*' before text length replacement unwrapped
  · cases found

theorem shrinking_heading : Shrinking heading := by
  intro before text length replacement found
  unfold heading at found
  simp only at found
  split at found
  · rename_i isHeading
    cases found
    have marks := (List.takeWhile_prefix (fun c => c == '#') (l := text)).length_le
    have blank := (List.takeWhile_prefix isSpace
      (l := text.drop (text.takeWhile fun c => c == '#').length)).length_le
    rw [List.length_drop] at blank
    constructor
    · exact Nat.lt_of_lt_of_le (Nat.lt_of_lt_of_le Nat.one_pos isHeading.2.1) (Nat.le_add_right _ _)
    · omega
  · cases found

theorem shrinking_blockquote : Shrinking blockquote := by
  intro before text length replacement found
  unfold blockquote at found
  split at found
  · rename_i rest
    split at found
    · cases found
      cases rest with
      | nil => simp
      | cons c rest =>
          rw [List.head?_cons, Option.any_some, List.length_cons, List.length_cons]
          split
          · exact ⟨by decide, by omega⟩
          · exact ⟨by decide, by omega⟩
    · cases found
  · cases found

theorem shrinking_spacedDash : Shrinking spacedDash := by
  intro before text length replacement found
  unfold spacedDash at found
  simp only at found
  split at found
  · rename_i rest isDash
    split at found
    · rename_i spaced
      cases found
      have left := List.length_pos_iff.mpr spaced.1
      have right := List.length_pos_iff.mpr spaced.2
      have behind := congrArg List.length isDash
      rw [List.length_drop, List.length_cons] at behind
      have blank := (List.takeWhile_prefix isSpace (l := rest)).length_le
      constructor
      · change 2 < _
        omega
      · omega
    · cases found
  · cases found

theorem shrinking_markdownLink : Shrinking markdownLink := by
  intro before text length replacement found
  unfold markdownLink at found
  split at found
  · rename_i rest
    simp only at found
    split at found
    · rename_i target isTarget
      split at found
      · rename_i isLink
        cases found
        have closed : 0 < (target.drop (target.takeWhile fun c =>
            decide (c ≠ ')' ∧ ¬ isSpace c = true)).length).length := by
          cases behind : target.drop (target.takeWhile fun c =>
              decide (c ≠ ')' ∧ ¬ isSpace c = true)).length with
          | nil =>
              have closes := isLink.2.2
              rw [behind] at closes
              cases closes
          | cons c others => exact Nat.succ_pos others.length
        have opened := congrArg List.length isTarget
        rw [List.length_drop, List.length_cons, List.length_cons] at opened
        rw [List.length_drop] at closed
        rw [List.length_append, List.length_append, List.length_cons]
        constructor
        · change _ + 2 + _ < _
          omega
        · omega
      · cases found
    · cases found
  · cases found

/-! ## Cleaning -/

/-- The patterns of the markup that cleaning takes off, in its order. -/
def markup : List Pattern :=
  [markdownLink, strongAsterisk, strongUnderscore, strikethrough, inlineCode, emphasisAsterisk,
    heading, spacedDash, blockquote]

theorem shrinking_markup : ∀ pattern ∈ markup, Shrinking pattern := by
  intro pattern patternMem
  simp only [markup, List.mem_cons, List.not_mem_nil, or_false] at patternMem
  rcases patternMem with rfl | rfl | rfl | rfl | rfl | rfl | rfl | rfl | rfl
  · exact shrinking_markdownLink
  · exact shrinking_unwrap (by decide) '*'
  · exact shrinking_unwrap (by decide) '_'
  · exact shrinking_unwrap (by decide) '~'
  · exact shrinking_unwrap (by decide) _
  · exact shrinking_emphasisAsterisk
  · exact shrinking_heading
  · exact shrinking_spacedDash
  · exact shrinking_blockquote

/-- What cleaning does, one after the other. -/
def cleaningPasses : List (List Char → List Char) :=
  strip :: (markup.map substitute ++ [strip])

theorem plainTextBubble_eq_passes (text : List Char) :
    plainTextBubble text = passes cleaningPasses text := by
  simp only [plainTextBubble, passes, cleaningPasses, markup, List.map_cons, List.map_nil,
    List.cons_append, List.nil_append, List.foldl_cons, List.foldl_nil]

theorem shortens_cleaningPasses : ∀ change ∈ cleaningPasses, Shortens change := by
  intro change changeMem
  rcases List.mem_cons.mp changeMem with rfl | later
  · exact shortens_strip
  · rcases List.mem_append.mp later with isSubstitution | isStrip
    · rcases List.mem_map.mp isSubstitution with ⟨pattern, patternMem, rfl⟩
      exact shortens_substitute (shrinking_markup pattern patternMem)
    · rw [List.mem_singleton.mp isStrip]
      exact shortens_strip

/-- A text that has nothing of what cleaning takes off, at any place. -/
structure IsPlain (text : List Char) : Prop where
  stripped : strip text = text
  unmarked : ∀ pattern ∈ markup, NoMatch pattern none text

/-- Cleaning leaves the plain texts, and no others. -/
theorem plainTextBubble_eq_self_iff {text : List Char} :
    plainTextBubble text = text ↔ IsPlain text := by
  rw [plainTextBubble_eq_passes, passes_eq_self_iff shortens_cleaningPasses]
  constructor
  · intro unchanged
    constructor
    · exact unchanged strip List.mem_cons_self
    · intro pattern patternMem
      rw [← substitute_eq_self_iff (shrinking_markup pattern patternMem)]
      apply unchanged
      apply List.mem_cons_of_mem
      exact List.mem_append_left _ (List.mem_map_of_mem patternMem)
  · rintro ⟨stripped, unmarked⟩ change changeMem
    rcases List.mem_cons.mp changeMem with rfl | later
    · exact stripped
    · rcases List.mem_append.mp later with isSubstitution | isStrip
      · rcases List.mem_map.mp isSubstitution with ⟨pattern, patternMem, rfl⟩
        exact (substitute_eq_self_iff (shrinking_markup pattern patternMem)).mpr
          (unmarked pattern patternMem)
      · rw [List.mem_singleton.mp isStrip]
        exact stripped

theorem shortens_plainTextBubble : Shortens plainTextBubble := by
  intro text
  rw [plainTextBubble_eq_passes]
  exact shortens_passes shortens_cleaningPasses text

/-- Cleaning a text again and again comes to a plain text, after no more times than the text has
characters, and stays there; once is enough exactly if it leaves nothing that it takes off. -/
theorem cleaning_reaches_plain (text : List Char) :
    (∃ n ≤ text.length, IsPlain (plainTextBubble^[n] text) ∧
      ∀ more, plainTextBubble^[n + more] text = plainTextBubble^[n] text) ∧
    (plainTextBubble (plainTextBubble text) = plainTextBubble text ↔
      IsPlain (plainTextBubble text)) ∧
    (IsPlain text → plainTextBubble text = text) ∧
    (plainTextBubble text ≠ text → (plainTextBubble text).length < text.length) := by
  refine ⟨?_, plainTextBubble_eq_self_iff, plainTextBubble_eq_self_iff.mpr, ?_⟩
  · rcases shortens_plainTextBubble.exists_fixed text with ⟨n, enough, fixed⟩
    refine ⟨n, enough, plainTextBubble_eq_self_iff.mp fixed, ?_⟩
    intro more
    rw [Nat.add_comm, Function.iterate_add_apply]
    exact Function.iterate_fixed fixed more
  · intro changed
    rcases shortens_plainTextBubble text with same | less
    · exact absurd same changed
    · exact less

/-- A quote in a quote is still a quote after cleaning. -/
theorem nested_quote_remains :
    plainTextBubble "> > x".toList = "> x".toList ∧
      plainTextBubble (plainTextBubble "> > x".toList) ≠ plainTextBubble "> > x".toList := by
  decide

end DotBackend.Agents
