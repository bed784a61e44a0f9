import DotBackend.Data.SubstitutionLaws
import Mathlib.Data.List.TakeWhile

/-!
# Delimiters that are taken off

A pair of marks is taken off around a content without the delimiter. A run between whitespace stays
whole when a pattern neither matches in it nor ends in it; for marks this can be told from the run
alone, with a mark before it or behind it. Where marks are taken off, the delimiter gets rarer.
-/

namespace DotBackend.Data.Text

/-! ## Pairs of marks -/

/-- What is between two marks: the longest text that is neither the delimiter nor a line break. -/
def isContent (delimiter c : Char) : Bool :=
  decide (c ≠ delimiter ∧ c ≠ '\n')

/-- A match is a mark, a content and the mark again. -/
theorem unwrap_eq_some_iff {count : Nat} {delimiter : Char} {before : Option Char}
    {text content : List Char} {length : Nat} :
    unwrap (List.replicate (count + 1) delimiter) delimiter before text = some (length, content) ↔
      ∃ more, text = List.replicate (count + 1) delimiter ++ (content ++
          (List.replicate (count + 1) delimiter ++ more)) ∧
        content ≠ [] ∧ (∀ c ∈ content, isContent delimiter c = true) ∧
        length = count + 1 + content.length + (count + 1) := by
  have sameContent : (fun c => decide (c ≠ delimiter ∧ c ≠ '\n')) = isContent delimiter := rfl
  rw [unwrap, sameContent]
  constructor
  · intro found
    split at found
    · rename_i opens
      simp only at found
      split at found
      · rename_i closes
        cases found
        rcases List.isPrefixOf_iff_prefix.mp opens with ⟨behind, rfl⟩
        rw [List.drop_left] at closes ⊢
        have whole := takeWhile_append_drop (isContent delimiter) behind
        rcases List.isPrefixOf_iff_prefix.mp closes.2 with ⟨more, isMore⟩
        refine ⟨more, ?_, closes.1, ?_, ?_⟩
        · rw [isMore, whole]
        · intro c cMem
          exact List.mem_takeWhile_imp cMem
        · simp
      · cases found
    · cases found
  · rintro ⟨more, rfl, hasContent, allContent, rfl⟩
    have isContentRun : (content ++ (List.replicate (count + 1) delimiter ++ more)).takeWhile
        (isContent delimiter) = content := by
      rw [List.takeWhile_append_of_pos allContent, List.replicate_succ, List.cons_append,
        List.takeWhile_cons_of_neg (by simp [isContent]), List.append_nil]
    have opens : (List.replicate (count + 1) delimiter).isPrefixOf
        (List.replicate (count + 1) delimiter ++ (content ++
          (List.replicate (count + 1) delimiter ++ more))) = true :=
      List.isPrefixOf_iff_prefix.mpr (List.prefix_append _ _)
    have closes : (List.replicate (count + 1) delimiter).isPrefixOf
        (List.replicate (count + 1) delimiter ++ more) = true :=
      List.isPrefixOf_iff_prefix.mpr (List.prefix_append _ _)
    simp only [opens, if_true, List.drop_left, isContentRun, closes, and_true, ne_eq, hasContent,
      not_false_eq_true]
    rw [List.length_replicate]

/-! ## Runs that a pattern spares -/

/-- A text ends in whitespace, or is empty. -/
def EndsBlank (text : List Char) : Prop :=
  ∀ c, text.getLast? = some c → isSolid c = false

/-- A text starts with whitespace, or is empty. -/
def StartsBlank (text : List Char) : Prop :=
  ∀ c, text.head? = some c → isSolid c = false

theorem endsBlank_append {first last : List Char} (hasLast : last ≠ []) (ends : EndsBlank last) :
    EndsBlank (first ++ last) := by
  intro c isLast
  rw [List.getLast?_append_of_ne_nil first hasLast] at isLast
  exact ends c isLast

theorem EndsBlank.of_append {first last : List Char} (hasLast : last ≠ [])
    (ends : EndsBlank (first ++ last)) : EndsBlank last := by
  intro c isLast
  apply ends c
  rw [List.getLast?_append_of_ne_nil first hasLast]
  exact isLast

theorem EndsBlank.of_suffix {first left : List Char} (ends : EndsBlank left)
    (isSuffix : first <:+ left) : EndsBlank first := by
  rcases isSuffix with ⟨dropped, rfl⟩
  by_cases noFirst : first = []
  · intro c isLast
    rw [noFirst] at isLast
    cases isLast
  · exact ends.of_append noFirst

theorem StartsBlank.of_prefix {last right : List Char} (starts : StartsBlank right)
    (isPrefix : last <+: right) : StartsBlank last := by
  rcases isPrefix with ⟨dropped, rfl⟩
  intro c isHead
  apply starts c
  cases last with
  | nil => cases isHead
  | cons d last => exact isHead

/-- A pattern spares a run between two texts: it matches nowhere in the run, and where it matches
before the run, the match ends before it as well, or its replacement has the whole run, between
whitespace. -/
structure Spares (pattern : Pattern) (left run right : List Char) : Prop where
  blank : ∀ before c rest, isSolid c = false → pattern before (c :: rest) = none
  inside : ∀ before passed rest, run = passed ++ rest → rest ≠ [] →
    pattern (beforeAfter before passed) (rest ++ right) = none
  across : ∀ before passed rest length replacement, left = passed ++ rest → rest ≠ [] →
    pattern before (rest ++ (run ++ right)) = some (length, replacement) →
    length < rest.length ∨ ∃ first last, replacement = first ++ (run ++ last) ∧ first ≠ [] ∧
      EndsBlank first ∧ last ≠ [] ∧ StartsBlank last

section Spared

variable {pattern : Pattern} {left run right : List Char}

theorem startsBlank_substituteFrom
    (blank : ∀ before c rest, isSolid c = false → pattern before (c :: rest) = none)
    (starts : StartsBlank right) (before : Option Char) :
    StartsBlank (substituteFrom pattern 0 before right) := by
  cases right with
  | nil =>
      rw [substituteFrom_nil]
      exact starts
  | cons c rest =>
      rw [substituteFrom_of_none (blank before c rest (starts c rfl))]
      exact starts

theorem Spares.substituteFrom_run (spares : Spares pattern left run right) (before : Option Char) :
    substituteFrom pattern 0 before (run ++ right) =
      run ++ substituteFrom pattern 0 (beforeAfter before run) right := by
  apply substituteFrom_of_noMatch
  intro passed rest whole hasRest
  exact spares.inside before passed rest whole hasRest

/-- A run that is spared is still there after the substitution, between whitespace. -/
theorem Spares.substituteFrom (spares : Spares pattern left run right) (proper : Proper pattern)
    (ends : EndsBlank left) (starts : StartsBlank right) (before : Option Char) :
    ∃ first last, substituteFrom pattern 0 before (left ++ (run ++ right)) =
        first ++ (run ++ last) ∧ EndsBlank first ∧ StartsBlank last := by
  suffices fromSuffix : ∀ size rest passed, rest.length = size → left = passed ++ rest →
      ∀ before, ∃ first last, Text.substituteFrom pattern 0 before (rest ++ (run ++ right)) =
        first ++ (run ++ last) ∧ (rest ≠ [] → first ≠ []) ∧ EndsBlank first ∧
          StartsBlank last by
    rcases fromSuffix left.length left [] rfl rfl before with ⟨first, last, same, _, blank⟩
    exact ⟨first, last, same, blank⟩
  intro size
  induction size using Nat.strongRecOn with
  | ind size ih =>
      intro rest passed isSize whole before
      by_cases noRest : rest = []
      · rw [noRest, List.nil_append, spares.substituteFrom_run]
        refine ⟨[], _, rfl, fun hasRest => absurd rfl hasRest, ?_, ?_⟩
        · intro c isLast
          cases isLast
        · exact startsBlank_substituteFrom spares.blank starts _
      · have restEnds : EndsBlank rest := by
          rw [whole] at ends
          exact ends.of_append noRest
        rcases substituteFrom_cases proper before (rest ++ (run ++ right)) with
          isEmpty | ⟨matched, behind, replacement, split, _, found, replaced⟩ |
            ⟨c, behind, split, found, kept⟩
        · exact absurd (List.append_eq_nil_iff.mp isEmpty).1 noRest
        · rcases spares.across before passed rest _ replacement whole noRest found with
            shorter | ⟨first, last, rfl, hasFirst, firstEnds, hasLast, lastStarts⟩
          · -- The match ends before the run.
            have isPrefix : matched <+: rest := by
              apply List.prefix_of_prefix_length_le _ (List.prefix_append rest (run ++ right))
                (Nat.le_of_lt shorter)
              rw [split]
              exact List.prefix_append matched behind
            rcases isPrefix with ⟨later, rfl⟩
            have hasLater : later ≠ [] := by
              rintro rfl
              rw [List.append_nil] at shorter
              exact absurd shorter (Nat.lt_irrefl _)
            have sameBehind : behind = later ++ (run ++ right) := by
              rw [List.append_assoc] at split
              exact (List.append_cancel_left split).symm
            have smaller : later.length < size := by
              have positive := (proper _ _ _ _ found).1
              rw [← isSize, List.length_append]
              omega
            rcases ih later.length smaller later (passed ++ matched) rfl
                (by rw [whole, List.append_assoc]) (beforeAfter before matched) with
              ⟨first, last, same, hasFirst, firstEnds, lastStarts⟩
            refine ⟨replacement ++ first, last, ?_, ?_, ?_, lastStarts⟩
            · rw [replaced, sameBehind, same, List.append_assoc]
            · intro _
              exact List.append_ne_nil_of_right_ne_nil replacement (hasFirst hasLater)
            · exact endsBlank_append (hasFirst hasLater) firstEnds
          · -- The run is in the replacement.
            refine ⟨first,
              last ++ Text.substituteFrom pattern 0 (beforeAfter before matched) behind, ?_, fun _ => hasFirst, firstEnds, ?_⟩
            · rw [replaced]
              simp only [List.append_assoc]
            · intro c isHead
              rw [List.head?_append_of_ne_nil last hasLast] at isHead
              exact lastStarts c isHead
        · cases rest with
          | nil => exact absurd rfl noRest
          | cons d rest =>
              rw [List.cons_append, List.cons.injEq] at split
              rcases split with ⟨rfl, rfl⟩
              have smaller : rest.length < size := by
                rw [← isSize, List.length_cons]
                omega
              rcases ih rest.length smaller rest (passed ++ [d]) rfl
                  (by rw [whole, List.append_assoc]; rfl) (some d) with
                ⟨first, last, same, hasFirst, firstEnds, lastStarts⟩
              refine ⟨d :: first, last, ?_, fun _ => List.cons_ne_nil d first, ?_, lastStarts⟩
              · rw [kept, same, List.cons_append]
              · cases first with
                | nil =>
                    have noMore : rest = [] := by
                      by_contra hasMore
                      exact hasFirst hasMore rfl
                    rw [noMore] at restEnds
                    exact restEnds
                | cons e others =>
                    have longer : EndsBlank ([d] ++ e :: others) :=
                      endsBlank_append (List.cons_ne_nil e others) firstEnds
                    exact longer

end Spared

/-- A pattern avoids a run: it matches nowhere in it, and ends before it where it matches before
it. -/
structure Avoids (pattern : Pattern) (run : List Char) : Prop where
  inside : ∀ before passed rest right, run = passed ++ rest → rest ≠ [] →
    pattern (beforeAfter before passed) (rest ++ right) = none
  across : ∀ before rest right length replacement, rest ≠ [] →
    pattern before (rest ++ (run ++ right)) = some (length, replacement) → length ≤ rest.length

/-- A run that is avoided is still there after the substitution. -/
theorem Avoids.infix_substituteFrom {pattern : Pattern} {run : List Char}
    (avoids : Avoids pattern run) (proper : Proper pattern) (left right : List Char)
    (before : Option Char) :
    run <:+: substituteFrom pattern 0 before (left ++ (run ++ right)) := by
  generalize isSize : left.length = size
  induction size using Nat.strongRecOn generalizing left before with
  | ind size ih =>
      by_cases noLeft : left = []
      · rw [noLeft, List.nil_append, substituteFrom_of_noMatch]
        · exact ⟨[], _, rfl⟩
        · intro passed rest whole hasRest
          exact avoids.inside before passed rest right whole hasRest
      · rcases substituteFrom_cases proper before (left ++ (run ++ right)) with
          isEmpty | ⟨matched, behind, replacement, split, _, found, replaced⟩ |
            ⟨c, behind, split, _, kept⟩
        · exact absurd (List.append_eq_nil_iff.mp isEmpty).1 noLeft
        · have shorter := avoids.across before left right _ replacement noLeft found
          have isPrefix : matched <+: left := by
            apply List.prefix_of_prefix_length_le _ (List.prefix_append left (run ++ right)) shorter
            rw [split]
            exact List.prefix_append matched behind
          rcases isPrefix with ⟨later, rfl⟩
          rw [List.append_assoc] at split
          have smaller : later.length < size := by
            have positive := (proper _ _ _ _ found).1
            rw [← isSize, List.length_append]
            omega
          rw [replaced, ← List.append_cancel_left split]
          exact (ih later.length smaller later _ rfl).trans
            (List.suffix_append replacement _).isInfix
        · cases left with
          | nil => exact absurd rfl noLeft
          | cons d left =>
              rw [List.cons_append, List.cons.injEq] at split
              have smaller : left.length < size := by
                rw [← isSize, List.length_cons]
                omega
              rw [kept, ← split.2]
              exact (ih left.length smaller left (some c) rfl).trans
                (List.suffix_cons c _).isInfix

/-! ## Runs that pairs of marks spare -/

section Marks

variable {mark first last behind : List Char}

/-- A mark at the start of a text that ends in whitespace ends before it does. -/
theorem eq_append_of_endsBlank (solid : ∀ c ∈ mark, isSolid c = true) (hasFirst : first ≠ [])
    (ends : EndsBlank first) (same : first ++ last = mark ++ behind) :
    ∃ later, first = mark ++ later ∧ later ≠ [] ∧ later ++ last = behind := by
  rcases List.append_eq_append_iff.mp same with ⟨rest, isMark, _⟩ | ⟨later, isFirst, isBehind⟩
  · rcases List.eq_nil_or_concat first with rfl | ⟨others, c, rfl⟩
    · exact absurd rfl hasFirst
    · have blank := ends c (by simp)
      rw [solid c (by rw [isMark]; simp)] at blank
      cases blank
  · refine ⟨later, isFirst, ?_, isBehind.symm⟩
    rintro rfl
    rw [List.append_nil] at isFirst
    rcases List.eq_nil_or_concat first with rfl | ⟨others, c, rfl⟩
    · exact absurd rfl hasFirst
    · have blank := ends c (by simp)
      rw [solid c (by rw [← isFirst]; simp)] at blank
      cases blank

/-- A mark at the start of a run ends in it. -/
theorem eq_append_of_startsBlank (solid : ∀ c ∈ mark, isSolid c = true) (starts : StartsBlank last)
    (same : first ++ last = mark ++ behind) :
    ∃ later, first = mark ++ later ∧ later ++ last = behind := by
  rcases List.append_eq_append_iff.mp same with ⟨rest, isMark, isLast⟩ | ⟨later, isFirst, isBehind⟩
  · cases rest with
    | nil =>
        refine ⟨[], ?_, ?_⟩
        · rw [isMark, List.append_nil, List.append_nil]
        · rw [isLast, List.nil_append, List.nil_append]
    | cons c rest =>
        have blank := starts c (by rw [isLast]; rfl)
        rw [solid c (by rw [isMark]; simp)] at blank
        cases blank
  · exact ⟨later, isFirst, isBehind.symm⟩

end Marks

/-- No pair of marks has a mark of the run in it, whether the other one is in the run as well or
stands before it or behind it. -/
structure Unpaired (count : Nat) (delimiter : Char) (run : List Char) : Prop where
  before : NoMatch (unwrap (List.replicate (count + 1) delimiter) delimiter) none
    (List.replicate (count + 1) delimiter ++ ' ' :: run)
  behind : NoMatch (unwrap (List.replicate (count + 1) delimiter) delimiter) none
    (run ++ ' ' :: List.replicate (count + 1) delimiter)

section Unpaired

variable {count : Nat} {delimiter : Char} {run : List Char}

/-- No mark in the run closes a pair that a mark before it opens. -/
theorem Unpaired.not_closed (unpaired : Unpaired count delimiter run)
    (solid : isSolid delimiter = true) {content more : List Char}
    (allContent : ∀ c ∈ content, isContent delimiter c = true) :
    run ≠ content ++ (List.replicate (count + 1) delimiter ++ more) := by
  intro whole
  have noMatch := unpaired.before [] (List.replicate (count + 1) delimiter ++ ' ' :: run) rfl
    (by simp)
  have isMatch : unwrap (List.replicate (count + 1) delimiter) delimiter (beforeAfter none [])
      (List.replicate (count + 1) delimiter ++ ' ' :: run) =
        some (count + 1 + (' ' :: content).length + (count + 1), ' ' :: content) := by
    rw [unwrap_eq_some_iff]
    refine ⟨more, by rw [whole, List.cons_append], List.cons_ne_nil _ _, ?_, rfl⟩
    intro c cMem
    rcases List.mem_cons.mp cMem with rfl | later
    · rw [isContent, decide_eq_true_eq]
      refine ⟨?_, by decide⟩
      rintro rfl
      exact absurd solid (by decide)
    · exact allContent c later
  rw [isMatch] at noMatch
  cases noMatch

/-- No mark in the run opens a pair that a mark behind it closes. -/
theorem Unpaired.not_opened (unpaired : Unpaired count delimiter run)
    (solid : isSolid delimiter = true) {passed content : List Char}
    (allContent : ∀ c ∈ content, isContent delimiter c = true) :
    run ≠ passed ++ (List.replicate (count + 1) delimiter ++ content) := by
  intro whole
  have noMatch := unpaired.behind passed
    (List.replicate (count + 1) delimiter ++ ((content ++ [' ']) ++
      (List.replicate (count + 1) delimiter ++ []))) (by rw [whole]; simp) (by simp)
  have isMatch : unwrap (List.replicate (count + 1) delimiter) delimiter (beforeAfter none passed)
      (List.replicate (count + 1) delimiter ++ ((content ++ [' ']) ++
        (List.replicate (count + 1) delimiter ++ []))) =
        some (count + 1 + (content ++ [' ']).length + (count + 1), content ++ [' ']) := by
    rw [unwrap_eq_some_iff]
    refine ⟨[], rfl, by simp, ?_, rfl⟩
    intro c cMem
    rcases List.mem_append.mp cMem with earlier | isLast
    · exact allContent c earlier
    · rw [List.mem_singleton.mp isLast, isContent, decide_eq_true_eq]
      refine ⟨?_, by decide⟩
      rintro rfl
      exact absurd solid (by decide)
  rw [isMatch] at noMatch
  cases noMatch

/-- No pair of marks is in the run. -/
theorem Unpaired.not_inside (unpaired : Unpaired count delimiter run)
    {passed content more : List Char} (hasContent : content ≠ [])
    (allContent : ∀ c ∈ content, isContent delimiter c = true) :
    run ≠ passed ++ (List.replicate (count + 1) delimiter ++ (content ++
      (List.replicate (count + 1) delimiter ++ more))) := by
  intro whole
  have noMatch := unpaired.behind passed
    (List.replicate (count + 1) delimiter ++ (content ++
      (List.replicate (count + 1) delimiter ++
        (more ++ ' ' :: List.replicate (count + 1) delimiter))))
    (by rw [whole]; simp) (by simp)
  have isMatch : unwrap (List.replicate (count + 1) delimiter) delimiter (beforeAfter none passed)
      (List.replicate (count + 1) delimiter ++ (content ++
        (List.replicate (count + 1) delimiter ++
          (more ++ ' ' :: List.replicate (count + 1) delimiter)))) =
        some (count + 1 + content.length + (count + 1), content) := by
    rw [unwrap_eq_some_iff]
    exact ⟨_, rfl, hasContent, allContent, rfl⟩
  rw [isMatch] at noMatch
  cases noMatch

/-- A pair of marks has so many delimiters. -/
theorem le_count_of_unwrap {before : Option Char} {text content : List Char} {length : Nat}
    (found : unwrap (List.replicate (count + 1) delimiter) delimiter before text =
      some (length, content)) : 2 * (count + 1) ≤ text.count delimiter := by
  rcases unwrap_eq_some_iff.mp found with ⟨more, rfl, _⟩
  simp only [List.count_append, List.count_replicate_self]
  omega

/-- A text with fewer delimiters than a pair of marks has none. -/
theorem noMatch_of_count {text : List Char} (few : text.count delimiter < 2 * (count + 1)) :
    NoMatch (unwrap (List.replicate (count + 1) delimiter) delimiter) none text := by
  intro passed rest whole _
  cases found : unwrap (List.replicate (count + 1) delimiter) delimiter
      (beforeAfter none passed) rest with
  | none => rfl
  | some result =>
      rcases result with ⟨length, content⟩
      have enough := le_count_of_unwrap found
      rw [whole, List.count_append] at few
      omega

/-- A run with fewer delimiters than a mark is unpaired. -/
theorem unpaired_of_count (solid : isSolid delimiter = true)
    (few : run.count delimiter < count + 1) : Unpaired count delimiter run := by
  have noBlank : ' ' ≠ delimiter := by
    rintro rfl
    exact absurd solid (by decide)
  constructor
  · apply noMatch_of_count
    rw [List.count_append, List.count_replicate_self, List.count_cons_of_ne noBlank]
    omega
  · apply noMatch_of_count
    rw [List.count_append, List.count_cons_of_ne noBlank, List.count_replicate_self]
    omega

theorem unpaired_of_not_mem (solid : isSolid delimiter = true) (notMem : delimiter ∉ run) :
    Unpaired count delimiter run := by
  apply unpaired_of_count solid
  rw [List.count_eq_zero_of_not_mem notMem]
  exact Nat.succ_pos count

/-- A pattern that takes off pairs of marks spares a run that is unpaired. -/
theorem Unpaired.spares (unpaired : Unpaired count delimiter run)
    (solid : isSolid delimiter = true) (hasRun : run ≠ []) {pattern : Pattern}
    (unwraps : ∀ before text length content, pattern before text = some (length, content) →
      unwrap (List.replicate (count + 1) delimiter) delimiter before text = some (length, content))
    {left right : List Char} (ends : EndsBlank left) (starts : StartsBlank right) :
    Spares pattern left run right := by
  have solidMark : ∀ c ∈ List.replicate (count + 1) delimiter, isSolid c = true := by
    intro c cMem
    rw [List.eq_of_mem_replicate cMem]
    exact solid
  constructor
  · intro before c rest blank
    cases found : pattern before (c :: rest) with
    | none => rfl
    | some result =>
        rcases unwrap_eq_some_iff.mp (unwraps _ _ result.1 result.2 found) with ⟨more, same, _⟩
        rw [List.replicate_succ, List.cons_append, List.cons.injEq] at same
        rw [same.1, solid] at blank
        cases blank
  · intro before passed rest whole hasRest
    cases found : pattern (beforeAfter before passed) (rest ++ right) with
    | none => rfl
    | some result =>
        rcases unwrap_eq_some_iff.mp (unwraps _ _ result.1 result.2 found) with
          ⟨more, same, hasContent, allContent, _⟩
        exfalso
        rcases eq_append_of_startsBlank solidMark starts same with ⟨opened, rfl, isOpened⟩
        rcases List.append_eq_append_iff.mp isOpened with
          ⟨others, contentIs, _⟩ | ⟨closing, isClosing, isBehind⟩
        · -- The content goes on behind the run.
          have openedContent : ∀ c ∈ opened, isContent delimiter c = true := by
            intro c cMem
            exact allContent c (by rw [contentIs]; exact List.mem_append_left _ cMem)
          exact unpaired.not_opened solid openedContent whole
        · rcases eq_append_of_startsBlank solidMark starts isBehind.symm with ⟨later, rfl, _⟩
          rw [isClosing] at whole
          exact unpaired.not_inside hasContent allContent whole
  · intro before passed rest length replacement whole hasRest found
    rcases unwrap_eq_some_iff.mp (unwraps _ _ length replacement found) with
      ⟨more, same, hasContent, allContent, rfl⟩
    have restEnds : EndsBlank rest := by
      rw [whole] at ends
      exact ends.of_append hasRest
    rcases eq_append_of_endsBlank solidMark hasRest restEnds same with
      ⟨opened, rfl, hasOpened, isOpened⟩
    have openedEnds := restEnds.of_append hasOpened
    rcases List.append_eq_append_iff.mp isOpened with
      ⟨others, contentIs, isOthers⟩ | ⟨closing, isClosing, isBehind⟩
    · apply Or.inr
      rcases List.append_eq_append_iff.mp isOthers with
        ⟨beyond, isOther, isRight⟩ | ⟨unread, isRun, isMore⟩
      · -- The content has the whole run, and goes on behind it.
        refine ⟨opened, beyond, by rw [contentIs, isOther], hasOpened, openedEnds, ?_, ?_⟩
        · rintro rfl
          have blank := starts delimiter (by rw [isRight, List.replicate_succ]; rfl)
          rw [solid] at blank
          cases blank
        · intro c isHead
          apply starts c
          rw [isRight]
          cases beyond with
          | nil => cases isHead
          | cons d beyond => exact isHead
      · -- The run would close the pair.
        exfalso
        rcases eq_append_of_startsBlank solidMark starts isMore.symm with ⟨later, rfl, _⟩
        have othersContent : ∀ c ∈ others, isContent delimiter c = true := by
          intro c cMem
          exact allContent c (by rw [contentIs]; exact List.mem_append_right _ cMem)
        exact unpaired.not_closed solid othersContent isRun
    · -- The match ends before the run.
      apply Or.inl
      cases closing with
      | nil =>
          exfalso
          rcases eq_append_of_startsBlank solidMark starts isBehind.symm with ⟨later, rfl, _⟩
          have nothing : ∀ c ∈ ([] : List Char), isContent delimiter c = true := by simp
          exact unpaired.not_closed solid nothing rfl
      | cons d closing =>
          have closingEnds : EndsBlank (d :: closing) := by
            rw [isClosing] at openedEnds
            exact openedEnds.of_append (List.cons_ne_nil d closing)
          rcases eq_append_of_endsBlank solidMark (List.cons_ne_nil d closing) closingEnds
            isBehind.symm with ⟨later, isLater, hasLater, _⟩
          have positive := List.length_pos_iff.mpr hasLater
          rw [isClosing, isLater]
          simp only [List.length_append, List.length_replicate]
          omega

end Unpaired

/-! ## Rarer characters -/

/-- A character that no replacement has more often than its match does not get more frequent. -/
theorem count_substituteFrom_le {pattern : Pattern} (proper : Proper pattern) {c : Char}
    (rarer : ∀ before matched rest replacement,
      pattern before (matched ++ rest) = some (matched.length, replacement) →
      replacement.count c ≤ matched.count c) (before : Option Char) (text : List Char) :
    (substituteFrom pattern 0 before text).count c ≤ text.count c := by
  induction before, text using substitute_induction proper with
  | nil before => rw [substituteFrom_nil]
  | replaced before matched rest replacement _ found ih =>
      rw [substituteFrom_of_match proper found, List.count_append, List.count_append]
      exact Nat.add_le_add (rarer before matched rest replacement found) ih
  | kept before d rest found ih =>
      rw [substituteFrom_of_none found, List.count_cons, List.count_cons]
      exact Nat.add_le_add_right ih _

section Unwraps

variable {count : Nat} {delimiter : Char} {pattern : Pattern}
  (unwraps : ∀ before text length content, pattern before text = some (length, content) →
    unwrap (List.replicate (count + 1) delimiter) delimiter before text = some (length, content))

include unwraps

theorem matched_of_unwraps {before : Option Char} {matched rest content : List Char}
    (found : pattern before (matched ++ rest) = some (matched.length, content)) :
    matched = List.replicate (count + 1) delimiter ++ (content ++
      List.replicate (count + 1) delimiter) := by
  rcases unwrap_eq_some_iff.mp (unwraps _ _ _ content found) with ⟨more, same, _, _, isLength⟩
  have regrouped : matched ++ rest = (List.replicate (count + 1) delimiter ++ (content ++
      List.replicate (count + 1) delimiter)) ++ more := by
    rw [same]
    simp only [List.append_assoc]
  apply (List.append_inj regrouped _).1
  rw [isLength]
  simp only [List.length_append, List.length_replicate]
  omega

theorem count_substituteFrom_unwraps (proper : Proper pattern) (c : Char) (before : Option Char)
    (text : List Char) : (substituteFrom pattern 0 before text).count c ≤ text.count c := by
  apply count_substituteFrom_le proper
  intro before matched rest content found
  rw [matched_of_unwraps unwraps found, List.count_append, List.count_append]
  omega

/-- A text in which a pair of marks is taken off has fewer delimiters afterwards. -/
theorem delimiters_substituteFrom (proper : Proper pattern) (before : Option Char)
    (text : List Char) :
    substituteFrom pattern 0 before text = text ∨
      (substituteFrom pattern 0 before text).count delimiter + 2 * (count + 1) ≤
        text.count delimiter := by
  induction before, text using substitute_induction proper with
  | nil before => exact Or.inl (substituteFrom_nil 0 before)
  | replaced before matched rest content _ found _ =>
      apply Or.inr
      have later := count_substituteFrom_unwraps unwraps proper delimiter
        (beforeAfter before matched) rest
      have isMatched := matched_of_unwraps unwraps found
      rw [substituteFrom_of_match proper found, List.count_append, List.count_append]
      rw [isMatched] at later ⊢
      simp only [List.count_append, List.count_replicate_self] at later ⊢
      omega
  | kept before c rest found ih =>
      rw [substituteFrom_of_none found]
      rcases ih with same | fewer
      · exact Or.inl (by rw [same])
      · apply Or.inr
        rw [List.count_cons, List.count_cons]
        omega

end Unwraps

end DotBackend.Data.Text
