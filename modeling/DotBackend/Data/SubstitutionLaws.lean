import DotBackend.Data.Substitution

/-!
# Laws of substitution

What a substitution does from a position on depends on the pattern there alone: either the pattern
matches, and its replacement stands for the match, or the character stays.
-/

namespace DotBackend.Data.Text

/-! ## Runs -/

/-- The characters of a run. -/
def isSolid (c : Char) : Bool :=
  !isSpace c

/-- A text is its longest start of a kind and what is behind that. -/
theorem takeWhile_append_drop (keep : Char → Bool) (text : List Char) :
    text.takeWhile keep ++ text.drop (text.takeWhile keep).length = text := by
  rcases List.takeWhile_prefix keep (l := text) with ⟨later, whole⟩
  have isLater : (text.takeWhile keep ++ later).drop (text.takeWhile keep).length = later :=
    List.drop_left
  rw [whole] at isLater
  rw [isLater, whole]

/-- A run with whitespace behind it is the first one. -/
theorem takeWhile_run {run after : List Char} (solid : ∀ c ∈ run, isSolid c = true)
    (ends : ∀ c, after.head? = some c → isSolid c = false) :
    (run ++ after).takeWhile isSolid = run := by
  rw [List.takeWhile_append_of_pos solid]
  cases after with
  | nil => rw [List.takeWhile_nil, List.append_nil]
  | cons c after => rw [List.takeWhile_cons_of_neg (by simp [ends c rfl]), List.append_nil]

variable {pattern : Pattern}

/-! ## One position -/

/-- What is matched is behind the position, and is not empty. -/
def Proper (pattern : Pattern) : Prop :=
  ∀ before text length replacement, pattern before text = some (length, replacement) →
    0 < length ∧ length ≤ text.length

/-- The character before a position that is some characters further on. -/
def beforeAfter (before : Option Char) (passed : List Char) : Option Char :=
  passed.getLast?.or before

@[simp]
theorem beforeAfter_nil (before : Option Char) : beforeAfter before [] = before :=
  rfl

@[simp]
theorem beforeAfter_cons (before : Option Char) (c : Char) (passed : List Char) :
    beforeAfter before (c :: passed) = beforeAfter (some c) passed := by
  cases passed with
  | nil => rfl
  | cons d passed =>
      rw [beforeAfter, beforeAfter, List.getLast?_cons_cons]
      cases last : (d :: passed).getLast? with
      | none => exact absurd (List.getLast?_eq_none_iff.mp last) (List.cons_ne_nil d passed)
      | some e => rfl

theorem beforeAfter_append (before : Option Char) (first last : List Char) :
    beforeAfter before (first ++ last) = beforeAfter (beforeAfter before first) last := by
  induction first generalizing before with
  | nil => rfl
  | cons c first ih =>
      rw [List.cons_append, beforeAfter_cons, beforeAfter_cons, ih]

@[simp]
theorem substituteFrom_nil (skip : Nat) (before : Option Char) :
    substituteFrom pattern skip before [] = [] := by
  cases skip <;> rfl

/-- Characters that are skipped are gone. -/
theorem substituteFrom_skip (before : Option Char) (skipped rest : List Char) :
    substituteFrom pattern skipped.length before (skipped ++ rest) =
      substituteFrom pattern 0 (beforeAfter before skipped) rest := by
  induction skipped generalizing before with
  | nil => rfl
  | cons c skipped ih =>
      rw [List.length_cons, List.cons_append, substituteFrom, ih,
        beforeAfter_cons]

/-- A match is replaced, and substitution goes on behind it. -/
theorem substituteFrom_of_match (proper : Proper pattern) {before : Option Char}
    {matched rest replacement : List Char}
    (isMatch : pattern before (matched ++ rest) = some (matched.length, replacement)) :
    substituteFrom pattern 0 before (matched ++ rest) =
      replacement ++ substituteFrom pattern 0 (beforeAfter before matched) rest := by
  cases matched with
  | nil => exact absurd (proper _ _ _ _ isMatch).1 (Nat.lt_irrefl 0)
  | cons c matched =>
      rw [List.cons_append, List.length_cons] at isMatch
      rw [List.cons_append, substituteFrom, isMatch, beforeAfter_cons, ← substituteFrom_skip]

/-- A character at which nothing matches stays. -/
theorem substituteFrom_of_none {before : Option Char} {c : Char} {rest : List Char}
    (noMatch : pattern before (c :: rest) = none) :
    substituteFrom pattern 0 before (c :: rest) =
      c :: substituteFrom pattern 0 (some c) rest := by
  rw [substituteFrom, noMatch]

/-- Characters at which nothing matches stay. -/
theorem substituteFrom_of_noMatch {run right : List Char} {before : Option Char}
    (noMatch : ∀ passed rest, run = passed ++ rest → rest ≠ [] →
      pattern (beforeAfter before passed) (rest ++ right) = none) :
    substituteFrom pattern 0 before (run ++ right) =
      run ++ substituteFrom pattern 0 (beforeAfter before run) right := by
  induction run generalizing before with
  | nil => rfl
  | cons c run ih =>
      have here := noMatch [] (c :: run) rfl (List.cons_ne_nil c run)
      rw [List.cons_append, beforeAfter_nil] at here
      rw [List.cons_append, substituteFrom_of_none here, beforeAfter_cons, List.cons_append]
      rw [ih]
      intro passed rest whole hasRest
      have later := noMatch (c :: passed) rest (by rw [whole, List.cons_append]) hasRest
      rwa [beforeAfter_cons] at later

/-- A text is empty, or starts with a match, or with a character that stays. -/
theorem substituteFrom_cases (proper : Proper pattern) (before : Option Char) (text : List Char) :
    text = [] ∨
    (∃ matched rest replacement, text = matched ++ rest ∧ matched ≠ [] ∧
      pattern before text = some (matched.length, replacement) ∧
      substituteFrom pattern 0 before text =
        replacement ++ substituteFrom pattern 0 (beforeAfter before matched) rest) ∨
    ∃ c rest, text = c :: rest ∧ pattern before text = none ∧
      substituteFrom pattern 0 before text = c :: substituteFrom pattern 0 (some c) rest := by
  cases text with
  | nil => exact Or.inl rfl
  | cons c rest =>
      cases found : pattern before (c :: rest) with
      | none => exact Or.inr (Or.inr ⟨c, rest, rfl, rfl, substituteFrom_of_none found⟩)
      | some result =>
          rcases result with ⟨length, replacement⟩
          rcases proper _ _ _ _ found with ⟨positive, fits⟩
          have whole : c :: rest = (c :: rest).take length ++ (c :: rest).drop length :=
            (List.take_append_drop _ _).symm
          have isLength : ((c :: rest).take length).length = length :=
            List.length_take_of_le fits
          refine Or.inr (Or.inl ⟨(c :: rest).take length, (c :: rest).drop length, replacement,
            whole, ?_, ?_, ?_⟩)
          · intro isEmpty
            rw [isEmpty] at isLength
            exact absurd isLength (Nat.ne_of_lt positive)
          · rw [isLength]
          · have isMatch : pattern before ((c :: rest).take length ++ (c :: rest).drop length) =
                some (((c :: rest).take length).length, replacement) := by
              rw [← whole, isLength]
              exact found
            have replaced := substituteFrom_of_match proper isMatch
            rw [← whole] at replaced
            exact replaced

/-- Induction along a substitution: over the rest of the text behind each match and each character
that stays. -/
theorem substitute_induction (proper : Proper pattern)
    {motive : Option Char → List Char → Prop}
    (nil : ∀ before, motive before [])
    (replaced : ∀ before matched rest replacement, matched ≠ [] →
      pattern before (matched ++ rest) = some (matched.length, replacement) →
      motive (beforeAfter before matched) rest → motive before (matched ++ rest))
    (kept : ∀ before c rest, pattern before (c :: rest) = none → motive (some c) rest →
      motive before (c :: rest))
    (before : Option Char) (text : List Char) : motive before text := by
  generalize size : text.length = n
  induction n using Nat.strongRecOn generalizing before text with
  | ind n ih =>
      rcases substituteFrom_cases proper before text with
        rfl | ⟨matched, rest, replacement, rfl, hasMatch, found, _⟩ | ⟨c, rest, rfl, found, _⟩
      · exact nil before
      · have positive : 0 < matched.length := List.length_pos_iff.mpr hasMatch
        rw [List.length_append] at size
        exact replaced before matched rest replacement hasMatch found
          (ih rest.length (by omega) _ rest rfl)
      · rw [List.length_cons] at size
        exact kept before c rest found (ih rest.length (by omega) _ rest rfl)

/-! ## Where nothing matches -/

/-- The pattern matches at no position of a text. -/
def NoMatch (pattern : Pattern) (before : Option Char) (text : List Char) : Prop :=
  ∀ passed rest, text = passed ++ rest → rest ≠ [] → pattern (beforeAfter before passed) rest = none

theorem noMatch_nil (before : Option Char) : NoMatch pattern before [] := by
  intro passed rest whole hasRest
  exact absurd (List.append_eq_nil_iff.mp whole.symm).2 hasRest

theorem noMatch_cons {before : Option Char} {c : Char} {text : List Char} :
    NoMatch pattern before (c :: text) ↔
      pattern before (c :: text) = none ∧ NoMatch pattern (some c) text := by
  constructor
  · intro noMatch
    constructor
    · exact noMatch [] (c :: text) rfl (List.cons_ne_nil c text)
    · intro passed rest whole hasRest
      have later := noMatch (c :: passed) rest (by rw [whole, List.cons_append]) hasRest
      rwa [beforeAfter_cons] at later
  · rintro ⟨here, noMatch⟩ passed rest whole hasRest
    cases passed with
    | nil =>
        rw [List.nil_append] at whole
        rw [← whole]
        exact here
    | cons d passed =>
        rw [List.cons_append, List.cons.injEq] at whole
        rw [beforeAfter_cons, ← whole.1]
        exact noMatch passed rest whole.2 hasRest

/-! ## Substitutions that shorten -/

/-- A function that shortens each text that it changes. -/
def Shortens (change : List Char → List Char) : Prop :=
  ∀ text, change text = text ∨ (change text).length < text.length

/-- A pattern whose replacements are shorter than its matches. -/
def Shrinking (pattern : Pattern) : Prop :=
  ∀ before text length replacement, pattern before text = some (length, replacement) →
    replacement.length < length ∧ length ≤ text.length

theorem Shrinking.proper (shrinking : Shrinking pattern) : Proper pattern := by
  intro before text length replacement found
  rcases shrinking before text length replacement found with ⟨shorter, fits⟩
  exact ⟨Nat.lt_of_le_of_lt (Nat.zero_le _) shorter, fits⟩

/-- A text without a match stays; any other one gets shorter. -/
theorem substituteFrom_shrinking (shrinking : Shrinking pattern) (before : Option Char)
    (text : List Char) :
    (substituteFrom pattern 0 before text = text ∧ NoMatch pattern before text) ∨
      ((substituteFrom pattern 0 before text).length < text.length ∧
        ¬ NoMatch pattern before text) := by
  induction before, text using substitute_induction shrinking.proper with
  | nil before => exact Or.inl ⟨substituteFrom_nil 0 before, noMatch_nil before⟩
  | replaced before matched rest replacement hasMatch found ih =>
      apply Or.inr
      constructor
      · have shorter := (shrinking _ _ _ _ found).1
        have restShorter : (substituteFrom pattern 0 (beforeAfter before matched) rest).length ≤
            rest.length := by
          rcases ih with ⟨same, _⟩ | ⟨less, _⟩
          · exact Nat.le_of_eq (congrArg List.length same)
          · exact Nat.le_of_lt less
        rw [substituteFrom_of_match shrinking.proper found, List.length_append, List.length_append]
        omega
      · intro noMatch
        have hasText : matched ++ rest ≠ [] := List.append_ne_nil_of_left_ne_nil hasMatch rest
        have notFound := noMatch [] (matched ++ rest) rfl hasText
        rw [beforeAfter_nil, found] at notFound
        cases notFound
  | kept before c rest found ih =>
      rw [substituteFrom_of_none found, noMatch_cons]
      rcases ih with ⟨same, noMatch⟩ | ⟨less, hasMatch⟩
      · exact Or.inl ⟨by rw [same], found, noMatch⟩
      · exact Or.inr ⟨Nat.succ_lt_succ less, fun ⟨_, noMatch⟩ => hasMatch noMatch⟩

theorem shortens_substitute (shrinking : Shrinking pattern) : Shortens (substitute pattern) := by
  intro text
  rcases substituteFrom_shrinking shrinking none text with ⟨same, _⟩ | ⟨less, _⟩
  · exact Or.inl same
  · exact Or.inr less

theorem substitute_eq_self_iff (shrinking : Shrinking pattern) {text : List Char} :
    substitute pattern text = text ↔ NoMatch pattern none text := by
  constructor
  · intro same
    rcases substituteFrom_shrinking shrinking none text with ⟨_, noMatch⟩ | ⟨less, _⟩
    · exact noMatch
    · rw [substitute] at same
      rw [same] at less
      exact absurd less (Nat.lt_irrefl _)
  · intro noMatch
    rcases substituteFrom_shrinking shrinking none text with ⟨same, _⟩ | ⟨_, hasMatch⟩
    · exact same
    · exact absurd noMatch hasMatch

theorem shortens_strip : Shortens strip := by
  intro text
  have isInfix := strip_infix text
  rcases Nat.lt_or_ge (strip text).length text.length with less | same
  · exact Or.inr less
  · exact Or.inl (isInfix.eq_of_length (Nat.le_antisymm isInfix.length_le same))

/-! ## One change after the other -/

/-- Make changes in order. -/
def passes (changes : List (List Char → List Char)) (text : List Char) : List Char :=
  changes.foldl (fun clean change => change clean) text

section Passes

variable {changes : List (List Char → List Char)} (shorten : ∀ change ∈ changes, Shortens change)

include shorten

theorem length_passes_le (text : List Char) : (passes changes text).length ≤ text.length := by
  induction changes generalizing text with
  | nil => exact Nat.le_refl _
  | cons change changes ih =>
      have later := ih
        (fun other otherMem => shorten other (List.mem_cons_of_mem change otherMem)) (change text)
      rcases shorten change List.mem_cons_self text with same | less
      · rw [same] at later
        rw [passes, List.foldl_cons, same]
        exact later
      · exact Nat.le_trans later (Nat.le_of_lt less)

/-- Changes that shorten leave a text together exactly if each of them leaves it. -/
theorem passes_eq_self_iff {text : List Char} :
    passes changes text = text ↔ ∀ change ∈ changes, change text = text := by
  induction changes with
  | nil => simp [passes]
  | cons change changes ih =>
      have shortenLater : ∀ other ∈ changes, Shortens other :=
        fun other otherMem => shorten other (List.mem_cons_of_mem change otherMem)
      have first : passes (change :: changes) text = passes changes (change text) := rfl
      rw [first, List.forall_mem_cons]
      constructor
      · intro unchanged
        rcases shorten change List.mem_cons_self text with same | less
        · rw [same] at unchanged
          exact ⟨same, (ih shortenLater).mp unchanged⟩
        · have bound := length_passes_le shortenLater (change text)
          rw [unchanged] at bound
          exact absurd (Nat.lt_of_lt_of_le less bound) (Nat.lt_irrefl _)
      · rintro ⟨same, later⟩
        rw [same]
        exact (ih shortenLater).mpr later

theorem shortens_passes : Shortens (passes changes) := by
  intro text
  induction changes generalizing text with
  | nil => exact Or.inl rfl
  | cons change changes ih =>
      have shortenLater : ∀ other ∈ changes, Shortens other :=
        fun other otherMem => shorten other (List.mem_cons_of_mem change otherMem)
      have first : passes (change :: changes) text = passes changes (change text) := rfl
      rw [first]
      rcases shorten change List.mem_cons_self text with same | less
      · rw [same]
        exact ih shortenLater text
      · exact Or.inr (Nat.lt_of_le_of_lt (length_passes_le shortenLater (change text)) less)

end Passes

/-- A change that shortens comes to a text that it leaves. -/
theorem Shortens.exists_fixed {change : List Char → List Char} (shortens : Shortens change)
    (text : List Char) : ∃ n ≤ text.length, change (change^[n] text) = change^[n] text := by
  generalize size : text.length = bound
  induction bound using Nat.strongRecOn generalizing text with
  | ind bound ih =>
      rcases shortens text with same | less
      · exact ⟨0, Nat.zero_le bound, same⟩
      · rw [size] at less
        rcases ih (change text).length less (change text) rfl with
          ⟨n, enough, fixed⟩
        exact ⟨n + 1, Nat.le_trans (Nat.succ_le_succ enough) less, fixed⟩

end DotBackend.Data.Text
