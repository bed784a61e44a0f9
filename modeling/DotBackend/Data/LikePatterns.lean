import DotBackend.Data.Text

/-!
# Prefixes matched by `LIKE`

A pattern that ends in an ordinary character and a percent sign matches the texts that
begin with a match of what stands before the sign, and such a beginning ends in the
character. The stem of the pattern is any text, wildcards and escapes included.
-/

namespace DotBackend.Data.Text

/-- A character that stands for itself in a pattern. -/
def Ordinary (c : Char) : Prop :=
  c ≠ '%' ∧ c ≠ '_' ∧ c ≠ '\\'

theorem like_percent (pattern text : List Char) :
    like ('%' :: pattern) text = true ↔ ∃ a b, text = a ++ b ∧ like pattern b = true := by
  simp only [like, List.any_eq_true, List.mem_tails]
  constructor
  · rintro ⟨b, ⟨a, rfl⟩, matched⟩
    exact ⟨a, b, rfl, matched⟩
  · rintro ⟨a, b, rfl, matched⟩
    exact ⟨b, ⟨a, rfl⟩, matched⟩

theorem like_nil (text : List Char) : like [] text = true ↔ text = [] := by
  rw [like, List.isEmpty_iff]

theorem like_everything (text : List Char) : like ['%'] text = true := by
  rw [like_percent]
  exact ⟨text, [], (List.append_nil text).symm, (like_nil []).mpr rfl⟩

theorem like_underscore (pattern text : List Char) :
    like ('_' :: pattern) text = true ↔ ∃ c b, text = c :: b ∧ like pattern b = true := by
  cases text with
  | nil => simp [like]
  | cons c b => simp [like]

theorem like_escaped (c : Char) (pattern text : List Char) :
    like ('\\' :: c :: pattern) text = true ↔ ∃ b, text = c :: b ∧ like pattern b = true := by
  cases text with
  | nil => simp [like]
  | cons d b => simp [like]

/-- A character that is no wildcard, and no escape before another character. -/
theorem like_literal {c : Char} {pattern : List Char} (notPercent : c ≠ '%')
    (notUnderscore : c ≠ '_') (notEscape : c = '\\' → pattern = []) (text : List Char) :
    like (c :: pattern) text = true ↔ ∃ b, text = c :: b ∧ like pattern b = true := by
  have literal : like (c :: pattern) text =
      (text.head? == some c && like pattern text.tail) := by
    rw [like]
    · exact notPercent
    · exact notUnderscore
    · rintro d rest rfl rfl
      cases notEscape rfl
  rw [literal]
  cases text with
  | nil => simp
  | cons d b => simp

theorem like_singleton {c : Char} (ordinary : Ordinary c) (text : List Char) :
    like [c] text = true ↔ text = [c] := by
  rw [like_literal ordinary.1 ordinary.2.1 fun _ => rfl]
  simp [like]

/-- Ordinary characters at the beginning of a pattern are found as they stand. -/
theorem like_ordinary_append {stem : List Char} (ordinary : ∀ c ∈ stem, Ordinary c)
    (pattern text : List Char) :
    like (stem ++ pattern) (stem ++ text) = true ↔ like pattern text = true := by
  induction stem with
  | nil => rfl
  | cons c stem ih =>
      obtain ⟨notPercent, notUnderscore, notEscape⟩ := ordinary c List.mem_cons_self
      have rest := ih fun d mem => ordinary d (List.mem_cons_of_mem c mem)
      rw [List.cons_append, List.cons_append,
        like_literal notPercent notUnderscore (fun isEscape => absurd isEscape notEscape)]
      constructor
      · rintro ⟨b, equal, matched⟩
        cases equal
        exact rest.mp matched
      · intro matched
        exact ⟨stem ++ text, rfl, rest.mpr matched⟩

/-- A match of a pattern that ends in an ordinary character ends in it. -/
theorem ends_of_like {c : Char} (ordinary : Ordinary c) (stem : List Char) {text : List Char}
    (matched : like (stem ++ [c]) text = true) : ∃ a, text = a ++ [c] := by
  induction stem using like.induct generalizing text with
  | case1 => exact ⟨[], (like_singleton ordinary text).mp matched⟩
  | case2 pattern ih =>
      obtain ⟨a, b, rfl, later⟩ := (like_percent _ _).mp matched
      obtain ⟨d, rfl⟩ := ih later
      exact ⟨a ++ d, (List.append_assoc _ _ _).symm⟩
  | case3 pattern ih =>
      obtain ⟨e, b, rfl, later⟩ := (like_underscore _ _).mp matched
      obtain ⟨d, rfl⟩ := ih later
      exact ⟨e :: d, rfl⟩
  | case4 escaped pattern ih =>
      obtain ⟨b, rfl, later⟩ := (like_escaped _ _ _).mp matched
      obtain ⟨d, rfl⟩ := ih later
      exact ⟨escaped :: d, rfl⟩
  | case5 literal pattern notPercent notUnderscore notEscape ih =>
      by_cases isEscape : literal = '\\'
      · -- An escape at the end of the stem escapes the character itself.
        have last : pattern = [] := by
          cases pattern with
          | nil => rfl
          | cons escaped rest => exact absurd rfl (notEscape escaped rest isEscape)
        subst last isEscape
        obtain ⟨b, rfl, later⟩ := (like_escaped _ _ _).mp matched
        exact ⟨[], by simpa [like] using later⟩
      · have unescaped : literal = '\\' → pattern ++ [c] = [] := fun same => absurd same isEscape
        obtain ⟨b, rfl, later⟩ := (like_literal notPercent notUnderscore unescaped _).mp matched
        obtain ⟨d, rfl⟩ := ih later
        exact ⟨literal :: d, rfl⟩

/-- The texts that begin with a match. -/
theorem like_append_percent {c : Char} (ordinary : Ordinary c) (stem : List Char)
    {text : List Char} : like (stem ++ [c, '%']) text = true ↔
      ∃ a b, text = a ++ b ∧ like (stem ++ [c]) a = true := by
  induction stem using like.induct generalizing text with
  | case1 =>
      rw [List.nil_append, like_literal ordinary.1 ordinary.2.1 fun same => absurd same ordinary.2.2]
      simp only [List.nil_append, like_singleton ordinary, like_everything, and_true]
      constructor
      · rintro ⟨b, rfl⟩
        exact ⟨[c], b, rfl, rfl⟩
      · rintro ⟨a, b, rfl, rfl⟩
        exact ⟨b, rfl⟩
  | case2 pattern ih =>
      simp only [List.cons_append, like_percent, ih]
      constructor
      · rintro ⟨a, _, rfl, d, e, rfl, matched⟩
        exact ⟨a ++ d, e, by simp, a, d, rfl, matched⟩
      · rintro ⟨_, e, rfl, a, d, rfl, matched⟩
        exact ⟨a, d ++ e, by simp, d, e, rfl, matched⟩
  | case3 pattern ih =>
      simp only [List.cons_append, like_underscore, ih]
      constructor
      · rintro ⟨x, _, rfl, d, e, rfl, matched⟩
        exact ⟨x :: d, e, rfl, x, d, rfl, matched⟩
      · rintro ⟨_, e, rfl, x, d, rfl, matched⟩
        exact ⟨x, d ++ e, rfl, d, e, rfl, matched⟩
  | case4 escaped pattern ih =>
      simp only [List.cons_append, like_escaped, ih]
      constructor
      · rintro ⟨_, rfl, d, e, rfl, matched⟩
        exact ⟨escaped :: d, e, rfl, d, rfl, matched⟩
      · rintro ⟨_, e, rfl, d, rfl, matched⟩
        exact ⟨d ++ e, rfl, d, e, rfl, matched⟩
  | case5 literal pattern notPercent notUnderscore notEscape ih =>
      by_cases isEscape : literal = '\\'
      · have last : pattern = [] := by
          cases pattern with
          | nil => rfl
          | cons escaped rest => exact absurd rfl (notEscape escaped rest isEscape)
        subst last isEscape
        rw [List.cons_append, List.nil_append, like_escaped]
        simp only [List.cons_append, List.nil_append, like_escaped, like_nil, like_everything,
          and_true]
        constructor
        · rintro ⟨b, rfl⟩
          exact ⟨[c], b, rfl, [], rfl, rfl⟩
        · rintro ⟨_, b, rfl, _, rfl, rfl⟩
          exact ⟨b, rfl⟩
      · have unescaped : ∀ rest : List Char, literal = '\\' → pattern ++ rest = [] :=
          fun rest same => absurd same isEscape
        rw [List.cons_append, List.cons_append,
          like_literal notPercent notUnderscore (unescaped [c, '%'])]
        simp only [like_literal notPercent notUnderscore (unescaped [c]), ih]
        constructor
        · rintro ⟨_, rfl, d, e, rfl, matched⟩
          exact ⟨literal :: d, e, rfl, d, rfl, matched⟩
        · rintro ⟨_, e, rfl, d, rfl, matched⟩
          exact ⟨d ++ e, rfl, d, e, rfl, matched⟩

/-- A pattern that ends in a separator and a percent sign matches a text that has a last
part without the separator only if it matches what stands before that part, or matches it
together with the separator in full. -/
theorem like_separated {c : Char} (ordinary : Ordinary c) {stem front part : List Char}
    (noSeparator : c ∉ part) (matched : like (stem ++ [c, '%']) (front ++ c :: part) = true) :
    like (stem ++ [c, '%']) front = true ∨ like (stem ++ [c]) (front ++ [c]) = true := by
  obtain ⟨a, b, text_eq, beginning⟩ := (like_append_percent ordinary stem).mp matched
  obtain ⟨d, rfl⟩ := ends_of_like ordinary stem beginning
  rcases List.append_eq_append_iff.mp text_eq with ⟨more, end_eq, rest_eq⟩ |
    ⟨more, front_eq, _⟩
  · cases more with
    | nil =>
        rw [List.append_nil] at end_eq
        rw [← end_eq]
        exact Or.inl ((like_append_percent ordinary stem).mpr
          ⟨d ++ [c], [], (List.append_nil _).symm, beginning⟩)
    | cons head more =>
        rw [List.cons_append, List.cons.injEq] at rest_eq
        obtain ⟨rfl, part_eq⟩ := rest_eq
        rcases List.eq_nil_or_concat more with rfl | ⟨init, last, rfl⟩
        · rw [end_eq] at beginning
          exact Or.inr beginning
        · -- A match that reaches into the last part ends in a separator there.
          have last_eq : c = last := by
            have regrouped : d ++ [c] = (front ++ c :: init) ++ [last] := by
              rw [end_eq, List.concat_eq_append, List.append_assoc, List.cons_append]
            exact (List.append_inj' regrouped rfl).2 |> List.head_eq_of_cons_eq
          apply absurd _ noSeparator
          rw [part_eq, last_eq]
          simp
  · rw [front_eq]
    exact Or.inl ((like_append_percent ordinary stem).mpr ⟨d ++ [c], more, rfl, beginning⟩)

end DotBackend.Data.Text
