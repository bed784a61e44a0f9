import DotBackend.Agents.PlainText
import DotBackend.Data.CleanText
import DotBackend.Data.Delimiters

/-!
# Links that survive cleaning

Cleaning takes off marks wherever they are, in a bare link as well. A link stays whole in every
message exactly if it has no asterisk and no backtick, and no two underscores and no two tildes in
it that can be one of a pair of marks.
-/

namespace DotBackend.Agents

open Data Data.Text

/-! ## Markdown links -/

/-- The label and the target of a Markdown link. -/
structure LinkParts (label url : List Char) : Prop where
  hasLabel : label ≠ []
  labelRun : ∀ c ∈ label, decide (c ≠ ']' ∧ c ≠ '\n') = true
  urlRun : ∀ c ∈ url, decide (c ≠ ')' ∧ ¬ isSpace c = true) = true
  address : ((afterHttpScheme url).any fun address => !address.isEmpty) = true

theorem markdownLink_eq_some_iff {before : Option Char} {text replacement : List Char}
    {length : Nat} :
    markdownLink before text = some (length, replacement) ↔
      ∃ label url more, text = '[' :: (label ++ ']' :: '(' :: (url ++ ')' :: more)) ∧
        LinkParts label url ∧ length = label.length + url.length + 4 ∧
        replacement = label ++ ": ".toList ++ url := by
  constructor
  · intro found
    unfold markdownLink at found
    split at found
    · rename_i rest
      simp only at found
      split at found
      · rename_i target isTarget
        split at found
        · rename_i isLink
          cases found
          have wholeText := takeWhile_append_drop (fun c => decide (c ≠ ']' ∧ c ≠ '\n')) rest
          have wholeTarget := takeWhile_append_drop
            (fun c => decide (c ≠ ')' ∧ ¬ isSpace c = true)) target
          rw [isTarget] at wholeText
          rcases List.head?_eq_some_iff.mp isLink.2.2 with ⟨more, isMore⟩
          rw [isMore] at wholeTarget
          refine ⟨_, _, more, ?_, ⟨isLink.1, ?_, ?_, isLink.2.1⟩, rfl, rfl⟩
          · rw [wholeTarget, wholeText]
          · intro c cMem
            have kept := List.mem_takeWhile_imp cMem
            exact kept
          · intro c cMem
            have kept := List.mem_takeWhile_imp cMem
            exact kept
        · cases found
      · cases found
    · cases found
  · rintro ⟨label, url, more, rfl, parts, rfl, rfl⟩
    have labelRun : (label ++ ']' :: '(' :: (url ++ ')' :: more)).takeWhile
        (fun c => decide (c ≠ ']' ∧ c ≠ '\n')) = label := by
      rw [List.takeWhile_append_of_pos parts.labelRun, List.takeWhile_cons_of_neg (by decide),
        List.append_nil]
    have urlRun : (url ++ ')' :: more).takeWhile
        (fun c => decide (c ≠ ')' ∧ ¬ isSpace c = true)) = url := by
      rw [List.takeWhile_append_of_pos parts.urlRun, List.takeWhile_cons_of_neg (by decide),
        List.append_nil]
    simp only [markdownLink, labelRun, List.drop_left, urlRun, List.head?_cons, and_true, ne_eq,
      parts.hasLabel, not_false_eq_true, parts.address, if_true]

theorem proper_markdownLink : Proper markdownLink :=
  shrinking_markdownLink.proper

/-- A link stays one when more text follows. -/
theorem markdownLink_append {before : Option Char} {text replacement : List Char} {length : Nat}
    (found : markdownLink before text = some (length, replacement)) (other : Option Char)
    (more : List Char) : markdownLink other (text ++ more) = some (length, replacement) := by
  rcases markdownLink_eq_some_iff.mp found with ⟨label, url, behind, rfl, parts, isLength, same⟩
  rw [markdownLink_eq_some_iff]
  exact ⟨label, url, behind ++ more, by simp, parts, isLength, same⟩

/-- The part of a text that a link matches ends in a parenthesis. -/
theorem matched_of_markdownLink {before : Option Char} {text replacement : List Char} {length : Nat}
    (found : markdownLink before text = some (length, replacement)) :
    ∃ start more, text = (start ++ [')']) ++ more ∧ length = (start ++ [')']).length := by
  rcases markdownLink_eq_some_iff.mp found with ⟨label, url, more, rfl, _, rfl, _⟩
  refine ⟨'[' :: (label ++ ']' :: '(' :: url), more, by simp, ?_⟩
  simp only [List.length_append, List.length_cons, List.length_nil]
  omega

theorem markdownLink_of_ne {c : Char} (notBracket : c ≠ '[') (before : Option Char)
    (rest : List Char) : markdownLink before (c :: rest) = none := by
  cases found : markdownLink before (c :: rest) with
  | none => rfl
  | some result =>
      rcases result with ⟨length, replacement⟩
      rcases markdownLink_eq_some_iff.mp found with ⟨label, url, more, same, _⟩
      rw [List.cons.injEq] at same
      exact absurd same.1 notBracket

/-- No part of a run is in a Markdown link. -/
structure OutsideLinks (left run right : List Char) : Prop where
  across : ∀ passed rest length replacement, left = passed ++ rest → rest ≠ [] →
    markdownLink none (rest ++ (run ++ right)) = some (length, replacement) → length ≤ rest.length
  inside : ∀ passed rest, run = passed ++ rest → rest ≠ [] →
    markdownLink none (rest ++ right) = none

/-- With less text around it, a run is in no more links. -/
theorem OutsideLinks.narrow {left run right first last : List Char}
    (outside : OutsideLinks left run right) (isSuffix : first <:+ left)
    (isPrefix : last <+: right) :
    OutsideLinks first run last := by
  rcases isSuffix with ⟨before, rfl⟩
  rcases isPrefix with ⟨after, rfl⟩
  constructor
  · intro passed rest length replacement whole hasRest found
    have longer := markdownLink_append found none after
    apply outside.across (before ++ passed) rest length replacement _ hasRest
    · rw [← longer]
      simp only [List.append_assoc]
    · rw [whole, List.append_assoc]
  · intro passed rest whole hasRest
    cases found : markdownLink none (rest ++ last) with
    | none => rfl
    | some result =>
        rcases result with ⟨length, replacement⟩
        have longer := markdownLink_append found none after
        rw [List.append_assoc, outside.inside passed rest whole hasRest] at longer
        cases longer

/-- The pattern of links spares a run outside of links. -/
theorem OutsideLinks.spares {left run right : List Char} (outside : OutsideLinks left run right)
    (ends : EndsBlank left) : Spares markdownLink left run right := by
  have sameBefore : ∀ before text, markdownLink before text = markdownLink none text :=
    fun _ _ => rfl
  constructor
  · intro before c rest blank
    apply markdownLink_of_ne
    rintro rfl
    exact absurd blank (by decide)
  · intro before passed rest whole hasRest
    rw [sameBefore]
    exact outside.inside passed rest whole hasRest
  · intro before passed rest length replacement whole hasRest found
    rw [sameBefore] at found
    apply Or.inl
    have fits := outside.across passed rest length replacement whole hasRest found
    apply Nat.lt_of_le_of_ne fits
    -- A link ends in a parenthesis, and the text before the run in whitespace.
    intro sameLength
    rcases matched_of_markdownLink found with ⟨start, more, same, isLength⟩
    have isRest : rest = start ++ [')'] := (List.append_inj same (by rw [← isLength, sameLength])).1
    rw [whole] at ends
    have blank := ends.of_append hasRest ')' (by rw [isRest, List.getLast?_concat])
    exact absurd blank (by decide)

/-! ## Patterns at the start of a line, and dashes -/

/-- A run that starts as a link does. -/
structure LinkRun (run : List Char) : Prop where
  scheme : (afterHttpScheme run).isSome = true
  solid : ∀ c ∈ run, isSolid c = true

section Avoided

variable {run : List Char}

theorem LinkRun.eq_cons (link : LinkRun run) : ∃ rest, run = 'h' :: rest := by
  have scheme := link.scheme
  rw [afterHttpScheme] at scheme
  split at scheme
  · rename_i secure
    rcases List.isPrefixOf_iff_prefix.mp secure with ⟨more, rfl⟩
    exact ⟨_, rfl⟩
  · split at scheme
    · rename_i plain
      rcases List.isPrefixOf_iff_prefix.mp plain with ⟨more, rfl⟩
      exact ⟨_, rfl⟩
    · cases scheme

theorem LinkRun.ne_nil (link : LinkRun run) : run ≠ [] := by
  rcases link.eq_cons with ⟨rest, rfl⟩
  exact List.cons_ne_nil _ rest

/-- Inside of a run no line starts. -/
theorem LinkRun.not_atLineStart (link : LinkRun run) {before : Option Char}
    {passed rest : List Char} (whole : run = passed ++ rest) (hasPassed : passed ≠ []) :
    atLineStart (beforeAfter before passed) = false := by
  rcases List.eq_nil_or_concat passed with rfl | ⟨others, c, rfl⟩
  · exact absurd rfl hasPassed
  · have solid := link.solid c (by rw [whole]; simp)
    rw [List.concat_eq_append, beforeAfter_append, beforeAfter_cons, beforeAfter_nil, atLineStart]
    simp only [Option.all_some, beq_eq_false_iff_ne, ne_eq]
    rintro rfl
    exact absurd solid (by decide)

/-- What is taken from the start of a text, without the first character of a run, ends before the
run. -/
theorem length_takeWhile_le_of_run (link : LinkRun run) (keep : Char → Bool)
    (stops : keep 'h' = false) (first right : List Char) :
    ((first ++ (run ++ right)).takeWhile keep).length ≤ first.length := by
  rcases link.eq_cons with ⟨rest, rfl⟩
  induction first with
  | nil =>
      rw [List.nil_append, List.cons_append, List.takeWhile_cons_of_neg (by simp [stops])]
  | cons c first ih =>
      rw [List.cons_append, List.takeWhile_cons]
      split
      · exact Nat.succ_le_succ ih
      · exact Nat.zero_le _

theorem avoids_heading (link : LinkRun run) : Avoids heading run := by
  constructor
  · intro before passed rest right whole hasRest
    by_cases noPassed : passed = []
    · rw [noPassed, List.nil_append] at whole
      rcases link.eq_cons with ⟨others, isRun⟩
      rw [← whole, isRun]
      simp [heading]
    · simp [heading, link.not_atLineStart whole noPassed]
  · intro before rest right length replacement hasRest found
    unfold heading at found
    simp only at found
    split at found
    · rename_i isHeading
      cases found
      have marks := length_takeWhile_le_of_run link (fun c => c == '#') (by decide) rest right
      rw [List.drop_append_of_le_length marks]
      have blank := length_takeWhile_le_of_run link isSpace (by decide)
        (rest.drop ((rest ++ (run ++ right)).takeWhile fun c => c == '#').length) right
      rw [List.length_drop] at blank
      omega
    · cases found

theorem avoids_blockquote (link : LinkRun run) : Avoids blockquote run := by
  constructor
  · intro before passed rest right whole hasRest
    by_cases noPassed : passed = []
    · rw [noPassed, List.nil_append] at whole
      rcases link.eq_cons with ⟨others, isRun⟩
      rw [← whole, isRun]
      rfl
    · unfold blockquote
      split
      · rw [link.not_atLineStart whole noPassed, if_neg Bool.false_ne_true]
      · rfl
  · intro before rest right length replacement hasRest found
    cases rest with
    | nil => exact absurd rfl hasRest
    | cons c rest =>
        unfold blockquote at found
        split at found
        · rename_i more same
          rw [List.cons_append, List.cons.injEq] at same
          split at found
          · cases found
            cases rest with
            | nil =>
                rcases link.eq_cons with ⟨others, rfl⟩
                rw [← same.2, List.nil_append, List.cons_append, List.head?_cons]
                exact Nat.le_refl 1
            | cons d rest =>
                rw [List.length_cons, List.length_cons]
                split
                · omega
                · omega
          · cases found
        · cases found

theorem avoids_spacedDash (link : LinkRun run) : Avoids spacedDash run := by
  constructor
  · intro before passed rest right whole hasRest
    cases rest with
    | nil => exact absurd rfl hasRest
    | cons c rest =>
        have solid := link.solid c (by rw [whole]; simp)
        have noBlank : (c :: (rest ++ right)).takeWhile isSpace = [] := by
          rw [isSolid, Bool.not_eq_true'] at solid
          exact List.takeWhile_cons_of_neg (by simp [solid])
        unfold spacedDash
        simp only [List.cons_append, noBlank]
        split
        · simp
        · rfl
  · intro before rest right length replacement hasRest found
    unfold spacedDash at found
    simp only at found
    split at found
    · rename_i behind isDash
      split at found
      · cases found
        have left := length_takeWhile_le_of_run link isSpace (by decide) rest right
        rw [List.drop_append_of_le_length left] at isDash
        cases dropped : rest.drop ((rest ++ (run ++ right)).takeWhile isSpace).length with
        | nil =>
            rcases link.eq_cons with ⟨others, rfl⟩
            rw [dropped, List.nil_append, List.cons_append, List.cons.injEq] at isDash
            exact absurd isDash.1 (by decide)
        | cons c more =>
            rw [dropped, List.cons_append, List.cons.injEq] at isDash
            have blank := length_takeWhile_le_of_run link isSpace (by decide) more right
            have lengths := congrArg List.length dropped
            rw [List.length_drop, List.length_cons] at lengths
            rw [← isDash.2]
            omega
      · cases found
    · cases found

/-! ## Whitespace at the ends -/

/-- Whitespace that is dropped from a text is dropped before the run. -/
theorem dropWhile_of_run (solid : ∀ c ∈ run, isSolid c = true) (hasRun : run ≠ [])
    (left right : List Char) :
    ∃ first, (left ++ (run ++ right)).dropWhile isSpace = first ++ (run ++ right) ∧
      first <:+ left := by
  induction left with
  | nil =>
      refine ⟨[], ?_, List.suffix_refl []⟩
      cases run with
      | nil => exact absurd rfl hasRun
      | cons c rest =>
          have solidHead := solid c List.mem_cons_self
          rw [isSolid, Bool.not_eq_true'] at solidHead
          rw [List.nil_append, List.cons_append]
          exact List.dropWhile_cons_of_neg (by simp [solidHead])
  | cons c left ih =>
      rw [List.cons_append, List.dropWhile_cons]
      split
      · rcases ih with ⟨first, same, isSuffix⟩
        exact ⟨first, same, isSuffix.trans (List.suffix_cons c left)⟩
      · exact ⟨c :: left, rfl, List.suffix_refl _⟩

theorem strip_of_run (solid : ∀ c ∈ run, isSolid c = true) (hasRun : run ≠ [])
    (left right : List Char) :
    ∃ first last, strip (left ++ (run ++ right)) = first ++ (run ++ last) ∧ first <:+ left ∧
      last <+: right := by
  rcases dropWhile_of_run solid hasRun left right with ⟨first, same, isSuffix⟩
  have solidReverse : ∀ c ∈ run.reverse, isSolid c = true := by
    intro c cMem
    exact solid c (List.mem_reverse.mp cMem)
  have hasReverse : run.reverse ≠ [] := by
    rwa [ne_eq, List.reverse_eq_nil_iff]
  rcases dropWhile_of_run solidReverse hasReverse right.reverse first.reverse with
    ⟨last, sameReverse, isPrefix⟩
  refine ⟨first, last.reverse, ?_, isSuffix, ?_⟩
  · have turned : (first ++ (run ++ right)).reverse =
        right.reverse ++ (run.reverse ++ first.reverse) := by
      simp only [List.reverse_append, List.append_assoc]
    rw [strip, trim, same, turned, sameReverse]
    simp only [List.reverse_append, List.reverse_reverse, List.append_assoc]
  · rw [← List.reverse_suffix, List.reverse_reverse]
    exact isPrefix

theorem infix_strip (solid : ∀ c ∈ run, isSolid c = true) (hasRun : run ≠ []) {text : List Char}
    (isInfix : run <:+: text) : run <:+: strip text := by
  rcases isInfix with ⟨left, right, rfl⟩
  rcases strip_of_run solid hasRun left right with ⟨first, last, same, _⟩
  rw [List.append_assoc, same]
  exact ⟨first, last, List.append_assoc _ _ _⟩

end Avoided

/-! ## Pairs of marks -/

/-- A pass of cleaning that takes off pairs of marks. -/
structure Pass where
  count : Nat
  delimiter : Char
  pattern : Pattern

/-- The mark of a pass. -/
def Pass.mark (pass : Pass) : List Char :=
  List.replicate (pass.count + 1) pass.delimiter

/-- The five passes in their order. -/
def unmarking : List Pass :=
  [⟨1, '*', strongAsterisk⟩, ⟨1, '_', strongUnderscore⟩, ⟨1, '~', strikethrough⟩,
    ⟨0, Char.ofNat 96, inlineCode⟩, ⟨0, '*', emphasisAsterisk⟩]

/-- What is known of each of the passes. -/
structure Unmarks (pass : Pass) : Prop where
  proper : Proper pass.pattern
  shrinking : Shrinking pass.pattern
  solid : isSolid pass.delimiter = true
  unwraps : ∀ before text length content, pass.pattern before text = some (length, content) →
    unwrap pass.mark pass.delimiter before text = some (length, content)

theorem unmarks_of_unwrap (count : Nat) (delimiter : Char) (solid : isSolid delimiter = true) :
    Unmarks ⟨count, delimiter, unwrap (List.replicate (count + 1) delimiter) delimiter⟩ := by
  have shrinking := @shrinking_unwrap (List.replicate (count + 1) delimiter) (by simp) delimiter
  exact ⟨shrinking.proper, shrinking, solid, fun _ _ _ _ found => found⟩

theorem unmarks_unmarking : ∀ pass ∈ unmarking, Unmarks pass := by
  intro pass passMem
  simp only [unmarking, List.mem_cons, List.not_mem_nil, or_false] at passMem
  rcases passMem with rfl | rfl | rfl | rfl | rfl
  · exact unmarks_of_unwrap 1 '*' (by decide)
  · exact unmarks_of_unwrap 1 '_' (by decide)
  · exact unmarks_of_unwrap 1 '~' (by decide)
  · exact unmarks_of_unwrap 0 (Char.ofNat 96) (by decide)
  · refine ⟨shrinking_emphasisAsterisk.proper, shrinking_emphasisAsterisk, by decide, ?_⟩
    intro before text length content found
    change emphasisAsterisk before text = _ at found
    rw [emphasisAsterisk] at found
    split at found
    · rename_i unwrapped
      split at found
      · cases found
      · cases found
        exact unwrapped
    · cases found

/-- Cleaning, as its passes one after the other. -/
theorem plainTextBubble_eq_unmarking (text : List Char) :
    plainTextBubble text = strip (substitute blockquote (substitute spacedDash (substitute heading
      (unmarking.foldl (fun clean pass => substitute pass.pattern clean)
        (substitute markdownLink (strip text)))))) := by
  simp only [plainTextBubble, unmarking, List.foldl_cons, List.foldl_nil]

/-- A run whose characters are none of a pair of marks: it has no asterisk and no backtick, and no
two underscores and no two tildes that can be one. -/
structure Undelimited (run : List Char) : Prop where
  asterisk : '*' ∉ run
  backtick : Char.ofNat 96 ∉ run
  underscores : Unpaired 1 '_' run
  tildes : Unpaired 1 '~' run

/-- A run is in a text, with whitespace around it. -/
def Between (run text : List Char) : Prop :=
  ∃ left right, text = left ++ (run ++ right) ∧ EndsBlank left ∧ StartsBlank right

theorem Undelimited.unpaired {run : List Char} (undelimited : Undelimited run) :
    ∀ pass ∈ unmarking, Unpaired pass.count pass.delimiter run := by
  intro pass passMem
  simp only [unmarking, List.mem_cons, List.not_mem_nil, or_false] at passMem
  rcases passMem with rfl | rfl | rfl | rfl | rfl
  · exact unpaired_of_not_mem (by decide) undelimited.asterisk
  · exact undelimited.underscores
  · exact undelimited.tildes
  · exact unpaired_of_not_mem (by decide) undelimited.backtick
  · exact unpaired_of_not_mem (by decide) undelimited.asterisk

theorem between_unmarking {run text : List Char} (hasRun : run ≠ []) {passes : List Pass}
    (unmark : ∀ pass ∈ passes, Unmarks pass)
    (unpaired : ∀ pass ∈ passes, Unpaired pass.count pass.delimiter run)
    (between : Between run text) :
    Between run (passes.foldl (fun clean pass => substitute pass.pattern clean) text) := by
  induction passes generalizing text with
  | nil => exact between
  | cons pass passes ih =>
      rw [List.foldl_cons]
      apply ih
      · intro other otherMem
        exact unmark other (List.mem_cons_of_mem pass otherMem)
      · intro other otherMem
        exact unpaired other (List.mem_cons_of_mem pass otherMem)
      · rcases between with ⟨left, right, rfl, ends, starts⟩
        have unmarks := unmark pass List.mem_cons_self
        have spares := (unpaired pass List.mem_cons_self).spares unmarks.solid hasRun
          unmarks.unwraps ends starts
        exact spares.substituteFrom unmarks.proper ends starts none

/-- A bare link without delimiters is whole after cleaning. -/
theorem infix_plainTextBubble {run left right : List Char} (link : LinkRun run)
    (undelimited : Undelimited run) (outside : OutsideLinks left run right)
    (ends : EndsBlank left) (starts : StartsBlank right) :
    run <:+: plainTextBubble (left ++ (run ++ right)) := by
  rcases strip_of_run link.solid link.ne_nil left right with ⟨first, last, same, isSuffix, isPrefix⟩
  have firstEnds := ends.of_suffix isSuffix
  have lastStarts := starts.of_prefix isPrefix
  have linked : Between run (substitute markdownLink (first ++ (run ++ last))) :=
    ((outside.narrow isSuffix isPrefix).spares firstEnds).substituteFrom proper_markdownLink
      firstEnds lastStarts none
  rcases between_unmarking link.ne_nil unmarks_unmarking undelimited.unpaired linked with
    ⟨before, after, isText, _⟩
  rw [plainTextBubble_eq_unmarking, same, isText]
  apply infix_strip link.solid link.ne_nil
  rcases (avoids_heading link).infix_substituteFrom shrinking_heading.proper before after none with
    ⟨before, after, isText⟩
  rw [substitute, substitute, substitute, ← isText, List.append_assoc]
  rcases (avoids_spacedDash link).infix_substituteFrom shrinking_spacedDash.proper before after none
    with ⟨before, after, isText⟩
  rw [← isText, List.append_assoc]
  exact (avoids_blockquote link).infix_substituteFrom shrinking_blockquote.proper before after none

/-! ## Paragraphs -/

/-- The whitespace at the start of a text ends before a run. -/
theorem takeWhile_isSpace_of_run {run : List Char} (link : LinkRun run) (left right : List Char) :
    (left ++ (run ++ right)).takeWhile isSpace = left.takeWhile isSpace := by
  rcases link.eq_cons with ⟨rest, rfl⟩
  induction left with
  | nil =>
      rw [List.nil_append, List.cons_append, List.takeWhile_cons_of_neg (by decide),
        List.takeWhile_nil]
  | cons c left ih =>
      rw [List.cons_append, List.takeWhile_cons, List.takeWhile_cons, ih]

/-- A paragraph that has begun goes on with a start of the text. -/
theorem exists_paragraph (current text : List Char) :
    ∃ start, (current.reverse ++ start) ∈ paragraphsFrom 0 current text ∧ start <+: text := by
  induction text generalizing current with
  | nil => exact ⟨[], by simp [paragraphsFrom], List.prefix_refl []⟩
  | cons c rest ih =>
      rw [paragraphsFrom]
      split
      · refine ⟨[], ?_, List.nil_prefix⟩
        rw [List.append_nil]
        exact List.mem_cons_self
      · rcases ih (c :: current) with ⟨start, startMem, isPrefix⟩
        refine ⟨c :: start, ?_, ?_⟩
        · rw [List.reverse_cons, List.append_assoc] at startMem
          exact startMem
        · exact (List.prefix_append_right_inj [c]).mpr isPrefix

/-- A run is in one paragraph. -/
theorem exists_paragraph_of_run {run : List Char} (solid : ∀ c ∈ run, isSolid c = true)
    (current right : List Char) :
    ∃ start, (current.reverse ++ (run ++ start)) ∈ paragraphsFrom 0 current (run ++ right) ∧
      start <+: right := by
  induction run generalizing current with
  | nil => exact exists_paragraph current right
  | cons c run ih =>
      have notBreak : c ≠ '\n' := by
        rintro rfl
        exact absurd (solid '\n' List.mem_cons_self) (by decide)
      rcases ih (fun d dMem => solid d (List.mem_cons_of_mem c dMem))
        (c :: current) with ⟨start, startMem, isPrefix⟩
      refine ⟨start, ?_, isPrefix⟩
      rw [List.cons_append, paragraphsFrom, if_neg (fun isBreak => notBreak isBreak.1)]
      rw [List.reverse_cons, List.append_assoc] at startMem
      exact startMem

theorem exists_paragraph_between {run : List Char} (link : LinkRun run) (left right : List Char) :
    ∀ skip current, skip ≤ (left.takeWhile isSpace).length → (skip ≠ 0 → current = []) →
      ∃ first last,
        (first ++ (run ++ last)) ∈ paragraphsFrom skip current (left ++ (run ++ right)) ∧
        first <:+ current.reverse ++ left ∧ last <+: right := by
  induction left with
  | nil =>
      intro skip current fits _
      have noSkip : skip = 0 := Nat.le_zero.mp fits
      rcases exists_paragraph_of_run link.solid current right with ⟨start, startMem, isPrefix⟩
      refine ⟨current.reverse, start, ?_, ?_, isPrefix⟩
      · rw [noSkip, List.nil_append]
        exact startMem
      · rw [List.append_nil]
  | cons c left ih =>
      intro skip current fits fresh
      cases skip with
      | succ skip =>
          have noCurrent := fresh (Nat.succ_ne_zero skip)
          have shorter : skip ≤ (left.takeWhile isSpace).length := by
            rw [List.takeWhile_cons] at fits
            split at fits
            · exact Nat.le_of_succ_le_succ fits
            · exact absurd fits (Nat.not_succ_le_zero skip)
          rcases ih skip current shorter (fun _ => noCurrent) with
            ⟨first, last, isMem, isSuffix, isPrefix⟩
          refine ⟨first, last, ?_, ?_, isPrefix⟩
          · rw [List.cons_append, paragraphsFrom]
            exact isMem
          · rw [noCurrent] at isSuffix ⊢
            exact isSuffix.trans (List.suffix_cons c left)
      | zero =>
          rw [List.cons_append, paragraphsFrom]
          split
          · -- The text is cut here, in the whitespace before the run.
            have cut : (((left ++ (run ++ right)).takeWhile isSpace).reverse.dropWhile
                (· ≠ '\n')).length ≤ (left.takeWhile isSpace).length := by
              have shorter := (List.dropWhile_suffix (· ≠ '\n')
                (l := ((left ++ (run ++ right)).takeWhile isSpace).reverse)).length_le
              rw [List.length_reverse, takeWhile_isSpace_of_run link left right] at shorter
              rw [takeWhile_isSpace_of_run link left right]
              exact shorter
            rcases ih _ [] cut (fun _ => rfl) with
              ⟨first, last, isMem, isSuffix, isPrefix⟩
            refine ⟨first, last, List.mem_cons_of_mem _ isMem, ?_, isPrefix⟩
            exact isSuffix.trans ((List.suffix_cons c left).trans (List.suffix_append _ _))
          · rcases ih 0 (c :: current) (Nat.zero_le _)
              (fun positive => absurd rfl positive) with ⟨first, last, isMem, isSuffix, isPrefix⟩
            refine ⟨first, last, isMem, ?_, isPrefix⟩
            rw [List.reverse_cons, List.append_assoc] at isSuffix
            exact isSuffix

/-! ## Links that survive -/

/-- A link survives in each message in which it is a run of its own and no part of a Markdown
link: a bubble has it as it was written. -/
def SurvivesEverywhere (run : List Char) : Prop :=
  ∀ messages message left right, message ∈ messages → message = left ++ (run ++ right) →
    EndsBlank left → StartsBlank right → OutsideLinks left run right →
    ∃ bubble ∈ cleanParagraphs messages, run <:+: bubble

section Survives

variable {run : List Char}

theorem survives_of_undelimited (link : LinkRun run) (undelimited : Undelimited run) :
    SurvivesEverywhere run := by
  intro messages message left right messageMem whole ends starts outside
  rcases exists_paragraph_between link left right 0 [] (Nat.zero_le _)
    (fun positive => absurd rfl positive) with ⟨first, last, isMem, isSuffix, isPrefix⟩
  rw [List.reverse_nil, List.nil_append] at isSuffix
  have survives := infix_plainTextBubble link undelimited (outside.narrow isSuffix isPrefix)
    (ends.of_suffix isSuffix) (starts.of_prefix isPrefix)
  refine ⟨plainTextBubble (first ++ (run ++ last)), ?_, survives⟩
  rw [cleanParagraphs, List.mem_filter]
  constructor
  · apply List.mem_map_of_mem
    rw [List.mem_flatMap]
    refine ⟨message, messageMem, ?_⟩
    rw [whole, paragraphs]
    exact isMem
  · rw [decide_eq_true_eq]
    intro isEmpty
    rw [isEmpty] at survives
    exact link.ne_nil (List.eq_nil_of_infix_nil survives)

/-! ## Links that do not -/

theorem paragraphsFrom_of_noBreak {text : List Char} (noBreak : '\n' ∉ text)
    (current : List Char) : paragraphsFrom 0 current text = [current.reverse ++ text] := by
  induction text generalizing current with
  | nil => rw [paragraphsFrom, List.append_nil]
  | cons c rest ih =>
      have notBreak : c ≠ '\n' := by
        rintro rfl
        exact noBreak List.mem_cons_self
      rw [paragraphsFrom, if_neg (fun isBreak => notBreak isBreak.1),
        ih (fun isMem => noBreak (List.mem_cons_of_mem c isMem)),
        List.reverse_cons, List.append_assoc]
      rfl

theorem count_unmarking_le {passes : List Pass} (unmark : ∀ pass ∈ passes, Unmarks pass)
    (c : Char) (text : List Char) :
    (passes.foldl (fun clean pass => substitute pass.pattern clean) text).count c ≤
      text.count c := by
  induction passes generalizing text with
  | nil => exact Nat.le_refl _
  | cons pass passes ih =>
      have unmarks := unmark pass List.mem_cons_self
      have unmarkLater : ∀ other ∈ passes, Unmarks other :=
        fun other otherMem => unmark other (List.mem_cons_of_mem pass otherMem)
      exact Nat.le_trans (ih unmarkLater (substitute pass.pattern text))
        (count_substituteFrom_unwraps unmarks.unwraps unmarks.proper c none text)

/-- What comes after the pairs of marks makes no delimiter more frequent. -/
theorem count_lines_le {c : Char} (notSpace : c ∉ ", ".toList) (text : List Char) :
    (strip (substitute blockquote (substitute spacedDash (substitute heading text)))).count c ≤
      text.count c := by
  have noneLeft : ∀ before matched rest replacement,
      heading before (matched ++ rest) = some (matched.length, replacement) →
      replacement.count c ≤ matched.count c := by
    intro before matched rest replacement found
    unfold heading at found
    simp only at found
    split at found
    · rw [Option.some.injEq, Prod.mk.injEq] at found
      rw [← found.2]
      exact Nat.zero_le _
    · cases found
  have onlyComma : ∀ before matched rest replacement,
      spacedDash before (matched ++ rest) = some (matched.length, replacement) →
      replacement.count c ≤ matched.count c := by
    intro before matched rest replacement found
    unfold spacedDash at found
    simp only at found
    split at found
    · split at found
      · rw [Option.some.injEq, Prod.mk.injEq] at found
        rw [← found.2, List.count_eq_zero_of_not_mem notSpace]
        exact Nat.zero_le _
      · cases found
    · cases found
  have noneQuoted : ∀ before matched rest replacement,
      blockquote before (matched ++ rest) = some (matched.length, replacement) →
      replacement.count c ≤ matched.count c := by
    intro before matched rest replacement found
    unfold blockquote at found
    split at found
    · split at found
      · rw [Option.some.injEq, Prod.mk.injEq] at found
        rw [← found.2]
        exact Nat.zero_le _
      · cases found
    · cases found
  have stripped := ( strip_infix (substitute blockquote (substitute spacedDash
    (substitute heading text)))).sublist.count_le c
  have quoted := count_substituteFrom_le shrinking_blockquote.proper noneQuoted none
    (substitute spacedDash (substitute heading text))
  have dashed := count_substituteFrom_le shrinking_spacedDash.proper onlyComma none
    (substitute heading text)
  have headed := count_substituteFrom_le shrinking_heading.proper noneLeft none text
  exact Nat.le_trans stripped (Nat.le_trans quoted (Nat.le_trans dashed headed))

/-- Passes that leave as many delimiters as a run has, and would have to take off more than a text
has besides, match nowhere in the text. -/
theorem noMatch_of_kept {passes : List Pass} (unmark : ∀ pass ∈ passes, Unmarks pass)
    {text : List Char}
    (kept : ∀ pass ∈ passes, run.count pass.delimiter ≤
      (passes.foldl (fun clean pass => substitute pass.pattern clean) text).count pass.delimiter)
    (few : ∀ pass ∈ passes,
      text.count pass.delimiter < run.count pass.delimiter + 2 * (pass.count + 1)) :
    ∀ pass ∈ passes, NoMatch pass.pattern none text := by
  induction passes with
  | nil =>
      intro pass passMem
      cases passMem
  | cons first passes ih =>
      have unmarks := unmark first List.mem_cons_self
      have unmarkLater : ∀ pass ∈ passes, Unmarks pass :=
        fun pass passMem => unmark pass (List.mem_cons_of_mem first passMem)
      rcases delimiters_substituteFrom unmarks.unwraps unmarks.proper none text with same | fewer
      · have unchanged : substitute first.pattern text = text := same
        rw [List.foldl_cons, unchanged] at kept
        have later := ih unmarkLater
          (fun pass passMem => kept pass (List.mem_cons_of_mem first passMem))
          (fun pass passMem => few pass (List.mem_cons_of_mem first passMem))
        intro pass passMem
        rcases List.mem_cons.mp passMem with rfl | isLater
        · exact (substitute_eq_self_iff unmarks.shrinking).mp unchanged
        · exact later pass isLater
      · have enough := kept first List.mem_cons_self
        have most := count_unmarking_le unmarkLater first.delimiter (substitute first.pattern text)
        have fewHere := few first List.mem_cons_self
        rw [List.foldl_cons] at enough
        rw [substitute] at most enough
        omega

/-- What is put around a run to break it: marks and spaces. -/
def Padding (text : List Char) : Prop :=
  ∀ c ∈ text, c ≠ '[' ∧ c ≠ ')' ∧ c ≠ '\n'

/-- Padding makes no link of a run that has none. -/
theorem outsideLinks_padded (outside : OutsideLinks [] run []) {left right : List Char}
    (padded : Padding left) (paddedRight : Padding right) : OutsideLinks left run right := by
  constructor
  · intro passed rest length replacement whole hasRest found
    cases rest with
    | nil => exact absurd rfl hasRest
    | cons c rest =>
        have notBracket := (padded c (by rw [whole]; simp)).1
        rw [List.cons_append, markdownLink_of_ne notBracket] at found
        cases found
  · intro passed rest whole hasRest
    cases found : markdownLink none (rest ++ right) with
    | none => rfl
    | some result =>
        rcases result with ⟨length, replacement⟩
        rcases markdownLink_eq_some_iff.mp found with ⟨label, url, more, same, parts, _⟩
        have regrouped : rest ++ right =
            ('[' :: (label ++ ']' :: '(' :: url)) ++ (')' :: more) := by
          rw [same]
          simp
        exfalso
        rcases List.append_eq_append_iff.mp regrouped with
          ⟨others, _, isRight⟩ | ⟨others, isRest, isMore⟩
        · exact (paddedRight ')' (by rw [isRight]; simp)).2.1 rfl
        · cases others with
          | nil =>
              rw [List.nil_append] at isMore
              exact (paddedRight ')' (by rw [← isMore]; simp)).2.1 rfl
          | cons c others =>
              rw [List.cons_append, List.cons.injEq] at isMore
              have alone := outside.inside passed rest whole hasRest
              have isLink : markdownLink none (rest ++ []) =
                  some (label.length + url.length + 4, label ++ ": ".toList ++ url) := by
                rw [markdownLink_eq_some_iff]
                refine ⟨label, url, others, ?_, parts, rfl, rfl⟩
                rw [isRest, ← isMore.1]
                simp
              rw [isLink] at alone
              cases alone

theorem noMatch_markdownLink {left right : List Char} (outside : OutsideLinks left run right)
    (padded : Padding left) (paddedRight : Padding right) :
    NoMatch markdownLink none (left ++ (run ++ right)) := by
  intro passed rest whole hasRest
  have ofPadding : ∀ text, Padding text → ∀ first last, text = first ++ last → last ≠ [] →
      ∀ behind, markdownLink none (last ++ behind) = none := by
    intro text isPadding first last isText hasLast behind
    cases last with
    | nil => exact absurd rfl hasLast
    | cons c last => exact markdownLink_of_ne (isPadding c (by rw [isText]; simp)).1 none _
  change markdownLink none rest = none
  rcases List.append_eq_append_iff.mp whole with ⟨first, _, isBehind⟩ | ⟨last, isLeft, isRest⟩
  · rcases List.append_eq_append_iff.mp isBehind with ⟨more, _, isRight⟩ | ⟨last, isRun, isRest⟩
    · have none := ofPadding right paddedRight more rest isRight hasRest []
      rwa [List.append_nil] at none
    · by_cases noLast : last = []
      · rw [noLast, List.nil_append] at isRest
        have none := ofPadding right paddedRight [] rest (by rw [isRest]; rfl) hasRest []
        rwa [List.append_nil] at none
      · rw [isRest]
        exact outside.inside first last isRun noLast
  · by_cases noLast : last = []
    · rw [noLast, List.nil_append] at isRest
      rw [isRest]
      cases run with
      | nil =>
          rw [List.nil_append] at isRest ⊢
          have none := ofPadding right paddedRight [] right rfl (by rwa [← isRest]) []
          rwa [List.append_nil] at none
      | cons c others => exact outside.inside [] (c :: others) rfl (List.cons_ne_nil c others)
    · rw [isRest]
      exact ofPadding left padded passed last isLeft noLast (run ++ right)

/-- A run that survives is not broken by a message of it and padding: no pass that could take off
too few of its delimiters matches there. -/
theorem noMatch_of_survives (link : LinkRun run) (outside : OutsideLinks [] run [])
    (survives : SurvivesEverywhere run) {left right : List Char} (padded : Padding left)
    (paddedRight : Padding right) (ends : EndsBlank left) (starts : StartsBlank right)
    (unstripped : strip (left ++ (run ++ right)) = left ++ (run ++ right))
    {passes later : List Pass} (split : unmarking = passes ++ later)
    (few : ∀ pass ∈ passes, (left ++ (run ++ right)).count pass.delimiter <
      run.count pass.delimiter + 2 * (pass.count + 1)) :
    ∀ pass ∈ passes, NoMatch pass.pattern none (left ++ (run ++ right)) := by
  have outsideHere := outsideLinks_padded outside padded paddedRight
  have noBreak : '\n' ∉ left ++ (run ++ right) := by
    simp only [List.mem_append, not_or]
    refine ⟨fun isMem => (padded _ isMem).2.2 rfl, ?_, fun isMem => (paddedRight _ isMem).2.2 rfl⟩
    intro isMem
    exact absurd (link.solid _ isMem) (by decide)
  have unlinked : substitute markdownLink (left ++ (run ++ right)) = left ++ (run ++ right) :=
    (substitute_eq_self_iff shrinking_markdownLink).mpr
      (noMatch_markdownLink outsideHere padded paddedRight)
  have whole : run <:+: plainTextBubble (left ++ (run ++ right)) := by
    rcases survives [left ++ (run ++ right)] _ left right List.mem_cons_self rfl ends starts
      outsideHere with ⟨bubble, bubbleMem, isInfix⟩
    rw [cleanParagraphs, List.flatMap_singleton, paragraphs, paragraphsFrom_of_noBreak noBreak,
      List.reverse_nil, List.nil_append, List.map_singleton] at bubbleMem
    rw [← List.mem_singleton.mp (List.mem_filter.mp bubbleMem).1]
    exact isInfix
  have unmark : ∀ pass ∈ passes ++ later, Unmarks pass := by
    rw [← split]
    exact unmarks_unmarking
  apply noMatch_of_kept (fun pass passMem => unmark pass (List.mem_append_left later passMem)) _ few
  intro pass passMem
  have notSpace : pass.delimiter ∉ ", ".toList := by
    have inAll : pass ∈ unmarking := by
      rw [split]
      exact List.mem_append_left later passMem
    simp only [unmarking, List.mem_cons, List.not_mem_nil, or_false] at inAll
    rcases inAll with rfl | rfl | rfl | rfl | rfl <;> decide
  rw [plainTextBubble_eq_unmarking, unstripped, unlinked, split, List.foldl_append] at whole
  have unmarkLater : ∀ other ∈ later, Unmarks other :=
    fun other otherMem => unmark other (List.mem_append_right passes otherMem)
  calc run.count pass.delimiter
      ≤ _ := whole.sublist.count_le pass.delimiter
    _ ≤ _ := count_lines_le notSpace _
    _ ≤ _ := count_unmarking_le unmarkLater pass.delimiter _

/-- The same for a mark before the run, and for one behind it. -/
theorem noMatch_marked (link : LinkRun run) (outside : OutsideLinks [] run [])
    (survives : SurvivesEverywhere run) {mark : List Char} (padded : Padding mark)
    (hasMark : mark ≠ []) (solidMark : ∀ c ∈ mark, isSolid c = true) {passes later : List Pass}
    (split : unmarking = passes ++ later)
    (few : ∀ pass ∈ passes, pass.delimiter ≠ ' ' ∧
      mark.count pass.delimiter < 2 * (pass.count + 1)) :
    ∀ pass ∈ passes, NoMatch pass.pattern none (mark ++ ' ' :: run) ∧
      NoMatch pass.pattern none (run ++ ' ' :: mark) := by
  have solidEnds : ∀ text : List Char, (∀ c, text.head? = some c → isSolid c = true) →
      (∀ c, text.getLast? = some c → isSolid c = true) → strip text = text := by
    intro text firstSolid lastSolid
    apply trim_eq_self_of_ends
    · intro c isFirst
      have solid := firstSolid c isFirst
      rwa [isSolid, Bool.not_eq_true'] at solid
    · intro c isLast
      have solid := lastSolid c isLast
      rwa [isSolid, Bool.not_eq_true'] at solid
  have noPadding : Padding [] := by
    intro c cMem
    cases cMem
  have paddedBefore : Padding (mark ++ [' ']) := by
    intro c cMem
    rcases List.mem_append.mp cMem with inMark | isSpace
    · exact padded c inMark
    · rw [List.mem_singleton.mp isSpace]
      decide
  have paddedBehind : Padding (' ' :: mark) := by
    intro c cMem
    rcases List.mem_cons.mp cMem with rfl | inMark
    · decide
    · exact padded c inMark
  have headSolid : ∀ text rest : List Char, text ≠ [] → (∀ c ∈ text, isSolid c = true) →
      ∀ c, (text ++ rest).head? = some c → isSolid c = true := by
    intro text rest hasText solid c isHead
    rw [List.head?_append_of_ne_nil text hasText] at isHead
    exact solid c (List.mem_of_mem_head? isHead)
  have lastSolid : ∀ text rest : List Char, text ≠ [] → (∀ c ∈ text, isSolid c = true) →
      ∀ c, (rest ++ text).getLast? = some c → isSolid c = true := by
    intro text rest hasText solid c isLast
    rw [List.getLast?_append_of_ne_nil rest hasText] at isLast
    exact solid c (List.mem_of_mem_getLast? isLast)
  intro pass passMem
  constructor
  · have same : mark ++ ' ' :: run = (mark ++ [' ']) ++ (run ++ []) := by simp
    rw [same]
    apply noMatch_of_survives link outside survives paddedBefore noPadding _ _ _ split _ pass
      passMem
    · intro c isLast
      rw [List.getLast?_concat] at isLast
      cases isLast
      rfl
    · intro c isHead
      cases isHead
    · rw [← same]
      apply solidEnds
      · exact headSolid mark _ hasMark solidMark
      · have regrouped : mark ++ ' ' :: run = (mark ++ [' ']) ++ run := by simp
        rw [regrouped]
        exact lastSolid run (mark ++ [' ']) link.ne_nil link.solid
    · intro other otherMem
      rcases few other otherMem with ⟨notSpace, fewMarks⟩
      rw [← same, List.count_append, List.count_cons_of_ne notSpace.symm]
      omega
  · have same : run ++ ' ' :: mark = [] ++ (run ++ ' ' :: mark) := rfl
    rw [same]
    apply noMatch_of_survives link outside survives noPadding paddedBehind _ _ _ split _ pass
      passMem
    · intro c isLast
      cases isLast
    · intro c isHead
      cases isHead
      rfl
    · apply solidEnds
      · exact headSolid run _ link.ne_nil link.solid
      · have regrouped : run ++ ' ' :: mark = (run ++ [' ']) ++ mark := by simp
        rw [List.nil_append, regrouped]
        exact lastSolid mark (run ++ [' ']) hasMark solidMark
    · intro other otherMem
      rcases few other otherMem with ⟨notSpace, fewMarks⟩
      rw [List.nil_append, List.count_append, List.count_cons_of_ne notSpace.symm]
      omega

/-- The last one of a character. -/
theorem exists_last {c : Char} {text : List Char} (cMem : c ∈ text) :
    ∃ first last, text = first ++ c :: last ∧ c ∉ last := by
  rcases List.eq_append_cons_of_mem (List.mem_reverse.mpr cMem) with ⟨last, first, same, notMem⟩
  refine ⟨first.reverse, last.reverse, ?_, fun isMem => notMem (List.mem_reverse.mp isMem)⟩
  rw [← List.reverse_reverse text, same]
  simp

theorem isContent_of_solid {delimiter : Char} {content : List Char}
    (solid : ∀ c ∈ content, isSolid c = true) (notMem : delimiter ∉ content) :
    ∀ c ∈ content, isContent delimiter c = true := by
  intro c cMem
  rw [isContent, decide_eq_true_eq]
  constructor
  · rintro rfl
    exact notMem cMem
  · rintro rfl
    exact absurd (solid _ cMem) (by decide)

theorem not_mem_of_unpaired (link : LinkRun run) {delimiter : Char}
    (solid : isSolid delimiter = true) (unpaired : Unpaired 0 delimiter run) : delimiter ∉ run := by
  intro isMem
  rcases exists_last isMem with ⟨first, last, same, notMem⟩
  have lastSolid : ∀ c ∈ last, isSolid c = true :=
    fun c cMem => link.solid c (by rw [same]; simp [cMem])
  exact unpaired.not_opened solid (isContent_of_solid lastSolid notMem) same

/-- An asterisk in a run makes a pair with one or two behind it. -/
theorem match_of_asterisk (link : LinkRun run) (isMem : '*' ∈ run) :
    ¬ NoMatch strongAsterisk none (run ++ ' ' :: ['*', '*']) ∨
      ¬ NoMatch emphasisAsterisk none (run ++ ' ' :: ['*']) := by
  rcases exists_last isMem with ⟨first, last, same, notMem⟩
  have lastSolid : ∀ c ∈ last, isSolid c = true :=
    fun c cMem => link.solid c (by rw [same]; simp [cMem])
  have allContent : ∀ c ∈ last ++ [' '], isContent '*' c = true := by
    intro c cMem
    rcases List.mem_append.mp cMem with inLast | isSpace
    · exact isContent_of_solid lastSolid notMem c inLast
    · rw [List.mem_singleton.mp isSpace]
      decide
  by_cases again : first.getLast? = some '*'
  · apply Or.inl
    intro noMatch
    rcases List.getLast?_eq_some_iff.mp again with ⟨before, rfl⟩
    have isMatch : unwrap (List.replicate 2 '*') '*' (beforeAfter none before)
        (List.replicate 2 '*' ++ ((last ++ [' ']) ++ (List.replicate 2 '*' ++ []))) =
          some (2 + (last ++ [' ']).length + 2, last ++ [' ']) := by
      rw [unwrap_eq_some_iff]
      exact ⟨[], rfl, by simp, allContent, rfl⟩
    have noPair := noMatch before
      (List.replicate 2 '*' ++ ((last ++ [' ']) ++ (List.replicate 2 '*' ++ [])))
      (by rw [same]; simp [List.replicate_succ]) (by simp)
    have sameMark : List.replicate 2 '*' = ['*', '*'] := rfl
    rw [strongAsterisk, ← sameMark, isMatch] at noPair
    cases noPair
  · apply Or.inr
    intro noMatch
    let text := List.replicate 1 '*' ++ ((last ++ [' ']) ++ (List.replicate 1 '*' ++ []))
    have isMatch : unwrap (List.replicate 1 '*') '*' (beforeAfter none first) text =
        some (1 + (last ++ [' ']).length + 1, last ++ [' ']) := by
      rw [unwrap_eq_some_iff]
      exact ⟨[], rfl, by simp, allContent, rfl⟩
    have noPair := noMatch first text (by rw [same]; simp [text]) (by simp [text])
    have sameMark : List.replicate 1 '*' = ['*'] := rfl
    have notBefore : beforeAfter none first ≠ some '*' := by
      rw [beforeAfter, Option.or_none]
      exact again
    have nothingBehind : text.drop (1 + (last ++ [' ']).length + 1) = [] := by
      apply List.drop_eq_nil_of_le
      simp only [text, List.length_append, List.length_replicate, List.length_nil]
      omega
    rw [emphasisAsterisk, ← sameMark, isMatch] at noPair
    simp only [nothingBehind, List.head?_nil, reduceCtorEq, or_false, if_neg notBefore] at noPair

/-- A link without a Markdown link in it survives in every message exactly if none of its
characters can be one of a pair of marks. -/
theorem survivesEverywhere_iff (link : LinkRun run) (outside : OutsideLinks [] run []) :
    SurvivesEverywhere run ↔ Undelimited run := by
  constructor
  · intro survives
    have noMatch : ∀ {count : Nat} {delimiter : Char} {passes later : List Pass},
        isSolid delimiter = true → delimiter ≠ '[' ∧ delimiter ≠ ')' ∧ delimiter ≠ '\n' →
        unmarking = passes ++ later →
        (∀ pass ∈ passes, pass.delimiter ≠ ' ' ∧
          (List.replicate (count + 1) delimiter).count pass.delimiter < 2 * (pass.count + 1)) →
        ∀ pass ∈ passes,
          NoMatch pass.pattern none (List.replicate (count + 1) delimiter ++ ' ' :: run) ∧
          NoMatch pass.pattern none (run ++ ' ' :: List.replicate (count + 1) delimiter) := by
      intro count delimiter passes later solid padded split few
      apply noMatch_marked link outside survives _ (by simp) _ split few
      · intro c cMem
        rw [List.eq_of_mem_replicate cMem]
        exact padded
      · intro c cMem
        rw [List.eq_of_mem_replicate cMem]
        exact solid
    have unpaired : ∀ count delimiter,
        (⟨count, delimiter, unwrap (List.replicate (count + 1) delimiter) delimiter⟩ : Pass) ∈
          unmarking → delimiter ≠ '[' ∧ delimiter ≠ ')' ∧ delimiter ≠ '\n' →
        (∀ pass ∈ unmarking, pass.delimiter ≠ ' ' ∧
          (List.replicate (count + 1) delimiter).count pass.delimiter < 2 * (pass.count + 1)) →
        Unpaired count delimiter run := by
      intro count delimiter isPass padded few
      have solid := (unmarks_unmarking _ isPass).solid
      rcases noMatch solid padded (List.append_nil unmarking).symm few _ isPass with
        ⟨before, behind⟩
      exact ⟨before, behind⟩
    constructor
    · intro isMem
      rcases match_of_asterisk link isMem with strong | emphasis
      · apply strong
        exact (@noMatch 1 '*' [⟨1, '*', strongAsterisk⟩] _ (by decide) (by decide) rfl (by decide) _
          List.mem_cons_self).2
      · apply emphasis
        exact (@noMatch 0 '*' unmarking [] (by decide) (by decide) (List.append_nil unmarking).symm
          (by decide) ⟨0, '*', emphasisAsterisk⟩ (by simp [unmarking])).2
    · apply not_mem_of_unpaired link (by decide)
      exact unpaired 0 (Char.ofNat 96) (by simp [unmarking, inlineCode]) (by decide) (by decide)
    · exact unpaired 1 '_' (by simp [unmarking, strongUnderscore]) (by decide) (by decide)
    · exact unpaired 1 '~' (by simp [unmarking, strikethrough]) (by decide) (by decide)
  · exact survives_of_undelimited link

end Survives

/-- A link with a single underscore. -/
def plainLink : List Char :=
  "https://dot.example/a/b_c".toList

/-- A link with a token between underscores. -/
def tokenLink : List Char :=
  "https://dot.example/a__b__c".toList

theorem outsideLinks_of_noBracket {run : List Char} (noBracket : '[' ∉ run) :
    OutsideLinks [] run [] := by
  constructor
  · intro passed rest length replacement whole hasRest
    exact absurd (List.append_eq_nil_iff.mp whole.symm).2 hasRest
  · intro passed rest whole hasRest
    cases rest with
    | nil => exact absurd rfl hasRest
    | cons c rest =>
        apply markdownLink_of_ne
        rintro rfl
        exact noBracket (by rw [whole]; simp)

theorem plainLink_survives : SurvivesEverywhere plainLink := by
  have link : LinkRun plainLink := ⟨by decide, by decide⟩
  apply (survivesEverywhere_iff link (outsideLinks_of_noBracket (by decide))).mpr
  constructor
  · decide
  · decide
  · exact unpaired_of_count (by decide) (by decide)
  · exact unpaired_of_count (by decide) (by decide)

/-- Cleaning takes the underscores out of a bare link. -/
theorem tokenLink_broken :
    LinkRun tokenLink ∧ OutsideLinks [] tokenLink [] ∧
      cleanParagraphs [tokenLink] = ["https://dot.example/abc".toList] ∧
      ¬ ∃ bubble ∈ cleanParagraphs [tokenLink], tokenLink <:+: bubble := by
  have bubbles : cleanParagraphs [tokenLink] = ["https://dot.example/abc".toList] := by
    decide
  refine ⟨⟨by decide, by decide⟩, outsideLinks_of_noBracket (by decide), bubbles, ?_⟩
  rintro ⟨bubble, bubbleMem, isInfix⟩
  rw [bubbles, List.mem_singleton] at bubbleMem
  have shorter := isInfix.length_le
  rw [bubbleMem] at shorter
  exact absurd shorter (by decide)

end DotBackend.Agents
