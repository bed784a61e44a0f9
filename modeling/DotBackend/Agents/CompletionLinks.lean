import DotBackend.Agents.TextStyle
import DotBackend.Data.SubstitutionLaws
import Mathlib.Data.List.TakeWhile

/-!
# The links of completion bubbles

The bubbles that announce a finished app carry the address of the app and no other one: wherever
an address starts in such a bubble, it is that of the app from there on. A scheme with nothing
behind it is not an address, and stays.
-/

namespace DotBackend.Agents

open Data Data.Text

/-! ## Where addresses start -/

/-- What is behind the scheme at the start of a text, without regard to case. -/
def behindScheme (text : List Char) : Option (List Char) :=
  (afterPhrase "https://".toList none text <|> afterPhrase "http://".toList none text).map Prod.snd

/-- A text starts with a scheme and goes on with the address behind it. -/
def startsAddress (text : List Char) : Bool :=
  (behindScheme text).any fun address => address.head?.any isSolid

section Phrases

variable {phrase : List Char} {before last : Option Char} {text rest : List Char}

/-- The characters of a phrase are taken off the text. -/
theorem eq_append_of_afterPhrase (found : afterPhrase phrase before text = some (last, rest)) :
    ∃ matched, text = matched ++ rest ∧ matched.length = phrase.length ∧
      ∀ c ∈ matched, ∃ letter ∈ phrase, matchesIgnoringCase letter c = true := by
  induction phrase generalizing before text with
  | nil =>
      cases found
      exact ⟨[], rfl, rfl, by simp⟩
  | cons letter phrase ih =>
      cases text with
      | nil => cases found
      | cons c text =>
          rw [afterPhrase] at found
          split at found
          · rename_i matchesLetter
            rcases ih found with ⟨matched, rfl, sameLength, letters⟩
            refine ⟨c :: matched, rfl, by rw [List.length_cons, sameLength, List.length_cons], ?_⟩
            intro d dMem
            rcases List.mem_cons.mp dMem with rfl | later
            · exact ⟨letter, List.mem_cons_self, matchesLetter⟩
            · rcases letters d later with ⟨other, otherMem, matchesOther⟩
              exact ⟨other, List.mem_cons_of_mem letter otherMem, matchesOther⟩
          · cases found

/-- Whether a phrase is there does not depend on what is before it. -/
theorem afterPhrase_before (before other : Option Char) :
    (afterPhrase phrase before text).map Prod.snd =
      (afterPhrase phrase other text).map Prod.snd := by
  cases phrase with
  | nil => rfl
  | cons letter phrase =>
      cases text with
      | nil => rfl
      | cons c text => rfl

/-- A phrase that no letter of continues with a character is found before that character, if it is
found at all. -/
theorem afterPhrase_append {c : Char} {start more : List Char}
    (apart : ∀ letter ∈ phrase, matchesIgnoringCase letter c = false)
    (found : afterPhrase phrase before (start ++ c :: more) = some (last, rest)) :
    ∃ inside, afterPhrase phrase before start = some (last, inside) ∧
      rest = inside ++ c :: more := by
  induction phrase generalizing before start with
  | nil =>
      cases found
      exact ⟨start, rfl, rfl⟩
  | cons letter phrase ih =>
      have apartLater : ∀ other ∈ phrase, matchesIgnoringCase other c = false := by
        intro other otherMem
        exact apart other (List.mem_cons_of_mem letter otherMem)
      cases start with
      | nil =>
          rw [List.nil_append, afterPhrase, apart letter List.mem_cons_self,
            if_neg Bool.false_ne_true] at found
          cases found
      | cons d start =>
          rw [List.cons_append, afterPhrase] at found
          rw [afterPhrase]
          split at found
          · rename_i matchesLetter
            rw [if_pos matchesLetter]
            exact ih apartLater found
          · cases found

end Phrases

/-- Whitespace matches no letter of a scheme. -/
theorem isSolid_of_letter {letter c : Char} (letterSolid : isSolid letter = true)
    (matchesLetter : matchesIgnoringCase letter c = true) : isSolid c = true := by
  rw [isSolid, Bool.not_eq_true'] at letterSolid ⊢
  rw [← Bool.not_eq_true]
  intro isBlank
  have sameLower : c.toLower = c := by
    unfold Char.toLower
    split
    · rename_i upper
      have lower : 65 ≤ c.toNat ∧ c.toNat ≤ 90 := upper
      simp only [isSpace, Bool.or_eq_true, Bool.and_eq_true, decide_eq_true_eq, beq_iff_eq]
        at isBlank
      omega
    · rfl
  simp only [matchesIgnoringCase, sameLower, Bool.or_eq_true, Bool.and_eq_true, beq_iff_eq]
    at matchesLetter
  rcases matchesLetter with ((same | ⟨_, dotted | dotless⟩) | ⟨_, kelvin⟩) | ⟨_, long⟩
  · rw [same, letterSolid] at isBlank
    cases isBlank
  all_goals simp [isSpace, *] at isBlank

/-- A scheme is a run of characters. -/
theorem eq_append_of_behindScheme {text rest : List Char} (found : behindScheme text = some rest) :
    ∃ scheme, text = scheme ++ rest ∧ scheme ≠ [] ∧ ∀ c ∈ scheme, isSolid c = true := by
  have fromPhrase : ∀ phrase : List Char, phrase ≠ [] → (∀ letter ∈ phrase, isSolid letter = true) →
      ∀ last, afterPhrase phrase none text = some (last, rest) →
        ∃ scheme, text = scheme ++ rest ∧ scheme ≠ [] ∧ ∀ c ∈ scheme, isSolid c = true := by
    intro phrase hasLetters solid last isFound
    rcases eq_append_of_afterPhrase isFound with ⟨scheme, whole, sameLength, letters⟩
    refine ⟨scheme, whole, ?_, ?_⟩
    · rw [← List.length_pos_iff, sameLength]
      exact List.length_pos_iff.mpr hasLetters
    · intro c cMem
      rcases letters c cMem with ⟨letter, letterMem, matchesLetter⟩
      exact isSolid_of_letter (solid letter letterMem) matchesLetter
  rw [behindScheme, Option.map_eq_some_iff] at found
  rcases found with ⟨⟨last, other⟩, isFound, rfl⟩
  rw [Option.orElse_eq_orElse, Option.orElse_eq_or, Option.or_eq_some_iff] at isFound
  rcases isFound with secure | ⟨_, plain⟩
  · exact fromPhrase "https://".toList (by decide) (by decide) last secure
  · exact fromPhrase "http://".toList (by decide) (by decide) last plain

/-- An address is matched with the whole run that it starts. -/
theorem httpUrl_eq (replacement : List Char) (before : Option Char) (text : List Char) :
    httpUrl replacement before text =
      if startsAddress text then some ((text.takeWhile isSolid).length, replacement) else none := by
  have solidRun : ∀ address : List Char,
      (address.takeWhile fun c => ¬ isSpace c) = address.takeWhile isSolid := by
    intro address
    congr 1
    funext c
    simp [isSolid]
  have sameScheme : (afterPhrase "https://".toList before text <|>
      afterPhrase "http://".toList before text).map Prod.snd = behindScheme text := by
    simp only [behindScheme, Option.orElse_eq_orElse, Option.orElse_eq_or, Option.map_or]
    rw [afterPhrase_before before none, afterPhrase_before before none]
  unfold httpUrl
  cases found : (afterPhrase "https://".toList before text <|>
      afterPhrase "http://".toList before text) with
  | none =>
      rw [found, Option.map_none] at sameScheme
      simp [startsAddress, ← sameScheme]
  | some result =>
      rcases result with ⟨last, rest⟩
      rw [found, Option.map_some] at sameScheme
      rcases eq_append_of_behindScheme sameScheme.symm with ⟨scheme, rfl, _, solid⟩
      have wholeRun : (scheme ++ rest).takeWhile isSolid = scheme ++ rest.takeWhile isSolid :=
        List.takeWhile_append_of_pos solid
      simp only [solidRun, startsAddress, ← sameScheme, Option.any_some, wholeRun,
        List.length_append, Nat.add_sub_cancel]
      cases rest with
      | nil => simp
      | cons c rest =>
          by_cases isSolidHead : isSolid c = true
          · simp [isSolidHead]
          · simp [isSolidHead]

/-! ## The run at the start of a text -/

section Replaced

variable {appUrl : List Char}

theorem proper_httpUrl (appUrl : List Char) : Proper (httpUrl appUrl) := by
  intro before text length replacement found
  rw [httpUrl_eq] at found
  split at found
  · rename_i starts
    cases found
    constructor
    · rw [startsAddress, Option.any_eq_true] at starts
      rcases starts with ⟨rest, found, _⟩
      rcases eq_append_of_behindScheme found with ⟨scheme, rfl, hasScheme, solid⟩
      rw [List.takeWhile_append_of_pos solid, List.length_append]
      have positive := List.length_pos_iff.mpr hasScheme
      omega
    · exact (List.takeWhile_prefix isSolid).length_le
  · cases found

/-- What is matched is the run at the start of the text. -/
theorem matched_of_httpUrl {before : Option Char} {matched rest replacement : List Char}
    (found : httpUrl appUrl before (matched ++ rest) = some (matched.length, replacement)) :
    replacement = appUrl ∧ startsAddress (matched ++ rest) = true ∧
      (matched ++ rest).takeWhile isSolid = matched ∧ (∀ c ∈ matched, isSolid c = true) ∧
      ∀ c, rest.head? = some c → isSolid c = false := by
  rw [httpUrl_eq] at found
  split at found
  · rename_i starts
    rw [Option.some.injEq, Prod.mk.injEq] at found
    have wholeRun : (matched ++ rest).takeWhile isSolid = matched := by
      have runPrefix := List.takeWhile_prefix isSolid (l := matched ++ rest)
      have matchedPrefix : matched <+: matched ++ rest := List.prefix_append matched rest
      have oneOfTheOther := List.prefix_of_prefix_length_le runPrefix matchedPrefix
        (Nat.le_of_eq found.1)
      exact oneOfTheOther.eq_of_length found.1
    refine ⟨found.2.symm, starts, wholeRun, ?_, ?_⟩
    · intro c cMem
      rw [← wholeRun] at cMem
      exact List.mem_takeWhile_imp cMem
    · intro c isHead
      cases rest with
      | nil => cases isHead
      | cons d rest =>
          cases isHead
          rw [← Bool.not_eq_true]
          intro isSolidHead
          have longer : (matched ++ c :: rest).takeWhile isSolid =
              matched ++ (c :: rest).takeWhile isSolid := by
            apply List.takeWhile_append_of_pos
            intro d dMem
            rw [← wholeRun] at dMem
            exact List.mem_takeWhile_imp dMem
          rw [wholeRun, List.takeWhile_cons_of_pos isSolidHead] at longer
          have lengths := congrArg List.length longer
          simp at lengths
  · cases found

theorem startsAddress_of_blank {c : Char} {rest : List Char} (blank : isSolid c = false) :
    startsAddress (c :: rest) = false := by
  rw [← Bool.not_eq_true, startsAddress, Option.any_eq_true]
  rintro ⟨address, found, _⟩
  rcases eq_append_of_behindScheme found with ⟨scheme, whole, hasScheme, solid⟩
  cases scheme with
  | nil => exact hasScheme rfl
  | cons d scheme =>
      rw [List.cons_append, List.cons.injEq] at whole
      rw [whole.1, solid d List.mem_cons_self] at blank
      cases blank

/-- Whitespace stays where it is. -/
theorem takeWhile_substituteFrom_of_blank (appUrl : List Char) {rest : List Char}
    (ends : ∀ c, rest.head? = some c → isSolid c = false) (before : Option Char) :
    (substituteFrom (httpUrl appUrl) 0 before rest).takeWhile isSolid = [] := by
  cases rest with
  | nil => rw [substituteFrom_nil, List.takeWhile_nil]
  | cons c rest =>
      have blank := ends c rfl
      have noMatch : httpUrl appUrl before (c :: rest) = none := by
        rw [httpUrl_eq, startsAddress_of_blank blank, if_neg Bool.false_ne_true]
      rw [substituteFrom_of_none noMatch]
      exact List.takeWhile_cons_of_neg (by simp [blank])

/-- The run at the start of what is left: that of the text, if nothing in it is replaced, else a
part of it with the address of the app behind. -/
theorem run_substituteFrom (solidUrl : ∀ c ∈ appUrl, isSolid c = true) (before : Option Char)
    (text : List Char) :
    (substituteFrom (httpUrl appUrl) 0 before text).takeWhile isSolid = text.takeWhile isSolid ∨
    ∃ start replaced, text.takeWhile isSolid = start ++ replaced ∧ replaced ≠ [] ∧
      (substituteFrom (httpUrl appUrl) 0 before text).takeWhile isSolid = start ++ appUrl := by
  induction before, text using substitute_induction (proper_httpUrl appUrl) with
  | nil before => exact Or.inl (by rw [substituteFrom_nil])
  | replaced before matched rest replacement hasMatch found ih =>
      rcases matched_of_httpUrl found with ⟨rfl, _, wholeRun, _, ends⟩
      refine Or.inr ⟨[], matched, wholeRun, hasMatch, ?_⟩
      rw [substituteFrom_of_match (proper_httpUrl replacement) found,
        List.takeWhile_append_of_pos solidUrl, takeWhile_substituteFrom_of_blank replacement ends]
      rw [List.append_nil, List.nil_append]
  | kept before c rest found ih =>
      rw [substituteFrom_of_none found]
      by_cases solid : isSolid c = true
      · rw [List.takeWhile_cons_of_pos solid, List.takeWhile_cons_of_pos solid]
        rcases ih with same | ⟨start, replaced, wholeRun, hasMatch, withUrl⟩
        · exact Or.inl (by rw [same])
        · exact Or.inr ⟨c :: start, replaced, by rw [wholeRun, List.cons_append], hasMatch,
            by rw [withUrl, List.cons_append]⟩
      · rw [List.takeWhile_cons_of_neg solid, List.takeWhile_cons_of_neg solid]
        exact Or.inl rfl

theorem eq_of_matches_h {c : Char} (isLetter : matchesIgnoringCase 'h' c = true) :
    c = 'h' ∨ c = 'H' := by
  have lower : c.toLower = 'h' := by simpa [matchesIgnoringCase] using isLetter
  by_cases ascii : c.toNat < 128
  · have all : ∀ n < 128, (Char.ofNat n).toLower = 'h' →
        Char.ofNat n = 'h' ∨ Char.ofNat n = 'H' := by
      decide
    have atChar := all c.toNat ascii
    rw [Char.ofNat_toNat] at atChar
    exact atChar lower
  · unfold Char.toLower at lower
    split at lower
    · rename_i upper
      have bound : 65 ≤ c.toNat ∧ c.toNat ≤ 90 := upper
      omega
    · exact Or.inl lower

/-- A phrase that starts with the letter of the schemes, and has it nowhere else, is found before
the address of the app if it starts before it. -/
theorem afterPhrase_before_url (tail : List Char) {c : Char} {start more : List Char}
    (isLetter : matchesIgnoringCase 'h' c = true)
    (apart : ∀ letter ∈ tail, matchesIgnoringCase letter 'h' = false ∧
      matchesIgnoringCase letter 'H' = false)
    (hasStart : start ≠ []) {result : Option Char × List Char}
    (found : afterPhrase ('h' :: tail) none (start ++ c :: more) = some result) :
    ∃ last inside, afterPhrase ('h' :: tail) none start = some (last, inside) := by
  rcases result with ⟨last, rest⟩
  cases start with
  | nil => exact absurd rfl hasStart
  | cons d start =>
      rw [List.cons_append, afterPhrase] at found
      rw [afterPhrase]
      split at found
      · rename_i matchesLetter
        rw [if_pos matchesLetter]
        have apartFrom : ∀ letter ∈ tail, matchesIgnoringCase letter c = false := by
          intro letter letterMem
          rcases eq_of_matches_h isLetter with rfl | rfl
          · exact (apart letter letterMem).1
          · exact (apart letter letterMem).2
        rcases afterPhrase_append apartFrom found with ⟨inside, isFound, _⟩
        exact ⟨last, inside, isFound⟩
      · cases found

/-! ## Schemes in longer texts -/

theorem afterPhrase_append_right {phrase : List Char} {before last : Option Char}
    {text rest : List Char} (found : afterPhrase phrase before text = some (last, rest))
    (more : List Char) : afterPhrase phrase before (text ++ more) = some (last, rest ++ more) := by
  induction phrase generalizing before text with
  | nil =>
      cases found
      rfl
  | cons letter phrase ih =>
      cases text with
      | nil => cases found
      | cons c text =>
          rw [afterPhrase] at found
          rw [List.cons_append, afterPhrase]
          split at found
          · rename_i matchesLetter
            rw [if_pos matchesLetter]
            exact ih found
          · cases found

/-- A text does not start with both schemes. -/
theorem secure_eq_none {text : List Char} {result : Option Char × List Char}
    (plain : afterPhrase "http://".toList none text = some result) :
    afterPhrase "https://".toList none text = none := by
  rcases result with ⟨last, rest⟩
  have isColon : ∀ c, matchesIgnoringCase ':' c = true → matchesIgnoringCase 's' c = false := by
    intro c isMatch
    have lower : c.toLower = ':' := by simpa [matchesIgnoringCase] using isMatch
    rw [← Bool.not_eq_true]
    intro isLetter
    simp only [matchesIgnoringCase, lower, Bool.or_eq_true, Bool.and_eq_true, beq_iff_eq]
      at isLetter
    rcases isLetter with ((same | ⟨same, _⟩) | ⟨same, _⟩) | ⟨_, long⟩
    · exact absurd same (by decide)
    · exact absurd same (by decide)
    · exact absurd same (by decide)
    · have isLong : c = Char.ofNat 0x17f := by rw [← long, Char.ofNat_toNat]
      rw [isLong] at lower
      exact absurd lower (by decide)
  -- The fifth character is a colon.
  match text, plain with
  | c₁ :: c₂ :: c₃ :: c₄ :: c₅ :: others, plain =>
      change afterPhrase ['h', 't', 't', 'p', ':', '/', '/'] none _ = _ at plain
      change afterPhrase ['h', 't', 't', 'p', 's', ':', '/', '/'] none _ = _
      simp only [afterPhrase] at plain ⊢
      split at plain
      · split at plain
        · split at plain
          · split at plain
            · split at plain
              · rename_i isMatch
                simp [isColon _ isMatch]
              · cases plain
            · cases plain
          · cases plain
        · cases plain
      · cases plain
  | [], plain => cases plain
  | [c₁], plain => simp [afterPhrase] at plain
  | [c₁, c₂], plain => simp [afterPhrase] at plain
  | [c₁, c₂, c₃], plain => simp [afterPhrase] at plain
  | [c₁, c₂, c₃, c₄], plain => simp [afterPhrase] at plain

theorem behindScheme_append_right {text rest : List Char} (found : behindScheme text = some rest)
    (more : List Char) : behindScheme (text ++ more) = some (rest ++ more) := by
  rw [behindScheme, Option.map_eq_some_iff] at found
  rcases found with ⟨⟨last, other⟩, isFound, rfl⟩
  rw [Option.orElse_eq_orElse, Option.orElse_eq_or, Option.or_eq_some_iff] at isFound
  rcases isFound with secure | ⟨_, plain⟩
  · rw [behindScheme, afterPhrase_append_right secure more]
    rfl
  · have longer := afterPhrase_append_right plain more
    rw [behindScheme, secure_eq_none longer, longer]
    rfl

/-- A scheme with a run behind it starts an address. -/
theorem startsAddress_of_behindScheme {text inside : List Char} (more rest : List Char)
    (found : behindScheme text = some inside) (solid : ∀ c ∈ text ++ more, isSolid c = true)
    (goesOn : inside ++ more ≠ []) : startsAddress (text ++ (more ++ rest)) = true := by
  rw [startsAddress, behindScheme_append_right found, Option.any_some, ← List.append_assoc]
  rcases eq_append_of_behindScheme found with ⟨scheme, rfl, _, _⟩
  cases behind : inside ++ more with
  | nil => exact absurd behind goesOn
  | cons c others =>
      rw [List.cons_append, List.head?_cons, Option.any_some]
      apply solid
      rw [List.append_assoc, behind]
      exact List.mem_append_right scheme List.mem_cons_self

/-- A scheme that starts before the address of the app ends before it. -/
theorem behindScheme_append (isHttp : (behindScheme appUrl).isSome = true) {start rest : List Char}
    (hasStart : start ≠ []) (found : behindScheme (start ++ appUrl) = some rest) :
    ∃ inside, behindScheme start = some inside := by
  have isLetter : ∃ c more, appUrl = c :: more ∧ matchesIgnoringCase 'h' c = true := by
    rw [behindScheme, Option.isSome_map, Option.orElse_eq_orElse, Option.orElse_eq_or,
      Option.isSome_or, Bool.or_eq_true] at isHttp
    cases appUrl with
    | nil => simp [afterPhrase] at isHttp
    | cons c more =>
        refine ⟨c, more, rfl, ?_⟩
        by_contra notLetter
        simp [afterPhrase, notLetter] at isHttp
  rcases isLetter with ⟨c, more, rfl, isLetter⟩
  rw [behindScheme, Option.map_eq_some_iff] at found
  rcases found with ⟨result, isFound, _⟩
  rw [Option.orElse_eq_orElse, Option.orElse_eq_or, Option.or_eq_some_iff] at isFound
  rcases isFound with secure | ⟨_, plain⟩
  · rcases afterPhrase_before_url "ttps://".toList isLetter (by decide) hasStart secure with
      ⟨last, inside, isSecure⟩
    have isSecure : afterPhrase "https://".toList none start = some (last, inside) := isSecure
    exact ⟨inside, by rw [behindScheme, isSecure]; rfl⟩
  · rcases afterPhrase_before_url "ttp://".toList isLetter (by decide) hasStart plain with
      ⟨last, inside, isPlain⟩
    have isPlain : afterPhrase "http://".toList none start = some (last, inside) := isPlain
    cases isSecure : afterPhrase "https://".toList none start with
    | some result => exact ⟨result.2, by rw [behindScheme, isSecure]; rfl⟩
    | none => exact ⟨inside, by rw [behindScheme, isSecure, isPlain]; rfl⟩

/-! ## The links of a bubble -/

/-- Wherever an address starts in a text, with nothing but its run behind it, it is the address of
the app from there on. -/
def OnlyLink (appUrl text : List Char) : Prop :=
  ∀ before run after, text = before ++ run ++ after → (∀ c ∈ run, isSolid c = true) →
    (∀ c, after.head? = some c → isSolid c = false) → startsAddress run = true →
    ∃ earlier start, before = earlier ++ start ∧ start ++ run = appUrl

theorem onlyLink_of_append {text : List Char} (solidUrl : ∀ c ∈ appUrl, isSolid c = true)
    (ends : ∀ c, text.head? = some c → isSolid c = false) (only : OnlyLink appUrl text) :
    OnlyLink appUrl (appUrl ++ text) := by
  intro before run after whole solid runEnds starts
  rw [List.append_assoc] at whole
  rcases List.append_eq_append_iff.mp whole with ⟨more, isBefore, isText⟩ | ⟨more, isUrl, isRun⟩
  · -- The address starts behind the address of the app.
    rw [← List.append_assoc] at isText
    rcases only more run after isText solid runEnds starts with ⟨earlier, start, isMore, whole⟩
    exact ⟨appUrl ++ earlier, start, by rw [isBefore, isMore, List.append_assoc], whole⟩
  · -- It starts inside, and its run ends with it.
    have sameRun : run = more := by
      rw [← takeWhile_run solid runEnds, isRun]
      apply takeWhile_run _ ends
      intro c cMem
      apply solidUrl
      rw [isUrl]
      exact List.mem_append_right before cMem
    exact ⟨[], before, rfl, by rw [sameRun, isUrl]⟩

/-- Where nothing is replaced, no address starts in what is left either. -/
theorem not_startsAddress_of_kept (isHttp : (behindScheme appUrl).isSome = true)
    (solidUrl : ∀ c ∈ appUrl, isSolid c = true) {before : Option Char} {c : Char}
    {rest run after : List Char} (kept : httpUrl appUrl before (c :: rest) = none)
    (whole : c :: substituteFrom (httpUrl appUrl) 0 (some c) rest = run ++ after)
    (solid : ∀ c ∈ run, isSolid c = true)
    (ends : ∀ c, after.head? = some c → isSolid c = false) : startsAddress run = false := by
  rw [← Bool.not_eq_true]
  intro starts
  have noAddress : ¬ startsAddress (c :: rest) = true := by
    intro startsHere
    rw [httpUrl_eq, if_pos startsHere] at kept
    cases kept
  have isRun := takeWhile_run solid ends
  rw [← whole] at isRun
  rw [startsAddress, Option.any_eq_true] at starts
  rcases starts with ⟨address, found, goesOn⟩
  have hasAddress : address ≠ [] := by
    rintro rfl
    cases goesOn
  by_cases solidHead : isSolid c = true
  · rw [List.takeWhile_cons_of_pos solidHead] at isRun
    have solidText : ∀ d ∈ c :: rest.takeWhile isSolid, isSolid d = true := by
      intro d dMem
      rcases List.mem_cons.mp dMem with rfl | later
      · exact solidHead
      · exact List.mem_takeWhile_imp later
    rcases run_substituteFrom solidUrl (some c) rest with
      same | ⟨start, replaced, isText, hasMatch, same⟩
    · apply noAddress
      rw [same] at isRun
      have goes := startsAddress_of_behindScheme [] (rest.dropWhile isSolid) found
        (by rwa [List.append_nil, ← isRun]) (by rwa [List.append_nil])
      rw [List.nil_append, ← isRun, List.cons_append, List.takeWhile_append_dropWhile] at goes
      exact goes
    · apply noAddress
      rw [same] at isRun
      rw [← isRun, ← List.cons_append] at found
      rcases behindScheme_append isHttp (List.cons_ne_nil c start) found with ⟨inside, isFound⟩
      have goes := startsAddress_of_behindScheme replaced (rest.dropWhile isSolid) isFound
        (by rwa [List.cons_append, ← isText])
        (List.append_ne_nil_of_right_ne_nil inside hasMatch)
      rw [← List.append_assoc, List.cons_append, ← isText, List.cons_append,
        List.takeWhile_append_dropWhile] at goes
      exact goes
  · rw [List.takeWhile_cons_of_neg solidHead] at isRun
    rw [← isRun] at found
    cases found

/-- Wherever an address starts in what is left of a text, it is that of the app. -/
theorem onlyLink_substituteFrom (isHttp : (behindScheme appUrl).isSome = true)
    (solidUrl : ∀ c ∈ appUrl, isSolid c = true) (before : Option Char) (text : List Char) :
    OnlyLink appUrl (substituteFrom (httpUrl appUrl) 0 before text) := by
  induction before, text using substitute_induction (proper_httpUrl appUrl) with
  | nil before =>
      rw [substituteFrom_nil]
      intro earlier run after whole _ _ starts
      have noRun : run = [] := by
        have parts := List.append_eq_nil_iff.mp whole.symm
        exact (List.append_eq_nil_iff.mp parts.1).2
      rw [noRun] at starts
      exact absurd starts (by decide)
  | replaced before matched rest replacement hasMatch found ih =>
      rcases matched_of_httpUrl found with ⟨rfl, _, _, _, ends⟩
      rw [substituteFrom_of_match (proper_httpUrl replacement) found]
      apply onlyLink_of_append solidUrl _ ih
      intro c isHead
      have noRun := takeWhile_substituteFrom_of_blank replacement ends
        (beforeAfter before matched)
      rw [← Bool.not_eq_true]
      intro solid
      rw [List.head?_eq_some_iff] at isHead
      rcases isHead with ⟨others, isText⟩
      rw [isText, List.takeWhile_cons_of_pos solid] at noRun
      cases noRun
  | kept before c rest found ih =>
      rw [substituteFrom_of_none found]
      intro earlier run after whole solid ends starts
      cases earlier with
      | nil =>
          rw [List.nil_append] at whole
          rw [not_startsAddress_of_kept isHttp solidUrl found whole solid ends] at starts
          cases starts
      | cons d earlier =>
          rw [List.cons_append, List.cons_append, List.cons.injEq] at whole
          rcases ih earlier run after whole.2 solid ends starts with
            ⟨first, start, rfl, isUrl⟩
          exact ⟨d :: first, start, rfl, isUrl⟩

end Replaced

/-! ## Completion bubbles -/

/-- An address of an app: an http or https address without whitespace and without backslashes. -/
structure AppAddress (appUrl : List Char) : Prop where
  http : (behindScheme appUrl).isSome = true
  solid : ∀ c ∈ appUrl, isSolid c = true
  plain : '\\' ∉ appUrl

theorem onlyLink_self {appUrl : List Char} (solid : ∀ c ∈ appUrl, isSolid c = true) :
    OnlyLink appUrl appUrl := by
  have noText : OnlyLink appUrl [] := by
    intro before run after whole _ _ starts
    have noRun : run = [] := by
      have parts := List.append_eq_nil_iff.mp whole.symm
      exact (List.append_eq_nil_iff.mp parts.1).2
    rw [noRun] at starts
    exact absurd starts (by decide)
  have only := onlyLink_of_append solid (by simp) noText
  rw [List.append_nil] at only
  exact only

/-- A run that stands on its own and starts with an address is the address of the app. -/
theorem OnlyLink.eq_of_run {appUrl text before run after : List Char}
    (only : OnlyLink appUrl text) (solidUrl : ∀ c ∈ appUrl, isSolid c = true)
    (whole : text = before ++ run ++ after)
    (begins : ∀ c, before.getLast? = some c → isSolid c = false)
    (solid : ∀ c ∈ run, isSolid c = true)
    (ends : ∀ c, after.head? = some c → isSolid c = false) (starts : startsAddress run = true) :
    run = appUrl := by
  rcases only before run after whole solid ends starts with ⟨earlier, start, rfl, isUrl⟩
  rcases List.eq_nil_or_concat start with rfl | ⟨others, c, rfl⟩
  · exact isUrl
  · have blank := begins c (by simp)
    rw [solidUrl c (by rw [← isUrl]; simp)] at blank
    cases blank

/-- At most twelve bubbles announce an app, one of them has its address, and no other address
starts in them: a run that starts with a scheme and goes on is the address of the app, and where
an address starts inside a run, the run ends as the address of the app does. -/
theorem completion_bubbles_trusted (messages : List (List Char)) {appUrl : List Char}
    (address : AppAddress appUrl) :
    (prepareAppCompletionBubbles messages appUrl).length ≤ 12 ∧
      (∃ bubble ∈ prepareAppCompletionBubbles messages appUrl, appUrl <:+: bubble) ∧
      ∀ bubble ∈ prepareAppCompletionBubbles messages appUrl, OnlyLink appUrl bubble ∧
        ∀ before run after, bubble = before ++ run ++ after →
          (∀ c, before.getLast? = some c → isSolid c = false) → (∀ c ∈ run, isSolid c = true) →
          (∀ c, after.head? = some c → isSolid c = false) → startsAddress run = true →
          run = appUrl := by
  have few : (prepareTextBubbles messages).length ≤ 12 := List.length_take_le 12 _
  have only : ∀ bubble ∈ prepareAppCompletionBubbles messages appUrl, OnlyLink appUrl bubble := by
    have substituted : ∀ bubble ∈ (prepareTextBubbles messages).map (substitute (httpUrl appUrl)),
        OnlyLink appUrl bubble := by
      intro bubble bubbleMem
      rcases List.mem_map.mp bubbleMem with ⟨source, _, rfl⟩
      exact onlyLink_substituteFrom address.http address.solid none source
    intro bubble bubbleMem
    simp only [prepareAppCompletionBubbles] at bubbleMem
    split at bubbleMem
    · exact substituted bubble bubbleMem
    · rcases List.mem_append.mp bubbleMem with earlier | last
      · exact substituted bubble (List.mem_of_mem_take earlier)
      · rw [List.mem_singleton.mp last]
        exact onlyLink_self address.solid
  refine ⟨?_, ?_, ?_⟩
  · simp only [prepareAppCompletionBubbles]
    split
    · rwa [List.length_map]
    · rw [List.length_append, List.length_take, deliveryBubbleSafetyLimit, List.length_singleton]
      omega
  · simp only [prepareAppCompletionBubbles]
    split
    · rename_i hasAddress
      rw [List.any_eq_true] at hasAddress
      rcases hasAddress with ⟨bubble, bubbleMem, occursThere⟩
      exact ⟨bubble, bubbleMem, (occurs_iff appUrl bubble).mp occursThere⟩
    · exact ⟨appUrl, List.mem_append_right _ List.mem_cons_self, List.infix_refl appUrl⟩
  · intro bubble bubbleMem
    have onlyHere := only bubble bubbleMem
    constructor
    · exact onlyHere
    · intro before run after whole begins solid ends starts
      exact onlyHere.eq_of_run address.solid whole begins solid ends starts

def demoUrl : List Char :=
  "https://app.example/a/demo".toList

theorem demoUrl_address : AppAddress demoUrl := by
  constructor
  · decide
  · decide
  · decide

theorem completion_bubbles_trusted_demo :
    AppAddress demoUrl ∧
      prepareAppCompletionBubbles ["ready: xhttp://evil.example".toList] demoUrl =
        ["ready: xhttps://app.example/a/demo".toList] ∧
      OnlyLink demoUrl "ready: xhttps://app.example/a/demo".toList := by
  have bubbles : prepareAppCompletionBubbles ["ready: xhttp://evil.example".toList] demoUrl =
      ["ready: xhttps://app.example/a/demo".toList] := by
    decide
  refine ⟨demoUrl_address, bubbles, ?_⟩
  have trusted := completion_bubbles_trusted ["ready: xhttp://evil.example".toList] demoUrl_address
  rw [bubbles] at trusted
  exact (trusted.2.2 _ List.mem_cons_self).1

/-- A scheme alone is a run that starts with a scheme, and is not the address of the app. -/
theorem bare_scheme_stays :
    AppAddress demoUrl ∧
      ∃ bubble ∈ prepareAppCompletionBubbles ["it starts with http:// as usual".toList] demoUrl,
        ∃ before run after, bubble = before ++ run ++ after ∧
          (∀ c, before.getLast? = some c → isSolid c = false) ∧ (∀ c ∈ run, isSolid c = true) ∧
          (∀ c, after.head? = some c → isSolid c = false) ∧ (behindScheme run).isSome = true ∧
          run ≠ demoUrl := by
  refine ⟨demoUrl_address, "it starts with http:// as usual".toList, by decide,
    "it starts with ".toList, "http://".toList, " as usual".toList, rfl, ?_, by decide, ?_,
    by decide, by decide⟩
  · intro c isLast
    cases isLast
    rfl
  · intro c isHead
    cases isHead
    rfl

end DotBackend.Agents
