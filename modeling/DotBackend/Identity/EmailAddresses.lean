import DotBackend.Data.CleanText
import DotBackend.Identity.Store
import Mathlib.Data.List.Chain

/-!
# Email addresses that are normalised again

Whether an address may be used is checked before its case is folded, and folding may make the part
before the sign longer. An address that was normalised is accepted again, as it is, exactly if that
part still has at most 64 characters.
-/

namespace DotBackend.Identity

open Data

/-! ## Case folding -/

/-- What is known of the case folding of Unicode: it folds what it folded to itself, leaves
something of every character, and makes neither signs, dots, whitespace nor control characters. -/
structure Folding (unicode : Unicode) : Prop where
  again : ∀ c, (unicode.fold c).flatMap unicode.fold = unicode.fold c
  nonempty : ∀ c, unicode.fold c ≠ []
  plain : ∀ c, ∀ d ∈ unicode.fold c,
    d = '@' ∨ d = '.' ∨ Text.isSpace d = true ∨ d.toNat < 32 → d = c

/-- What is known of the codec: it answers in ASCII, and encodes a domain that it answered, in
lower case, as itself. -/
structure Encoding (numbering : Numbering) : Prop where
  ascii : ∀ domain encoded, numbering.idna domain = some encoded → ∀ c ∈ encoded, c.toNat < 128
  again : ∀ domain encoded, numbering.idna domain = some encoded →
    numbering.idna (Text.casefold numbering.unicode encoded) =
      some (Text.casefold numbering.unicode encoded)

section Folds

variable {unicode : Unicode} {text : List Char}

theorem casefold_casefold (folding : Folding unicode) (text : List Char) :
    Text.casefold unicode (Text.casefold unicode text) = Text.casefold unicode text := by
  rw [Text.casefold, Text.casefold, List.flatMap_assoc]
  congr 1
  funext c
  exact folding.again c

/-- Plain characters come from themselves. -/
theorem mem_of_mem_casefold (folding : Folding unicode) {d : Char}
    (dMem : d ∈ Text.casefold unicode text)
    (isPlain : d = '@' ∨ d = '.' ∨ Text.isSpace d = true ∨ d.toNat < 32) : d ∈ text := by
  rcases List.mem_flatMap.mp dMem with ⟨c, cMem, isFold⟩
  rw [folding.plain c d isFold isPlain]
  exact cMem

theorem casefold_ne_nil (folding : Folding unicode) (visible : text ≠ []) :
    Text.casefold unicode text ≠ [] := by
  intro isEmpty
  rcases List.exists_mem_of_ne_nil text visible with ⟨c, cMem⟩
  exact folding.nonempty c (List.flatMap_eq_nil_iff.mp isEmpty c cMem)

/-- The first character of a folded text is not a dot unless that of the text is. -/
theorem head?_casefold (folding : Folding unicode) (notDot : text.head? ≠ some '.') :
    (Text.casefold unicode text).head? ≠ some '.' := by
  intro isDot
  cases text with
  | nil => cases isDot
  | cons c rest =>
      cases folded : unicode.fold c with
      | nil => exact folding.nonempty c folded
      | cons d others =>
          rw [Text.casefold, List.flatMap_cons, folded, List.cons_append, List.head?_cons,
            Option.some.injEq] at isDot
          have dMem : d ∈ unicode.fold c := by
            rw [folded]
            exact List.mem_cons_self
          apply notDot
          rw [List.head?_cons, ← folding.plain c d dMem (Or.inr (Or.inl isDot)), isDot]

theorem getLast?_casefold (folding : Folding unicode) (notDot : text.getLast? ≠ some '.') :
    (Text.casefold unicode text).getLast? ≠ some '.' := by
  intro isDot
  rcases List.eq_nil_or_concat text with rfl | ⟨before, c, rfl⟩
  · cases isDot
  · rw [Text.casefold, List.concat_eq_append, List.flatMap_append, List.flatMap_singleton] at isDot
    rcases List.eq_nil_or_concat (unicode.fold c) with isEmpty | ⟨others, d, folded⟩
    · exact folding.nonempty c isEmpty
    · have dMem : d ∈ unicode.fold c := by simp [folded]
      rw [folded, List.concat_eq_append, ← List.append_assoc, List.getLast?_concat,
        Option.some.injEq] at isDot
      apply notDot
      rw [List.concat_eq_append, List.getLast?_concat,
        ← folding.plain c d dMem (Or.inr (Or.inl isDot)), isDot]

/-- Two characters that are not both dots. -/
def NotDots (a b : Char) : Prop :=
  ¬ (a = '.' ∧ b = '.')

theorem isChain_notDots (text : List Char) :
    text.IsChain NotDots ↔ Text.occurs "..".toList text = false := by
  rw [List.isChain_iff_forall_rel_of_append_cons_cons, ← Bool.not_eq_true, Text.occurs_iff]
  constructor
  · rintro apart ⟨before, after, whole⟩
    have together : text = before ++ '.' :: '.' :: after := by
      rw [← whole, List.append_assoc]
      rfl
    exact apart together ⟨rfl, rfl⟩
  · rintro none a b before after whole ⟨rfl, rfl⟩
    apply none
    refine ⟨before, after, ?_⟩
    rw [whole, List.append_assoc]
    rfl

/-- Folding makes no two dots in a row. -/
theorem occurs_dots_casefold (folding : Folding unicode)
    (apart : Text.occurs "..".toList text = false) :
    Text.occurs "..".toList (Text.casefold unicode text) = false := by
  rw [← isChain_notDots] at apart ⊢
  have blocks : Text.casefold unicode text = (text.map unicode.fold).flatten := by
    rw [Text.casefold, List.flatMap_def]
  have noneEmpty : [] ∉ text.map unicode.fold := by
    intro isEmpty
    rcases List.mem_map.mp isEmpty with ⟨c, _, folded⟩
    exact folding.nonempty c folded
  rw [blocks, List.isChain_flatten noneEmpty, List.forall_mem_map, List.isChain_map]
  constructor
  · intro c _
    by_cases isDot : c = '.'
    · rw [isDot, unicode.fold_ascii '.' (by decide)]
      exact List.isChain_singleton _
    · rw [List.isChain_iff_forall_rel_of_append_cons_cons]
      rintro a b before after folded ⟨rfl, rfl⟩
      apply isDot
      have dotMem : '.' ∈ unicode.fold c := by simp [folded]
      exact (folding.plain c '.' dotMem (Or.inr (Or.inl rfl))).symm
  · apply apart.imp
    rintro a b notDots last lastMem first firstMem ⟨rfl, rfl⟩
    apply notDots
    constructor
    · exact (folding.plain a '.' (List.mem_of_mem_getLast? lastMem) (Or.inr (Or.inl rfl))).symm
    · exact (folding.plain b '.' (List.mem_of_mem_head? firstMem) (Or.inr (Or.inl rfl))).symm

/-- A valid part stays valid when its case is folded, unless it becomes too long. -/
theorem validLocalPart_casefold (folding : Folding unicode) (valid : validLocalPart text = true) :
    validLocalPart (Text.casefold unicode text) = true ↔
      (Text.casefold unicode text).length ≤ 64 := by
  simp only [validLocalPart, Bool.and_eq_true, Bool.not_eq_true', decide_eq_true_eq,
    List.isEmpty_eq_false_iff, ne_eq, List.any_eq_false, Bool.or_eq_true, not_or] at valid ⊢
  rcases valid with ⟨⟨⟨⟨⟨visible, _⟩, first⟩, last⟩, apart⟩, printable⟩
  constructor
  · rintro ⟨⟨⟨⟨⟨_, fits⟩, _⟩, _⟩, _⟩, _⟩
    exact fits
  · intro fits
    refine ⟨⟨⟨⟨⟨casefold_ne_nil folding visible, fits⟩, head?_casefold folding first⟩,
      getLast?_casefold folding last⟩, occurs_dots_casefold folding apart⟩, ?_⟩
    intro d dMem
    constructor
    · intro isSpace
      have inText := mem_of_mem_casefold folding dMem (Or.inr (Or.inr (Or.inl isSpace)))
      exact (printable d inText).1 isSpace
    · intro isControl
      have inText := mem_of_mem_casefold folding dMem (Or.inr (Or.inr (Or.inr isControl)))
      exact (printable d inText).2 isControl

theorem solid_of_validLocalPart (valid : validLocalPart text = true) :
    ∀ c ∈ text, ¬ Text.isSpace c = true := by
  intro c cMem isSpace
  simp only [validLocalPart, Bool.and_eq_true, Bool.not_eq_true', List.any_eq_false] at valid
  apply valid.2 c cMem
  rw [isSpace, Bool.true_or]

end Folds

/-! ## Domains -/

section Domains

variable {unicode : Unicode} {domain : List Char}

/-- A character that is not a dot is in a label. -/
theorem exists_label {c : Char} (cMem : c ∈ domain) (notDot : c ≠ '.') :
    ∃ label ∈ domain.splitOn '.', c ∈ label := by
  induction domain with
  | nil => cases cMem
  | cons d rest ih =>
      rw [List.splitOn_cons_eq_if_modifyHead]
      by_cases isDot : d = '.'
      · rw [if_pos (beq_iff_eq.mpr isDot)]
        have cRest : c ∈ rest := List.mem_of_ne_of_mem (fun same => notDot (same.trans isDot)) cMem
        rcases ih cRest with ⟨label, labelMem, inLabel⟩
        exact ⟨label, List.mem_cons_of_mem [] labelMem, inLabel⟩
      · rw [if_neg (fun same => isDot (beq_iff_eq.mp same))]
        rcases List.exists_cons_of_ne_nil (List.splitOn_ne_nil '.' rest) with
          ⟨first, others, labels⟩
        rw [labels] at ih ⊢
        rw [List.modifyHead_cons]
        rcases List.mem_cons.mp cMem with rfl | cRest
        · exact ⟨c :: first, List.mem_cons_self, List.mem_cons_self⟩
        · rcases ih cRest with ⟨label, labelMem, inLabel⟩
          rcases List.mem_cons.mp labelMem with rfl | isOther
          · exact ⟨d :: label, List.mem_cons_self, List.mem_cons_of_mem d inLabel⟩
          · exact ⟨label, List.mem_cons_of_mem _ isOther, inLabel⟩

theorem plain_of_alphanum {c : Char} (ascii : c.toNat < 128)
    (allowed : c.isAlphanum = true ∨ c = '-' ∨ c = '.') : c ≠ '@' ∧ Text.isSpace c = false := by
  have all : ∀ n < 128, (Char.ofNat n).isAlphanum = true ∨ Char.ofNat n = '-' ∨
      Char.ofNat n = '.' → Char.ofNat n ≠ '@' ∧ Text.isSpace (Char.ofNat n) = false := by
    decide
  have atChar := all c.toNat ascii
  rw [Char.ofNat_toNat] at atChar
  exact atChar allowed

theorem ascii_toLower {c : Char} (ascii : c.toNat < 128) : c.toLower.toNat < 128 := by
  have all : ∀ n < 128, (Char.ofNat n).toLower.toNat < 128 := by decide
  have atChar := all c.toNat ascii
  rw [Char.ofNat_toNat] at atChar
  exact atChar

/-- A domain of valid labels has neither a sign nor whitespace. -/
theorem plain_of_validLabels (ascii : ∀ c ∈ domain, c.toNat < 128)
    (valid : ∀ label ∈ domain.splitOn '.', validLabel unicode label = true) {c : Char}
    (cMem : c ∈ domain) : c ≠ '@' ∧ Text.isSpace c = false := by
  apply plain_of_alphanum (ascii c cMem)
  by_cases isDot : c = '.'
  · exact Or.inr (Or.inr isDot)
  · rcases exists_label cMem isDot with ⟨label, labelMem, inLabel⟩
    have labelValid := valid label labelMem
    rw [validLabel, Bool.and_eq_true, List.all_eq_true] at labelValid
    have allowed := labelValid.2 c inLabel
    rw [Bool.or_eq_true, unicode.alnum_ascii c (ascii c cMem), beq_iff_eq] at allowed
    rcases allowed with isAlnum | isHyphen
    · exact Or.inl isAlnum
    · exact Or.inr (Or.inl isHyphen)

/-- A domain of valid labels does not end in a dot. -/
theorem getLast?_of_validLabels
    (valid : ∀ label ∈ domain.splitOn '.', validLabel unicode label = true) :
    domain.getLast? ≠ some '.' := by
  intro isDot
  rcases List.eq_nil_or_concat domain with rfl | ⟨before, c, rfl⟩
  · cases isDot
  · rw [List.concat_eq_append] at isDot valid
    rw [List.getLast?_concat, Option.some.injEq] at isDot
    rw [isDot, List.splitOn_append_cons_self] at valid
    have emptyLabel := valid [] (List.mem_append_right _ (by simp))
    simp [validLabel] at emptyLabel

end Domains

/-! ## Addresses -/

/-- The part of a handle before the sign. -/
def localPartOf (value : String) : List Char :=
  (Text.strip value.toList).takeWhile (· ≠ '@')

/-- The part of a handle after the sign, without the dots at its end. -/
def domainOf (value : String) : List Char :=
  ((((Text.strip value.toList).dropWhile (· ≠ '@')).drop 1).reverse.dropWhile (· = '.')).reverse

/-- The parts that an accepted address is put together from. -/
theorem normalizeEmailAddress_eq_ok {numbering : Numbering} {value normalized : String} :
    normalizeEmailAddress numbering value = .ok normalized ↔
      (Text.strip value.toList).count '@' = 1 ∧ (Text.strip value.toList).length ≤ 320 ∧
        validLocalPart (localPartOf value) = true ∧
        ∃ encoded, numbering.idna (domainOf value) = some encoded ∧
          Text.casefold numbering.unicode encoded ≠ [] ∧
          (∀ label ∈ (Text.casefold numbering.unicode encoded).splitOn '.',
            validLabel numbering.unicode label = true) ∧
          (Text.casefold numbering.unicode (localPartOf value) ++
            '@' :: Text.casefold numbering.unicode encoded).length ≤ 320 ∧
          normalized = String.ofList (Text.casefold numbering.unicode (localPartOf value) ++
            '@' :: Text.casefold numbering.unicode encoded) := by
  unfold normalizeEmailAddress
  simp only [bind_eq_ok, require_eq_ok, Bool.and_eq_true, decide_eq_true_eq]
  constructor
  · rintro ⟨_, ⟨once, short⟩, _, valid, accepted⟩
    split at accepted
    · cases accepted
    · rename_i encoded isEncoded
      simp only [bind_eq_ok, require_eq_ok, Bool.and_eq_true, Bool.not_eq_true',
        List.isEmpty_eq_false_iff, List.all_eq_true, decide_eq_true_eq, pure_eq_ok] at accepted
      rcases accepted with ⟨_, ⟨visible, labels⟩, _, fits, isNormalized⟩
      exact ⟨once, short, valid, encoded, isEncoded, visible, labels, fits, isNormalized.symm⟩
  · rintro ⟨once, short, valid, encoded, isEncoded, visible, labels, fits, isNormalized⟩
    refine ⟨(), ⟨once, short⟩, (), valid, ?_⟩
    rw [domainOf] at isEncoded
    rw [isEncoded]
    simp only [bind_eq_ok, require_eq_ok, Bool.and_eq_true, Bool.not_eq_true',
      List.isEmpty_eq_false_iff, List.all_eq_true, decide_eq_true_eq, pure_eq_ok]
    exact ⟨(), ⟨visible, labels⟩, (), fits, isNormalized.symm⟩

section Joined

variable {part domain : List Char}

/-- An address without whitespace is not stripped. -/
theorem strip_joined (solid : ∀ c ∈ part ++ domain, Text.isSpace c = false) :
    Text.strip (String.ofList (part ++ '@' :: domain)).toList = part ++ '@' :: domain := by
  have allSolid : ∀ c ∈ part ++ '@' :: domain, Text.isSpace c = false := by
    intro c cMem
    rcases List.mem_append.mp cMem with inPart | later
    · exact solid c (List.mem_append_left _ inPart)
    · rcases List.mem_cons.mp later with rfl | inDomain
      · rfl
      · exact solid c (List.mem_append_right _ inDomain)
  rw [String.toList_ofList]
  apply Text.trim_eq_self_of_ends
  · intro c isFirst
    exact allSolid c (List.mem_of_mem_head? isFirst)
  · intro c isLast
    exact allSolid c (List.mem_of_mem_getLast? isLast)

theorem localPartOf_joined (solid : ∀ c ∈ part ++ domain, Text.isSpace c = false)
    (noSign : '@' ∉ part) : localPartOf (String.ofList (part ++ '@' :: domain)) = part := by
  rw [localPartOf, strip_joined solid, List.takeWhile_append_of_pos]
  · simp
  · intro c cMem
    simp only [ne_eq, decide_eq_true_eq]
    intro isSign
    rw [isSign] at cMem
    exact noSign cMem

theorem domainOf_joined (solid : ∀ c ∈ part ++ domain, Text.isSpace c = false)
    (noSign : '@' ∉ part) (noDot : domain.getLast? ≠ some '.') :
    domainOf (String.ofList (part ++ '@' :: domain)) = domain := by
  have behind : ((part ++ '@' :: domain).dropWhile (· ≠ '@')).drop 1 = domain := by
    rw [List.dropWhile_append_of_pos]
    · simp
    · intro c cMem
      simp only [ne_eq, decide_eq_true_eq]
      intro isSign
      rw [isSign] at cMem
      exact noSign cMem
  rw [domainOf, strip_joined solid, behind]
  rw [← List.head?_reverse] at noDot
  cases reversed : domain.reverse with
  | nil =>
      rw [List.reverse_eq_nil_iff.mp reversed]
      rfl
  | cons c rest =>
      rw [reversed, List.head?_cons, ne_eq, Option.some.injEq] at noDot
      rw [List.dropWhile_cons_of_neg (by simpa using noDot), ← reversed, List.reverse_reverse]

theorem count_joined (noSign : '@' ∉ part) (noOther : '@' ∉ domain) :
    (part ++ '@' :: domain).count '@' = 1 := by
  rw [List.count_append, List.count_cons_self, List.count_eq_zero_of_not_mem noSign,
    List.count_eq_zero_of_not_mem noOther]

end Joined

/-- An address that was accepted is accepted again exactly if the part before the sign has not
become too long, and it is normalised to itself then. -/
theorem normalizeEmailAddress_again_iff {numbering : Numbering} {value normalized : String}
    (folding : Folding numbering.unicode) (encoding : Encoding numbering)
    (accepted : normalizeEmailAddress numbering value = .ok normalized) :
    normalizeEmailAddress numbering normalized = .ok normalized ↔
      (Text.casefold numbering.unicode (localPartOf value)).length ≤ 64 := by
  rcases normalizeEmailAddress_eq_ok.mp accepted with
    ⟨_, _, valid, encoded, isEncoded, visible, labels, fits, isNormalized⟩
  let part := Text.casefold numbering.unicode (localPartOf value)
  let domain := Text.casefold numbering.unicode encoded
  have domainAscii : ∀ c ∈ domain, c.toNat < 128 := by
    intro c cMem
    rcases List.mem_flatMap.mp cMem with ⟨d, dMem, isFold⟩
    have dAscii := encoding.ascii _ encoded isEncoded d dMem
    rw [numbering.unicode.fold_ascii d dAscii, List.mem_singleton] at isFold
    rw [isFold]
    exact ascii_toLower dAscii
  have partSolid : ∀ c ∈ part, Text.isSpace c = false := by
    intro c cMem
    rw [← Bool.not_eq_true]
    intro isSpace
    have inText := mem_of_mem_casefold folding cMem (Or.inr (Or.inr (Or.inl isSpace)))
    exact solid_of_validLocalPart valid c inText isSpace
  have partSign : '@' ∉ part := by
    intro isMem
    have inText := mem_of_mem_casefold folding isMem (Or.inl rfl)
    have notSign := List.mem_takeWhile_imp inText
    simp at notSign
  have solid : ∀ c ∈ part ++ domain, Text.isSpace c = false := by
    intro c cMem
    rcases List.mem_append.mp cMem with inPart | inDomain
    · exact partSolid c inPart
    · exact (plain_of_validLabels domainAscii labels inDomain).2
  have domainSign : '@' ∉ domain := by
    intro isMem
    exact (plain_of_validLabels domainAscii labels isMem).1 rfl
  have stripped := strip_joined solid
  have samePart := localPartOf_joined solid partSign
  have sameDomain := domainOf_joined solid partSign (getLast?_of_validLabels labels)
  have partAgain : Text.casefold numbering.unicode part = part := casefold_casefold folding _
  have domainAgain : Text.casefold numbering.unicode domain = domain := casefold_casefold folding _
  rw [isNormalized, normalizeEmailAddress_eq_ok, stripped, samePart, sameDomain, partAgain,
    validLocalPart_casefold folding valid]
  constructor
  · rintro ⟨_, _, short, _⟩
    exact short
  · intro short
    refine ⟨count_joined partSign domainSign, fits, short, domain,
      encoding.again _ encoded isEncoded, ?_⟩
    rw [domainAgain]
    exact ⟨visible, labels, fits, rfl⟩

end DotBackend.Identity
