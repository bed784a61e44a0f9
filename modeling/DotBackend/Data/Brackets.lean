import DotBackend.Data.JsonCopy
import Mathlib.Order.Basic
import Mathlib.Tactic.IntervalCases

/-!
# Brackets and strings of JSON texts

A reader of a JSON text knows how many brackets are open, and whether it is inside a string.
The text of a value closes whatever it opens; the text of an object that is cut off does not.
-/

namespace DotBackend.Data

inductive ReadingMode
  | outside
  | inside
  /-- Behind a backslash inside a string. -/
  | escaped
  deriving DecidableEq

/-- The number of open brackets, and whether a string is open. -/
structure ReadingPlace where
  depth : Nat
  mode : ReadingMode
  deriving DecidableEq

namespace ReadingPlace

def step : ReadingPlace → Char → ReadingPlace
  | ⟨depth, .outside⟩, c =>
      if c = '"' then ⟨depth, .inside⟩
      else if c = '[' ∨ c = '{' then ⟨depth + 1, .outside⟩
      else if c = ']' ∨ c = '}' then ⟨depth - 1, .outside⟩
      else ⟨depth, .outside⟩
  | ⟨depth, .inside⟩, c =>
      if c = '"' then ⟨depth, .outside⟩
      else if c = '\\' then ⟨depth, .escaped⟩
      else ⟨depth, .inside⟩
  | ⟨depth, .escaped⟩, _ => ⟨depth, .inside⟩

/-- Where the reader of a text ends. -/
def after (place : ReadingPlace) (text : List Char) : ReadingPlace :=
  text.foldl step place

theorem after_append (place : ReadingPlace) (first second : List Char) :
    place.after (first ++ second) = (place.after first).after second :=
  List.foldl_append

end ReadingPlace

/-- No bracket and no string is open at the end of a text. -/
def AllClosed (text : List Char) : Prop :=
  ReadingPlace.after ⟨0, .outside⟩ text = ⟨0, .outside⟩

instance (text : List Char) : Decidable (AllClosed text) :=
  inferInstanceAs (Decidable (_ = _))

/-! ## Texts that keep the place of the reader -/

/-- A text closes what it opens, and nothing else. -/
structure Keeps (mode : ReadingMode) (text : List Char) : Prop where
  ends : ∀ depth, ReadingPlace.after ⟨depth, mode⟩ text = ⟨depth, mode⟩
  stays : ∀ depth initial, initial <+: text →
    depth ≤ (ReadingPlace.after ⟨depth, mode⟩ initial).depth

namespace Keeps

variable {mode : ReadingMode} {first second text : List Char}

theorem nil : Keeps mode [] where
  ends _ := rfl
  stays depth initial isPrefix := by
    rw [List.prefix_nil.mp isPrefix]
    exact le_refl depth

theorem append (keepsFirst : Keeps mode first) (keepsSecond : Keeps mode second) :
    Keeps mode (first ++ second) where
  ends depth := by
    rw [ReadingPlace.after_append, keepsFirst.ends, keepsSecond.ends]
  stays depth initial isPrefix := by
    rcases List.prefix_or_prefix_of_prefix isPrefix (List.prefix_append first second) with
      short | ⟨more, rfl⟩
    · exact keepsFirst.stays depth initial short
    · rw [ReadingPlace.after_append, keepsFirst.ends]
      exact keepsSecond.stays depth more ((List.prefix_append_right_inj first).mp isPrefix)

theorem flatMap {α : Type} {items : List α} {print : α → List Char}
    (keeps : ∀ item ∈ items, Keeps mode (print item)) : Keeps mode (items.flatMap print) := by
  induction items with
  | nil => exact nil
  | cons item rest ih =>
      rw [List.flatMap_cons]
      apply (keeps item List.mem_cons_self).append
      exact ih fun other otherMem => keeps other (List.mem_cons_of_mem item otherMem)

/-- A character that the reader passes over. -/
theorem single {c : Char} (passes : ∀ depth, ReadingPlace.step ⟨depth, mode⟩ c = ⟨depth, mode⟩) :
    Keeps mode [c] where
  ends depth := passes depth
  stays depth initial isPrefix := by
    rcases List.prefix_cons_iff.mp isPrefix with rfl | ⟨rest, rfl, isNil⟩
    · exact le_refl depth
    · rw [List.prefix_nil.mp isNil]
      exact le_of_eq (congrArg ReadingPlace.depth (passes depth)).symm

theorem of_chars (passes : ∀ c ∈ text, ∀ depth,
    ReadingPlace.step ⟨depth, mode⟩ c = ⟨depth, mode⟩) : Keeps mode text := by
  rw [← List.flatMap_singleton' text]
  exact flatMap fun c isMem => single (passes c isMem)

/-- A prefix of a text between delimiters is empty, ends before the second delimiter, or is the
whole text. -/
theorem prefix_enclosed {initial : List Char} {opening closing : Char}
    (isPrefix : initial <+: opening :: (text ++ [closing])) :
    initial = [] ∨ (∃ rest, initial = opening :: rest ∧ rest <+: text) ∨
      initial = opening :: (text ++ [closing]) := by
  rcases List.prefix_cons_iff.mp isPrefix with rfl | ⟨rest, rfl, isRest⟩
  · exact Or.inl rfl
  · rcases List.prefix_concat_iff.mp isRest with rfl | inText
    · exact Or.inr (Or.inr rfl)
    · exact Or.inr (Or.inl ⟨rest, rfl, inText⟩)

/-- A text between delimiters, of which the first opens what the second closes. -/
theorem enclosed {inner : ReadingMode} {opened : Nat} {opening closing : Char}
    (opens : ∀ depth, ReadingPlace.step ⟨depth, mode⟩ opening = ⟨depth + opened, inner⟩)
    (closes : ∀ depth, ReadingPlace.step ⟨depth + opened, inner⟩ closing = ⟨depth, mode⟩)
    (keeps : Keeps inner text) : Keeps mode (opening :: (text ++ [closing])) := by
  have ends : ∀ depth,
      ReadingPlace.after ⟨depth, mode⟩ (opening :: (text ++ [closing])) = ⟨depth, mode⟩ := by
    intro depth
    rw [ReadingPlace.after, List.foldl_cons, opens, List.foldl_append]
    rw [show List.foldl ReadingPlace.step ⟨depth + opened, inner⟩ text =
      ⟨depth + opened, inner⟩ from keeps.ends (depth + opened)]
    exact closes depth
  refine ⟨ends, ?_⟩
  intro depth initial isPrefix
  rcases prefix_enclosed isPrefix with rfl | ⟨rest, rfl, isRest⟩ | rfl
  · exact le_refl depth
  · rw [ReadingPlace.after, List.foldl_cons, opens]
    exact (Nat.le_add_right depth opened).trans (keeps.stays (depth + opened) rest isRest)
  · exact le_of_eq (congrArg ReadingPlace.depth (ends depth)).symm

end Keeps

/-- A text in brackets that is cut off leaves a bracket open. -/
theorem not_allClosed_of_prefix {text initial : List Char} {opening closing : Char}
    (opens : ∀ depth, ReadingPlace.step ⟨depth, .outside⟩ opening = ⟨depth + 1, .outside⟩)
    (keeps : Keeps .outside text) (isPrefix : initial <+: opening :: (text ++ [closing]))
    (someText : initial ≠ []) (isCut : initial ≠ opening :: (text ++ [closing])) :
    ¬ AllClosed initial := by
  intro closed
  rcases Keeps.prefix_enclosed isPrefix with rfl | ⟨rest, rfl, isRest⟩ | rfl
  · exact someText rfl
  · rw [AllClosed, ReadingPlace.after, List.foldl_cons, opens] at closed
    have stillOpen := keeps.stays 1 rest isRest
    rw [ReadingPlace.after, closed] at stillOpen
    exact absurd stillOpen (by decide)
  · exact isCut rfl

/-! ## Texts of values -/

namespace Json

theorem keeps_escapeChar (c : Char) : Keeps .inside (escapeChar c) := by
  have escape : ∀ letter : Char, Keeps .inside ['\\', letter] := by
    intro letter
    constructor
    · exact fun _ => rfl
    · intro depth initial isPrefix
      rcases List.prefix_cons_iff.mp isPrefix with rfl | ⟨rest, rfl, isRest⟩
      · exact le_refl depth
      · rcases List.prefix_cons_iff.mp isRest with rfl | ⟨last, rfl, isNil⟩
        · exact le_refl depth
        · rw [List.prefix_nil.mp isNil]
          exact le_refl depth
  have isHex : ∀ digit < 16, ∀ depth,
      ReadingPlace.step ⟨depth, .inside⟩ (Nat.digitChar digit) = ⟨depth, .inside⟩ := by
    intro digit small depth
    interval_cases digit <;> rfl
  unfold escapeChar
  split_ifs with isQuote isBackslash isNewline isReturn isTab isBackspace isFeed isControl
  · exact escape _
  · exact escape _
  · exact escape _
  · exact escape _
  · exact escape _
  · exact escape _
  · exact escape _
  · apply (escape 'u').append
    apply Keeps.of_chars
    intro digit digitMem depth
    simp only [hexPair, List.mem_cons, List.not_mem_nil, or_false] at digitMem
    rcases digitMem with rfl | rfl | rfl | rfl
    · rfl
    · rfl
    · exact isHex _ (by omega) depth
    · exact isHex _ (by omega) depth
  · apply Keeps.single
    intro depth
    simp [ReadingPlace.step, isQuote, isBackslash]

theorem opens_bracket (depth : Nat) :
    ReadingPlace.step ⟨depth, .outside⟩ '[' = ⟨depth + 1, .outside⟩ := rfl

theorem closes_bracket (depth : Nat) :
    ReadingPlace.step ⟨depth + 1, .outside⟩ ']' = ⟨depth, .outside⟩ := rfl

theorem opens_brace (depth : Nat) :
    ReadingPlace.step ⟨depth, .outside⟩ '{' = ⟨depth + 1, .outside⟩ := rfl

theorem closes_brace (depth : Nat) :
    ReadingPlace.step ⟨depth + 1, .outside⟩ '}' = ⟨depth, .outside⟩ := rfl

theorem opens_string (depth : Nat) :
    ReadingPlace.step ⟨depth, .outside⟩ '"' = ⟨depth + 0, .inside⟩ := rfl

theorem closes_string (depth : Nat) :
    ReadingPlace.step ⟨depth + 0, .inside⟩ '"' = ⟨depth, .outside⟩ := rfl

theorem passes_comma (depth : Nat) :
    ReadingPlace.step ⟨depth, .outside⟩ ',' = ⟨depth, .outside⟩ := rfl

theorem passes_colon (depth : Nat) :
    ReadingPlace.step ⟨depth, .outside⟩ ':' = ⟨depth, .outside⟩ := rfl

theorem keeps_quote (text : String) : Keeps .outside (quote text) := by
  rw [quote]
  have body : Keeps .inside (text.toList.flatMap escapeChar) :=
    Keeps.flatMap fun c _ => keeps_escapeChar c
  exact body.enclosed opens_string closes_string

/-- A text without brackets and quotation marks. -/
theorem keeps_of_all {isPlain : Char → Bool} {text : List Char} (plain : ∀ c ∈ text, isPlain c = true)
    (notDelimiter : ∀ c ∈ ['"', '[', '{', ']', '}'], isPlain c = false) :
    Keeps .outside text := by
  apply Keeps.of_chars
  intro c isMem depth
  have isOther : ∀ delimiter ∈ ['"', '[', '{', ']', '}'], c ≠ delimiter := by
    rintro delimiter delimiterMem rfl
    exact Bool.false_ne_true ((notDelimiter c delimiterMem).symm.trans (plain c isMem))
  simp only [List.forall_mem_cons] at isOther
  simp [ReadingPlace.step, isOther]

theorem keeps_intText (i : Int) : Keeps .outside (intText i) := by
  have isPlain : ∀ c ∈ intText i, (c.isDigit || c == '-') = true := by
    intro c isMem
    simpa using intText_chars i c isMem
  exact keeps_of_all isPlain (by decide)

theorem keeps_word {text : List Char} (isWord : text.all (fun c => c.isAlpha || c == '-') = true) :
    Keeps .outside text :=
  keeps_of_all (List.all_eq_true.mp isWord) (by decide)

theorem keeps_floatText (f : PyFloat) : Keeps .outside (floatText f) := by
  cases f with
  | finite text ok => exact keeps_of_all (finite_chars ok) (by decide)
  | infinity negative =>
      cases negative
      · exact keeps_word rfl
      · exact keeps_word rfl
  | nan => exact keeps_word rfl

theorem keeps_joinComma {texts : List (List Char)} (keeps : ∀ text ∈ texts, Keeps .outside text) :
    Keeps .outside (joinComma texts) := by
  induction texts with
  | nil => exact Keeps.nil
  | cons text rest ih =>
      have keepsRest := ih fun other otherMem =>
        keeps other (List.mem_cons_of_mem text otherMem)
      cases rest with
      | nil => exact keeps text List.mem_cons_self
      | cons next rest =>
          apply (keeps text List.mem_cons_self).append
          exact (Keeps.single passes_comma).append keepsRest

theorem keeps_memberText {member : String × List Char} (keeps : Keeps .outside member.2) :
    Keeps .outside (memberText member) := by
  apply (keeps_quote member.1).append
  exact (Keeps.single passes_colon).append keeps

theorem keeps_memberTexts {members : List (String × List Char)}
    (keeps : ∀ member ∈ members, Keeps .outside member.2) :
    ∀ text ∈ (sortMembers members).map memberText, Keeps .outside text := by
  intro text textMem
  rcases List.mem_map.mp textMem with ⟨member, memberMem, rfl⟩
  exact keeps_memberText (keeps member (mem_sortMembers.mp memberMem))

mutual

/-- The text of a value closes what it opens. -/
theorem keeps_dumps : ∀ value : Json, Keeps .outside (dumps value)
  | .null => keeps_word rfl
  | .bool true => keeps_word rfl
  | .bool false => keeps_word rfl
  | .int i => keeps_intText i
  | .float f => keeps_floatText f
  | .str s => keeps_quote s
  | .arr items => by
      rw [dumps]
      exact (keeps_joinComma (keeps_dumpsList items)).enclosed opens_bracket closes_bracket
  | .obj fields => by
      rw [dumps]
      exact (keeps_joinComma (keeps_memberTexts (keeps_dumpsFields fields))).enclosed opens_brace
        closes_brace

theorem keeps_dumpsList : ∀ items : List Json, ∀ text ∈ dumpsList items, Keeps .outside text
  | [], _, isMem => absurd isMem List.not_mem_nil
  | item :: rest, text, isMem => by
      rcases List.mem_cons.mp isMem with rfl | isRest
      · exact keeps_dumps item
      · exact keeps_dumpsList rest text isRest

theorem keeps_dumpsFields : ∀ fields : List (String × Json),
    ∀ member ∈ dumpsFields fields, Keeps .outside member.2
  | [], _, isMem => absurd isMem List.not_mem_nil
  | (key, value) :: rest, member, isMem => by
      rcases List.mem_cons.mp isMem with rfl | isRest
      · exact keeps_dumps value
      · exact keeps_dumpsFields rest member isRest

end

/-- The text of an object that is cut off leaves a bracket open. -/
theorem not_allClosed_take {fields : List (String × Json)} {count : Nat} (positive : 0 < count)
    (isLong : count < (dumps (.obj fields)).length) :
    ¬ AllClosed ((dumps (.obj fields)).take count) := by
  have isCut : (dumps (.obj fields)).take count ≠ dumps (.obj fields) := by
    intro same
    have length := congrArg List.length same
    rw [List.length_take, Nat.min_eq_left (Nat.le_of_lt isLong)] at length
    exact Nat.ne_of_lt isLong length
  have isPrefix := List.take_prefix count (dumps (.obj fields))
  rw [dumps] at isCut isPrefix ⊢
  apply not_allClosed_of_prefix opens_brace
    (keeps_joinComma (keeps_memberTexts (keeps_dumpsFields fields))) isPrefix ?_ isCut
  rw [List.take_cons positive]
  exact List.cons_ne_nil _ _

end Json

end DotBackend.Data
