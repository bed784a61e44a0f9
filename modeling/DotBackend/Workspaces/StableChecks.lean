import DotBackend.Data.IsoFormat
import DotBackend.Data.Rebuild
import DotBackend.Data.Rounding
import DotBackend.Data.SpacedText
import DotBackend.Workspaces.SplitExpenses

/-!
# Checks that accept what they return

Each check of a member brings its value to one spelling: texts lose spare whitespace, dates
and times are written in one of the formats that are read, and numbers keep four places. A value
that was brought there is accepted and stays as it is.
-/

namespace DotBackend.Workspaces

open Data

variable {value : Json} {field : String} {maxLength : Nat}

/-- The library that reads dates and times, and rounds, as Python does. -/
def Library.python (library : Library) : Library where
  toUnicode := library.toUnicode
  upper := library.upper
  round4 := Data.round4
  date text := (Iso.readDate text.toList).map fun date => String.ofList (Iso.writeDate date)
  time text := (Iso.readTime text.toList).map fun time => String.ofList (Iso.writeTime time)
  knowsZone := library.knowsZone
  str := library.str

theorem date_python {library : Library} {value date : String}
    (reads : library.python.date value = some date) : library.python.date date = some date := by
  simp only [Library.python, Option.map_eq_some_iff] at reads ⊢
  rcases reads with ⟨found, reads, rfl⟩
  have again := Iso.readDate_writeDate (Iso.valid_of_readDate reads)
  exact ⟨found, by rwa [String.toList_ofList], rfl⟩

theorem time_python {library : Library} {value time : String}
    (reads : library.python.time value = some time) : library.python.time time = some time := by
  simp only [Library.python, Option.map_eq_some_iff] at reads ⊢
  rcases reads with ⟨found, reads, rfl⟩
  have again := Iso.readTime_writeTime (Iso.valid_of_readTime reads)
  exact ⟨found, by rwa [String.toList_ofList], rfl⟩

/-- Of a supported number, a float is kept that rounds to itself and is supported. -/
theorem round4_supported (supported : isSupported value = true) :
    isSupported (.float (round4 value)) = true ∧ round4 (.float (round4 value)) = round4 value := by
  have within : ∀ {isNegative : Bool} {size : Nat}, size ≤ 1000000000 * 10 ^ 4 →
      isSupported (.float (places isNegative size)) = true := by
    intro isNegative size small
    have bounds := @finiteValue_places_le isNegative size 1000000000 small
    simpa [isSupported, places] using bounds
  unfold isSupported at supported
  split at supported
  · rename_i number
    rw [Bool.and_eq_true, decide_eq_true_eq, decide_eq_true_eq] at supported
    constructor
    · apply within
      omega
    · exact round4_places _ _
  · rename_i digits isFloat
    rw [Bool.and_eq_true, decide_eq_true_eq, decide_eq_true_eq] at supported
    constructor
    · apply within
      apply natAbs_roundHalfEven_le
      · exact_mod_cast supported.1
      · exact_mod_cast supported.2
    · exact round4_places _ _
  · cases supported

/-! ## Texts -/

theorem clean_clean (value : String) : clean (clean value) = clean value := by
  rw [clean, clean, String.toList_ofList, Text.strip_singleSpaced, Text.singleSpaced_singleSpaced]

theorem text_eq_ok {found : String}  :
    text value field maxLength = .ok found ↔ ∃ raw, value = .str raw ∧ clean raw = found ∧
      found ≠ "" ∧ found.length ≤ maxLength := by
  constructor
  · intro isText
    unfold text at isText
    split at isText
    · rename_i raw
      simp only [bind_eq_ok, require_eq_ok, pure_eq_ok, Bool.and_eq_true, decide_eq_true_eq] at isText
      rcases isText with ⟨_, ⟨visible, fits⟩, rfl⟩
      exact ⟨raw, rfl, rfl, visible, fits⟩
    · cases isText
  · rintro ⟨raw, rfl, rfl, visible, fits⟩
    simp [text, require, visible, fits, bind, Except.bind, pure, Except.pure]

theorem text_again {found : String} (isText : text value field maxLength = .ok found) :
    text (.str found) field maxLength = .ok found := by
  rw [text_eq_ok] at isText ⊢
  rcases isText with ⟨raw, rfl, rfl, visible, fits⟩
  exact ⟨clean raw, rfl, clean_clean raw, visible, fits⟩

theorem stable_text (field : String) (maxLength : Nat) :
    Stable fun value => (text value field maxLength).map Json.str := by
  intro value found checked
  rw [map_eq_ok] at checked ⊢
  rcases checked with ⟨kept, isText, rfl⟩
  exact ⟨kept, text_again isText, rfl⟩

theorem optionalText_again {found : Option String}
    (isText : optionalText value maxLength = .ok found) :
    optionalText (orNull found) maxLength = .ok found := by
  unfold optionalText at isText
  split at isText
  · cases isText
    rfl
  · rename_i raw
    split at isText
    · cases isText
      rfl
    · rename_i visible
      simp only [bind_eq_ok, require_eq_ok, pure_eq_ok, decide_eq_true_eq] at isText
      rcases isText with ⟨_, fits, rfl⟩
      simp [optionalText, orNull, clean_clean, visible, require, fits, bind, Except.bind, pure,
        Except.pure]
  · cases isText

theorem stable_optionalText (maxLength : Nat) :
    Stable fun value => (optionalText value maxLength).map orNull := by
  intro value found checked
  rw [map_eq_ok] at checked ⊢
  rcases checked with ⟨kept, isText, rfl⟩
  exact ⟨kept, optionalText_again isText, rfl⟩

theorem stable_textOrEmpty (maxLength : Nat) :
    Stable fun value => (textOrEmpty value maxLength).map Json.str := by
  intro value found checked
  simp only [map_eq_ok, textOrEmpty, bind_eq_ok, pure_eq_ok] at checked ⊢
  rcases checked with ⟨_, ⟨kept, isText, rfl⟩, rfl⟩
  have again := optionalText_again isText
  cases kept with
  | none => exact ⟨"", ⟨none, rfl, rfl⟩, rfl⟩
  | some kept => exact ⟨kept, ⟨some kept, again, rfl⟩, rfl⟩

/-! ## Choices, dates and numbers -/

theorem stable_boolean (field : String) : Stable fun value => (boolean value field).map Json.bool := by
  intro value found checked
  rw [map_eq_ok] at checked ⊢
  rcases checked with ⟨kept, _, rfl⟩
  exact ⟨kept, rfl, rfl⟩

/-- A value that is kept if it passes a check. -/
def keepIf (passes : Json → Bool) (message : String) (value : Json) : Except String Json := do
  require (passes value) message
  pure value

theorem keepIf_eq_ok {passes : Json → Bool} {message : String} {found : Json} :
    keepIf passes message value = .ok found ↔ passes value = true ∧ value = found := by
  simp only [keepIf, bind_eq_ok, require_eq_ok, pure_eq_ok, exists_const]

theorem stable_keepIf (passes : Json → Bool) (message : String) : Stable (keepIf passes message) := by
  intro value found checked
  rw [keepIf_eq_ok] at checked ⊢
  rcases checked with ⟨accepted, rfl⟩
  exact ⟨accepted, rfl⟩

section Library

variable (library : Library)

theorem requiredDate_again {date : String}
    (isDate : requiredDate library.python value = .ok date) :
    requiredDate library.python (.str date) = .ok date := by
  unfold requiredDate at isDate
  split at isDate
  · split at isDate
    · rename_i found reads
      cases isDate
      simp only [requiredDate, date_python reads]
    · cases isDate
  · cases isDate

theorem stable_requiredDate : Stable fun value => (requiredDate library.python value).map Json.str := by
  intro value found checked
  rw [map_eq_ok] at checked ⊢
  rcases checked with ⟨kept, isDate, rfl⟩
  exact ⟨kept, requiredDate_again library isDate, rfl⟩

theorem stable_optionalDate : Stable fun value => (optionalDate library.python value).map orNull := by
  intro value found checked
  rw [map_eq_ok] at checked ⊢
  rcases checked with ⟨kept, isDate, rfl⟩
  unfold optionalDate at isDate
  split at isDate
  · cases isDate
    exact ⟨none, rfl, rfl⟩
  · rw [map_eq_ok] at isDate
    rcases isDate with ⟨date, isDate, rfl⟩
    refine ⟨some date, ?_, rfl⟩
    simp only [orNull, Option.elim_some, optionalDate, requiredDate_again library isDate]
    rfl

theorem optionalTime_again {time : Option String}
    (isTime : optionalTime library.python value = .ok time) :
    optionalTime library.python (orNull time) = .ok time := by
  unfold optionalTime at isTime
  split at isTime
  · cases isTime
    rfl
  · split at isTime
    · rename_i found reads
      cases isTime
      simp only [orNull, Option.elim_some, optionalTime, time_python reads]
    · cases isTime
  · cases isTime

theorem stable_optionalTime : Stable fun value => (optionalTime library.python value).map orNull := by
  intro value found checked
  rw [map_eq_ok] at checked ⊢
  rcases checked with ⟨kept, isTime, rfl⟩
  exact ⟨kept, optionalTime_again library isTime, rfl⟩

theorem number_again {kept : PyFloat}
    (isNumber : number library.python value field = .ok kept) :
    number library.python (.float kept) field = .ok kept := by
  have rounded : isSupported value = true ∧ round4 value = kept := by
    unfold number at isNumber
    split at isNumber
    · simp only [bind_eq_ok, require_eq_ok, pure_eq_ok, exists_const] at isNumber
      exact isNumber
    · simp only [bind_eq_ok, require_eq_ok, pure_eq_ok, exists_const] at isNumber
      exact isNumber
    · cases isNumber
  rcases rounded with ⟨supported, rfl⟩
  rcases round4_supported supported with ⟨stillSupported, same⟩
  simp only [number, stillSupported, require]
  exact congrArg Except.ok same

theorem stable_number (field : String) :
    Stable fun value => (number library.python value field).map Json.float := by
  intro value found checked
  rw [map_eq_ok] at checked ⊢
  rcases checked with ⟨kept, isNumber, rfl⟩
  exact ⟨kept, number_again library isNumber, rfl⟩

theorem stable_positiveNumber (field : String) :
    Stable fun value => (positiveNumber library.python value field).map Json.float := by
  intro value found checked
  simp only [map_eq_ok, positiveNumber, bind_eq_ok, require_eq_ok, pure_eq_ok] at checked ⊢
  rcases checked with ⟨_, ⟨kept, isNumber, _, positive, rfl⟩, rfl⟩
  exact ⟨kept, ⟨kept, number_again library isNumber, (), positive, rfl⟩, rfl⟩

/-! ## Lists of texts -/

/-- Texts that were made unique are as the check of a text returns them. -/
theorem text_of_uniqueTextsFrom {values : List Json}
    {result names : List String}
    (checked : ∀ name ∈ result, text (.str name) field maxLength = .ok name)
    (unique : uniqueTextsFrom library field maxLength result values = .ok names) :
    (∀ name ∈ names, text (.str name) field maxLength = .ok name) ∧
      names.length ≤ result.length + values.length := by
  induction values generalizing result with
  | nil =>
      cases unique
      exact ⟨checked, Nat.le_refl _⟩
  | cons value values ih =>
      simp only [uniqueTextsFrom, bind_eq_ok] at unique
      rcases unique with ⟨found, isText, unique⟩
      split at unique
      · rcases ih checked unique with ⟨areTexts, few⟩
        exact ⟨areTexts, by rw [List.length_cons]; omega⟩
      · have foundChecked : ∀ name ∈ result ++ [found], text (.str name) field maxLength = .ok name := by
          intro name nameMem
          rcases List.mem_append.mp nameMem with earlier | last
          · exact checked name earlier
          · rw [List.mem_singleton.mp last]
            exact text_again isText
        rcases ih foundChecked unique with ⟨areTexts, few⟩
        rw [List.length_append, List.length_singleton] at few
        exact ⟨areTexts, by rw [List.length_cons]; omega⟩

/-- Texts that differ but for case are all kept. -/
theorem uniqueTextsFrom_of_pairwise {result names : List String}
    (checked : ∀ name ∈ names, text (.str name) field maxLength = .ok name)
    (apart : (result ++ names).Pairwise fun first second =>
      casefold library first ≠ casefold library second) :
    uniqueTextsFrom library field maxLength result (names.map Json.str) = .ok (result ++ names) := by
  induction names generalizing result with
  | nil => rw [List.append_nil, List.map_nil, uniqueTextsFrom]
  | cons name names ih =>
      rcases List.forall_mem_cons.mp checked with ⟨first, others⟩
      have isNew : (result.any fun other => casefold library other = casefold library name) = false := by
        rw [List.any_eq_false]
        intro other otherMem same
        have differs := (List.pairwise_append.mp apart).2.2 other otherMem name List.mem_cons_self
        exact differs (of_decide_eq_true same)
      have later : (result ++ [name] ++ names).Pairwise fun first second =>
          casefold library first ≠ casefold library second := by
        rwa [List.append_assoc, List.singleton_append]
      have kept := ih others later
      rw [List.append_assoc, List.singleton_append] at kept
      rw [List.map_cons, uniqueTextsFrom, first]
      simp only [bind, Except.bind, isNew, Bool.false_eq_true, if_false, kept]

/-- `_unique_texts` of a value that has to be a list. -/
def uniqueList (field : String) (maxItems maxLength : Nat) (refused : String) (value : Json) :
    Except String Json :=
  match value with
  | .arr values => (uniqueTexts library values field maxItems maxLength).map texts
  | _ => .error refused

theorem stable_uniqueList (field : String) (maxItems maxLength : Nat) (refused : String) :
    Stable (uniqueList library field maxItems maxLength refused) := by
  intro value found checked
  unfold uniqueList at checked
  split at checked
  · simp only [map_eq_ok, uniqueTexts, bind_eq_ok, require_eq_ok, decide_eq_true_eq] at checked
    rcases checked with ⟨names, ⟨_, few, unique⟩, rfl⟩
    rcases text_of_uniqueTextsFrom library (List.forall_mem_nil _) unique with ⟨areTexts, fewer⟩
    have apart := pairwise_uniqueTextsFrom List.Pairwise.nil unique
    have again := uniqueTextsFrom_of_pairwise library areTexts (List.nil_append names ▸ apart)
    rw [List.length_nil, Nat.zero_add] at fewer
    simp only [uniqueList, texts, map_eq_ok, uniqueTexts, bind_eq_ok, require_eq_ok,
      decide_eq_true_eq, List.length_map]
    exact ⟨names, ⟨(), Nat.le_trans fewer few, again⟩, rfl⟩
  · cases checked

end Library

end DotBackend.Workspaces
