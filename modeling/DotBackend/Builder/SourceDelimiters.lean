import DotBackend.Builder.Package
import DotBackend.Data.Nesting

/-!
# The delimiters of a source text

A build is refused before it is compiled if the brackets of its entry point do not match. The check
knows strings and the backslashes in them, but no comments, no text between tags and no regular
expressions: a quotation mark there opens a string. It gives the right answer where each of these
closes the strings and the brackets that it seems to open.
-/

namespace DotBackend.Builder

open Data

/-! ## The check -/

/-- The characters that open a string. -/
def quotationMarks : List Char :=
  "\"'`".toList

/-- What each closing bracket closes. -/
def delimiterPairs : List (Char × Char) :=
  [(')', '('), (']', '['), ('}', '{')]

/-- The brackets that are open, the quotation mark of the string that is open, and whether the next
character stands behind a backslash. -/
structure DelimiterScan where
  stack : List Char
  quote : Option Char
  escaped : Bool
  deriving DecidableEq

/-- One round of the loop of `_balanced_delimiter_issues`; a bracket that closes nothing ends it. -/
def DelimiterScan.step (scan : DelimiterScan) (character : Char) : Option DelimiterScan :=
  match scan.quote with
  | some quote =>
      if scan.escaped then some { scan with escaped := false }
      else if character = '\\' then some { scan with escaped := true }
      else if character = quote then some { scan with quote := none }
      else some scan
  | none =>
      if character ∈ quotationMarks then some { scan with quote := some character }
      else if character ∈ delimiterPairs.map Prod.snd then
        some { scan with stack := character :: scan.stack }
      else
        match delimiterPairs.lookup character, scan.stack with
        | none, _ => some scan
        | some opening, top :: below =>
            if top = opening then some { scan with stack := below } else none
        | some _, [] => none

/-- `_balanced_delimiter_issues`. -/
def balancedDelimiterIssues (value path : String) : List ValidationIssue :=
  match value.toList.foldlM DelimiterScan.step ⟨[], none, false⟩ with
  | none => [⟨"invalid_typescript", "unbalanced delimiter", some path⟩]
  | some scan =>
      if scan.quote.isSome || !scan.stack.isEmpty then
        [⟨"invalid_typescript", "unterminated string or delimiter", some path⟩]
      else []

/-! ## Sources -/

/-- A character of a quotation, behind a backslash or not. -/
inductive QuotedCharacter
  | plain (c : Char)
  | escaped (c : Char)

def QuotedCharacter.text : QuotedCharacter → List Char
  | plain c => [c]
  | escaped c => ['\\', c]

/-- A string with its quotation marks. -/
structure Quotation where
  mark : Char
  isMark : mark ∈ quotationMarks
  characters : List QuotedCharacter
  stays : ∀ c, .plain c ∈ characters → c ≠ mark ∧ c ≠ '\\'

def Quotation.text (quotation : Quotation) : List Char :=
  quotation.mark :: (quotation.characters.flatMap QuotedCharacter.text ++ [quotation.mark])

/-- The lexical parts of a source. What the language excludes inside of a part, such as a line break
in a string, is not excluded here: what holds of all these texts holds of sources. -/
inductive SourcePart
  | code (c : Char) (isCode : c ∉ quotationMarks)
  | regularExpression (inside : List Char)
  | string (quotation : Quotation)
  /-- The text of an attribute, in which backslashes mean themselves. -/
  | jsxAttribute (mark : Char) (inside : List Char)
  /-- A template with its substitutions, which may hold strings and templates again. -/
  | template (inside : List Char)
  | lineComment (inside : List Char)
  | blockComment (inside : List Char)
  | jsxText (inside : List Char)

namespace SourcePart

def text : SourcePart → List Char
  | code c _ => [c]
  | regularExpression inside => '/' :: (inside ++ ['/'])
  | string quotation => quotation.text
  | jsxAttribute mark inside => mark :: (inside ++ [mark])
  | template inside => Char.ofNat 96 :: (inside ++ [Char.ofNat 96])
  | lineComment inside => '/' :: '/' :: (inside ++ ['\n'])
  | blockComment inside => '/' :: '*' :: (inside ++ ['*', '/'])
  | jsxText inside => inside

/-- What is left of a part when strings, templates, comments and text between tags are removed. -/
def remaining : SourcePart → List Char
  | code c _ => [c]
  | regularExpression inside => '/' :: (inside ++ ['/'])
  | _ => []

end SourcePart

/-- The text of a source. -/
def sourceText (source : List SourcePart) : String :=
  String.ofList (source.flatMap SourcePart.text)

/-- The brackets that a source is made of. -/
def bracketsOf : Delimiters Char where
  opens c := c ∈ delimiterPairs.map Prod.snd
  closes c := delimiterPairs.lookup c

/-- The brackets of a source are nested once strings, templates, comments and text between tags are
removed. -/
def IsBalanced (source : List SourcePart) : Prop :=
  Nested bracketsOf (source.flatMap SourcePart.remaining)

instance (source : List SourcePart) : Decidable (IsBalanced source) :=
  inferInstanceAs (Decidable (Nested _ _))

/-- What is left of a text when everything that is quoted in it is removed. -/
inductive Unquoted : List Char → List Char → Prop
  | nil : Unquoted [] []
  | plain {c : Char} {text left : List Char} (isPlain : c ∉ quotationMarks)
      (unquoted : Unquoted text left) : Unquoted (c :: text) (c :: left)
  | quoted {text left : List Char} (quotation : Quotation) (unquoted : Unquoted text left) :
      Unquoted (quotation.text ++ text) left

/-- The quotation marks of a text pair up, and its brackets outside of quotations are nested. -/
def ClosesItself (text : List Char) : Prop :=
  ∃ left, Unquoted text left ∧ Nested bracketsOf left

/-- A part that the check can take for code. -/
def SourcePart.Harmless : SourcePart → Prop
  | code _ _ => True
  | string _ => True
  | regularExpression inside => ∀ c ∈ inside, c ∉ quotationMarks
  | part => ClosesItself part.text

/-! ## What the check reads -/

section Scanning

variable {text left : List Char}

/-- What the check makes of a text outside of strings. -/
def scanText (stack : List Char) (text : List Char) : Option DelimiterScan :=
  text.foldlM DelimiterScan.step ⟨stack, none, false⟩

/-- Some brackets are open, and no string. -/
def outsideOfStrings (stack : List Char) : DelimiterScan :=
  ⟨stack, none, false⟩

theorem foldlM_append_of_eq {first : List Char} {start middle : DelimiterScan}
    (read : first.foldlM DelimiterScan.step start = some middle) (second : List Char) :
    (first ++ second).foldlM DelimiterScan.step start =
      second.foldlM DelimiterScan.step middle := by
  rw [List.foldlM_append, read]
  rfl

/-- Characters of a quotation leave it open. -/
theorem foldlM_quoted {mark : Char} {characters : List QuotedCharacter}
    (stays : ∀ c, .plain c ∈ characters → c ≠ mark ∧ c ≠ '\\') (stack : List Char) :
    (characters.flatMap QuotedCharacter.text).foldlM DelimiterScan.step ⟨stack, some mark, false⟩ =
      some ⟨stack, some mark, false⟩ := by
  induction characters with
  | nil => rfl
  | cons character characters ih =>
      have others := ih fun c cMem => stays c (List.mem_cons_of_mem _ cMem)
      have read : character.text.foldlM DelimiterScan.step ⟨stack, some mark, false⟩ =
          some ⟨stack, some mark, false⟩ := by
        cases character with
        | plain c =>
            rcases stays c List.mem_cons_self with ⟨notMark, notBackslash⟩
            simp [QuotedCharacter.text, DelimiterScan.step, notMark, notBackslash]
        | escaped c => simp [QuotedCharacter.text, DelimiterScan.step]
      rw [List.flatMap_cons, foldlM_append_of_eq read, others]

/-- A quotation opens and closes one string. -/
theorem scanText_quotation (quotation : Quotation) (stack rest : List Char) :
    scanText stack (quotation.text ++ rest) = scanText stack rest := by
  have notBackslash : quotation.mark ≠ '\\' := by
    intro isBackslash
    exact absurd (isBackslash ▸ quotation.isMark) (by decide)
  have read : quotation.text.foldlM DelimiterScan.step ⟨stack, none, false⟩ =
      some ⟨stack, none, false⟩ := by
    have opened : DelimiterScan.step ⟨stack, none, false⟩ quotation.mark =
        some ⟨stack, some quotation.mark, false⟩ := by
      simp [DelimiterScan.step, quotation.isMark]
    have closed : DelimiterScan.step ⟨stack, some quotation.mark, false⟩ quotation.mark =
        some ⟨stack, none, false⟩ := by
      simp [DelimiterScan.step, notBackslash]
    rw [Quotation.text, List.foldlM_cons, opened]
    change List.foldlM DelimiterScan.step _ _ = _
    rw [foldlM_append_of_eq (foldlM_quoted quotation.stays stack), List.foldlM_cons, closed]
    rfl
  exact foldlM_append_of_eq read rest

/-- Outside of strings the check goes by the brackets. -/
theorem step_plain {c : Char} (isPlain : c ∉ quotationMarks) (stack : List Char) :
    DelimiterScan.step ⟨stack, none, false⟩ c = (bracketsOf.step stack c).map outsideOfStrings := by
  simp only [DelimiterScan.step, Delimiters.step, bracketsOf, isPlain, if_false, decide_eq_true_eq]
  by_cases opens : c ∈ delimiterPairs.map Prod.snd
  · rw [if_pos opens, if_pos opens]
    rfl
  · rw [if_neg opens, if_neg opens]
    cases delimiterPairs.lookup c with
    | none => rfl
    | some opening =>
        cases stack with
        | nil => rfl
        | cons top below =>
            by_cases same : top = opening
            · simp [same, outsideOfStrings]
            · simp [same]

/-- The check goes by the brackets that are not quoted. -/
theorem scanText_unquoted (unquoted : Unquoted text left) (stack : List Char) :
    scanText stack text = (bracketsOf.after stack left).map outsideOfStrings := by
  induction unquoted generalizing stack with
  | nil => rfl
  | @plain c text left isPlain _ ih =>
      rw [scanText, List.foldlM_cons, step_plain isPlain, Delimiters.after_cons]
      cases bracketsOf.step stack c with
      | none => rfl
      | some next => exact ih next
  | quoted quotation _ ih =>
      rw [scanText_quotation, ih]

theorem unquoted_self (isPlain : ∀ c ∈ text, c ∉ quotationMarks) : Unquoted text text := by
  induction text with
  | nil => exact Unquoted.nil
  | cons c text ih =>
      rcases List.forall_mem_cons.mp isPlain with ⟨first, others⟩
      exact Unquoted.plain first (ih others)

/-- A harmless part is read as what is left of it. -/
theorem scanText_of_harmless {part : SourcePart} (harmless : part.Harmless) (stack : List Char) :
    scanText stack part.text = (bracketsOf.after stack part.remaining).map outsideOfStrings := by
  have removed : ClosesItself part.text → part.remaining = [] →
      scanText stack part.text = (bracketsOf.after stack part.remaining).map outsideOfStrings := by
    rintro ⟨left, unquoted, nested⟩ nothing
    rw [scanText_unquoted unquoted, nested.after, nothing]
    rfl
  cases part with
  | code c isCode =>
      apply scanText_unquoted
      exact Unquoted.plain isCode Unquoted.nil
  | regularExpression inside =>
      apply scanText_unquoted
      apply unquoted_self
      intro c cMem
      rcases List.mem_cons.mp cMem with rfl | cMem
      · decide
      · rcases List.mem_append.mp cMem with isInside | isLast
        · exact harmless c isInside
        · rw [List.mem_singleton.mp isLast]
          decide
  | string quotation =>
      have read := scanText_quotation quotation stack []
      rw [List.append_nil] at read
      exact read
  | jsxAttribute mark inside => exact removed harmless rfl
  | template inside => exact removed harmless rfl
  | lineComment inside => exact removed harmless rfl
  | blockComment inside => exact removed harmless rfl
  | jsxText inside => exact removed harmless rfl

/-- A source of harmless parts is read as what is left of it. -/
theorem scanText_source {source : List SourcePart} (harmless : ∀ part ∈ source, part.Harmless)
    (stack : List Char) : scanText stack (source.flatMap SourcePart.text) =
      (bracketsOf.after stack (source.flatMap SourcePart.remaining)).map outsideOfStrings := by
  induction source generalizing stack with
  | nil => rfl
  | cons part source ih =>
      rcases List.forall_mem_cons.mp harmless with ⟨first, others⟩
      have read := scanText_of_harmless first stack
      rw [List.flatMap_cons, List.flatMap_cons, Delimiters.after_append, scanText,
        List.foldlM_append, ← scanText, read]
      cases bracketsOf.after stack part.remaining with
      | none => rfl
      | some next => exact ih others next

end Scanning

/-- A source in which every comment, template, attribute and text between tags closes what it seems
to open, and no regular expression holds a quotation mark, has no issue exactly if it is
balanced. -/
theorem balancedDelimiterIssues_eq_nil_iff {source : List SourcePart}
    (harmless : ∀ part ∈ source, part.Harmless) (path : String) :
    balancedDelimiterIssues (sourceText source) path = [] ↔ IsBalanced source := by
  have read := scanText_source harmless []
  rw [IsBalanced, nested_iff_after, balancedDelimiterIssues, sourceText, String.toList_ofList,
    ← scanText, read]
  cases bracketsOf.after [] (source.flatMap SourcePart.remaining) with
  | none => simp
  | some stack => cases stack <;> simp [outsideOfStrings]

/-! ## Sources that are refused -/

/-- The characters of a code without strings. -/
def codeOf (code : String) : List SourcePart :=
  code.toList.filterMap fun c => if isCode : c ∉ quotationMarks then some (.code c isCode) else none

/-- A text without quotation marks closes itself if its brackets are nested. -/
theorem closesItself_of_plain {text : List Char} (isPlain : ∀ c ∈ text, c ∉ quotationMarks)
    (nested : Nested bracketsOf text) : ClosesItself text :=
  ⟨text, unquoted_self isPlain, nested⟩

/-- A component with a remark. -/
def remarkedSource : List SourcePart :=
  codeOf "export default () => (null); " ++ [.lineComment " the (empty) view".toList]

theorem balancedDelimiterIssues_eq_nil_iff_remarked :
    balancedDelimiterIssues (sourceText remarkedSource) "src/App.tsx" = [] := by
  apply (balancedDelimiterIssues_eq_nil_iff _ "src/App.tsx").mpr
  · decide
  · intro part partMem
    rcases List.mem_append.mp partMem with isCode | isRemark
    · rcases List.mem_filterMap.mp isCode with ⟨c, _, isPart⟩
      split at isPart
      · cases isPart
        trivial
      · cases isPart
    · rw [List.mem_singleton.mp isRemark]
      exact closesItself_of_plain (by decide) (by decide)

/-- An apostrophe in a comment, between tags and in a regular expression, a backtick in a string
within a template, and a backslash at the end of an attribute. -/
def misreadSources : List (List SourcePart) :=
  [codeOf "export default () => null; " ++ [.lineComment " don't".toList],
    codeOf "export default () => <p>" ++ [.jsxText "don't".toList] ++ codeOf "</p>;",
    codeOf "export default () => " ++ [.regularExpression "'".toList] ++ codeOf ".source;",
    codeOf "export default () => " ++ [.template "$\x7b\"`\"\x7d".toList] ++ codeOf ";",
    codeOf "export default () => <p title=" ++ [.jsxAttribute '"' "\\".toList] ++ codeOf " />;"]

/-- Balanced sources in which a quotation mark is no string are refused. -/
theorem balanced_sources_refused : (misreadSources.all fun source =>
    IsBalanced source ∧ balancedDelimiterIssues (sourceText source) "src/App.tsx" =
      [⟨"invalid_typescript", "unterminated string or delimiter", some "src/App.tsx"⟩]) = true := by
  decide

end DotBackend.Builder
