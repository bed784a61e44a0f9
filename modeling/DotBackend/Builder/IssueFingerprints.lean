import DotBackend.Builder.Package

/-!
# Fingerprints of acceptance issues

What the browser found wrong with a candidate is compared with what it found wrong before.
A fingerprint keeps the code, the path and the part of the app that an issue is about, which
is read from its message.
-/

namespace DotBackend.Builder

open Data Data.Text

/-! ## Scopes -/

/-- A part of the patterns of `_acceptance_issue_scope`. None of them needs to go back: what
follows a run is not a character of the run. -/
inductive Piece
  | literal (text : String)
  | oneOf (texts : List String)
  /-- One or more of `[a-z0-9]` and some other characters. -/
  | run (others : List Char)
  /-- A run that is the group of the pattern. -/
  | group (others : List Char)
  /-- One of some characters, whitespace or the end. -/
  | boundary (marks : List Char)

/-- The characters of a run. -/
def inRun (others : List Char) (c : Char) : Bool :=
  ('a' ≤ c && c ≤ 'z') || ('0' ≤ c && c ≤ '9') || c ∈ others

/-- Match the pieces of a pattern at the start of a text, and return its group. -/
def matchPieces (found : List Char) : List Piece → List Char → Option (List Char)
  | [], _ => some found
  | .literal expected :: rest, text =>
      if expected.toList.isPrefixOf text then
        matchPieces found rest (text.drop expected.toList.length)
      else none
  | .oneOf choices :: rest, text =>
      match choices.find? fun choice => choice.toList.isPrefixOf text with
      | some choice => matchPieces found rest (text.drop choice.toList.length)
      | none => none
  | .run others :: rest, text =>
      let chosen := text.takeWhile (inRun others)
      if chosen = [] then none else matchPieces found rest (text.drop chosen.length)
  | .group others :: rest, text =>
      let chosen := text.takeWhile (inRun others)
      if chosen = [] then none else matchPieces chosen rest (text.drop chosen.length)
  | .boundary marks :: rest, text =>
      match text with
      | [] => matchPieces found rest []
      | c :: behind => if c ∈ marks ∨ isSpace c then matchPieces found rest behind else none

/-- `re.search`, for a pattern that may only match at the start or anywhere. -/
def searchPieces (anchored : Bool) (pieces : List Piece) (text : List Char) :
    Option (List Char) :=
  if anchored then matchPieces [] pieces text
  else text.tails.findSome? fun suffix => matchPieces [] pieces suffix

/-- The patterns of `_acceptance_issue_scope`, in order. -/
def scopePatterns : List (Bool × List Piece) :=
  let operation := Piece.run ['_', '.', '-']
  let name := Piece.group ['_', '-']
  let dotted := Piece.group ['_', '.', '-']
  [(false, [.literal "expected operation=", operation, .literal " entity=", name]),
    (false, [.literal "declare operation=", operation, .literal " entity=", name]),
    (false, [.literal "invalid payload for operation=", operation, .literal " entity=", name]),
    (false, [.literal "no usable ", name, .literal " create workflow"]),
    (false, [.literal "identify one ", name, .literal " form"]),
    (false, [.literal "declared ", name, .literal " fields"]),
    (false, [.literal "discovered ", name, .literal " form"]),
    (false, [.literal "expected records.", .oneOf ["create", "update", "delete"],
      .literal " for ", name]),
    (false, [.literal "\"entity\":\"", name, .literal "\""]),
    (true, [name, .literal " ", .oneOf ["was saved", "refreshed after save"]]),
    (false, [.literal "name=\"", name, .literal "\""]),
    (false, [.literal "for ", dotted, .boundary []]),
    (false, [.literal "call ", dotted, .boundary [';']])]

/-- `_acceptance_issue_scope`. -/
def acceptanceIssueScope (letters : Letters) (issue : ValidationIssue) : String :=
  let message := singleSpaced (letters.lower issue.message.toList)
  match scopePatterns.findSome? fun (anchored, pieces) => searchPieces anchored pieces message with
  | some scope => String.ofList scope
  | none => if issue.code = "acceptance_reveal_mutation" then "workflow_reveal" else issue.code

/-! ## Fingerprints -/

/-- The code, the scope and the path of every acceptance issue. -/
abbrev Fingerprint := List (String × String × String)

/-- The order of `sorted` on tuples. -/
def tupleBefore (a b : String × String × String) : Bool :=
  a.1 < b.1 || (a.1 = b.1 && (a.2.1 < b.2.1 || (a.2.1 = b.2.1 && a.2.2 ≤ b.2.2)))

/-- `_acceptance_issue_fingerprint`. -/
def acceptanceIssueFingerprint (letters : Letters) (issues : List ValidationIssue) :
    Option Fingerprint :=
  let acceptance := Table.orderBy tupleBefore
    ((issues.filter fun issue => "acceptance_".toList.isPrefixOf issue.code.toList).map
      fun issue => (issue.code, acceptanceIssueScope letters issue, issue.path.getD ""))
  if acceptance = [] then none else some acceptance

/-! ## Lists of issues -/

/-- The key of `_dedupe_issues`, which is the whole issue. -/
def dedupeIssues (issues : List ValidationIssue) : List ValidationIssue :=
  issues.foldl (fun kept issue => if issue ∈ kept then kept else kept ++ [issue]) []

/-- `_accumulated_diagnostics`. -/
def accumulatedDiagnostics (history : List (List ValidationIssue)) : List ValidationIssue :=
  (dedupeIssues history.flatten).take 30

theorem foldl_dedupe_ne_nil {issues kept : List ValidationIssue} (hasKept : kept ≠ []) :
    issues.foldl (fun kept issue => if issue ∈ kept then kept else kept ++ [issue]) kept ≠ [] := by
  induction issues generalizing kept with
  | nil => exact hasKept
  | cons issue rest ih =>
      rw [List.foldl_cons]
      split
      · exact ih hasKept
      · exact ih (by simp)

theorem dedupeIssues_eq_nil {issues : List ValidationIssue} :
    dedupeIssues issues = [] ↔ issues = [] := by
  constructor
  · intro none
    cases issues with
    | nil => rfl
    | cons issue rest =>
        apply absurd none
        rw [dedupeIssues, List.foldl_cons]
        exact foldl_dedupe_ne_nil (by simp)
  · rintro rfl
    rfl

end DotBackend.Builder
