import DotBackend.Data.Text

/-!
# Regular expression substitution

`pattern.sub` scans a text from the left; where the pattern matches, the match is
replaced and scanning goes on behind it. The patterns of the service need no real
backtracking, so a pattern is a function that says, from the character before a
position and the text after it, how much is matched there and what replaces it.
-/

namespace DotBackend.Data.Text

/-- What a pattern finds at a position: the length of the match and its replacement. -/
abbrev Pattern := Option Char → List Char → Option (Nat × List Char)

/-- Substitution after a character, with some characters of a match still to be skipped. -/
def substituteFrom (pattern : Pattern) : Nat → Option Char → List Char → List Char
  | _, _, [] => []
  | skip + 1, _, c :: rest => substituteFrom pattern skip (some c) rest
  | 0, before, c :: rest =>
      match pattern before (c :: rest) with
      | some (length + 1, replacement) =>
          replacement ++ substituteFrom pattern length (some c) rest
      | _ => c :: substituteFrom pattern 0 (some c) rest

/-- `pattern.sub`. -/
def substitute (pattern : Pattern) (text : List Char) : List Char :=
  substituteFrom pattern 0 none text

/-- The assertion `^` of a multi-line pattern. -/
def atLineStart (before : Option Char) : Bool :=
  before.all (· == '\n')

/-- A run of characters between two copies of a mark, which is taken off; the run is not
empty, stays on its line and does not hold the delimiter. -/
def unwrap (mark : List Char) (delimiter : Char) : Pattern := fun _ text =>
  if mark.isPrefixOf text then
    let behind := text.drop mark.length
    let content := behind.takeWhile fun c => c ≠ delimiter ∧ c ≠ '\n'
    if content ≠ [] ∧ mark.isPrefixOf (behind.drop content.length) then
      some (mark.length + content.length + mark.length, content)
    else none
  else none

end DotBackend.Data.Text
