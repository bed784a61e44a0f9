import DotBackend.Data.Json
import DotBackend.Data.Substitution

/-!
# Text bubbles

Model-authored turns become plain text bubbles: paragraphs are split, the Markdown that
messaging clients would display literally is removed, and at most twelve bubbles are
delivered. Links that the model was given by a tool are collected from the tool outputs.
-/

namespace DotBackend.Agents

open Data Data.Text

/-! ## Patterns -/

/-- `https?://`, as the rest of the text behind it. -/
def afterHttpScheme (text : List Char) : Option (List Char) :=
  let secure := "https://".toList
  let plain := "http://".toList
  if secure.isPrefixOf text then some (text.drop secure.length)
  else if plain.isPrefixOf text then some (text.drop plain.length)
  else none

/-- `\[([^\]\n]+)\]\((https?://[^)\s]+)\)`, replaced by `\1: \2`. -/
def markdownLink : Pattern := fun _ text =>
  match text with
  | '[' :: rest =>
      let label := rest.takeWhile fun c => c ≠ ']' ∧ c ≠ '\n'
      match rest.drop label.length with
      | ']' :: '(' :: target =>
          let url := target.takeWhile fun c => c ≠ ')' ∧ ¬ isSpace c
          let hasAddress := (afterHttpScheme url).any fun address => !address.isEmpty
          if label ≠ [] ∧ hasAddress ∧ (target.drop url.length).head? = some ')' then
            some (label.length + url.length + 4, label ++ ": ".toList ++ url)
          else none
      | _ => none
  | _ => none

def strongAsterisk : Pattern := unwrap ['*', '*'] '*'

def strongUnderscore : Pattern := unwrap ['_', '_'] '_'

def strikethrough : Pattern := unwrap ['~', '~'] '~'

def inlineCode : Pattern := unwrap [Char.ofNat 96] (Char.ofNat 96)

/-- `(?<!\*)\*([^*\n]+)\*(?!\*)`. -/
def emphasisAsterisk : Pattern := fun before text =>
  match unwrap ['*'] '*' before text with
  | some (length, content) =>
      if before = some '*' ∨ (text.drop length).head? = some '*' then none
      else some (length, content)
  | none => none

/-- `^#{1,6}\s+`. -/
def heading : Pattern := fun before text =>
  let marks := text.takeWhile (· == '#')
  let blank := (text.drop marks.length).takeWhile isSpace
  if atLineStart before ∧ 1 ≤ marks.length ∧ marks.length ≤ 6 ∧ blank ≠ [] then
    some (marks.length + blank.length, [])
  else none

/-- `\s+—\s+`, replaced by a comma and a space. -/
def spacedDash : Pattern := fun _ text =>
  let left := text.takeWhile isSpace
  match text.drop left.length with
  | '—' :: rest =>
      let right := rest.takeWhile isSpace
      if left ≠ [] ∧ right ≠ [] then some (left.length + 1 + right.length, ", ".toList) else none
  | _ => none

/-- `^>\s?`. -/
def blockquote : Pattern := fun before text =>
  match text with
  | '>' :: rest =>
      if atLineStart before then some (if rest.head?.any isSpace then 2 else 1, []) else none
  | _ => none

/-- `https?://\S+` without regard to case, replaced by a fixed text. -/
def httpUrl (replacement : List Char) : Pattern := fun before text =>
  match afterPhrase "https://".toList before text <|> afterPhrase "http://".toList before text with
  | none => none
  | some (_, rest) =>
      let address := rest.takeWhile fun c => ¬ isSpace c
      if address = [] then none
      else some (text.length - rest.length + address.length, replacement)

/-! ## Bubbles -/

/-- `plain_text_bubble`. -/
def plainTextBubble (text : List Char) : List Char :=
  let linked := substitute markdownLink (strip text)
  let unmarked := [strongAsterisk, strongUnderscore, strikethrough, inlineCode,
    emphasisAsterisk].foldl (fun clean pattern => substitute pattern clean) linked
  let lines := substitute spacedDash (substitute heading unmarked)
  strip (substitute blockquote lines)

/-- The paragraphs of a text: a run of whitespace with two line breaks or more is cut
from its first line break to its last. -/
def paragraphsFrom : Nat → List Char → List Char → List (List Char)
  | _, current, [] => [current.reverse]
  | skip + 1, current, _ :: rest => paragraphsFrom skip current rest
  | 0, current, c :: rest =>
      let blank := rest.takeWhile isSpace
      if c = '\n' ∧ '\n' ∈ blank then
        current.reverse ::
          paragraphsFrom ((blank.reverse.dropWhile (· ≠ '\n')).length) [] rest
      else paragraphsFrom 0 (c :: current) rest

/-- `PARAGRAPH_BREAK.split`, for the pattern `\n\s*\n+`. -/
def paragraphs (message : List Char) : List (List Char) :=
  paragraphsFrom 0 [] message

def deliveryBubbleSafetyLimit : Nat := 12

/-- The cleaned paragraphs that are not blank. -/
def cleanParagraphs (messages : List (List Char)) : List (List Char) :=
  ((messages.flatMap paragraphs).map plainTextBubble).filter (· ≠ [])

/-- `prepare_text_bubbles`. -/
def prepareTextBubbles (messages : List (List Char)) : List (List Char) :=
  (cleanParagraphs messages).take deliveryBubbleSafetyLimit

/-- `prepare_app_completion_bubbles`, for an address without a backslash. -/
def prepareAppCompletionBubbles (messages : List (List Char)) (appUrl : List Char) :
    List (List Char) :=
  let bubbles := (prepareTextBubbles messages).map (substitute (httpUrl appUrl))
  if bubbles.any (occurs appUrl) then bubbles
  else bubbles.take (deliveryBubbleSafetyLimit - 1) ++ [appUrl]

/-! ## Trusted links -/

def trustedLinkFields : List (String × String) :=
  [("create_custom_app_link", "app_url"), ("create_integration_connect_link", "connect_url")]

/-- The argument of the collector, by its runtime type: a list or tuple, or an iterator. -/
inductive ToolCalls
  | sequence (calls : List Json)
  | generator (calls : List Json)

/-- The field of a tool's output that holds a link to be sent. -/
def trustedLinkField (call : List (String × Json)) : Option String :=
  match Json.lookup call "name" with
  | some (.str name) => trustedLinkFields.lookup name
  | _ => none

/-- The link of one tool call, when it is a link that was meant to be sent. -/
def trustedUrl (call : Json) : Option (List Char) :=
  match call with
  | .obj call =>
      if Json.lookup call "succeeded" = some (.bool true) then
        (trustedLinkField call).bind fun field =>
          let output := match Json.lookup call "output" with
            | some (.obj output) => output
            | _ => []
          let payload := match Json.lookup output "result" with
            | some (.obj payload) => payload
            | _ => output
          match Json.lookup payload field with
          | some (.str url) =>
              if "https://".toList.isPrefixOf url.toList then some url.toList else none
          | _ => none
      else none
  | _ => none

/-- The distinct links of a list of calls in order, without those seen already. -/
def collectUrls (seen : List (List Char)) : List Json → List (List Char)
  | [] => []
  | call :: rest =>
      match trustedUrl call with
      | some url =>
          if url ∈ seen then collectUrls seen rest else url :: collectUrls (url :: seen) rest
      | none => collectUrls seen rest

/-- `trusted_urls_from_tool_outputs`: anything but a list or a tuple counts as empty. -/
def trustedUrlsFromToolOutputs : ToolCalls → List (List Char)
  | .sequence calls => collectUrls [] calls
  | .generator _ => []

/-- One step of `prepare_trusted_link_bubbles`: a link that no bubble has is appended,
or written over the last bubble when there is no room. -/
def addTrustedLink (bubbles : List (List Char)) (url : List Char) : List (List Char) :=
  if bubbles.any (occurs url) then bubbles
  else if deliveryBubbleSafetyLimit ≤ bubbles.length then bubbles.dropLast ++ [url]
  else bubbles ++ [url]

/-- `prepare_trusted_link_bubbles`. -/
def prepareTrustedLinkBubbles (messages urls : List (List Char)) : List (List Char) :=
  urls.foldl addTrustedLink (prepareTextBubbles messages)

end DotBackend.Agents
