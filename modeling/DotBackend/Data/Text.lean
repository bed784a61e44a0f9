import Mathlib.Algebra.Group.Int.Defs
import Mathlib.Algebra.GroupWithZero.Nat
import Mathlib.Data.List.Basic
import Mathlib.Data.List.Infix

/-!
# Texts

The string operations of the interpreter that the service relies on, over lists of
characters. Whitespace is the fixed set shared by `str.split`, `str.strip` and the
regular expression class `\s`; what depends on the Unicode tables of the interpreter
(case folding, letters, decimal digits) is a parameter known on ASCII.
-/

namespace DotBackend.Data

/-- A property of all characters of a text is decided from its characters, and not by going
through all there are. -/
instance (priority := 2000) decidableForallChars {p : Char → Prop} [DecidablePred p]
    (text : List Char) : Decidable (∀ c ∈ text, p c) :=
  List.decidableBAll p text

/-- The Unicode tables of the interpreter, with what they say about ASCII. -/
structure Unicode where
  /-- The full case folding of a character. -/
  fold : Char → List Char
  /-- `str.isalnum` of a one-character string. -/
  alnum : Char → Bool
  /-- The value of a decimal digit, for the characters of the class `\d`. -/
  decimal : Char → Option Nat
  fold_ascii : ∀ c, c.toNat < 128 → fold c = [c.toLower]
  alnum_ascii : ∀ c, c.toNat < 128 → alnum c = c.isAlphanum
  decimal_ascii : ∀ c, c.toNat < 128 →
    decimal c = if c.isDigit then some (c.toNat - '0'.toNat) else none

/-- Tables that know ASCII only. -/
def Unicode.ascii : Unicode where
  fold c := [c.toLower]
  alnum c := c.isAlphanum
  decimal c := if c.isDigit then some (c.toNat - '0'.toNat) else none
  fold_ascii _ _ := rfl
  alnum_ascii _ _ := rfl
  decimal_ascii _ _ := rfl

namespace Text

/-! ## Whitespace -/

/-- `str.isspace` of one character. -/
def isSpace (c : Char) : Bool :=
  let n := c.toNat
  (9 ≤ n && n ≤ 13) || (28 ≤ n && n ≤ 32) || n == 0x85 || n == 0xa0 || n == 0x1680 ||
    (0x2000 ≤ n && n ≤ 0x200a) || n == 0x2028 || n == 0x2029 || n == 0x202f ||
    n == 0x205f || n == 0x3000

/-- Drop the characters of a kind from both ends. -/
def trim (drop : Char → Bool) (text : List Char) : List Char :=
  ((text.dropWhile drop).reverse.dropWhile drop).reverse

/-- `str.strip()`. -/
def strip (text : List Char) : List Char :=
  trim isSpace text

theorem trim_infix (drop : Char → Bool) (text : List Char) : trim drop text <:+: text := by
  have leading : text.dropWhile drop <:+ text := List.dropWhile_suffix drop
  have trailing : (text.dropWhile drop).reverse.dropWhile drop <:+
      (text.dropWhile drop).reverse := List.dropWhile_suffix drop
  have prefixed : trim drop text <+: text.dropWhile drop := by
    rw [← List.reverse_reverse (text.dropWhile drop)]
    exact List.reverse_prefix.mpr trailing
  exact prefixed.isInfix.trans leading.isInfix

theorem strip_infix (text : List Char) : strip text <:+: text :=
  trim_infix isSpace text

/-- The words of a text after a word that is being read. -/
def wordsFrom : List Char → List Char → List (List Char)
  | word, [] => if word.isEmpty then [] else [word.reverse]
  | word, c :: rest =>
      if isSpace c then
        if word.isEmpty then wordsFrom [] rest else word.reverse :: wordsFrom [] rest
      else wordsFrom (c :: word) rest

/-- `str.split()`: the maximal runs of characters that are not whitespace. -/
def words (text : List Char) : List (List Char) :=
  wordsFrom [] text

/-- `" ".join(text.split())`. -/
def singleSpaced (text : List Char) : List Char :=
  [' '].intercalate (words text)

/-! ## Occurrences -/

/-- `needle in text`. -/
def occurs (needle : List Char) : List Char → Bool
  | [] => needle.isEmpty
  | c :: rest => needle.isPrefixOf (c :: rest) || occurs needle rest

@[simp]
theorem occurs_iff (needle text : List Char) :
    occurs needle text = true ↔ needle <:+: text := by
  induction text with
  | nil => simp [occurs]
  | cons c rest ih =>
      rw [occurs, Bool.or_eq_true, ih, List.isPrefixOf_iff_prefix,
        List.infix_cons_iff]

/-- `text.replace(old, new)` for a pattern of one character. -/
def replaceChar (old : Char) (new : List Char) (text : List Char) : List Char :=
  text.flatMap fun c => if c = old then new else [c]

/-- `text.replace(old, "")` for a longer pattern: occurrences from the left. -/
def removeAll (old : List Char) (text : List Char) : List Char :=
  go old 0 text
where
  /-- `skip` characters of the last occurrence are still to be dropped. -/
  go (old : List Char) : Nat → List Char → List Char
    | _, [] => []
    | skip + 1, _ :: rest => go old skip rest
    | 0, c :: rest =>
        if old.isPrefixOf (c :: rest) then go old (old.length - 1) rest
        else c :: go old 0 rest

/-- `re.sub(r"[^…]+", mark, text)`: every maximal run of characters that are not kept
becomes one mark. -/
def collapse (keep : Char → Bool) (mark : Char) : Bool → List Char → List Char
  | _, [] => []
  | inRun, c :: rest =>
      if keep c then c :: collapse keep mark false rest
      else if inRun then collapse keep mark true rest
      else mark :: collapse keep mark true rest

/-- SQL `text LIKE pattern`, with the backslash as escape character. -/
def like : List Char → List Char → Bool
  | [] => List.isEmpty
  | '%' :: pattern => fun text => text.tails.any (like pattern)
  | '_' :: pattern => fun text => match text with
      | [] => false
      | _ :: rest => like pattern rest
  | '\\' :: escaped :: pattern => fun text =>
      text.head? == some escaped && like pattern text.tail
  | literal :: pattern => fun text => text.head? == some literal && like pattern text.tail

/-! ## Case and words -/

/-- `str.casefold()`. -/
def casefold (unicode : Unicode) (text : List Char) : List Char :=
  text.flatMap unicode.fold

/-- A character of the regular expression class `\w`. -/
def isWordChar (unicode : Unicode) (c : Char) : Bool :=
  unicode.alnum c || c == '_'

/-- The assertion `\b` between two neighbouring characters. -/
def isBoundary (unicode : Unicode) (before after : Option Char) : Bool :=
  before.any (isWordChar unicode) != after.any (isWordChar unicode)

/-- An ASCII letter matched without regard to case: the dotted and dotless `i`, the
Kelvin sign and the long `s` count as the letters they fold to. -/
def matchesIgnoringCase (letter c : Char) : Bool :=
  c.toLower == letter ||
    (letter == 'i' && (c.toNat == 0x130 || c.toNat == 0x131)) ||
    (letter == 'k' && c.toNat == 0x212a) ||
    (letter == 's' && c.toNat == 0x17f)

/-- What is left of a text, with its last character, after a phrase matched at its
start without regard to case. -/
def afterPhrase : List Char → Option Char → List Char → Option (Option Char × List Char)
  | [], before, text => some (before, text)
  | _ :: _, _, [] => none
  | letter :: phrase, _, c :: rest =>
      if matchesIgnoringCase letter c then afterPhrase phrase (some c) rest else none

/-- `re.search(r"\b(phrase|…)\b", text, re.IGNORECASE)` for plain phrases. -/
def searchPhrases (unicode : Unicode) (phrases : List (List Char)) (before : Option Char) :
    List Char → Bool
  | [] => false
  | c :: rest =>
      (isBoundary unicode before (some c) && phrases.any fun phrase =>
        match afterPhrase phrase before (c :: rest) with
        | some (last, after) => isBoundary unicode last after.head?
        | none => false) ||
      searchPhrases unicode phrases (some c) rest

end Text

end DotBackend.Data
