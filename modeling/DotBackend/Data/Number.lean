import DotBackend.Data.Json

/-!
# Identifiers, instants and numbers read from texts

`UUID(text)`, the value of a float, and instants on the UTC time line in microseconds.
-/

namespace DotBackend.Data

/-- A UUID is its 128-bit integer. -/
abbrev Uuid := Nat

/-- Microseconds on the UTC time line since the first day a `datetime` can hold. -/
abbrev Instant := Int

/-- The number of microseconds from `datetime.min` to the end of year 9999. -/
def instantLimit : Int :=
  3652059 * 86400 * 1000000

/-- What `datetime.fromisoformat` reads: a wall-clock reading and its offset. -/
structure IsoDatetime where
  wall : Int
  offset : Option Int
  deriving DecidableEq

/-- The parts of the interpreter that are parameters: its Unicode tables and its reader
of ISO 8601 dates. -/
structure Interpreter extends Unicode where
  fromisoformat : List Char → Option IsoDatetime

/-- An interpreter that knows ASCII and reads no date. -/
def Interpreter.ascii : Interpreter where
  toUnicode := Unicode.ascii
  fromisoformat _ := none

/-- What apps use of the interpreter besides: `json.loads`, with `none` for `ValueError`,
the zones that `ZoneInfo` finds, and `isoformat` of an instant in UTC, which
`fromisoformat` reads back. -/
structure Platform extends Interpreter where
  loads : List Char → Option Json
  knowsZone : String → Bool
  isoformat : Instant → List Char
  fromisoformat_isoformat : ∀ now, fromisoformat (isoformat now) = some ⟨now, some 0⟩

/-- The text of the first instant. -/
def firstInstantText : List Char :=
  "0001-01-01T00:00:00+00:00".toList

/-- An interpreter that knows ASCII and one zone, loads no JSON and writes the first instant
as it is; other instants are tallied. -/
def Platform.ascii : Platform where
  toUnicode := Unicode.ascii
  fromisoformat text :=
    if text = firstInstantText then some ⟨0, some 0⟩
    else if text.head? = some '-' then some ⟨-text.length, some 0⟩
    else some ⟨text.length, some 0⟩
  loads _ := none
  knowsZone name := name = "UTC"
  isoformat now :=
    if now = 0 then firstInstantText
    else if now < 0 then List.replicate now.natAbs '-'
    else List.replicate now.natAbs '+'
  fromisoformat_isoformat now := by
    have notFirst : ∀ (count : Nat) (c : Char), c = '-' ∨ c = '+' →
        List.replicate count c ≠ firstInstantText := by
      rintro count c mark same
      have head : '0' ∈ List.replicate count c := same ▸ List.mem_cons_self
      rw [← (List.mem_replicate.mp head).2] at mark
      revert mark
      decide
    by_cases isFirst : now = 0
    · simp [isFirst]
    · have marked : now.natAbs ≠ 0 := Int.natAbs_ne_zero.mpr isFirst
      by_cases isNegative : now < 0
      · have size : -(now.natAbs : Int) = now := by
          rw [Int.ofNat_natAbs_of_nonpos (Int.le_of_lt isNegative), Int.neg_neg]
        simp only [isFirst, isNegative, notFirst, List.head?_replicate, marked, List.length_replicate,
          size, if_true, if_false, true_or]
      · have size : (now.natAbs : Int) = now := Int.natAbs_of_nonneg (Int.not_lt.mp isNegative)
        simp only [isFirst, isNegative, notFirst, List.head?_replicate, marked, List.length_replicate,
          size, if_false, or_true, Option.some.injEq, Char.reduceEq]

/-! ## `UUID(text)` -/

/-- The value of a hexadecimal digit. -/
def hexValue (unicode : Unicode) (c : Char) : Option Nat :=
  if 'a' ≤ c ∧ c ≤ 'f' then some (c.toNat - 'a'.toNat + 10)
  else if 'A' ≤ c ∧ c ≤ 'F' then some (c.toNat - 'A'.toNat + 10)
  else unicode.decimal c

/-- The digits of `int(text, 16)`; single underscores may separate digits. -/
def hexDigits (unicode : Unicode) : Nat → List Char → Option Nat
  | value, [] => some value
  | value, '_' :: c :: rest =>
      (hexValue unicode c).bind fun digit => hexDigits unicode (16 * value + digit) rest
  | value, c :: rest =>
      (hexValue unicode c).bind fun digit => hexDigits unicode (16 * value + digit) rest

/-- `int(text, 16)` for a text without a minus sign. -/
def hexInt (unicode : Unicode) (text : List Char) : Option Nat :=
  let unsigned := match Text.strip text with
    | '+' :: rest => rest
    | body => body
  match unsigned with
  | '0' :: 'x' :: c :: rest | '0' :: 'X' :: c :: rest =>
      hexDigits unicode 0 (if c = '_' then rest else c :: rest)
  | c :: rest => (hexValue unicode c).bind fun digit => hexDigits unicode digit rest
  | [] => none

/-- `UUID(text)`, with `none` for `ValueError`. -/
def parseUuid (unicode : Unicode) (text : List Char) : Option Uuid :=
  let bare := Text.removeAll "uuid:".toList (Text.removeAll "urn:".toList text)
  let hex := (Text.trim (fun c => c == '\x7b' || c == '\x7d') bare).filter (· ≠ '-')
  if hex.length = 32 then hexInt unicode hex else none

/-- The last `count` hexadecimal digits of a number. -/
def hexText : Nat → Nat → List Char
  | 0, _ => []
  | count + 1, n => hexText count (n / 16) ++ [Nat.digitChar (n % 16)]

/-- `str(UUID)`. -/
def uuidText (id : Uuid) : List Char :=
  let hex := hexText 32 id
  hex.take 8 ++ '-' :: (hex.drop 8).take 4 ++ '-' :: (hex.drop 12).take 4 ++
    '-' :: (hex.drop 16).take 4 ++ '-' :: hex.drop 20

/-! ## Floats -/

/-- The natural number written by decimal digits. -/
def digitsValue (digits : List Char) : Nat :=
  digits.foldl (fun value c => 10 * value + (c.toNat - '0'.toNat)) 0

/-- The integer written with an optional sign. -/
def signedValue : List Char → Int
  | '-' :: digits => -(digitsValue digits : Int)
  | '+' :: digits => digitsValue digits
  | digits => digitsValue digits

/-- The rational number a finite float prints as; floats compare as these do. -/
def finiteValue (text : List Char) : Rat :=
  let body := if text.head? = some '-' then text.tail else text
  let mantissa := body.takeWhile (· ≠ 'e')
  let whole := mantissa.takeWhile (· ≠ '.')
  let fraction := (mantissa.dropWhile (· ≠ '.')).drop 1
  let digits : Nat := digitsValue (whole ++ fraction)
  let scale := signedValue ((body.dropWhile (· ≠ 'e')).drop 1) - fraction.length
  let size : Rat :=
    if 0 ≤ scale then (digits * 10 ^ scale.toNat : Nat)
    else mkRat digits (10 ^ (-scale).toNat)
  if text.head? = some '-' then -size else size

/-- `float(i)` overflows from `2 ^ 1024 - 2 ^ 970` on. -/
def floatOverflow : Int :=
  (2 ^ 54 - 1) * (2 ^ 194) ^ 5

end DotBackend.Data
