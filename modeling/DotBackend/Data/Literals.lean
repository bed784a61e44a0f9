import DotBackend.Data.Number

/-!
# Texts of values and values of texts

`str(value)` of a JSON value, `Decimal(text)`, and the columns that hold texts, JSON
documents and decimals with four digits after the point.
-/

namespace DotBackend.Data

/-- The parts of the interpreter that reading a provider's data needs besides its Unicode
tables: which characters `repr` leaves as they are, and `date.fromisoformat`, with `none`
for `ValueError`, which yields the proleptic ordinal of the day. -/
structure Literals extends Unicode where
  printable : Char → Bool
  dateFromisoformat : List Char → Option Nat

/-- Literals that know ASCII, and one day. -/
def Literals.ascii : Literals where
  toUnicode := Unicode.ascii
  printable c := 32 ≤ c.toNat && c.toNat < 127
  dateFromisoformat text := if text = "2026-01-02".toList then some 739618 else none

namespace Json

/-! ## `str(value)` -/

/-- The last digits of a number after a backslash and a letter. -/
def escaped (letter : Char) (count : Nat) (c : Char) : List Char :=
  '\\' :: letter :: hexText count c.toNat

/-- A character in the `repr` of a string. -/
def reprChar (printable : Char → Bool) (quotation c : Char) : List Char :=
  if c = quotation ∨ c = '\\' then ['\\', c]
  else if c = '\n' then ['\\', 'n']
  else if c = '\r' then ['\\', 'r']
  else if c = '\t' then ['\\', 't']
  else if printable c then [c]
  else if c.toNat < 0x100 then escaped 'x' 2 c
  else if c.toNat < 0x10000 then escaped 'u' 4 c
  else escaped 'U' 8 c

/-- `repr` of a string: in single quotes, unless only double quotes avoid a backslash. -/
def reprString (printable : Char → Bool) (s : String) : List Char :=
  let quotation := if s.toList.contains '\'' && !s.toList.contains '"' then '"' else '\''
  quotation :: s.toList.flatMap (reprChar printable quotation) ++ [quotation]

/-- `str` of a float. -/
def floatRepr : PyFloat → List Char
  | .finite text _ => text
  | .infinity negative => if negative then "-inf".toList else "inf".toList
  | .nan => "nan".toList

mutual

/-- `repr(value)`. -/
def repr (printable : Char → Bool) : Json → List Char
  | .null => "None".toList
  | .bool b => if b then "True".toList else "False".toList
  | .int i => intText i
  | .float f => floatRepr f
  | .str s => reprString printable s
  | .arr items => '[' :: List.intercalate ", ".toList (reprList printable items) ++ [']']
  | .obj fields =>
      '\x7b' :: List.intercalate ", ".toList (reprFields printable fields) ++ ['\x7d']

/-- `repr` of each item. -/
def reprList (printable : Char → Bool) : List Json → List (List Char)
  | [] => []
  | item :: rest => repr printable item :: reprList printable rest

/-- `repr` of each key and value. -/
def reprFields (printable : Char → Bool) : List (String × Json) → List (List Char)
  | [] => []
  | (key, value) :: rest =>
      (reprString printable key ++ ": ".toList ++ repr printable value) ::
        reprFields printable rest

end

/-- `str(value)`. -/
def pyStr (literals : Literals) : Json → List Char
  | .str s => s.toList
  | value => repr literals.printable value

end Json

/-! ## Decimals -/

/-- A `Decimal`. -/
inductive Decimal
  | finite (value : Rat)
  | infinity (negative : Bool)
  | nan
  deriving DecidableEq

namespace Decimal

/-- The largest adjusted exponent of a decimal. -/
def maxExponent : Int := 999999999999999999

/-- The sign of a numeral, and what follows it. -/
def sign : List Char → Bool × List Char
  | '-' :: body => (true, body)
  | '+' :: body => (false, body)
  | body => (false, body)

/-- The exponent of a numeral: nothing, or `e` and an integer. -/
def exponent : List Char → Option Int
  | [] => some 0
  | _ :: text =>
      let digits := (sign text).2
      if digits.all Char.isDigit && !digits.isEmpty then some (signedValue text) else none

/-- An unsigned decimal numeral, as an exact number. -/
def magnitude (body : List Char) : Option Rat :=
  let mantissa := body.takeWhile (· ≠ 'e')
  let whole := mantissa.takeWhile (· ≠ '.')
  let fraction := (mantissa.dropWhile (· ≠ '.')).drop 1
  let digits := whole ++ fraction
  if digits.all Char.isDigit && !digits.isEmpty then
    (exponent (body.dropWhile (· ≠ 'e'))).bind fun shift =>
      let scale := shift - fraction.length
      let significant := (digits.dropWhile (· == '0')).length
      if significant + scale - 1 ≤ maxExponent ∧ -2 * maxExponent < scale then
        some (if 0 ≤ scale then (digitsValue digits * 10 ^ scale.toNat : Nat)
          else mkRat (digitsValue digits) (10 ^ (-scale).toNat))
      else none
  else none

/-- `Decimal(text)`, with `none` for `InvalidOperation`. -/
def parse (unicode : Unicode) (text : List Char) : Option Decimal :=
  let plain := ((Text.strip text).filter (· ≠ '_')).map fun c =>
    match unicode.decimal c with
    | some digit => Nat.digitChar digit
    | none => c.toLower
  let (negative, body) := sign plain
  let payload := if body.head? = some 's' then body.drop 4 else body.drop 3
  if body = "inf".toList ∨ body = "infinity".toList then some (.infinity negative)
  else if (body.take 3 = "nan".toList ∨ body.take 4 = "snan".toList) ∧ payload.all Char.isDigit then
    some .nan
  else (magnitude body).map fun size => .finite (if negative then -size else size)

end Decimal

/-- A value of a `NUMERIC(20, 4)` column in units of its last digit; `none` is `NaN`. -/
abbrev Numeric := Option Int

/-- The nearest number of ten-thousandths, away from zero in a tie. -/
def tenThousandths (value : Rat) : Int :=
  if value < 0 then -(-value * 10000 + 1 / 2).floor else (value * 10000 + 1 / 2).floor

/-- A decimal as the column stores it, with `none` for a numeric overflow. -/
def Decimal.toNumeric : Decimal → Option Numeric
  | .finite value =>
      if (tenThousandths value).natAbs < 10 ^ 20 then some (some (tenThousandths value)) else none
  | .infinity _ => none
  | .nan => some none

end DotBackend.Data
