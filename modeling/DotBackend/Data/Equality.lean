import DotBackend.Data.Number

/-!
# Equality of Python values

`==` on the values that JSON is loaded into: a truth value is the number 0 or 1, numbers of
different types are compared exactly, and dictionaries are equal whatever the order of
their members.
-/

namespace DotBackend.Data

/-! ## Floats as numbers -/

/-- The exponent of the power of two below a positive rational number. -/
def binaryExponent (size : Rat) : Int :=
  let guess : Int := size.num.natAbs.log2 - size.den.log2
  if size < (2 : Rat) ^ guess then guess - 1 else guess

/-- The nearest integer, of two equally near ones the even one. -/
def roundHalfEven (number : Rat) : Int :=
  let below := number.floor
  let rest := number - below
  if rest < 1 / 2 ∨ (rest = 1 / 2 ∧ below % 2 = 0) then below else below + 1

/-- The double nearest to a rational number within range. -/
def nearestDouble (number : Rat) : Rat :=
  let size := if number < 0 then -number else number
  let place := max (-1074) (binaryExponent size - 52)
  roundHalfEven (number / (2 : Rat) ^ place) * (2 : Rat) ^ place

namespace Json

/-- The number that a value is equal to, if it is a finite number. -/
def number? : Json → Option Rat
  | .bool b => some (if b then 1 else 0)
  | .int i => some i
  | .float (.finite text _) => some (nearestDouble (finiteValue text))
  | _ => none

mutual

/-- `first == second`. -/
def equals : Json → Json → Bool
  | .null, .null => true
  | .str a, .str b => a == b
  | .arr a, .arr b => equalsList a b
  | .obj a, .obj b => a.length == b.length && equalsMembers a b
  | .float (.infinity a), .float (.infinity b) => a == b
  | a, b => (number? a).isSome && decide (number? a = number? b)

def equalsList : List Json → List Json → Bool
  | [], [] => true
  | a :: as, b :: bs => equals a b && equalsList as bs
  | _, _ => false

/-- Every member of the first dictionary has its equal in the second one. -/
def equalsMembers : List (String × Json) → List (String × Json) → Bool
  | [], _ => true
  | (key, value) :: rest, other =>
      (match lookup other key with
        | none => false
        | some found => equals value found) && equalsMembers rest other

end

example : equals (.obj [("a", .bool true), ("b", .int 2)])
    (.obj [("b", .float (.finite "2.0".toList (by decide))), ("a", .int 1)]) = true := by
  decide +kernel

end Json

end DotBackend.Data
