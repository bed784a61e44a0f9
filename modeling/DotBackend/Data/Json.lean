import DotBackend.Data.Text

/-!
# JSON values and their compact text

The values a dynamically typed service passes around are JSON trees: objects keep
the insertion order of their members, and a float is kept as the text it prints,
since printing, comparing with a bound and reading back are all that is ever done
with it. `dumps` is the compact printer with sorted keys; `byteLength` is the
length of its UTF-8 encoding.
-/

namespace DotBackend.Data

/-- A character that may occur in the decimal text of a finite float. -/
def isFloatChar (c : Char) : Bool :=
  c.isDigit || c == '.' || c == 'e' || c == '+' || c == '-'

/-- The text of a finite float has a digit in front, and a point or an exponent,
which is what tells it from the text of an integer. -/
def isFloatText (text : List Char) : Bool :=
  text.all isFloatChar &&
    (text.any fun c => c == '.' || c == 'e') &&
    match text with
    | '-' :: c :: _ => c.isDigit
    | c :: _ => c.isDigit
    | [] => false

/-- A binary floating-point number, known by its shortest decimal text. -/
inductive PyFloat
  | finite (text : List Char) (ok : isFloatText text = true)
  | infinity (negative : Bool)
  | nan
  deriving DecidableEq

/-- A JSON value. -/
inductive Json
  | null
  | bool (b : Bool)
  | int (i : Int)
  | float (f : PyFloat)
  | str (s : String)
  | arr (items : List Json)
  | obj (fields : List (String × Json))

namespace Json

/-! ## Decidable equality -/

mutual

/-- Structural comparison of two values. -/
def beq : Json → Json → Bool
  | .null, .null => true
  | .bool a, .bool b => a == b
  | .int a, .int b => decide (a = b)
  | .float a, .float b => decide (a = b)
  | .str a, .str b => decide (a = b)
  | .arr a, .arr b => beqList a b
  | .obj a, .obj b => beqFields a b
  | _, _ => false

def beqList : List Json → List Json → Bool
  | [], [] => true
  | a :: as, b :: bs => beq a b && beqList as bs
  | _, _ => false

def beqFields : List (String × Json) → List (String × Json) → Bool
  | [], [] => true
  | (k, a) :: as, (l, b) :: bs => decide (k = l) && (beq a b && beqFields as bs)
  | _, _ => false

end

mutual

theorem beq_iff : ∀ a b : Json, beq a b = true ↔ a = b
  | .arr a, .arr b => by
      simp [beq, beqList_iff a b]
  | .obj a, .obj b => by
      simp [beq, beqFields_iff a b]
  | .null, b => by cases b <;> simp [beq]
  | .bool a, b => by cases b <;> simp [beq]
  | .int a, b => by cases b <;> simp [beq]
  | .float a, b => by cases b <;> simp [beq]
  | .str a, b => by cases b <;> simp [beq]
  | .arr a, .null | .arr a, .bool b | .arr a, .int b | .arr a, .float b
  | .arr a, .str b | .arr a, .obj b => by simp [beq]
  | .obj a, .null | .obj a, .bool b | .obj a, .int b | .obj a, .float b
  | .obj a, .str b | .obj a, .arr b => by simp [beq]

theorem beqList_iff : ∀ a b : List Json, beqList a b = true ↔ a = b
  | [], b => by cases b <;> simp [beqList]
  | a :: as, [] => by simp [beqList]
  | a :: as, b :: bs => by
      simp [beqList, beq_iff a b, beqList_iff as bs]

theorem beqFields_iff : ∀ a b : List (String × Json), beqFields a b = true ↔ a = b
  | [], b => by cases b <;> simp [beqFields]
  | (k, a) :: as, [] => by simp [beqFields]
  | (k, a) :: as, (l, b) :: bs => by
      simp [beqFields, beq_iff a b, beqFields_iff as bs, and_assoc]

end

instance : DecidableEq Json := fun a b =>
  decidable_of_iff (beq a b = true) (beq_iff a b)

instance : Inhabited Json := ⟨.null⟩

/-! ## Dictionaries -/

/-- `dict.get` on the members of an object. -/
def lookup (fields : List (String × Json)) (key : String) : Option Json :=
  (fields.find? fun member => member.1 = key).map Prod.snd

/-- `value.get(key)` for a value that is a dictionary. -/
def get? : Json → String → Option Json
  | .obj fields, key => lookup fields key
  | _, _ => none

/-- Dictionary assignment: an existing key keeps its place. -/
def assign (key : String) (value : Json) : List (String × Json) → List (String × Json)
  | [] => [(key, value)]
  | (k, v) :: rest => if k = key then (key, value) :: rest else (k, v) :: assign key value rest

/-- `dict.pop(key, None)`. -/
def remove (key : String) (fields : List (String × Json)) : List (String × Json) :=
  fields.filter fun member => member.1 ≠ key

/-- Truth value of a Python object. -/
def truthy : Json → Bool
  | .null => false
  | .bool b => b
  | .int i => i ≠ 0
  | .float (.finite text _) => text.any fun c => '1' ≤ c ∧ c ≤ '9'
  | .float _ => true
  | .str s => s ≠ ""
  | .arr items => !items.isEmpty
  | .obj fields => !fields.isEmpty

/-! ## Printing -/

/-- The two hexadecimal digits of a control character. -/
def hexPair (n : Nat) : List Char :=
  [Nat.digitChar (n / 16), Nat.digitChar (n % 16)]

/-- One character inside a string literal, non-ASCII characters being kept. -/
def escapeChar (c : Char) : List Char :=
  if c = '"' then ['\\', '"']
  else if c = '\\' then ['\\', '\\']
  else if c = '\n' then ['\\', 'n']
  else if c = '\r' then ['\\', 'r']
  else if c = '\t' then ['\\', 't']
  else if c = Char.ofNat 8 then ['\\', 'b']
  else if c = Char.ofNat 12 then ['\\', 'f']
  else if c.toNat < 32 then '\\' :: 'u' :: '0' :: '0' :: hexPair c.toNat
  else [c]

/-- A string literal. -/
def quote (s : String) : List Char :=
  '"' :: (s.toList.flatMap escapeChar ++ ['"'])

/-- Decimal text of an integer. -/
def intText : Int → List Char
  | .ofNat n => Nat.toDigits 10 n
  | .negSucc n => '-' :: Nat.toDigits 10 (n + 1)

/-- Text of a float as the encoder prints it, non-finite values included. -/
def floatText : PyFloat → List Char
  | .finite text _ => text
  | .infinity false => "Infinity".toList
  | .infinity true => "-Infinity".toList
  | .nan => "NaN".toList

/-- Insert a member before the first member with a larger key. -/
def insertMember {α : Type} (member : String × α) : List (String × α) → List (String × α)
  | [] => [member]
  | head :: rest =>
      if member.1 ≤ head.1 then member :: head :: rest else head :: insertMember member rest

/-- Members in increasing order of their keys. -/
def sortMembers {α : Type} : List (String × α) → List (String × α)
  | [] => []
  | member :: rest => insertMember member (sortMembers rest)

/-- Join the texts of the elements of a list or of the members of an object. -/
def joinComma : List (List Char) → List Char
  | [] => []
  | [text] => text
  | text :: rest => text ++ ',' :: joinComma rest

/-- Text of a member whose value is already printed. -/
def memberText (member : String × List Char) : List Char :=
  quote member.1 ++ ':' :: member.2

mutual

/-- `json.dumps(value, ensure_ascii=False, separators=(",", ":"), sort_keys=True)`. -/
def dumps : Json → List Char
  | .null => "null".toList
  | .bool true => "true".toList
  | .bool false => "false".toList
  | .int i => intText i
  | .float f => floatText f
  | .str s => quote s
  | .arr items => '[' :: (joinComma (dumpsList items) ++ [']'])
  | .obj fields => '{' :: (joinComma ((sortMembers (dumpsFields fields)).map memberText) ++ ['}'])

def dumpsList : List Json → List (List Char)
  | [] => []
  | item :: rest => dumps item :: dumpsList rest

def dumpsFields : List (String × Json) → List (String × List Char)
  | [] => []
  | (key, value) :: rest => (key, dumps value) :: dumpsFields rest

end

/-- Length of the UTF-8 encoding of a text. -/
def utf8Length (text : List Char) : Nat :=
  (text.map Char.utf8Size).sum

/-- Size in bytes of the compact encoding. -/
def byteLength (value : Json) : Nat :=
  utf8Length (dumps value)

mutual

/-- No `NaN` and no infinity occurs anywhere, as `allow_nan=False` demands. -/
def allFinite : Json → Bool
  | .float (.finite _ _) => true
  | .float _ => false
  | .arr items => allFiniteList items
  | .obj fields => allFiniteFields fields
  | _ => true

def allFiniteList : List Json → Bool
  | [] => true
  | item :: rest => allFinite item && allFiniteList rest

def allFiniteFields : List (String × Json) → Bool
  | [] => true
  | (_, value) :: rest => allFinite value && allFiniteFields rest

end

/-! ## Lookup after an assignment -/

@[simp]
theorem lookup_nil (key : String) : lookup [] key = none := rfl

theorem lookup_cons (member : String × Json) (rest : List (String × Json)) (key : String) :
    lookup (member :: rest) key = if member.1 = key then some member.2 else lookup rest key := by
  by_cases equal : member.1 = key <;> simp [lookup, equal]

theorem lookup_isSome_iff (fields : List (String × Json)) (key : String) :
    (lookup fields key).isSome ↔ key ∈ fields.map Prod.fst := by
  induction fields with
  | nil => simp
  | cons member rest ih =>
      rw [lookup_cons]
      by_cases equal : member.1 = key
      · simp [equal]
      · rw [if_neg equal, ih]
        simp [Ne.symm equal]

theorem lookup_assign_of_ne {key other : String} (differs : other ≠ key) (value : Json)
    (fields : List (String × Json)) : lookup (assign key value fields) other = lookup fields other := by
  induction fields with
  | nil => rw [assign, lookup_cons, if_neg differs.symm]
  | cons member rest ih =>
      rw [assign]
      split
      · rename_i isKey
        have notOther : member.1 ≠ other := fun same => differs (same.symm.trans isKey)
        rw [lookup_cons, lookup_cons, if_neg differs.symm, if_neg notOther]
      · rw [lookup_cons, lookup_cons, ih]

theorem mem_keys_assign {key other : String} {value : Json} {fields : List (String × Json)} :
    other ∈ (assign key value fields).map Prod.fst ↔
      other = key ∨ other ∈ fields.map Prod.fst := by
  induction fields with
  | nil => simp [assign]
  | cons field rest ih =>
      rw [assign]
      by_cases isKey : field.1 = key
      · simp [isKey]
      · simp only [isKey, if_false, List.map_cons, List.mem_cons, ih]
        exact or_left_comm

end Json

end DotBackend.Data
