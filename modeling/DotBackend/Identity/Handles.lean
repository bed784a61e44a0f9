import DotBackend.Data.Number
import DotBackend.Data.Result

/-!
# Phone numbers and email addresses

What a channel or a token says about a user is normalised before it is looked up. Phone
numbers go through the telephone library, which is a parameter, as is the encoding of
internationalised domain names.
-/

namespace DotBackend.Identity

open Data

inductive UserIdentifierKind
  | phone
  | email
  deriving DecidableEq, Repr

inductive IdentityError
  | valueError (message : String)
  | userIdentifierRevokedError (message : String)
  | userIdentifierConflictError (message : String)
  | runtimeError (message : String)
  | integrityError
  | authUserNotFoundError (message : String)
  | authIdentityNotFoundError (message : String)
  | authIdentityConflictError (message : String)
  deriving DecidableEq, Repr

/-- The telephone library and the codec of the interpreter. A formatted number is
international: it is read again as the number it was formatted from. -/
structure Numbering where
  unicode : Unicode
  /-- `parse`, `is_valid_number` and `format_number` with the format E.164. -/
  e164 : List Char → Option (List Char)
  e164_again : ∀ candidate formatted, e164 candidate = some formatted →
    e164 (Text.strip formatted) = some formatted
  /-- `str.encode("idna")`. -/
  idna : List Char → Option (List Char)

/-- Numbers written with a plus sign and eight to fifteen digits, domains in ASCII. -/
def Numbering.ascii : Numbering where
  unicode := Unicode.ascii
  e164 candidate :=
    if candidate.head? = some '+' ∧ candidate.tail.all Char.isDigit ∧ 8 ≤ candidate.tail.length ∧
      candidate.tail.length ≤ 15 ∧ Text.strip candidate = candidate then some candidate
    else none
  e164_again := by
    intro candidate formatted isFormatted
    split at isFormatted
    · rename_i wellFormed
      cases isFormatted
      rw [wellFormed.2.2.2.2, if_pos wellFormed]
    · cases isFormatted
  idna domain := if domain.all fun c => c.toNat < 128 then some domain else none

/-- A handle in the form in which identifiers are stored. -/
structure IdentifierKey where
  kind : UserIdentifierKind
  normalizedValue : String
  deriving DecidableEq, Repr

def normalizePhoneNumber (numbering : Numbering) (value : String) : Except IdentityError String :=
  match numbering.e164 (Text.strip value.toList) with
  | some formatted => .ok (String.ofList formatted)
  | none => .error (.valueError "phone number must be a valid international number")

/-- A label of a domain in ASCII. -/
def validLabel (unicode : Unicode) (label : List Char) : Bool :=
  !label.isEmpty && label.length ≤ 63 && label.head? ≠ some '-' && label.getLast? ≠ some '-' &&
    label.all fun c => unicode.alnum c || c == '-'

/-- The part of an address before the sign. -/
def validLocalPart (part : List Char) : Bool :=
  !part.isEmpty && part.length ≤ 64 && part.head? ≠ some '.' && part.getLast? ≠ some '.' &&
    !Text.occurs "..".toList part && !part.any fun c => Text.isSpace c || c.toNat < 32

def normalizeEmailAddress (numbering : Numbering) (value : String) :
    Except IdentityError String := do
  let invalid := IdentityError.valueError "email address must be valid"
  let candidate := Text.strip value.toList
  require (candidate.count '@' = 1 && candidate.length ≤ 320) invalid
  let localPart := candidate.takeWhile (· ≠ '@')
  let domain := (candidate.dropWhile (· ≠ '@')).drop 1
  require (validLocalPart localPart) invalid
  let withoutDots := (domain.reverse.dropWhile (· = '.')).reverse
  match numbering.idna withoutDots with
  | none => .error invalid
  | some encoded =>
      let asciiDomain := Text.casefold numbering.unicode encoded
      require (!asciiDomain.isEmpty && (asciiDomain.splitOn '.').all
        (validLabel numbering.unicode)) invalid
      let normalized := Text.casefold numbering.unicode localPart ++ '@' :: asciiDomain
      require (normalized.length ≤ 320) invalid
      pure (String.ofList normalized)

/-- The kind is the expected one, or told by the sign of an address. -/
def normalizeUserIdentifier (numbering : Numbering) (value : String)
    (expectedKind : Option UserIdentifierKind) : Except IdentityError IdentifierKey :=
  if expectedKind = some .email ∨ (expectedKind = none ∧ '@' ∈ value.toList) then
    (normalizeEmailAddress numbering value).map fun normalized => ⟨.email, normalized⟩
  else
    (normalizePhoneNumber numbering value).map fun normalized => ⟨.phone, normalized⟩

/-- `_clean_source`. -/
def cleanSource (source : String) : Except IdentityError String :=
  let clean := Text.strip source.toList
  if clean.isEmpty then .error (.valueError "identifier source must not be empty")
  else .ok (String.ofList (clean.take 64))

/-- A stored phone number is read as itself. -/
theorem normalizePhoneNumber_again {numbering : Numbering} {value normalized : String}
    (isNormalized : normalizePhoneNumber numbering value = .ok normalized) :
    normalizePhoneNumber numbering normalized = .ok normalized := by
  rw [normalizePhoneNumber] at isNormalized
  split at isNormalized
  · rename_i formatted isFormatted
    cases isNormalized
    rw [normalizePhoneNumber, String.toList_ofList, numbering.e164_again _ _ isFormatted]
  · cases isNormalized

/-- The kind that a handle is normalised to, when one is expected. -/
theorem kind_of_normalize {numbering : Numbering} {value : String} {kind : UserIdentifierKind}
    {key : IdentifierKey}
    (isNormalized : normalizeUserIdentifier numbering value (some kind) = .ok key) :
    key.kind = kind := by
  cases kind with
  | email =>
      rw [normalizeUserIdentifier, if_pos (Or.inl rfl)] at isNormalized
      cases normalized : normalizeEmailAddress numbering value with
      | error error =>
          rw [normalized] at isNormalized
          cases isNormalized
      | ok address =>
          rw [normalized] at isNormalized
          cases isNormalized
          rfl
  | phone =>
      rw [normalizeUserIdentifier, if_neg (by simp)] at isNormalized
      cases normalized : normalizePhoneNumber numbering value with
      | error error =>
          rw [normalized] at isNormalized
          cases isNormalized
      | ok number =>
          rw [normalized] at isNormalized
          cases isNormalized
          rfl

/-- A phone that was normalised is normalised to itself. -/
theorem normalize_again {numbering : Numbering} {value : String}
    {expected : Option UserIdentifierKind} {key : IdentifierKey}
    (isNormalized : normalizeUserIdentifier numbering value expected = .ok key)
    (isPhone : key.kind = .phone) :
    normalizeUserIdentifier numbering key.normalizedValue (some .phone) = .ok key := by
  rw [normalizeUserIdentifier] at isNormalized
  split at isNormalized
  · cases normalized : normalizeEmailAddress numbering value with
    | error error =>
        rw [normalized] at isNormalized
        cases isNormalized
    | ok address =>
        rw [normalized] at isNormalized
        cases isNormalized
        cases isPhone
  · cases normalized : normalizePhoneNumber numbering value with
    | error error =>
        rw [normalized] at isNormalized
        cases isNormalized
    | ok number =>
        rw [normalized] at isNormalized
        cases isNormalized
        rw [normalizeUserIdentifier, if_neg (by simp), normalizePhoneNumber_again normalized]
        rfl

example : normalizeUserIdentifier Numbering.ascii " Ann@Example.COM. " none =
    .ok ⟨.email, "ann@example.com"⟩ := by
  decide

end DotBackend.Identity
