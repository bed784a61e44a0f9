import DotBackend.Identity.EmailAddresses
import DotBackend.Identity.Resolution

/-!
# Stored addresses that are looked up again

Some callers look a user up by an address as it is stored, among them the deletion of an account.
Such an address leads to its own row if it is normalised to itself, which it is as long as folding
its case has not made the part before the sign too long.
-/

namespace DotBackend.Identity

open Data Transaction
open Program

/-! ## The lookup of a reset -/

/-- `build_user_reset_plan`: the user whose rows the plan lists. -/
def buildUserResetPlan (numbering : Numbering) (identifierValue : String) :
    IdentityProgram (Option Uuid) := do
  let key ← lift (normalizeUserIdentifier numbering identifierValue none)
  let identifier ← selectIdentifier key
  match identifier with
  | some identifier => pure (some identifier.userId)
  | none =>
      if key.kind = .phone then do
        let user ← selectLegacyUser key.normalizedValue
        pure (user.map User.id)
      else pure none

section Lookups

variable {α β : Type} {store : IdentityStore} {refusal : IdentityError}

theorem alone_lift_ok (a : α) (rest : α → IdentityProgram β) :
    (lift (.ok a) >>= rest).alone refusal store = (rest a).alone refusal store :=
  rfl

theorem alone_selectIdentifier (key : IdentifierKey)
    (rest : Option UserIdentifier → IdentityProgram β) :
    (selectIdentifier key >>= rest).alone refusal store =
      (rest (store.identifierAt key)).alone refusal store :=
  rfl

end Lookups

/-! ## Stored addresses -/

/-- A stored value leads to the row that it is stored in, whichever code looks it up. -/
structure LeadsTo (numbering : Numbering) (store : IdentityStore) (row : UserIdentifier) :
    Prop where
  find : ∀ expectedKind, expectedKind ≠ some .phone → ∀ refusal,
    (findUserByIdentifier numbering row.normalizedValue expectedKind).alone refusal store =
      .ok (if row.status ≠ .active then none else store.userAt row.userId, store)
  resolve : ∀ input, input.value = row.normalizedValue → input.expectedKind ≠ some .phone →
    ∀ refusal, (resolveUserFromIdentifier numbering input).alone refusal store =
      (resolveExisting input row).alone refusal store
  reset : ∀ refusal, (buildUserResetPlan numbering row.normalizedValue).alone refusal store =
    .ok (some row.userId, store)

/-- An address in the form that is stored is accepted as it is, and leads to its own row. -/
structure ResolvesToItself (numbering : Numbering) (stored : String) : Prop where
  address : normalizeEmailAddress numbering stored = .ok stored
  handle : ∀ expectedKind, expectedKind ≠ some .phone →
    normalizeUserIdentifier numbering stored expectedKind = .ok ⟨.email, stored⟩
  ownRow : ∀ store : IdentityStore,
    Table.UniqueOn (fun row : UserIdentifier => some row.key) store.identifiers →
    ∀ row ∈ store.identifiers, row.key = ⟨.email, stored⟩ → LeadsTo numbering store row

section Resolves

variable {numbering : Numbering} {value normalized : String}

theorem sign_mem_of_normalized (accepted : normalizeEmailAddress numbering value = .ok normalized) :
    '@' ∈ value.toList := by
  rcases normalizeEmailAddress_eq_ok.mp accepted with ⟨once, _⟩
  have inStripped : '@' ∈ Text.strip value.toList := by
    apply List.count_pos_iff.mp
    rw [once]
    exact Nat.one_pos
  exact ( Text.strip_infix value.toList).subset inStripped

/-- An address is a handle of its kind unless a phone is expected. -/
theorem normalizeUserIdentifier_of_address {expectedKind : Option UserIdentifierKind}
    (accepted : normalizeEmailAddress numbering value = .ok normalized)
    (notPhone : expectedKind ≠ some .phone) :
    normalizeUserIdentifier numbering value expectedKind = .ok ⟨.email, normalized⟩ := by
  have isEmail : expectedKind = some .email ∨ (expectedKind = none ∧ '@' ∈ value.toList) := by
    cases expectedKind with
    | none => exact Or.inr ⟨rfl, sign_mem_of_normalized accepted⟩
    | some kind =>
        cases kind with
        | phone => exact absurd rfl notPhone
        | email => exact Or.inl rfl
  rw [normalizeUserIdentifier, if_pos isEmail, accepted]
  rfl

theorem leadsTo_of_address {store : IdentityStore} {row : UserIdentifier}
    (accepted : normalizeEmailAddress numbering normalized = .ok normalized)
    (unique : Table.UniqueOn (fun row : UserIdentifier => some row.key) store.identifiers)
    (rowMem : row ∈ store.identifiers) (sameKey : row.key = ⟨.email, normalized⟩) :
    LeadsTo numbering store row := by
  have sameValue : row.normalizedValue = normalized :=
    congrArg IdentifierKey.normalizedValue sameKey
  have found : store.identifierAt ⟨.email, normalized⟩ = some row := by
    rw [← sameKey]
    exact unique.find?_eq_some rowMem
  constructor
  · intro expectedKind notPhone refusal
    rw [sameValue, findUserByIdentifier, normalizeUserIdentifier_of_address accepted notPhone,
      alone_lift_ok, alone_selectIdentifier, found]
    by_cases notActive : row.status ≠ .active
    · simp only [if_pos notActive]
      rfl
    · simp only [if_neg notActive]
      rfl
  · intro input isValue notPhone refusal
    rw [resolveUserFromIdentifier, isValue, sameValue,
      normalizeUserIdentifier_of_address accepted notPhone, alone_lift_ok, alone_selectIdentifier,
      found]
  · intro refusal
    rw [sameValue, buildUserResetPlan,
      normalizeUserIdentifier_of_address accepted (by simp), alone_lift_ok,
      alone_selectIdentifier, found]
    rfl

/-- A stored address leads to its own row exactly if folding its case has left at most 64
characters before the sign. -/
theorem address_resolves_to_itself_iff (folding : Folding numbering.unicode)
    (encoding : Encoding numbering)
    (accepted : normalizeEmailAddress numbering value = .ok normalized) :
    ResolvesToItself numbering normalized ↔
      (Text.casefold numbering.unicode (localPartOf value)).length ≤ 64 := by
  rw [← normalizeEmailAddress_again_iff folding encoding accepted]
  constructor
  · intro resolves
    exact resolves.address
  · intro again
    constructor
    · exact again
    · intro expectedKind notPhone
      exact normalizeUserIdentifier_of_address again notPhone
    · intro store unique row rowMem sameKey
      exact leadsTo_of_address again unique rowMem sameKey

end Resolves

/-! ## An address that grows -/

/-- Tables that fold a sharp s to two letters. -/
def sharpTable : Unicode where
  fold c := if c.toNat < 128 then [c.toLower] else if c = 'ß' then ['s', 's'] else [c]
  alnum c := if c.toNat < 128 then c.isAlphanum else c = 'ß'
  decimal c := if c.toNat < 128 ∧ c.isDigit then some (c.toNat - '0'.toNat) else none
  fold_ascii _ ascii := if_pos ascii
  alnum_ascii _ ascii := if_pos ascii
  decimal_ascii c ascii := by simp [ascii]

def sharpNumbering : Numbering :=
  { Numbering.ascii with unicode := sharpTable }

theorem folding_sharpTable : Folding sharpTable := by
  have lower_again : ∀ n < 128, (Char.ofNat n).toLower.toLower = (Char.ofNat n).toLower := by decide
  have lower_plain : ∀ n < 128, (Char.ofNat n).toLower = '@' ∨ (Char.ofNat n).toLower = '.' ∨
      Text.isSpace (Char.ofNat n).toLower = true ∨ (Char.ofNat n).toLower.toNat < 32 →
        (Char.ofNat n).toLower = Char.ofNat n := by
    decide
  have fold_other : ∀ c : Char, ¬ c.toNat < 128 → c ≠ 'ß' → sharpTable.fold c = [c] := by
    intro c notAscii notSharp
    change (if c.toNat < 128 then [c.toLower] else if c = 'ß' then ['s', 's'] else [c]) = [c]
    rw [if_neg notAscii, if_neg notSharp]
  constructor
  · intro c
    by_cases ascii : c.toNat < 128
    · have again := lower_again c.toNat ascii
      rw [Char.ofNat_toNat] at again
      rw [sharpTable.fold_ascii c ascii, List.flatMap_singleton,
        sharpTable.fold_ascii _ (ascii_toLower ascii), again]
    · by_cases isSharp : c = 'ß'
      · rw [isSharp]
        decide
      · rw [fold_other c ascii isSharp, List.flatMap_singleton, fold_other c ascii isSharp]
  · intro c isEmpty
    by_cases ascii : c.toNat < 128
    · rw [sharpTable.fold_ascii c ascii] at isEmpty
      cases isEmpty
    · by_cases isSharp : c = 'ß'
      · rw [isSharp] at isEmpty
        exact absurd isEmpty (by decide)
      · rw [fold_other c ascii isSharp] at isEmpty
        cases isEmpty
  · intro c d dMem isPlain
    by_cases ascii : c.toNat < 128
    · rw [sharpTable.fold_ascii c ascii, List.mem_singleton] at dMem
      have plain := lower_plain c.toNat ascii
      rw [Char.ofNat_toNat] at plain
      rw [dMem] at isPlain ⊢
      exact plain isPlain
    · by_cases isSharp : c = 'ß'
      · have isLetter : d = 's' := by
          rw [isSharp] at dMem
          revert dMem
          change d ∈ ['s', 's'] → d = 's'
          simp
        rw [isLetter] at isPlain
        exact absurd isPlain (by decide)
      · rw [fold_other c ascii isSharp, List.mem_singleton] at dMem
        exact dMem

theorem encoding_sharpNumbering : Encoding sharpNumbering := by
  have idna_eq : ∀ domain encoded, sharpNumbering.idna domain = some encoded ↔
      (∀ c ∈ domain, c.toNat < 128) ∧ domain = encoded := by
    intro domain encoded
    change (if domain.all (fun c => c.toNat < 128) then some domain else none) = some encoded ↔ _
    simp
  constructor
  · intro domain encoded isEncoded c cMem
    rcases (idna_eq domain encoded).mp isEncoded with ⟨ascii, rfl⟩
    exact ascii c cMem
  · intro domain encoded isEncoded
    rcases (idna_eq domain encoded).mp isEncoded with ⟨ascii, rfl⟩
    rw [idna_eq]
    constructor
    · intro c cMem
      rcases List.mem_flatMap.mp cMem with ⟨d, dMem, isFold⟩
      rw [sharpNumbering.unicode.fold_ascii d (ascii d dMem), List.mem_singleton] at isFold
      rw [isFold]
      exact ascii_toLower (ascii d dMem)
    · rfl

def longGreeting : String :=
  String.ofList (List.replicate 40 'ß' ++ "@Example.com".toList)

def foldedGreeting : String :=
  String.ofList (List.replicate 80 's' ++ "@example.com".toList)

theorem greeting_resolves_to_itself :
    normalizeEmailAddress sharpNumbering " Gruß@Example.com." = .ok "gruss@example.com" ∧
      ResolvesToItself sharpNumbering "gruss@example.com" := by
  have accepted : normalizeEmailAddress sharpNumbering " Gruß@Example.com." =
      .ok "gruss@example.com" := by
    decide
  constructor
  · exact accepted
  · rw [address_resolves_to_itself_iff folding_sharpTable encoding_sharpNumbering accepted]
    decide

/-- Forty sharp s are accepted and become eighty letters, which are not accepted. -/
theorem long_greeting_lost :
    Folding sharpTable ∧ Encoding sharpNumbering ∧
      normalizeEmailAddress sharpNumbering longGreeting = .ok foldedGreeting ∧
      normalizeEmailAddress sharpNumbering foldedGreeting =
        .error (.valueError "email address must be valid") ∧
      ¬ ResolvesToItself sharpNumbering foldedGreeting := by
  have refused : normalizeEmailAddress sharpNumbering foldedGreeting =
      .error (.valueError "email address must be valid") := by
    decide
  refine ⟨folding_sharpTable, encoding_sharpNumbering, by decide, refused, ?_⟩
  intro resolves
  have accepted := resolves.address
  rw [refused] at accepted
  cases accepted

end DotBackend.Identity
