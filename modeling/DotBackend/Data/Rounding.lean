import DotBackend.Data.Digits
import DotBackend.Data.Equality
import Mathlib.Data.List.TakeWhile
import Mathlib.Tactic.Linarith
import Mathlib.Tactic.FieldSimp
import Mathlib.Tactic.Positivity

/-!
# Four decimal places

`round(number, 4)`, of numbers that are read as exact decimals. A number of ten-thousandths is
written as `repr` writes it, which needs no exponent here, and is rounded to itself.
-/

namespace DotBackend.Data

/-! ## Rounding -/

theorem roundHalfEven_intCast (n : Int) : roundHalfEven n = n := by
  simp [roundHalfEven, Rat.floor_intCast]

theorem roundHalfEven_le {number : Rat} {bound : Int} (atMost : number ≤ bound) :
    roundHalfEven number ≤ bound := by
  have below := Rat.floor_le number
  rw [roundHalfEven]
  split
  · exact_mod_cast below.trans atMost
  · rename_i upwards
    have above : (number.floor : Rat) < bound := by
      rw [not_or] at upwards
      have rest : (1 / 2 : Rat) ≤ number - number.floor := not_lt.mp upwards.1
      linarith
    exact_mod_cast above

theorem le_roundHalfEven {number : Rat} {bound : Int} (atLeast : bound ≤ number) :
    bound ≤ roundHalfEven number := by
  have below : bound ≤ number.floor := Rat.le_floor_iff.mpr atLeast
  rw [roundHalfEven]
  split
  · exact below
  · exact Int.le_add_one below

/-! ## Ten-thousandths -/

/-- The digits behind the point: as few of the four as tell the number, but at least one. -/
def fractionDigits (rest : Nat) : List Char :=
  if rest % 1000 = 0 then digits 1 (rest / 1000)
  else if rest % 100 = 0 then digits 2 (rest / 100)
  else if rest % 10 = 0 then digits 3 (rest / 10)
  else digits 4 rest

/-- `repr` of a float of so many ten-thousandths. -/
def placesText (isNegative : Bool) (size : Nat) : List Char :=
  (if isNegative then ['-'] else []) ++
    (Nat.toDigits 10 (size / 10 ^ 4) ++ '.' :: fractionDigits (size % 10 ^ 4))

theorem fractionDigits_eq {rest : Nat} (small : rest < 10 ^ 4) : ∃ count n,
    fractionDigits rest = digits count n ∧ 0 < count ∧ count ≤ 4 ∧ n < 10 ^ count ∧
      n * 10 ^ (4 - count) = rest := by
  rw [fractionDigits]
  split
  · exact ⟨1, rest / 1000, rfl, by omega, by omega, by omega, by omega⟩
  split
  · exact ⟨2, rest / 100, rfl, by omega, by omega, by omega, by omega⟩
  split
  · exact ⟨3, rest / 10, rfl, by omega, by omega, by omega, by omega⟩
  · exact ⟨4, rest, rfl, by omega, by omega, by omega, by omega⟩

theorem isDigit_of_mem_fractionDigits {rest : Nat} {c : Char} (cMem : c ∈ fractionDigits rest) :
    c.isDigit = true := by
  rw [fractionDigits] at cMem
  split at cMem
  · exact isDigit_of_mem_digits cMem
  split at cMem
  · exact isDigit_of_mem_digits cMem
  split at cMem
  · exact isDigit_of_mem_digits cMem
  · exact isDigit_of_mem_digits cMem

theorem isFloatText_placesText (isNegative : Bool) (size : Nat) :
    isFloatText (placesText isNegative size) = true := by
  have allChars : (placesText isNegative size).all isFloatChar = true := by
    rw [List.all_eq_true]
    intro c cMem
    simp only [placesText, List.mem_append, List.mem_cons] at cMem
    rcases cMem with isSign | isWhole | rfl | isFraction
    · cases isNegative with
      | false => cases isSign
      | true =>
          rw [if_pos rfl, List.mem_singleton] at isSign
          rw [isSign]
          rfl
    · simp [isFloatChar, Nat.isDigit_of_mem_toDigits (by decide) (by decide) isWhole]
    · rfl
    · simp [isFloatChar, isDigit_of_mem_fractionDigits isFraction]
  have anyPoint : ((placesText isNegative size).any fun c => c == '.' || c == 'e') = true :=
    List.any_eq_true.mpr ⟨'.', by simp [placesText], rfl⟩
  cases written : Nat.toDigits 10 (size / 10 ^ 4) with
  | nil => exact absurd written Nat.toDigits_ne_nil
  | cons first others =>
      have firstDigit : first.isDigit = true :=
        Nat.isDigit_of_mem_toDigits (by decide) (by decide) (written ▸ List.mem_cons_self)
      unfold isFloatText
      rw [allChars, anyPoint, placesText, written]
      cases isNegative with
      | true => exact firstDigit
      | false =>
          have notMinus : first ≠ '-' := by
            rintro rfl
            cases firstDigit
          simp [notMinus, firstDigit]

/-- A float of so many ten-thousandths. -/
def places (isNegative : Bool) (size : Nat) : PyFloat :=
  .finite (placesText isNegative size) (isFloatText_placesText isNegative size)

/-- The whole and the fraction of a text with a point, as one number. -/
theorem mkRat_digitsValue (size : Nat) :
    mkRat (digitsValue (Nat.toDigits 10 (size / 10 ^ 4) ++ fractionDigits (size % 10 ^ 4)) : Nat)
      (10 ^ (fractionDigits (size % 10 ^ 4)).length) = (size : Rat) / 10 ^ 4 := by
  rcases fractionDigits_eq (Nat.mod_lt size (by decide : 10 ^ 4 > 0)) with
    ⟨count, n, written, _, atMost, small, scaled⟩
  have whole : digitsValue (Nat.toDigits 10 (size / 10 ^ 4)) = size / 10 ^ 4 :=
    Nat.ofDigitChars_ten_toDigits
  have total : (size / 10 ^ 4 * 10 ^ count + n) * 10 ^ (4 - count) = size := by
    have place : 10 ^ count * 10 ^ (4 - count) = 10 ^ 4 := by
      rw [← Nat.pow_add, Nat.add_sub_cancel' atMost]
    rw [Nat.add_mul, Nat.mul_assoc, place, scaled, Nat.div_add_mod']
  rw [written, length_digits, digitsValue_append, whole, length_digits, digitsValue_digits,
    Nat.mod_eq_of_lt small, Rat.mkRat_eq_div]
  generalize size / 10 ^ 4 = before at total
  have scale : (10 : Rat) ^ 4 = 10 ^ count * 10 ^ (4 - count) := by
    rw [← pow_add, Nat.add_sub_cancel' atMost]
  rw [scale, ← total]
  push_cast
  field_simp

theorem ne_of_isDigit {c mark : Char} (isDigit : c.isDigit = true) (notDigit : mark.isDigit = false) :
    decide (c ≠ mark) = true := by
  rw [decide_eq_true_eq]
  rintro rfl
  rw [isDigit] at notDigit
  cases notDigit

/-- The value of digits around a point, whose sign is read first. -/
theorem finiteValue_of_point {text whole fraction : List Char}
    (body : (if text.head? = some '-' then text.tail else text) = whole ++ '.' :: fraction)
    (wholeDigits : ∀ c ∈ whole, c.isDigit = true)
    (fractionDigits : ∀ c ∈ fraction, c.isDigit = true) (nonempty : fraction ≠ []) :
    finiteValue text =
      if text.head? = some '-' then
        -mkRat (digitsValue (whole ++ fraction) : Nat) (10 ^ fraction.length)
      else mkRat (digitsValue (whole ++ fraction) : Nat) (10 ^ fraction.length) := by
  have noExponent : ∀ c ∈ whole ++ '.' :: fraction, decide (c ≠ 'e') = true := by
    intro c cMem
    rw [List.mem_append, List.mem_cons] at cMem
    rcases cMem with isWhole | rfl | isFraction
    · exact ne_of_isDigit (wholeDigits c isWhole) rfl
    · rfl
    · exact ne_of_isDigit (fractionDigits c isFraction) rfl
  have noPoint : ∀ c ∈ whole, decide (c ≠ '.') = true := fun c cMem =>
    ne_of_isDigit (wholeDigits c cMem) rfl
  have mantissa : (whole ++ '.' :: fraction).takeWhile (fun c => decide (c ≠ 'e')) =
      whole ++ '.' :: fraction :=
    List.takeWhile_eq_self_iff.mpr noExponent
  have exponent : (whole ++ '.' :: fraction).dropWhile (fun c => decide (c ≠ 'e')) = [] :=
    List.dropWhile_eq_nil_iff.mpr noExponent
  have before : (whole ++ '.' :: fraction).takeWhile (fun c => decide (c ≠ '.')) = whole := by
    rw [List.takeWhile_append_of_pos noPoint]
    simp
  have behind : (whole ++ '.' :: fraction).dropWhile (fun c => decide (c ≠ '.')) =
      '.' :: fraction := by
    rw [List.dropWhile_append_of_pos noPoint]
    simp
  have places : 0 < fraction.length := List.length_pos_iff.mpr nonempty
  have scale : signedValue (List.drop 1 []) - (fraction.length : Int) = -fraction.length := by
    simp [signedValue, digitsValue]
  have notWhole : ¬ 0 ≤ -(fraction.length : Int) := by omega
  rw [finiteValue, body, mantissa, exponent, before, behind]
  simp only [List.drop_one, List.tail_cons, List.tail_nil] at scale ⊢
  rw [scale, if_neg notWhole, Int.neg_neg, Int.toNat_natCast]

theorem head?_placesText (isNegative : Bool) (size : Nat) :
    (placesText isNegative size).head? = some '-' ↔ isNegative = true := by
  cases isNegative with
  | true => exact ⟨fun _ => rfl, fun _ => rfl⟩
  | false =>
      constructor
      · intro isMinus
        cases written : Nat.toDigits 10 (size / 10 ^ 4) with
        | nil => exact absurd written Nat.toDigits_ne_nil
        | cons first others =>
            have firstDigit : first.isDigit = true :=
              Nat.isDigit_of_mem_toDigits (by decide) (by decide) (written ▸ List.mem_cons_self)
            rw [placesText, written] at isMinus
            cases isMinus
            cases firstDigit
      · intro impossible
        cases impossible

/-- The text is read back as the number it was written of. -/
theorem finiteValue_placesText (isNegative : Bool) (size : Nat) :
    finiteValue (placesText isNegative size) =
      if isNegative then -((size : Rat) / 10 ^ 4) else (size : Rat) / 10 ^ 4 := by
  have body : (if (placesText isNegative size).head? = some '-' then
      (placesText isNegative size).tail else placesText isNegative size) =
      Nat.toDigits 10 (size / 10 ^ 4) ++ '.' :: fractionDigits (size % 10 ^ 4) := by
    simp only [head?_placesText]
    cases isNegative <;> rfl
  have nonempty : fractionDigits (size % 10 ^ 4) ≠ [] := by
    rcases fractionDigits_eq (Nat.mod_lt size (by decide : 10 ^ 4 > 0)) with
      ⟨count, n, written, positive, _⟩
    intro empty
    have length := congrArg List.length (written.symm.trans empty)
    rw [length_digits, List.length_nil] at length
    omega
  rw [finiteValue_of_point body (fun _ => Nat.isDigit_of_mem_toDigits (by decide) (by decide))
    (fun _ => isDigit_of_mem_fractionDigits) nonempty, mkRat_digitsValue]
  simp only [head?_placesText]

/-! ## `round(number, 4)` -/

/-- A number rounded to four places; minus zero stays negative. -/
def round4 : Json → PyFloat
  | .int i => places (i < 0) (i.natAbs * 10 ^ 4)
  | .float (.finite text _) =>
      places (text.head? = some '-') (roundHalfEven (finiteValue text * 10 ^ 4)).natAbs
  | _ => .nan

theorem round4_places (isNegative : Bool) (size : Nat) :
    round4 (.float (places isNegative size)) = places isNegative size := by
  have scaled : finiteValue (placesText isNegative size) * 10 ^ 4 =
      ((if isNegative then -(size : Int) else size : Int) : Rat) := by
    rw [finiteValue_placesText]
    cases isNegative <;> simp
  have rounded : (roundHalfEven (finiteValue (placesText isNegative size) * 10 ^ 4)).natAbs =
      size := by
    rw [scaled, roundHalfEven_intCast]
    cases isNegative <;> simp
  have sign : decide ((placesText isNegative size).head? = some '-') = isNegative := by
    simp only [head?_placesText]
    cases isNegative <;> rfl
  rw [places, round4, rounded, sign, places]

/-- The size of a rounded number stays within a whole bound. -/
theorem finiteValue_places_le {isNegative : Bool} {size bound : Nat} (small : size ≤ bound * 10 ^ 4) :
    -(bound : Rat) ≤ finiteValue (placesText isNegative size) ∧
      finiteValue (placesText isNegative size) ≤ bound := by
  have scaled : (size : Rat) / 10 ^ 4 ≤ bound := by
    rw [div_le_iff₀ (by norm_num)]
    exact_mod_cast small
  have positive : 0 ≤ (size : Rat) / 10 ^ 4 := by positivity
  rw [finiteValue_placesText]
  cases isNegative with
  | true =>
      rw [if_pos rfl]
      constructor <;> linarith
  | false =>
      rw [if_neg Bool.false_ne_true]
      constructor <;> linarith

theorem natAbs_roundHalfEven_le {number : Rat} {bound : Nat} (atLeast : -(bound : Rat) ≤ number)
    (atMost : number ≤ bound) :
    (roundHalfEven (number * 10 ^ 4)).natAbs ≤ bound * 10 ^ 4 := by
  have lower : -(bound * 10 ^ 4 : Int) ≤ roundHalfEven (number * 10 ^ 4) := by
    apply le_roundHalfEven
    push_cast
    linarith
  have upper : roundHalfEven (number * 10 ^ 4) ≤ (bound * 10 ^ 4 : Int) := by
    apply roundHalfEven_le
    push_cast
    linarith
  omega

end DotBackend.Data
