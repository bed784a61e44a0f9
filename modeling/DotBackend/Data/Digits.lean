import DotBackend.Data.Number
import Mathlib.Tactic.IntervalCases
import Mathlib.Tactic.Ring

/-!
# Decimal digits

Numbers written with a fixed count of digits, and read back.
-/

namespace DotBackend.Data

/-- The last `count` decimal digits of a number. -/
def digits : Nat → Nat → List Char
  | 0, _ => []
  | count + 1, n => digits count (n / 10) ++ [Nat.digitChar (n % 10)]

/-- Exactly `count` digits in front of a text, as a number. -/
def takeDigits (count : Nat) (text : List Char) : Option (Nat × List Char) :=
  if count ≤ text.length ∧ (text.take count).all Char.isDigit then
    some (digitsValue (text.take count), text.drop count)
  else none

theorem length_digits (count n : Nat) : (digits count n).length = count := by
  induction count generalizing n with
  | zero => rfl
  | succ count ih =>
      rw [digits, List.length_append, ih]
      rfl

theorem digitChar_digit {d : Nat} (isDigit : d < 10) :
    (Nat.digitChar d).isDigit = true ∧ (Nat.digitChar d).toNat - '0'.toNat = d := by
  interval_cases d <;> decide

theorem isDigit_of_mem_digits {count n : Nat} {c : Char} (cMem : c ∈ digits count n) :
    c.isDigit = true := by
  induction count generalizing n with
  | zero => cases cMem
  | succ count ih =>
      rw [digits, List.mem_append, List.mem_singleton] at cMem
      rcases cMem with earlier | rfl
      · exact ih earlier
      · exact (digitChar_digit (Nat.mod_lt n (by decide))).1

theorem digitsValue_append_singleton (text : List Char) (c : Char) :
    digitsValue (text ++ [c]) = 10 * digitsValue text + (c.toNat - '0'.toNat) := by
  rw [digitsValue, List.foldl_append]
  rfl

theorem digitsValue_append (first second : List Char) :
    digitsValue (first ++ second) =
      digitsValue first * 10 ^ second.length + digitsValue second := by
  induction second using List.reverseRecOn with
  | nil => simp [digitsValue]
  | append_singleton text c ih =>
      rw [← List.append_assoc, digitsValue_append_singleton, digitsValue_append_singleton,
        ih, List.length_append, List.length_singleton]
      ring

/-- The value of the last digits of a number. -/
theorem digitsValue_digits (count n : Nat) : digitsValue (digits count n) = n % 10 ^ count := by
  induction count generalizing n with
  | zero => rw [pow_zero, Nat.mod_one]; rfl
  | succ count ih =>
      rw [digits, digitsValue_append_singleton, ih,
        (digitChar_digit (Nat.mod_lt n (by decide))).2, pow_succ, Nat.mul_comm (10 ^ count),
        Nat.mod_mul, Nat.add_comm]

/-- Digits that are written are read as the number. -/
theorem takeDigits_digits {count n : Nat} (small : n < 10 ^ count) (rest : List Char) :
    takeDigits count (digits count n ++ rest) = some (n, rest) := by
  have written : (digits count n ++ rest).take count = digits count n := by
    rw [List.take_append_of_le_length (Nat.le_of_eq (length_digits count n).symm),
      List.take_of_length_le (Nat.le_of_eq (length_digits count n))]
  have left : (digits count n ++ rest).drop count = rest := by
    rw [List.drop_append_of_le_length (Nat.le_of_eq (length_digits count n).symm),
      List.drop_of_length_le (Nat.le_of_eq (length_digits count n)), List.nil_append]
  have long : count ≤ (digits count n ++ rest).length := by
    rw [List.length_append, length_digits]
    exact Nat.le_add_right _ _
  have allDigits : (digits count n).all Char.isDigit = true :=
    List.all_eq_true.mpr fun _ => isDigit_of_mem_digits
  rw [takeDigits, written, left, if_pos ⟨long, allDigits⟩, digitsValue_digits,
    Nat.mod_eq_of_lt small]

/-- What is read is within the count of digits. -/
theorem takeDigits_lt {count n : Nat} {text rest : List Char}
    (reads : takeDigits count text = some (n, rest)) : n < 10 ^ count := by
  have bound : ∀ chars : List Char, chars.all Char.isDigit = true →
      digitsValue chars < 10 ^ chars.length := by
    intro chars
    induction chars using List.reverseRecOn with
    | nil => simp [digitsValue]
    | append_singleton chars c ih =>
        intro areDigits
        rw [List.all_append, Bool.and_eq_true] at areDigits
        have first := ih areDigits.1
        have last : c.isDigit = true := by simpa using areDigits.2
        have small : c.toNat - '0'.toNat < 10 := by
          rw [Char.isDigit, Bool.and_eq_true, decide_eq_true_eq, decide_eq_true_eq] at last
          have upper : c.toNat ≤ '9'.toNat := last.2
          change c.toNat ≤ 57 at upper
          change c.toNat - 48 < 10
          omega
        rw [digitsValue_append_singleton, List.length_append, List.length_singleton, pow_succ]
        omega
  rw [takeDigits] at reads
  split at reads
  · rename_i accepted
    simp only [Option.some.injEq, Prod.mk.injEq] at reads
    have small := bound _ accepted.2
    rw [List.length_take, Nat.min_eq_left accepted.1, reads.1] at small
    exact small
  · cases reads

end DotBackend.Data
