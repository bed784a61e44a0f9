import DotBackend.Data.CleanText
import DotBackend.Data.Number

/-!
# The text of a UUID

`UUID(str(id))` is the identifier again.
-/

namespace DotBackend.Data

variable {unicode : Unicode}

/-! ## Texts that are left as they are -/

theorem Text.trim_eq_self {drop : Char → Bool} {text : List Char}
    (keeps : ∀ c ∈ text, drop c = false) : Text.trim drop text = text := by
  apply Text.trim_eq_self_of_ends
  · intro c isFirst
    exact keeps c (List.mem_of_head? isFirst)
  · intro c isLast
    exact keeps c (List.mem_of_getLast? isLast)

/-- A pattern does not occur in a text without its first character. -/
theorem Text.removeAll_eq_self {first : Char} {old text : List Char} (absent : first ∉ text) :
    Text.removeAll (first :: old) text = text := by
  rw [Text.removeAll]
  induction text with
  | nil => rfl
  | cons c rest ih =>
      rw [List.mem_cons, not_or] at absent
      have noMatch : (first :: old).isPrefixOf (c :: rest) = false := by
        rw [List.isPrefixOf, beq_eq_false_iff_ne.mpr absent.1, Bool.false_and]
      rw [Text.removeAll.go, noMatch, if_neg Bool.false_ne_true, ih absent.2]

/-! ## Hexadecimal digits -/

/-- A digit of the text of a UUID. -/
def IsHexDigit (c : Char) : Prop :=
  ∃ digit < 16, c = Nat.digitChar digit

/-- What is true of the sixteen digits. -/
theorem IsHexDigit.of_forall (property : Char → Prop) {c : Char} (isHex : IsHexDigit c)
    (all : ∀ digit < 16, property (Nat.digitChar digit)) : property c := by
  obtain ⟨digit, below, rfl⟩ := isHex
  exact all digit below

theorem isHexDigit_of_mem_hexText {count n : Nat} {c : Char} (mem : c ∈ hexText count n) :
    IsHexDigit c := by
  induction count generalizing n with
  | zero => exact absurd mem List.not_mem_nil
  | succ count ih =>
      rcases List.mem_append.mp mem with before | last
      · exact ih before
      · exact ⟨n % 16, Nat.mod_lt n (by decide), List.mem_singleton.mp last⟩

theorem length_hexText (count n : Nat) : (hexText count n).length = count := by
  induction count generalizing n with
  | zero => rfl
  | succ count ih =>
      rw [hexText, List.length_append, ih, List.length_singleton]

theorem hexValue_digitChar {digit : Nat} (below : digit < 16) :
    hexValue unicode (Nat.digitChar digit) = some digit := by
  by_cases isDecimal : digit < 10
  · have ascii : ∀ d < 10, (Nat.digitChar d).toNat < 128 ∧ (Nat.digitChar d).isDigit = true ∧
        (Nat.digitChar d).toNat - '0'.toNat = d ∧ ¬ 'a' ≤ Nat.digitChar d ∧
          ¬ 'A' ≤ Nat.digitChar d := by
      decide
    obtain ⟨small, isDigit, value, notLower, notUpper⟩ := ascii digit isDecimal
    rw [hexValue, if_neg fun letter => notLower letter.1, if_neg fun letter => notUpper letter.1,
      unicode.decimal_ascii _ small, if_pos isDigit, value]
  · have letter : ∀ d < 16, ¬ d < 10 → ('a' ≤ Nat.digitChar d ∧ Nat.digitChar d ≤ 'f') ∧
        (Nat.digitChar d).toNat - 'a'.toNat + 10 = d := by
      decide
    obtain ⟨isLetter, value⟩ := letter digit below isDecimal
    rw [hexValue, if_pos isLetter, value]

theorem hexDigits_cons {value : Nat} {c : Char} {rest : List Char} (notMark : c ≠ '_') :
    hexDigits unicode value (c :: rest) =
      (hexValue unicode c).bind fun digit => hexDigits unicode (16 * value + digit) rest := by
  rw [hexDigits]
  intro other tail isMark
  exact absurd isMark notMark

/-- The digits are read from left to right. -/
theorem hexDigits_hexText (value count n : Nat) (rest : List Char) :
    hexDigits unicode value (hexText count n ++ rest) =
      hexDigits unicode (value * 16 ^ count + n % 16 ^ count) rest := by
  induction count generalizing n rest with
  | zero => simp [hexText, Nat.mod_one]
  | succ count ih =>
      have below : n % 16 < 16 := Nat.mod_lt n (by decide)
      have notMark : Nat.digitChar (n % 16) ≠ '_' :=
        IsHexDigit.of_forall (fun c => c ≠ '_') ⟨n % 16, below, rfl⟩ (by decide)
      have shifted : 16 * (value * 16 ^ count + n / 16 % 16 ^ count) + n % 16 =
          value * 16 ^ (count + 1) + n % 16 ^ (count + 1) := by
        rw [Nat.pow_succ', Nat.mod_mul, Nat.mul_left_comm value]
        omega
      rw [hexText, List.append_assoc, ih, List.singleton_append,
        hexDigits_cons notMark, hexValue_digitChar below, Option.bind_some, shifted]

/-! ## The round trip -/

/-- Texts of hexadecimal digits and dashes. -/
theorem not_mem_uuidText {c : Char} (notDash : c ≠ '-')
    (notHex : ∀ digit < 16, Nat.digitChar digit ≠ c) (id : Uuid) : c ∉ uuidText id := by
  have notDigit : c ∉ hexText 32 id := by
    intro mem
    obtain ⟨digit, below, isDigit⟩ := isHexDigit_of_mem_hexText mem
    exact notHex digit below isDigit.symm
  have notTaken : ∀ start size, c ∉ ((hexText 32 id).drop start).take size :=
    fun start size mem => notDigit (List.mem_of_mem_drop (List.mem_of_mem_take mem))
  intro mem
  simp only [uuidText, List.mem_append, List.mem_cons, notDash, false_or] at mem
  rcases mem with (((first | second) | third) | fourth) | fifth
  · exact notTaken 0 8 first
  · exact notTaken 8 4 second
  · exact notTaken 12 4 third
  · exact notTaken 16 4 fourth
  · exact notDigit (List.mem_of_mem_drop fifth)

theorem filter_uuidText (id : Uuid) : (uuidText id).filter (· ≠ '-') = hexText 32 id := by
  have noDash : ∀ {chars : List Char}, (∀ c ∈ chars, c ∈ hexText 32 id) →
      chars.filter (· ≠ '-') = chars := by
    intro chars digits
    rw [List.filter_eq_self]
    intro c mem
    rw [decide_eq_true_eq]
    exact (isHexDigit_of_mem_hexText (digits c mem)).of_forall (fun c => c ≠ '-') (by decide)
  have joined : ∀ start size, ((hexText 32 id).drop start).take size ++
      (hexText 32 id).drop (start + size) = (hexText 32 id).drop start := by
    intro start size
    rw [← List.drop_drop, List.take_append_drop]
  have pieces : ∀ start size, (((hexText 32 id).drop start).take size).filter (· ≠ '-') =
      ((hexText 32 id).drop start).take size :=
    fun start size => noDash fun c mem => List.mem_of_mem_drop (List.mem_of_mem_take mem)
  have dash : ∀ chars : List Char, ('-' :: chars).filter (· ≠ '-') = chars.filter (· ≠ '-') :=
    fun chars => rfl
  have firstPiece := pieces 0 8
  rw [List.drop_zero] at firstPiece
  simp only [uuidText, List.filter_append, dash, firstPiece, pieces,
    noDash fun c mem => List.mem_of_mem_drop mem, List.append_assoc]
  rw [joined 16 4, joined 12 4, joined 8 4, List.take_append_drop]

theorem hexInt_hexText (count n : Nat) :
    hexInt unicode (hexText (count + 2) n) = some (n % 16 ^ (count + 2)) := by
  have isHex : ∀ c ∈ hexText (count + 2) n, IsHexDigit c := fun c => isHexDigit_of_mem_hexText
  have kept : Text.strip (hexText (count + 2) n) = hexText (count + 2) n := by
    apply Text.trim_eq_self
    intro c mem
    exact (isHex c mem).of_forall (fun c => Text.isSpace c = false) (by decide)
  have value : hexDigits unicode 0 (hexText (count + 2) n ++ []) = _ :=
    hexDigits_hexText 0 (count + 2) n []
  have size := length_hexText (count + 2) n
  rw [hexInt, kept]
  generalize hexText (count + 2) n = digits at isHex value size ⊢
  rcases digits with _ | ⟨first, _ | ⟨second, rest⟩⟩
  · simp at size
  · simp at size
  have firstHex := isHex first List.mem_cons_self
  have secondHex := isHex second (List.mem_cons_of_mem _ List.mem_cons_self)
  have notPlus : first ≠ '+' := firstHex.of_forall (fun c => c ≠ '+') (by decide)
  have notMark : first ≠ '_' := firstHex.of_forall (fun c => c ≠ '_') (by decide)
  have notPrefix : second ≠ 'x' ∧ second ≠ 'X' :=
    secondHex.of_forall (fun c => c ≠ 'x' ∧ c ≠ 'X') (by decide)
  rw [List.append_nil, hexDigits_cons notMark] at value
  have unsigned : ∀ tail, first :: second :: rest = '+' :: tail → False :=
    fun tail isPlus => notPlus (List.cons.inj isPlus).1
  -- The text begins without a sign.
  simp only
  split
  · rename_i isPrefix
    cases isPrefix
    exact absurd rfl notPrefix.1
  · rename_i isPrefix
    cases isPrefix
    exact absurd rfl notPrefix.2
  · rename_i isDigits
    cases isDigits
    simpa only [Nat.zero_mul, Nat.mul_zero, Nat.zero_add, hexDigits] using value
  · rename_i isEmpty
    cases isEmpty

/-- Printing an identifier of 128 bits and reading it back. -/
theorem parseUuid_uuidText {id : Uuid} (fits : id < 2 ^ 128) :
    parseUuid unicode (uuidText id) = some id := by
  have bare : Text.removeAll "uuid:".toList (Text.removeAll "urn:".toList (uuidText id)) =
      uuidText id := by
    have noU : 'u' ∉ uuidText id := not_mem_uuidText (by decide) (by decide) id
    rw [show "urn:".toList = 'u' :: "rn:".toList from rfl,
      show "uuid:".toList = 'u' :: "uid:".toList from rfl, Text.removeAll_eq_self noU,
      Text.removeAll_eq_self noU]
  have trimmed : Text.trim (fun c => c == '\x7b' || c == '\x7d') (uuidText id) = uuidText id := by
    apply Text.trim_eq_self
    intro c mem
    rw [Bool.or_eq_false_iff, beq_eq_false_iff_ne, beq_eq_false_iff_ne]
    constructor
    · rintro rfl
      exact not_mem_uuidText (by decide) (by decide) id mem
    · rintro rfl
      exact not_mem_uuidText (by decide) (by decide) id mem
  rw [parseUuid, bare, trimmed, filter_uuidText]
  simp only [length_hexText, if_true]
  rw [hexInt_hexText 30 id]
  exact congrArg some (Nat.mod_eq_of_lt fits)

end DotBackend.Data
