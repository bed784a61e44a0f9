import DotBackend.Data.Json

/-!
# The compact text determines the value

Two values print to the same compact text exactly when they are equal up to the
order of object members. The printer is split into a canonical reordering of
members and a plain printer; every plain text can be read back from any input that
continues with a separator, so the plain printer is injective.
-/

namespace DotBackend.Data.Json

/-! ## Reading back a string literal -/

/-- Value of a hexadecimal digit. -/
def hexValue (c : Char) : Nat :=
  if c.isDigit then c.toNat - '0'.toNat else c.toNat - 'a'.toNat + 10

/-- Read one possibly escaped character. -/
def unescape : List Char → Option (Char × List Char)
  | '\\' :: 'n' :: rest => some ('\n', rest)
  | '\\' :: 'r' :: rest => some ('\r', rest)
  | '\\' :: 't' :: rest => some ('\t', rest)
  | '\\' :: 'b' :: rest => some (Char.ofNat 8, rest)
  | '\\' :: 'f' :: rest => some (Char.ofNat 12, rest)
  | '\\' :: 'u' :: _ :: _ :: high :: low :: rest =>
      some (Char.ofNat (16 * hexValue high + hexValue low), rest)
  | '\\' :: c :: rest => some (c, rest)
  | c :: rest => some (c, rest)
  | [] => none

private theorem hexPair_value : ∀ n < 32,
    Char.ofNat (16 * hexValue (Nat.digitChar (n / 16)) + hexValue (Nat.digitChar (n % 16))) =
      Char.ofNat n := by
  decide

theorem unescape_escapeChar (c : Char) (rest : List Char) :
    unescape (escapeChar c ++ rest) = some (c, rest) := by
  unfold escapeChar
  split
  · subst c; rfl
  split
  · subst c; rfl
  split
  · subst c; rfl
  split
  · subst c; rfl
  split
  · subst c; rfl
  split
  · subst c; rfl
  split
  · subst c; rfl
  split
  · rename_i control
    have value := hexPair_value c.toNat control
    rw [Char.ofNat_toNat] at value
    simp [unescape, hexPair, value]
  · rename_i notBackslash _ _ _ _ _ _
    simp [unescape, notBackslash]

theorem escapeChar_ne_quote (c : Char) : ∃ head tail, escapeChar c = head :: tail ∧ head ≠ '"' := by
  fun_cases escapeChar c <;> exact ⟨_, _, rfl, by first | decide | assumption⟩

/-- The body of a string literal ends at its first unescaped quotation mark. -/
theorem escaped_append_inj (first second rest rest' : List Char)
    (equal : first.flatMap escapeChar ++ '"' :: rest =
      second.flatMap escapeChar ++ '"' :: rest') :
    first = second ∧ rest = rest' := by
  induction first generalizing second with
  | nil =>
      cases second with
      | nil => simpa using equal
      | cons d second =>
          obtain ⟨head, tail, escaped, head_ne⟩ := escapeChar_ne_quote d
          rw [List.flatMap_cons, escaped] at equal
          simp at equal
          exact absurd equal.1.symm head_ne
  | cons c first ih =>
      cases second with
      | nil =>
          obtain ⟨head, tail, escaped, head_ne⟩ := escapeChar_ne_quote c
          rw [List.flatMap_cons, escaped] at equal
          simp at equal
          exact absurd equal.1 head_ne
      | cons d second =>
          rw [List.flatMap_cons, List.flatMap_cons, List.append_assoc, List.append_assoc] at equal
          have read := congrArg unescape equal
          rw [unescape_escapeChar, unescape_escapeChar] at read
          obtain ⟨char_eq, rest_eq⟩ := Prod.mk.inj (Option.some.inj read)
          obtain ⟨tail_eq, after_eq⟩ := ih second rest_eq
          exact ⟨by rw [char_eq, tail_eq], after_eq⟩

theorem quote_append_inj (s t : String) (rest rest' : List Char)
    (equal : quote s ++ rest = quote t ++ rest') : s = t ∧ rest = rest' := by
  simp only [quote, List.cons_append, List.append_assoc, List.cons.injEq, true_and,
    List.nil_append] at equal
  obtain ⟨body, after⟩ := escaped_append_inj _ _ _ _ equal
  exact ⟨String.toList_inj.mp body, after⟩

/-! ## Printing without sorting -/

mutual

/-- The compact text of a value whose members are printed in the order they have. -/
def plain : Json → List Char
  | .arr [] => ['[', ']']
  | .arr (item :: rest) => '[' :: (plain item ++ plainItems rest)
  | .obj [] => ['{', '}']
  | .obj ((key, value) :: rest) => '{' :: (quote key ++ ':' :: (plain value ++ plainMembers rest))
  | .null => "null".toList
  | .bool true => "true".toList
  | .bool false => "false".toList
  | .int i => intText i
  | .float f => floatText f
  | .str s => quote s

/-- The elements that follow the first one, with the closing bracket. -/
def plainItems : List Json → List Char
  | [] => [']']
  | item :: rest => ',' :: (plain item ++ plainItems rest)

/-- The members that follow the first one, with the closing brace. -/
def plainMembers : List (String × Json) → List Char
  | [] => ['}']
  | (key, value) :: rest => ',' :: (quote key ++ ':' :: (plain value ++ plainMembers rest))

end

mutual

/-- The value with the members of every object in increasing order of keys. -/
def canonical : Json → Json
  | .arr items => .arr (canonicalItems items)
  | .obj fields => .obj (sortMembers (canonicalMembers fields))
  | value => value

def canonicalItems : List Json → List Json
  | [] => []
  | item :: rest => canonical item :: canonicalItems rest

def canonicalMembers : List (String × Json) → List (String × Json)
  | [] => []
  | (key, value) :: rest => (key, canonical value) :: canonicalMembers rest

end
/-! ## Unique reading of plain texts -/

/-- What may follow a value inside a larger text: nothing, or a separator. -/
def Closed (rest : List Char) : Prop :=
  ∀ c ∈ rest.head?, c = ',' ∨ c = ']' ∨ c = '}'

/-- A text without separators, such as a number or a keyword. -/
def Token (text : List Char) : Prop :=
  ∀ c ∈ text, c ≠ ',' ∧ c ≠ ']' ∧ c ≠ '}'

instance (text : List Char) : Decidable (Token text) :=
  inferInstanceAs (Decidable (∀ c ∈ text, _))

theorem closed_plainItems (items : List Json) (rest : List Char) :
    Closed (plainItems items ++ rest) := by
  cases items <;> simp [plainItems, Closed]

theorem closed_plainMembers (fields : List (String × Json)) (rest : List Char) :
    Closed (plainMembers fields ++ rest) := by
  rcases fields with _ | ⟨⟨key, value⟩, fields⟩ <;> simp [plainMembers, Closed]

theorem token_append_inj {first second rest rest' : List Char}
    (firstToken : Token first) (secondToken : Token second)
    (closed : Closed rest) (closed' : Closed rest')
    (equal : first ++ rest = second ++ rest') : first = second ∧ rest = rest' := by
  induction first generalizing second with
  | nil =>
      cases second with
      | nil => exact ⟨rfl, equal⟩
      | cons d second =>
          have separator : d = ',' ∨ d = ']' ∨ d = '}' := by
            apply closed
            rw [List.nil_append] at equal
            simp [equal]
          have plainChar := secondToken d List.mem_cons_self
          exact absurd separator (by simp [plainChar])
  | cons c first ih =>
      cases second with
      | nil =>
          have separator : c = ',' ∨ c = ']' ∨ c = '}' := by
            apply closed'
            rw [List.nil_append] at equal
            simp [← equal]
          have plainChar := firstToken c List.mem_cons_self
          exact absurd separator (by simp [plainChar])
      | cons d second =>
          simp only [List.cons_append, List.cons.injEq] at equal
          obtain ⟨tail_eq, rest_eq⟩ := ih
            (fun x member => firstToken x (List.mem_cons_of_mem c member))
            (fun x member => secondToken x (List.mem_cons_of_mem d member)) equal.2
          exact ⟨by rw [equal.1, tail_eq], rest_eq⟩

/-! ## Scalars -/

theorem intText_chars (i : Int) : ∀ c ∈ intText i, c.isDigit = true ∨ c = '-' := by
  intro c member
  cases i with
  | ofNat n => exact .inl (Nat.isDigit_of_mem_toDigits (by decide) (by decide) member)
  | negSucc n =>
      rcases List.mem_cons.mp member with rfl | member
      · exact .inr rfl
      · exact .inl (Nat.isDigit_of_mem_toDigits (by decide) (by decide) member)

theorem toDigits_inj {m n : Nat} (equal : Nat.toDigits 10 m = Nat.toDigits 10 n) : m = n := by
  rw [← Nat.ofDigitChars_ten_toDigits (n := m), equal, Nat.ofDigitChars_ten_toDigits]

theorem minus_not_mem_toDigits (n : Nat) : '-' ∉ Nat.toDigits 10 n := by
  intro member
  have digit := Nat.isDigit_of_mem_toDigits (by decide) (by decide) member
  exact absurd digit (by decide)

theorem intText_inj {i j : Int} (equal : intText i = intText j) : i = j := by
  cases i with
  | ofNat m =>
      cases j with
      | ofNat n => exact congrArg Int.ofNat (toDigits_inj equal)
      | negSucc n =>
          refine absurd ?_ (minus_not_mem_toDigits m)
          simp only [intText] at equal
          simp [equal]
  | negSucc m =>
      cases j with
      | ofNat n =>
          refine absurd ?_ (minus_not_mem_toDigits n)
          simp only [intText] at equal
          simp [← equal]
      | negSucc n =>
          simp only [intText, List.cons.injEq, true_and] at equal
          have := toDigits_inj equal
          congr 1
          omega

theorem finite_chars {text : List Char} (ok : isFloatText text = true) :
    ∀ c ∈ text, isFloatChar c = true := by
  simp only [isFloatText, Bool.and_eq_true, List.all_eq_true] at ok
  exact ok.1.1

/-- The text of a float holds a character that no integer text holds. -/
theorem floatText_mark (f : PyFloat) :
    ∃ c ∈ floatText f, c.isDigit = false ∧ c ≠ '-' := by
  cases f with
  | finite text ok =>
      simp only [isFloatText, Bool.and_eq_true, List.any_eq_true] at ok
      obtain ⟨c, member, mark⟩ := ok.1.2
      refine ⟨c, member, ?_⟩
      simp only [Bool.or_eq_true, beq_iff_eq] at mark
      rcases mark with rfl | rfl <;> decide
  | infinity negative => cases negative <;> exact ⟨'I', by decide, by decide, by decide⟩
  | nan => exact ⟨'N', by decide, by decide, by decide⟩

theorem intText_ne_floatText (i : Int) (f : PyFloat) : intText i ≠ floatText f := by
  intro equal
  obtain ⟨c, member, notDigit, notMinus⟩ := floatText_mark f
  rcases intText_chars i c (equal ▸ member) with digit | minus
  · rw [digit] at notDigit
    contradiction
  · exact notMinus minus

theorem floatText_inj {f g : PyFloat} (equal : floatText f = floatText g) : f = g := by
  have finite_ne (text : List Char) (ok : isFloatText text = true) (special : List Char)
      (letter : Char) (member : letter ∈ special) (bad : isFloatChar letter = false) :
      text ≠ special := by
    rintro rfl
    have := finite_chars ok letter member
    rw [bad] at this
    contradiction
  cases f with
  | finite text ok =>
      cases g with
      | finite text' ok' =>
          change text = text' at equal
          subst equal
          rfl
      | infinity negative =>
          cases negative <;>
            exact absurd equal (finite_ne text ok _ 'I' (by decide) (by decide))
      | nan => exact absurd equal (finite_ne text ok _ 'N' (by decide) (by decide))
  | infinity negative =>
      cases g with
      | finite text' ok' =>
          cases negative <;>
            exact absurd equal.symm (finite_ne text' ok' _ 'I' (by decide) (by decide))
      | infinity negative' => cases negative <;> cases negative' <;> first | rfl | (revert equal; decide)
      | nan => cases negative <;> (revert equal; decide)
  | nan =>
      cases g with
      | finite text' ok' =>
          exact absurd equal.symm (finite_ne text' ok' _ 'N' (by decide) (by decide))
      | infinity negative' => cases negative' <;> (revert equal; decide)
      | nan => rfl

/-- The first character of a value's text tells which kind of value it is. -/
inductive Lead : Json → Char → Prop
  | null : Lead .null 'n'
  | true : Lead (.bool true) 't'
  | false : Lead (.bool false) 'f'
  | digit (i : Int) (c : Char) (h : c.isDigit = true ∨ c = '-') : Lead (.int i) c
  | float (f : PyFloat) (c : Char) (h : c.isDigit = true ∨ c = '-' ∨ c = 'I' ∨ c = 'N') :
      Lead (.float f) c
  | str (s : String) : Lead (.str s) '"'
  | arr (items : List Json) : Lead (.arr items) '['
  | obj (fields : List (String × Json)) : Lead (.obj fields) '{'

theorem plain_lead (value : Json) : ∃ c rest, plain value = c :: rest ∧ Lead value c := by
  cases value with
  | null => exact ⟨_, _, rfl, .null⟩
  | bool b =>
      cases b
      · exact ⟨_, _, rfl, .false⟩
      · exact ⟨_, _, rfl, .true⟩
  | int i =>
      cases text : intText i with
      | nil => cases i <;> simp [intText] at text
      | cons c rest =>
          have chars := intText_chars i c (text ▸ List.mem_cons_self)
          exact ⟨c, rest, text, .digit i c chars⟩
  | float f =>
      cases f with
      | finite text ok =>
          have shape := ok
          simp only [isFloatText, Bool.and_eq_true] at shape
          rcases text with _ | ⟨c, rest⟩
          · simp at shape
          · refine ⟨c, rest, rfl, .float _ c ?_⟩
            by_cases minus : c = '-'
            · exact .inr (.inl minus)
            · left
              have head := shape.2
              split at head
              · rename_i equal
                exact absurd (List.cons.inj equal).1 minus
              · rename_i equal
                rwa [(List.cons.inj equal).1]
              · contradiction
      | infinity negative =>
          cases negative
          · exact ⟨_, _, rfl, .float _ _ (by decide)⟩
          · exact ⟨_, _, rfl, .float _ _ (by decide)⟩
      | nan => exact ⟨_, _, rfl, .float _ _ (by decide)⟩
  | str s => exact ⟨_, _, rfl, .str s⟩
  | arr items => cases items <;> exact ⟨_, _, rfl, .arr _⟩
  | obj fields => rcases fields with _ | ⟨⟨key, value⟩, fields⟩ <;> exact ⟨_, _, rfl, .obj _⟩

/-! ## The plain printer is injective -/

/-- A value printed without brackets and quotation marks. -/
def isScalar : Json → Bool
  | .null | .bool _ | .int _ | .float _ => true
  | _ => false

theorem token_of_isScalar {value : Json} (scalar : isScalar value = true) :
    Token (plain value) := by
  cases value with
  | null => decide
  | bool b => cases b <;> decide
  | int i =>
      intro c member
      rcases intText_chars i c member with digit | rfl
      · refine ⟨?_, ?_, ?_⟩ <;> (rintro rfl; revert digit; decide)
      · decide
  | float f =>
      cases f with
      | finite text ok =>
          intro c member
          have char := finite_chars ok c member
          refine ⟨?_, ?_, ?_⟩ <;> (rintro rfl; revert char; decide)
      | infinity negative => cases negative <;> decide
      | nan => decide
  | str s => contradiction
  | arr items => contradiction
  | obj fields => contradiction

theorem plain_scalar_inj {first second : Json} (firstScalar : isScalar first = true)
    (secondScalar : isScalar second = true) (equal : plain first = plain second) :
    first = second := by
  obtain ⟨c, rest, firstText, firstLead⟩ := plain_lead first
  obtain ⟨d, rest', secondText, secondLead⟩ := plain_lead second
  have lead_eq : c = d := by
    rw [firstText, secondText] at equal
    exact (List.cons.inj equal).1
  subst d
  cases firstLead with
  | null => cases secondLead with
    | null => rfl
    | digit i _ h => exact absurd h (by decide)
    | float f _ h => exact absurd h (by decide)
  | true => cases secondLead with
    | true => rfl
    | digit i _ h => exact absurd h (by decide)
    | float f _ h => exact absurd h (by decide)
  | false => cases secondLead with
    | false => rfl
    | digit i _ h => exact absurd h (by decide)
    | float f _ h => exact absurd h (by decide)
  | digit i _ h => cases secondLead with
    | null => exact absurd h (by decide)
    | true => exact absurd h (by decide)
    | false => exact absurd h (by decide)
    | digit j _ _ => exact congrArg Json.int (intText_inj equal)
    | float f _ _ => exact absurd equal (intText_ne_floatText i f)
    | str s => contradiction
    | arr items => contradiction
    | obj fields => contradiction
  | float f _ h => cases secondLead with
    | null => exact absurd h (by decide)
    | true => exact absurd h (by decide)
    | false => exact absurd h (by decide)
    | digit j _ _ => exact absurd equal.symm (intText_ne_floatText j f)
    | float g _ _ => exact congrArg Json.float (floatText_inj equal)
    | str s => contradiction
    | arr items => contradiction
    | obj fields => contradiction
  | str s => contradiction
  | arr items => contradiction
  | obj fields => contradiction

/-- A scalar's text never starts like a string, an array or an object. -/
theorem not_lead_of_isScalar {value : Json} {c : Char} (scalar : isScalar value = true)
    (lead : Lead value c) : c ≠ '"' ∧ c ≠ '[' ∧ c ≠ '{' ∧ c ≠ ']' := by
  cases lead with
  | null => decide
  | true => decide
  | false => decide
  | digit i _ h => refine ⟨?_, ?_, ?_, ?_⟩ <;> (rintro rfl; revert h; decide)
  | float f _ h => refine ⟨?_, ?_, ?_, ?_⟩ <;> (rintro rfl; revert h; decide)
  | str s => contradiction
  | arr items => contradiction
  | obj fields => contradiction

theorem lead_ne_closing {value : Json} {c : Char} (lead : Lead value c) : c ≠ ']' := by
  cases lead with
  | digit i _ h => rintro rfl; revert h; decide
  | float f _ h => rintro rfl; revert h; decide
  | _ => decide

/-- Two texts whose first characters agree come from values of the same shape. -/
theorem same_shape {first second : Json} {rest rest' : List Char}
    (equal : plain first ++ rest = plain second ++ rest') :
    (isScalar first = true ∧ isScalar second = true) ∨
      (∃ s t, first = .str s ∧ second = .str t) ∨
      (∃ xs ys, first = .arr xs ∧ second = .arr ys) ∨
      (∃ xs ys, first = .obj xs ∧ second = .obj ys) := by
  obtain ⟨c, tail, firstText, firstLead⟩ := plain_lead first
  obtain ⟨d, tail', secondText, secondLead⟩ := plain_lead second
  have lead_eq : c = d := by
    rw [firstText, secondText] at equal
    exact (List.cons.inj equal).1
  subst d
  cases firstScalar : isScalar first with
  | true =>
      have notLead := not_lead_of_isScalar firstScalar firstLead
      cases second with
      | str t => cases secondLead; exact absurd rfl notLead.1
      | arr ys => cases secondLead; exact absurd rfl notLead.2.1
      | obj ys => cases secondLead; exact absurd rfl notLead.2.2.1
      | _ => exact .inl ⟨rfl, rfl⟩
  | false =>
      cases secondScalar : isScalar second with
      | true =>
          have notLead := not_lead_of_isScalar secondScalar secondLead
          cases first with
          | str t => cases firstLead; exact absurd rfl notLead.1
          | arr ys => cases firstLead; exact absurd rfl notLead.2.1
          | obj ys => cases firstLead; exact absurd rfl notLead.2.2.1
          | _ => contradiction
      | false =>
          cases firstLead with
          | str s => cases secondLead with
            | str t => exact .inr (.inl ⟨s, t, rfl, rfl⟩)
            | _ => contradiction
          | arr xs => cases secondLead with
            | arr ys => exact .inr (.inr (.inl ⟨xs, ys, rfl, rfl⟩))
            | _ => contradiction
          | obj xs => cases secondLead with
            | obj ys => exact .inr (.inr (.inr ⟨xs, ys, rfl, rfl⟩))
            | _ => contradiction
          | _ => contradiction

theorem plain_scalar_append_inj {first second : Json} {rest rest' : List Char}
    (scalar : isScalar first = true) (closed : Closed rest) (closed' : Closed rest')
    (equal : plain first ++ rest = plain second ++ rest') : first = second ∧ rest = rest' := by
  rcases same_shape equal with ⟨_, scalar'⟩ | ⟨s, t, rfl, _⟩ | ⟨xs, ys, rfl, _⟩ |
    ⟨xs, ys, rfl, _⟩
  · obtain ⟨text_eq, rest_eq⟩ := token_append_inj (token_of_isScalar scalar)
      (token_of_isScalar scalar') closed closed' equal
    exact ⟨plain_scalar_inj scalar scalar' text_eq, rest_eq⟩
  · contradiction
  · contradiction
  · contradiction

mutual

/-- A plain text can be read back from any input that continues with a separator. -/
theorem plain_append_inj : ∀ (first second : Json) (rest rest' : List Char),
    Closed rest → Closed rest' → plain first ++ rest = plain second ++ rest' →
    first = second ∧ rest = rest'
  | .arr xs, second, rest, rest', closed, closed', equal => by
      rcases same_shape equal with ⟨scalar, _⟩ | ⟨s, t, strEq, _⟩ | ⟨_, ys, _, rfl⟩ |
        ⟨_, ys, objEq, _⟩
      · contradiction
      · contradiction
      · match xs, ys with
        | [], [] => simpa [plain] using equal
        | [], y :: ys =>
            obtain ⟨c, tail, text, lead⟩ := plain_lead y
            simp [plain, text] at equal
            exact absurd equal.1.symm (lead_ne_closing lead)
        | x :: xs, [] =>
            obtain ⟨c, tail, text, lead⟩ := plain_lead x
            simp [plain, text] at equal
            exact absurd equal.1 (lead_ne_closing lead)
        | x :: xs, y :: ys =>
            simp only [plain, List.cons_append, List.append_assoc, List.cons.injEq,
              true_and] at equal
            obtain ⟨head_eq, tail_eq⟩ := plain_append_inj x y _ _
              (closed_plainItems xs rest) (closed_plainItems ys rest') equal
            obtain ⟨items_eq, rest_eq⟩ := plainItems_append_inj xs ys rest rest' tail_eq
            exact ⟨by rw [head_eq, items_eq], rest_eq⟩
      · contradiction
  | .obj xs, second, rest, rest', closed, closed', equal => by
      rcases same_shape equal with ⟨scalar, _⟩ | ⟨s, t, strEq, _⟩ | ⟨_, ys, arrEq, _⟩ |
        ⟨_, ys, _, rfl⟩
      · contradiction
      · contradiction
      · contradiction
      · match xs, ys with
        | [], [] => simpa [plain] using equal
        | [], (l, y) :: ys => simp [plain, quote] at equal
        | (k, x) :: xs, [] => simp [plain, quote] at equal
        | (k, x) :: xs, (l, y) :: ys =>
            simp only [plain, List.cons_append, List.append_assoc, List.cons.injEq,
              true_and] at equal
            obtain ⟨key_eq, after_key⟩ := quote_append_inj k l _ _ equal
            obtain ⟨head_eq, tail_eq⟩ := plain_append_inj x y _ _
              (closed_plainMembers xs rest) (closed_plainMembers ys rest')
              (List.cons.inj after_key).2
            obtain ⟨members_eq, rest_eq⟩ := plainMembers_append_inj xs ys rest rest' tail_eq
            exact ⟨by rw [key_eq, head_eq, members_eq], rest_eq⟩
  | .str s, second, rest, rest', closed, closed', equal => by
      rcases same_shape equal with ⟨scalar, _⟩ | ⟨_, t, _, rfl⟩ | ⟨_, ys, arrEq, _⟩ |
        ⟨_, ys, objEq, _⟩
      · contradiction
      · obtain ⟨text_eq, rest_eq⟩ := quote_append_inj s t rest rest' equal
        exact ⟨congrArg Json.str text_eq, rest_eq⟩
      · contradiction
      · contradiction
  | .null, second, rest, rest', closed, closed', equal =>
      plain_scalar_append_inj rfl closed closed' equal
  | .bool _, second, rest, rest', closed, closed', equal =>
      plain_scalar_append_inj rfl closed closed' equal
  | .int _, second, rest, rest', closed, closed', equal =>
      plain_scalar_append_inj rfl closed closed' equal
  | .float _, second, rest, rest', closed, closed', equal =>
      plain_scalar_append_inj rfl closed closed' equal

theorem plainItems_append_inj : ∀ (xs ys : List Json) (rest rest' : List Char),
    plainItems xs ++ rest = plainItems ys ++ rest' → xs = ys ∧ rest = rest'
  | [], [], rest, rest', equal => by simpa [plainItems] using equal
  | [], y :: ys, rest, rest', equal => by simp [plainItems] at equal
  | x :: xs, [], rest, rest', equal => by simp [plainItems] at equal
  | x :: xs, y :: ys, rest, rest', equal => by
      simp only [plainItems, List.cons_append, List.append_assoc, List.cons.injEq,
        true_and] at equal
      obtain ⟨head_eq, tail_eq⟩ := plain_append_inj x y _ _
        (closed_plainItems xs rest) (closed_plainItems ys rest') equal
      obtain ⟨items_eq, rest_eq⟩ := plainItems_append_inj xs ys rest rest' tail_eq
      exact ⟨by rw [head_eq, items_eq], rest_eq⟩

theorem plainMembers_append_inj : ∀ (xs ys : List (String × Json)) (rest rest' : List Char),
    plainMembers xs ++ rest = plainMembers ys ++ rest' → xs = ys ∧ rest = rest'
  | [], [], rest, rest', equal => by simpa [plainMembers] using equal
  | [], (l, y) :: ys, rest, rest', equal => by simp [plainMembers] at equal
  | (k, x) :: xs, [], rest, rest', equal => by simp [plainMembers] at equal
  | (k, x) :: xs, (l, y) :: ys, rest, rest', equal => by
      simp only [plainMembers, List.cons_append, List.append_assoc, List.cons.injEq,
        true_and] at equal
      obtain ⟨key_eq, after_key⟩ := quote_append_inj k l _ _ equal
      obtain ⟨head_eq, tail_eq⟩ := plain_append_inj x y _ _
        (closed_plainMembers xs rest) (closed_plainMembers ys rest')
        (List.cons.inj after_key).2
      obtain ⟨members_eq, rest_eq⟩ := plainMembers_append_inj xs ys rest rest' tail_eq
      exact ⟨by rw [key_eq, head_eq, members_eq], rest_eq⟩

end

theorem plain_injective {first second : Json} (equal : plain first = plain second) :
    first = second :=
  (plain_append_inj first second [] [] (by simp [Closed]) (by simp [Closed])
    (by rw [equal])).1

/-! ## Sorting first, printing second -/

theorem insertMember_map {α β : Type} (f : α → β) (member : String × α)
    (members : List (String × α)) :
    (insertMember member members).map (fun m => (m.1, f m.2)) =
      insertMember (member.1, f member.2) (members.map fun m => (m.1, f m.2)) := by
  induction members with
  | nil => rfl
  | cons head rest ih =>
      simp only [insertMember, List.map_cons]
      split
      · rfl
      · rw [List.map_cons, ih]

theorem sortMembers_map {α β : Type} (f : α → β) (members : List (String × α)) :
    (sortMembers members).map (fun m => (m.1, f m.2)) =
      sortMembers (members.map fun m => (m.1, f m.2)) := by
  induction members with
  | nil => rfl
  | cons member rest ih => rw [sortMembers, insertMember_map, ih, List.map_cons, sortMembers]

theorem dumpsFields_eq_map (fields : List (String × Json)) :
    dumpsFields fields = fields.map fun member => (member.1, dumps member.2) := by
  induction fields with
  | nil => rfl
  | cons member rest ih => rw [dumpsFields, ih, List.map_cons]

theorem canonicalMembers_eq_map (fields : List (String × Json)) :
    canonicalMembers fields = fields.map fun member => (member.1, canonical member.2) := by
  induction fields with
  | nil => rfl
  | cons member rest ih => rw [canonicalMembers, ih, List.map_cons]

theorem plain_arr (items : List Json) :
    plain (.arr items) = '[' :: (joinComma (items.map plain) ++ [']']) := by
  cases items with
  | nil => rfl
  | cons item rest =>
      rw [plain]
      congr 1
      induction rest generalizing item with
      | nil => simp [plainItems, joinComma]
      | cons next rest ih =>
          simp only [plainItems, List.map_cons, joinComma, List.append_assoc, List.cons_append]
          rw [ih next, List.map_cons]

theorem plain_obj (fields : List (String × Json)) :
    plain (.obj fields) = '{' ::
      (joinComma (fields.map fun member => memberText (member.1, plain member.2)) ++ ['}']) := by
  rcases fields with _ | ⟨⟨key, value⟩, rest⟩
  · rfl
  · rw [plain]
    congr 1
    induction rest generalizing key value with
    | nil => simp [plainMembers, joinComma, memberText]
    | cons next rest ih =>
        obtain ⟨nextKey, nextValue⟩ := next
        simp only [plainMembers, List.map_cons, joinComma, memberText, List.append_assoc,
          List.cons_append]
        rw [ih nextKey nextValue]
        simp [memberText]

mutual

/-- Printing with sorted keys prints the canonical reordering. -/
theorem dumps_eq_plain_canonical : ∀ value : Json, dumps value = plain (canonical value)
  | .arr items => by
      rw [dumps, canonical, plain_arr, dumpsList_eq_map_plain items]
  | .obj fields => by
      rw [dumps, canonical, plain_obj, canonicalMembers_eq_map]
      have printed : dumpsFields fields = (canonicalMembers fields).map
          fun member => (member.1, plain member.2) := dumpsFields_eq_map_plain fields
      rw [printed, ← sortMembers_map, canonicalMembers_eq_map, List.map_map]
      rfl
  | .null => rfl
  | .bool true => rfl
  | .bool false => rfl
  | .int _ => rfl
  | .float _ => rfl
  | .str _ => rfl

theorem dumpsList_eq_map_plain : ∀ items : List Json,
    dumpsList items = (canonicalItems items).map plain
  | [] => rfl
  | item :: rest => by
      rw [dumpsList, canonicalItems, List.map_cons, dumps_eq_plain_canonical item,
        dumpsList_eq_map_plain rest]

theorem dumpsFields_eq_map_plain : ∀ fields : List (String × Json),
    dumpsFields fields = (canonicalMembers fields).map fun member => (member.1, plain member.2)
  | [] => rfl
  | (key, value) :: rest => by
      rw [dumpsFields, canonicalMembers, List.map_cons, dumps_eq_plain_canonical value,
        dumpsFields_eq_map_plain rest]

end

/-- Equal compact texts come from values that differ at most in member order. -/
theorem dumps_eq_iff (first second : Json) :
    dumps first = dumps second ↔ canonical first = canonical second := by
  rw [dumps_eq_plain_canonical, dumps_eq_plain_canonical]
  exact ⟨plain_injective, congrArg plain⟩

end DotBackend.Data.Json
