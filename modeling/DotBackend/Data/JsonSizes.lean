import DotBackend.Data.JsonCopy
import Mathlib.Tactic.IntervalCases

/-!
# Sizes of printed values

How many bytes a text takes up inside a string literal, and an object from its members.
-/

namespace DotBackend.Data.Json

/-- The bytes of a character in a string literal: an escape of two or six bytes, or itself. -/
def charBytes (c : Char) : Nat :=
  if c ∈ ['"', '\\', '\n', '\r', '\t', Char.ofNat 8, Char.ofNat 12] then 2
  else if c.toNat < 32 then 6 else c.utf8Size

def literalBytes (s : String) : Nat :=
  2 + (s.toList.map charBytes).sum

theorem utf8Length_flatMap (f : Char → List Char) (text : List Char) :
    utf8Length (text.flatMap f) = (text.map fun c => utf8Length (f c)).sum := by
  induction text with
  | nil => rfl
  | cons c rest ih => rw [List.flatMap_cons, utf8Length_append, ih, List.map_cons, List.sum_cons]

theorem utf8Length_hexPair {n : Nat} (small : n < 32) : utf8Length (hexPair n) = 2 := by
  interval_cases n <;> rfl

theorem utf8Length_escapeChar (c : Char) : utf8Length (escapeChar c) = charBytes c := by
  by_cases isEscaped : c ∈ ['"', '\\', '\n', '\r', '\t', Char.ofNat 8, Char.ofNat 12]
  · rw [charBytes, if_pos isEscaped]
    simp only [List.mem_cons, List.not_mem_nil, or_false] at isEscaped
    rcases isEscaped with rfl | rfl | rfl | rfl | rfl | rfl | rfl <;> rfl
  · rw [charBytes, if_neg isEscaped]
    simp only [List.mem_cons, List.not_mem_nil, or_false, not_or] at isEscaped
    unfold escapeChar
    simp only [isEscaped, if_false]
    split
    · rename_i isControl
      simp only [utf8Length_cons, utf8Length_hexPair isControl]
      rfl
    · simp [utf8Length]

theorem utf8Length_quote (s : String) : utf8Length (quote s) = literalBytes s := by
  rw [quote, utf8Length_cons, utf8Length_append, utf8Length_flatMap, literalBytes]
  simp only [utf8Length_escapeChar]
  change 1 + ((s.toList.map charBytes).sum + 1) = _
  omega

/-- The commas between texts take up a byte each. -/
theorem utf8Length_joinComma {texts : List (List Char)} (nonempty : texts ≠ []) :
    utf8Length (joinComma texts) + 1 = (texts.map fun text => utf8Length text + 1).sum := by
  induction texts with
  | nil => exact absurd rfl nonempty
  | cons text rest ih =>
      cases rest with
      | nil => simp [joinComma]
      | cons next later =>
          have joined : joinComma (text :: next :: later) =
              text ++ ',' :: joinComma (next :: later) := rfl
          have comma : Char.utf8Size ',' = 1 := rfl
          have others := ih (List.cons_ne_nil next later)
          rw [joined, utf8Length_append, utf8Length_cons, List.map_cons, List.sum_cons]
          omega

theorem sum_sortMembers {α : Type} (f : String × α → Nat) (fields : List (String × α)) :
    ((sortMembers fields).map f).sum = (fields.map f).sum := by
  have inserted : ∀ (member : String × α) (rest : List (String × α)),
      ((insertMember member rest).map f).sum = f member + (rest.map f).sum := by
    intro member rest
    induction rest with
    | nil => rfl
    | cons head rest ih =>
        rw [insertMember]
        split
        · simp
        · simp only [List.map_cons, List.sum_cons, ih]
          omega
  induction fields with
  | nil => rfl
  | cons member rest ih => rw [sortMembers, inserted, ih, List.map_cons, List.sum_cons]

/-- The text of an object whose members are printed already, in their order. -/
def objectText (members : List (String × List Char)) : List Char :=
  '{' :: (joinComma (members.map memberText) ++ ['}'])

/-- Each member takes up its key, a colon, its value and a comma or the bracket at the end. -/
theorem utf8Length_objectText {members : List (String × List Char)} (nonempty : members ≠ []) :
    utf8Length (objectText members) =
      1 + (members.map fun member => literalBytes member.1 + 2 + utf8Length member.2).sum := by
  have joined := @utf8Length_joinComma (members.map memberText) (by simpa using nonempty)
  have perMember : members.map ((fun text => utf8Length text + 1) ∘ memberText) =
      members.map fun member => literalBytes member.1 + 2 + utf8Length member.2 := by
    apply List.map_congr_left
    intro member _
    change utf8Length (quote member.1 ++ ':' :: member.2) + 1 = _
    rw [utf8Length_append, utf8Length_cons, utf8Length_quote]
    change literalBytes member.1 + (1 + _) + 1 = _
    omega
  rw [List.map_map, perMember] at joined
  rw [objectText, utf8Length_cons, utf8Length_append, ← joined]
  rfl

@[simp]
theorem byteLength_str (s : String) : byteLength (.str s) = literalBytes s := by
  rw [byteLength, dumps, utf8Length_quote]

theorem byteLength_arr {items : List Json} (nonempty : items ≠ []) :
    byteLength (.arr items) = 1 + (items.map fun item => byteLength item + 1).sum := by
  have joined := @utf8Length_joinComma (items.map dumps) (by simpa using nonempty)
  rw [List.map_map] at joined
  change _ = (items.map fun item => byteLength item + 1).sum at joined
  rw [byteLength, dumps, dumpsList_eq_map, utf8Length_cons, utf8Length_append, ← joined]
  rfl

theorem byteLength_obj {fields : List (String × Json)} (nonempty : fields ≠ []) :
    byteLength (.obj fields) =
      1 + (fields.map fun member => literalBytes member.1 + 2 + byteLength member.2).sum := by
  have printed : sortMembers (dumpsFields fields) ≠ [] := by
    rcases List.exists_mem_of_ne_nil fields nonempty with ⟨member, memberMem⟩
    have printedMem : (member.1, dumps member.2) ∈ sortMembers (dumpsFields fields) := by
      rw [mem_sortMembers, dumpsFields_eq_map]
      exact List.mem_map_of_mem memberMem
    exact List.ne_nil_of_mem printedMem
  change utf8Length (objectText (sortMembers (dumpsFields fields))) = _
  rw [utf8Length_objectText printed, sum_sortMembers, dumpsFields_eq_map, List.map_map]
  rfl

end DotBackend.Data.Json
