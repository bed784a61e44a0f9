import DotBackend.Data.JsonCanonical
import Mathlib.Algebra.Order.BigOperators.Group.List
import Mathlib.Algebra.Order.Group.Nat

/-!
# Copies of JSON values

A value that is encoded with sorted keys and decoded again is its canonical form: the same
value with the members of every object in order. The copy has the same text, the same size
and the same members. The size of a part is at most the size of the whole.
-/

namespace DotBackend.Data.Json

/-! ## Members in order -/

section Members

variable {α : Type}

theorem mem_insertMember {member other : String × α} {fields : List (String × α)} :
    other ∈ insertMember member fields ↔ other = member ∨ other ∈ fields := by
  induction fields with
  | nil => simp [insertMember]
  | cons head rest ih =>
      rw [insertMember]
      split
      · rw [List.mem_cons]
      · rw [List.mem_cons, ih, List.mem_cons]
        exact or_left_comm

theorem mem_sortMembers {member : String × α} {fields : List (String × α)} :
    member ∈ sortMembers fields ↔ member ∈ fields := by
  induction fields with
  | nil => rfl
  | cons head rest ih =>
      rw [sortMembers, mem_insertMember, ih, List.mem_cons]

theorem length_insertMember (member : String × α) (fields : List (String × α)) :
    (insertMember member fields).length = fields.length + 1 := by
  induction fields with
  | nil => rfl
  | cons head rest ih =>
      rw [insertMember]
      split
      · rfl
      · rw [List.length_cons, ih, List.length_cons]

theorem length_sortMembers (fields : List (String × α)) :
    (sortMembers fields).length = fields.length := by
  induction fields with
  | nil => rfl
  | cons head rest ih =>
      rw [sortMembers, length_insertMember, ih, List.length_cons]

/-- The keys increase. -/
def Sorted (fields : List (String × α)) : Prop :=
  fields.Pairwise fun first second => first.1 ≤ second.1

theorem sorted_insertMember {member : String × α} {fields : List (String × α)}
    (sorted : Sorted fields) : Sorted (insertMember member fields) := by
  induction fields with
  | nil => exact List.pairwise_singleton _ _
  | cons head rest ih =>
      obtain ⟨first, others⟩ := List.pairwise_cons.mp sorted
      rw [insertMember]
      split
      · rename_i before
        refine List.pairwise_cons.mpr ⟨?_, sorted⟩
        intro other otherMem
        rcases List.mem_cons.mp otherMem with rfl | later
        · exact before
        · exact String.le_trans before (first other later)
      · rename_i notBefore
        refine List.pairwise_cons.mpr ⟨?_, ih others⟩
        intro other otherMem
        rcases mem_insertMember.mp otherMem with rfl | later
        · exact (String.le_total _ _).resolve_left notBefore
        · exact first other later

theorem sorted_sortMembers (fields : List (String × α)) : Sorted (sortMembers fields) := by
  induction fields with
  | nil => exact List.Pairwise.nil
  | cons head rest ih => exact sorted_insertMember ih

/-- Members that are in order stay where they are. -/
theorem sortMembers_of_sorted {fields : List (String × α)} (sorted : Sorted fields) :
    sortMembers fields = fields := by
  induction fields with
  | nil => rfl
  | cons head rest ih =>
      obtain ⟨first, others⟩ := List.pairwise_cons.mp sorted
      rw [sortMembers, ih others]
      cases rest with
      | nil => rfl
      | cons next later => exact if_pos (first next List.mem_cons_self)

end Members

/-! ## Copies -/

/-- Sorting commutes with the canonical forms of the members. -/
theorem canonicalMembers_sortMembers (fields : List (String × Json)) :
    canonicalMembers (sortMembers fields) = sortMembers (canonicalMembers fields) := by
  rw [canonicalMembers_eq_map, canonicalMembers_eq_map, sortMembers_map]

mutual

theorem canonical_canonical : ∀ value : Json, canonical (canonical value) = canonical value
  | .null | .bool _ | .int _ | .float _ | .str _ => rfl
  | .arr items => by
      rw [canonical, canonical, canonicalItems_canonicalItems items]
  | .obj fields => by
      rw [canonical, canonical, canonicalMembers_sortMembers,
        canonicalMembers_canonicalMembers fields, sortMembers_of_sorted (sorted_sortMembers _)]

theorem canonicalItems_canonicalItems : ∀ items : List Json,
    canonicalItems (canonicalItems items) = canonicalItems items
  | [] => rfl
  | item :: rest => by
      rw [canonicalItems, canonicalItems, canonical_canonical item,
        canonicalItems_canonicalItems rest]

theorem canonicalMembers_canonicalMembers : ∀ fields : List (String × Json),
    canonicalMembers (canonicalMembers fields) = canonicalMembers fields
  | [] => rfl
  | (key, value) :: rest => by
      rw [canonicalMembers, canonicalMembers, canonical_canonical value,
        canonicalMembers_canonicalMembers rest]

end

/-- A copy has the text of its original. -/
theorem dumps_canonical (value : Json) : dumps (canonical value) = dumps value :=
  (dumps_eq_iff _ _).mpr (canonical_canonical value)

/-- `json.loads(json.dumps(value, sort_keys=True))` of a dictionary. -/
def copyFields (fields : List (String × Json)) : List (String × Json) :=
  sortMembers (canonicalMembers fields)

theorem canonical_obj (fields : List (String × Json)) :
    canonical (.obj fields) = .obj (copyFields fields) :=
  rfl

@[simp]
theorem canonical_str (s : String) : canonical (.str s) = .str s :=
  rfl

theorem lookup_insertMember (member : String × Json) (fields : List (String × Json))
    (key : String) : lookup (insertMember member fields) key =
      if member.1 = key then some member.2 else lookup fields key := by
  induction fields with
  | nil => exact lookup_cons member [] key
  | cons head rest ih =>
      rw [insertMember]
      split
      · exact lookup_cons member (head :: rest) key
      · rename_i notBefore
        rw [lookup_cons, ih, lookup_cons]
        by_cases isHead : head.1 = key
        · rw [if_pos isHead, if_pos isHead, if_neg]
          rintro rfl
          exact notBefore (isHead ▸ String.le_refl _)
        · rw [if_neg isHead, if_neg isHead]

/-- A copy has the copies of the members. -/
theorem lookup_copyFields (fields : List (String × Json)) (key : String) :
    lookup (copyFields fields) key = (lookup fields key).map canonical := by
  induction fields with
  | nil => rfl
  | cons member rest ih =>
      change lookup (insertMember (member.1, canonical member.2) (copyFields rest)) key = _
      rw [lookup_insertMember, ih, lookup_cons]
      split
      · rfl
      · rfl

theorem canonicalItems_eq_map (items : List Json) : canonicalItems items = items.map canonical := by
  induction items with
  | nil => rfl
  | cons item rest ih => rw [canonicalItems, ih, List.map_cons]

/-! ## Sizes -/

/-- A text has at least a byte for every character. -/
theorem length_le_utf8Length (text : List Char) : text.length ≤ utf8Length text := by
  induction text with
  | nil => exact Nat.le_refl 0
  | cons c rest ih =>
      change rest.length + 1 ≤ c.utf8Size + utf8Length rest
      have := c.utf8Size_pos
      omega

theorem length_dumps_le (value : Json) : (dumps value).length ≤ byteLength value :=
  length_le_utf8Length (dumps value)

theorem utf8Length_append (first second : List Char) :
    utf8Length (first ++ second) = utf8Length first + utf8Length second := by
  rw [utf8Length, List.map_append, List.sum_append, utf8Length, utf8Length]

theorem utf8Length_cons (c : Char) (rest : List Char) :
    utf8Length (c :: rest) = c.utf8Size + utf8Length rest :=
  rfl

/-- The texts that are joined are no longer than the joined text. -/
theorem sum_utf8Length_le_joinComma (texts : List (List Char)) :
    (texts.map utf8Length).sum ≤ utf8Length (joinComma texts) := by
  induction texts with
  | nil => exact Nat.le_refl 0
  | cons text rest ih =>
      cases rest with
      | nil => simp [joinComma]
      | cons next later =>
          have joined : joinComma (text :: next :: later) =
              text ++ ',' :: joinComma (next :: later) := rfl
          rw [joined, utf8Length_append, utf8Length_cons, List.map_cons, List.sum_cons]
          omega

theorem dumpsList_eq_map (items : List Json) : dumpsList items = items.map dumps := by
  induction items with
  | nil => rfl
  | cons item rest ih => rw [dumpsList, ih, List.map_cons]

/-- The elements of a list are together no larger than the list. -/
theorem sum_byteLength_le_arr (items : List Json) :
    (items.map byteLength).sum ≤ byteLength (.arr items) := by
  have joined := sum_utf8Length_le_joinComma (dumpsList items)
  rw [dumpsList_eq_map, List.map_map] at joined
  rw [byteLength, dumps, utf8Length_cons, utf8Length_append, dumpsList_eq_map]
  change (items.map byteLength).sum ≤ _ at joined
  omega

/-- A member of a dictionary is no larger than the dictionary. -/
theorem byteLength_le_obj {fields : List (String × Json)} {member : String × Json}
    (memberMem : member ∈ fields) : byteLength member.2 ≤ byteLength (.obj fields) := by
  have printed : memberText (member.1, dumps member.2) ∈
      (sortMembers (dumpsFields fields)).map memberText := by
    apply List.mem_map_of_mem
    rw [mem_sortMembers, dumpsFields_eq_map]
    exact List.mem_map.mpr ⟨member, memberMem, rfl⟩
  have counted : utf8Length (memberText (member.1, dumps member.2)) ≤ _ :=
    List.single_le_sum (fun _ _ => Nat.zero_le _) _ (List.mem_map_of_mem printed)
  have joined := sum_utf8Length_le_joinComma ((sortMembers (dumpsFields fields)).map memberText)
  rw [memberText, utf8Length_append, utf8Length_cons] at counted
  change _ + (_ + utf8Length (dumps member.2)) ≤ _ at counted
  rw [byteLength, byteLength, dumps, utf8Length_cons, utf8Length_append]
  omega

end DotBackend.Data.Json
