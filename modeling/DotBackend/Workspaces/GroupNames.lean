import DotBackend.Data.JsonCanonical
import DotBackend.Workspaces.SplitExpenses
import Mathlib.Data.List.Perm.Subperm

/-!
# Names of the members of a group

Members go by the names they are known by, with numbers where these are equal but for case.
-/

namespace DotBackend.Workspaces

open Data

/-- The names of an active member: that of its user, if there is one, and its own. -/
structure MemberRow where
  userName : Option String
  displayName : Option String

/-- The name a member is known by; an empty one counts as none. -/
def knownName (row : MemberRow) : Option String :=
  (row.userName.filter (· ≠ "")).or (row.displayName.filter (· ≠ ""))

/-- A name with a number behind it, but for the first. -/
def candidate (base : String) : Nat → String
  | 0 => base
  | ordinal + 1 => base ++ " " ++ toString (ordinal + 2)

/-- The search for a name, for at most so many turns: while the name is used, the next suffix is
tried. -/
def searchName (library : Library) (used : List String) (base : String) :
    Nat → String → Nat → Option String
  | 0, _, _ => none
  | turns + 1, name, suffix =>
      if casefold library name ∈ used then
        searchName library used base turns (base ++ " " ++ toString suffix) (suffix + 1)
      else some name

/-- The loop of `group_app_participant_names`. -/
def participantNamesFrom (library : Library) :
    Nat → List String → List MemberRow → Option (List String)
  | _, _, [] => some []
  | ordinal, used, row :: rows => do
      let base := (knownName row).getD ("person " ++ toString ordinal)
      let name ← searchName library used base (used.length + 1) base 2
      let names ← participantNamesFrom library (ordinal + 1) (used ++ [casefold library name]) rows
      pure (name :: names)

/-- `group_app_participant_names`, with `none` if a search took more turns than there are used
names, and one. -/
def groupAppParticipantNames (library : Library) (rows : List MemberRow) :
    Option (List String) :=
  participantNamesFrom library 1 [] rows

/-! ## Names differ -/

section Fresh

variable {library : Library}

/-- Digits have no case. -/
theorem casefold_digits {text : List Char} (areDigits : ∀ c ∈ text, c.isDigit = true) :
    Text.casefold library.toUnicode text = text := by
  induction text with
  | nil => rfl
  | cons c rest ih =>
      rcases List.forall_mem_cons.mp areDigits with ⟨first, others⟩
      rw [Char.isDigit, Bool.and_eq_true, decide_eq_true_eq, decide_eq_true_eq] at first
      have upper : c.val.toNat ≤ 57 := first.2
      have notUpper : c.toLower = c := by
        unfold Char.toLower
        rw [dif_neg]
        rintro ⟨isUpper, _⟩
        have lower : 65 ≤ c.val.toNat := isUpper
        omega
      have isAscii : c.toNat < 128 := Nat.lt_of_le_of_lt upper (by decide)
      have later := ih others
      rw [Text.casefold] at later
      rw [Text.casefold, List.flatMap_cons, later, library.fold_ascii c isAscii, notUpper]
      rfl

theorem casefold_append (first second : List Char) :
    Text.casefold library.toUnicode (first ++ second) =
      Text.casefold library.toUnicode first ++ Text.casefold library.toUnicode second :=
  List.flatMap_append

/-- Candidates differ in more than case. -/
theorem casefold_candidate_inj (base : String) {first second : Nat}
    (same : casefold library (candidate base first) = casefold library (candidate base second)) :
    first = second := by
  have folded : ∀ ordinal, (casefold library (candidate base (ordinal + 1))).toList =
      Text.casefold library.toUnicode base.toList ++ ' ' :: Nat.toDigits 10 (ordinal + 2) := by
    intro ordinal
    have digits : Text.casefold library.toUnicode (Nat.toDigits 10 (ordinal + 2)) =
        Nat.toDigits 10 (ordinal + 2) :=
      casefold_digits fun c cMem => Nat.isDigit_of_mem_toDigits (by decide) (by decide) cMem
    have space : Text.casefold library.toUnicode [' '] = [' '] := by
      rw [Text.casefold, List.flatMap_cons, library.fold_ascii ' ' (by decide)]
      rfl
    rw [casefold, String.toList_ofList, candidate, String.toList_append, String.toList_append,
      Nat.toString_eq_repr, Nat.toList_repr, casefold_append, casefold_append, digits]
    change _ ++ Text.casefold library.toUnicode [' '] ++ _ = _
    rw [space, List.append_assoc]
    rfl
  have base_eq : (casefold library (candidate base 0)).toList =
      Text.casefold library.toUnicode base.toList := String.toList_ofList
  have sameText := congrArg String.toList same
  cases first with
  | zero =>
      cases second with
      | zero => rfl
      | succ second =>
          rw [base_eq, folded] at sameText
          exact absurd sameText.symm (by simp)
  | succ first =>
      cases second with
      | zero =>
          rw [base_eq, folded] at sameText
          exact absurd sameText (by simp)
      | succ second =>
          rw [folded, folded] at sameText
          have digits := List.append_cancel_left sameText
          rw [List.cons.injEq] at digits
          have numbers : first + 2 = second + 2 := Json.toDigits_inj digits.2
          omega

/-- A search that does not end in time has met used names only. -/
theorem used_of_searchName_eq_none {used : List String} {base : String} {turns first : Nat}
    (missed : searchName library used base turns (candidate base first) (first + 2) = none) :
    ∀ k < turns, casefold library (candidate base (first + k)) ∈ used := by
  induction turns generalizing first with
  | zero =>
      intro k small
      exact absurd small (Nat.not_lt_zero k)
  | succ turns ih =>
      rw [searchName] at missed
      split at missed
      · rename_i isUsed
        have later := @ih (first + 1) missed
        intro k small
        cases k with
        | zero => exact isUsed
        | succ k =>
            have isLater := later k (Nat.lt_of_succ_lt_succ small)
            rwa [Nat.add_assoc, Nat.add_comm 1] at isLater
      · cases missed

/-- What a search ends with is a candidate that is not used. -/
theorem of_searchName {used : List String} {base name : String} {turns first : Nat}
    (found : searchName library used base turns (candidate base first) (first + 2) = some name) :
    casefold library name ∉ used ∧ ∃ k, name = candidate base k := by
  induction turns generalizing first with
  | zero => cases found
  | succ turns ih =>
      rw [searchName] at found
      split at found
      · exact @ih (first + 1) found
      · rename_i isFresh
        cases found
        exact ⟨isFresh, first, rfl⟩

/-- The search for a name ends: there are more candidates than names that are used. -/
theorem exists_searchName (used : List String) (base : String) :
    ∃ name, searchName library used base (used.length + 1) base 2 = some name := by
  apply Option.ne_none_iff_exists'.mp
  intro missed
  have allUsed : ∀ k < used.length + 1, casefold library (candidate base (0 + k)) ∈ used :=
    used_of_searchName_eq_none missed
  have distinct : ((List.range (used.length + 1)).map fun k =>
      casefold library (candidate base k)).Nodup := by
    apply List.Nodup.map_on _ List.nodup_range
    intro first _ second _ same
    exact casefold_candidate_inj base same
  have few := (distinct.subperm fun name nameMem => by
    rcases List.mem_map.mp nameMem with ⟨k, kMem, rfl⟩
    have isUsed := allUsed k (List.mem_range.mp kMem)
    rwa [Nat.zero_add] at isUsed).length_le
  rw [List.length_map, List.length_range] at few
  omega

/-- A name that is not used is kept. -/
theorem searchName_of_not_mem {used : List String} {base : String}
    (isFresh : casefold library base ∉ used) (turns : Nat) :
    searchName library used base (turns + 1) base 2 = some base := by
  rw [searchName, if_neg isFresh]

theorem candidate_ne_empty {base : String} (named : base ≠ "") (k : Nat) :
    candidate base k ≠ "" := by
  cases k with
  | zero => exact named
  | succ k =>
      intro isEmpty
      have letters := congrArg String.toList isEmpty
      rw [candidate, String.toList_append, String.toList_append] at letters
      simp at letters

theorem baseName_ne_empty (row : MemberRow) (ordinal : Nat) :
    (knownName row).getD ("person " ++ toString ordinal) ≠ "" := by
  cases known : knownName row with
  | none =>
      intro isEmpty
      have letters := congrArg String.toList isEmpty
      rw [Option.getD_none, String.toList_append] at letters
      simp at letters
  | some name =>
      rw [knownName, Option.or_eq_some_iff] at known
      rcases known with isUser | ⟨_, isMember⟩
      · simpa using (Option.filter_eq_some_iff.mp isUser).2
      · simpa using (Option.filter_eq_some_iff.mp isMember).2

end Fresh

/-! ## The names of a group -/

/-- What the names of members are like if some are used already: not empty, none used or equal to
another but for case, and as the members are known where nobody before them has the name. -/
structure NamesFit (library : Library) (used : List String) (rows : List MemberRow)
    (names : List String) : Prop where
  length : names.length = rows.length
  nonempty : ∀ name ∈ names, name ≠ ""
  fresh : ∀ name ∈ names, casefold library name ∉ used
  apart : names.Pairwise fun first second => casefold library first ≠ casefold library second
  kept : ∀ i row known name, rows[i]? = some row → knownName row = some known →
    names[i]? = some name → casefold library known ∉ used →
      (∀ earlier ∈ names.take i, casefold library earlier ≠ casefold library known) → name = known

variable {library : Library}

/-- One more member in front. -/
theorem NamesFit.cons {used names : List String} {row : MemberRow} {rows : List MemberRow}
    {name : String} (rest : NamesFit library (used ++ [casefold library name]) rows names)
    (nonempty : name ≠ "") (isFresh : casefold library name ∉ used)
    (kept : ∀ known, knownName row = some known → casefold library known ∉ used → name = known) :
    NamesFit library used (row :: rows) (name :: names) where
  length := by rw [List.length_cons, List.length_cons, rest.length]
  nonempty := List.forall_mem_cons.mpr ⟨nonempty, rest.nonempty⟩
  fresh := by
    rw [List.forall_mem_cons]
    constructor
    · exact isFresh
    · intro other otherMem isUsed
      exact rest.fresh other otherMem (List.mem_append_left _ isUsed)
  apart := by
    rw [List.pairwise_cons]
    constructor
    · intro other otherMem same
      exact rest.fresh other otherMem (List.mem_append_right _ (List.mem_singleton.mpr same.symm))
    · exact rest.apart
  kept := by
    intro i row' known name' isRow isKnown isName notUsed notEarlier
    cases i with
    | zero =>
        cases isRow
        cases isName
        exact kept known isKnown notUsed
    | succ i =>
        rw [List.take_succ_cons, List.forall_mem_cons] at notEarlier
        apply rest.kept i row' known name' isRow isKnown isName _ notEarlier.2
        rw [List.mem_append, List.mem_singleton]
        rintro (isUsed | isLast)
        · exact notUsed isUsed
        · exact notEarlier.1 isLast.symm

theorem exists_participantNamesFrom (ordinal : Nat) (used : List String) (rows : List MemberRow) :
    ∃ names, participantNamesFrom library ordinal used rows = some names ∧
      NamesFit library used rows names := by
  induction rows generalizing ordinal used with
  | nil => exact ⟨[], rfl, by constructor <;> simp⟩
  | cons row rows ih =>
      have named := baseName_ne_empty row ordinal
      obtain ⟨name, found⟩ := @exists_searchName library used
        ((knownName row).getD ("person " ++ toString ordinal))
      rcases @of_searchName library used _ name _ 0 found with ⟨isFresh, k, isCandidate⟩
      rcases ih (ordinal + 1) (used ++ [casefold library name]) with ⟨names, later, fit⟩
      have all : participantNamesFrom library ordinal used (row :: rows) = some (name :: names) := by
        rw [participantNamesFrom]
        simp only [found, later, Option.bind_eq_bind, Option.bind_some, Option.pure_def]
      refine ⟨name :: names, all, fit.cons ?_ isFresh ?_⟩
      · rw [isCandidate]
        exact candidate_ne_empty named k
      · intro known isKnown notUsed
        rw [isKnown, Option.getD_some, searchName_of_not_mem notUsed] at found
        exact (Option.some.inj found).symm

/-- Every group has names: one for each member in their order, not empty, no two of them equal but
for case, and as the member is known where no member before it got that name. -/
theorem group_names_fit (library : Library) (rows : List MemberRow) :
    ∃ names, groupAppParticipantNames library rows = some names ∧
      names.length = rows.length ∧ (∀ name ∈ names, name ≠ "") ∧
      (names.Pairwise fun first second => casefold library first ≠ casefold library second) ∧
      ∀ i row known name, rows[i]? = some row → knownName row = some known →
        names[i]? = some name →
        (∀ earlier ∈ names.take i, casefold library earlier ≠ casefold library known) →
          name = known := by
  rcases @exists_participantNamesFrom library 1 [] rows with ⟨names, named, fit⟩
  refine ⟨names, named, fit.length, fit.nonempty, fit.apart, ?_⟩
  intro i row known name isRow isKnown isName notEarlier
  exact fit.kept i row known name isRow isKnown isName List.not_mem_nil notEarlier

end DotBackend.Workspaces
