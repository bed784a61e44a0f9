import DotBackend.Data.Text
import Mathlib.Data.List.DropRight

/-!
# Paths

Two readings of a relative path: the parts that Python's `PurePosixPath` sees, and what Node's
`posix.normalize` makes of it. Where the parts do not go up, a path is normalized when it has no
empty and no `.` component before a last slash, and then both see the same name at its end.
-/

namespace DotBackend.Data.PosixPath

/-! ## The interpreter's view -/

def components (path : List Char) : List (List Char) :=
  path.splitOn '/'

/-- `PurePosixPath(path).parts`, without the root. -/
def parts (path : List Char) : List (List Char) :=
  (components path).filter fun component => component ≠ [] ∧ component ≠ ['.']

/-- `PurePosixPath(path).name`. -/
def name (path : List Char) : List Char :=
  (parts path).getLastD []

/-- What comes up to the last dot of a name, and what comes after it. -/
def splitDot (name : List Char) : List Char × List Char :=
  (name.rdropWhile (· ≠ '.'), name.rtakeWhile (· ≠ '.'))

/-- `PurePosixPath(path).suffix`: the dot is neither the first nor the last character. -/
def suffix (path : List Char) : List Char :=
  let (stem, ending) := splitDot (name path)
  if 2 ≤ stem.length ∧ ending ≠ [] then '.' :: ending else []

/-! ## Node's view -/

/-- One component of `normalizeString`; what is kept is in reverse. -/
def resolveStep (allowAboveRoot : Bool) (kept : List (List Char)) (component : List Char) :
    List (List Char) :=
  if component = [] ∨ component = ['.'] then kept
  else if component = ['.', '.'] then
    match kept with
    | [] => if allowAboveRoot then [component] else []
    | last :: before => if last = ['.', '.'] then component :: kept else before
  else component :: kept

/-- The path ends with a slash. -/
def isTrailing (path : List Char) : Bool :=
  path.getLast? = some '/'

/-- `posix.normalize`. -/
def normalize (path : List Char) : List Char :=
  if path = [] then ['.']
  else
    let isAbsolute := path.head? = some '/'
    let resolved := ['/'].intercalate
      ((components path).foldl (resolveStep (!isAbsolute)) []).reverse
    let root := if isAbsolute then ['/'] else []
    if resolved = [] then
      if isAbsolute then ['/'] else if isTrailing path then ['.', '/'] else ['.']
    else root ++ resolved ++ if isTrailing path then ['/'] else []

/-- The last component, slashes at the end aside. -/
def basename (path : List Char) : List Char :=
  (components (path.rdropWhile (· = '/'))).getLastD []

/-- `posix.extname`. -/
def extname (path : List Char) : List Char :=
  let (stem, ending) := splitDot (basename path)
  if 2 ≤ stem.length ∧ basename path ≠ ['.', '.'] then '.' :: ending else []

/-! ## Components -/

theorem not_mem_of_mem_components {path component : List Char}
    (isComponent : component ∈ components path) : '/' ∉ component := by
  induction path generalizing component with
  | nil =>
      rw [components, List.splitOn_nil, List.mem_singleton] at isComponent
      simp [isComponent]
  | cons c path ih =>
      rw [components, List.splitOn_cons_eq_if_modifyHead] at isComponent
      split at isComponent
      · rcases List.mem_cons.mp isComponent with rfl | later
        · exact List.not_mem_nil
        · exact ih later
      · rename_i notSlash
        cases split : List.splitOn '/' path with
        | nil => exact absurd split (List.splitOn_ne_nil _ _)
        | cons first rest =>
            rw [split, List.modifyHead_cons] at isComponent
            rcases List.mem_cons.mp isComponent with rfl | later
            · rw [List.mem_cons]
              rintro (isSlash | inFirst)
              · exact notSlash (by simp [← isSlash])
              · exact ih (by rw [components, split]; exact List.mem_cons_self) inFirst
            · exact ih (by rw [components, split]; exact List.mem_cons_of_mem _ later)

theorem components_concat (path : List Char) :
    components (path ++ ['/']) = components path ++ [[]] := by
  rw [components, List.splitOn_append_cons_self, List.splitOn_nil, components]

/-- Components are put together again. -/
theorem intercalate_eq_iff {kept : List (List Char)} {path : List Char} (nonempty : kept ≠ [])
    (kept_components : ∀ component ∈ kept, '/' ∉ component) :
    ['/'].intercalate kept = path ↔ kept = components path := by
  constructor
  · rintro rfl
    exact (List.splitOn_intercalate '/' kept_components nonempty).symm
  · rintro rfl
    exact List.intercalate_splitOn '/'

/-! ## Tidy paths -/

/-- A path without a slash at its end. -/
def bare (path : List Char) : List Char :=
  if isTrailing path then path.dropLast else path

/-- No component is empty or a dot, but for the slash at the end. -/
def Tidy (path : List Char) : Prop :=
  ∀ component ∈ components (bare path), component ≠ [] ∧ component ≠ ['.']

instance (path : List Char) : Decidable (Tidy path) :=
  inferInstanceAs (Decidable (∀ component ∈ components (bare path), _))

theorem bare_append (path : List Char) :
    bare path ++ (if isTrailing path then ['/'] else []) = path := by
  rw [bare]
  split
  · rename_i trailing
    rw [isTrailing, decide_eq_true_eq] at trailing
    exact List.dropLast_append_getLast? '/' trailing
  · exact List.append_nil path

theorem parts_bare (path : List Char) : parts (bare path) = parts path := by
  conv => rhs; rw [← bare_append path]
  split
  · rw [parts, parts, components_concat, List.filter_append]
    simp
  · rw [List.append_nil]

theorem tidy_iff (path : List Char) : Tidy path ↔ parts path = components (bare path) := by
  rw [← parts_bare, parts, List.filter_eq_self]
  simp [Tidy]

/-- Without a component that goes up, what is resolved are the parts. -/
theorem foldl_resolveStep {allowAboveRoot : Bool} {found kept : List (List Char)}
    (notUp : ∀ component ∈ found, component ≠ ['.', '.']) :
    found.foldl (resolveStep allowAboveRoot) kept =
      (found.filter fun component => component ≠ [] ∧ component ≠ ['.']).reverse ++ kept := by
  induction found generalizing kept with
  | nil => rfl
  | cons component found ih =>
      rcases List.forall_mem_cons.mp notUp with ⟨isNotUp, others⟩
      have stepped : resolveStep allowAboveRoot kept component =
          if component = [] ∨ component = ['.'] then kept else component :: kept := by
        unfold resolveStep
        simp [isNotUp]
      rw [List.foldl_cons, ih others, stepped]
      by_cases isSkipped : component = [] ∨ component = ['.']
      · rcases isSkipped with rfl | rfl <;> simp
      · rw [if_neg isSkipped]
        rw [not_or] at isSkipped
        simp [isSkipped]

/-- What a path of parts below a directory is normalized to. -/
theorem normalize_eq {path : List Char} {c : Char} {rest : List Char} (isPath : path = c :: rest)
    (isRelative : c ≠ '/') (notUp : ['.', '.'] ∉ parts path) (nonempty : parts path ≠ []) :
    normalize path =
      ['/'].intercalate (parts path) ++ if isTrailing path then ['/'] else [] := by
  have notAbsolute : ¬path.head? = some '/' := by simp [isPath, isRelative]
  have noneUp : ∀ component ∈ components path, component ≠ ['.', '.'] := by
    rintro component isComponent rfl
    exact notUp (List.mem_filter.mpr ⟨isComponent, by decide⟩)
  have resolved : ((components path).foldl (resolveStep true) []).reverse = parts path := by
    rw [foldl_resolveStep noneUp, List.append_nil, List.reverse_reverse, parts]
  have joined : ['/'].intercalate (parts path) ≠ [] := by
    cases found : parts path with
    | nil => exact absurd found nonempty
    | cons first others =>
        have isPart : first ∈ parts path := by simp [found]
        have filled := (of_decide_eq_true (List.mem_filter.mp isPart).2).1
        cases others with
        | nil => simpa using filled
        | cons second others => simp [filled]
  rw [normalize, if_neg (by simp [isPath])]
  simp [notAbsolute, resolved, joined]

/-- A path is normalized just when it is tidy. -/
theorem normalize_eq_self_iff {path : List Char} {c : Char} {rest : List Char}
    (isPath : path = c :: rest) (isRelative : c ≠ '/') (notUp : ['.', '.'] ∉ parts path)
    (nonempty : parts path ≠ []) : normalize path = path ↔ Tidy path := by
  have partsOf : ∀ component ∈ parts path, '/' ∉ component := by
    intro component isPart
    exact not_mem_of_mem_components (List.mem_filter.mp isPart).1
  rw [normalize_eq isPath isRelative notUp nonempty, tidy_iff,
    ← intercalate_eq_iff nonempty partsOf]
  conv => lhs; rhs; rw [← bare_append path]
  rw [List.append_left_inj]

/-- Both see the same name at the end of a tidy path. -/
theorem basename_of_tidy {path : List Char} (tidy : Tidy path) : basename path = name path := by
  have stripped : path.rdropWhile (· = '/') = bare path := by
    have notSlash : (bare path).rdropWhile (· = '/') = bare path := by
      rw [List.rdropWhile_eq_self_iff]
      intro filled isSlash
      have ended : (bare path).dropLast ++ ['/'] = bare path := by
        conv => rhs; rw [← List.dropLast_append_getLast filled, of_decide_eq_true isSlash]
      have isComponent : [] ∈ components (bare path) := by
        rw [← ended, components_concat]
        simp
      exact (tidy [] isComponent).1 rfl
    conv => lhs; rw [← bare_append path]
    split
    · rw [List.rdropWhile_concat_pos _ _ _ (by simp), notSlash]
    · rw [List.append_nil, notSlash]
  rw [basename, stripped, name, (tidy_iff path).mp tidy]

theorem getLastD_suffix_intercalate {kept : List (List Char)} :
    kept.getLastD [] <:+ ['/'].intercalate kept := by
  induction kept with
  | nil => exact List.suffix_refl _
  | cons first kept ih =>
      cases kept with
      | nil => simp
      | cons second kept =>
          rw [List.intercalate_cons_cons]
          exact ih.trans (List.suffix_append _ _)

/-- A tidy path that does not end with a slash ends with its suffix. -/
theorem suffix_of_tidy {path : List Char} (tidy : Tidy path)
    (notTrailing : isTrailing path = false) : suffix path <:+ path := by
  have isBare : bare path = path := by
    rw [bare, notTrailing]
    rfl
  have named : name path <:+ path := by
    have joined := @getLastD_suffix_intercalate (components path)
    rw [components, List.intercalate_splitOn] at joined
    rwa [name, (tidy_iff path).mp tidy, isBare]
  apply List.IsSuffix.trans _ named
  rw [suffix, splitDot]
  dsimp only
  split
  · rename_i dotted
    have stem : (name path).rdropWhile (· ≠ '.') ≠ [] := by
      intro isNil
      rw [isNil] at dotted
      exact absurd dotted.1 (by decide)
    have isDot := List.rdropWhile_last_not _ _ stem
    rw [decide_eq_true_eq, not_not] at isDot
    refine ⟨((name path).rdropWhile (· ≠ '.')).dropLast, ?_⟩
    have ended := List.dropLast_append_getLast stem
    rw [isDot] at ended
    rw [List.append_cons, ended, List.rdropWhile_append_rtakeWhile]
  · exact List.nil_suffix

/-- A suffix is an extension. -/
theorem extname_of_suffix {path : List Char} (tidy : Tidy path) (hasSuffix : suffix path ≠ []) :
    extname path = suffix path := by
  rw [suffix] at hasSuffix ⊢
  rw [extname, basename_of_tidy tidy]
  dsimp only at hasSuffix ⊢
  split at hasSuffix
  · rename_i dotted
    have notUp : name path ≠ ['.', '.'] := by
      intro isUp
      rw [isUp] at dotted
      exact dotted.2 (by decide)
    rw [if_pos dotted, if_pos ⟨dotted.1, notUp⟩]
  · exact absurd rfl hasSuffix

end DotBackend.Data.PosixPath
