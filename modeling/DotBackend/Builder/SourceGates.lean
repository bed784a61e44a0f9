import DotBackend.Builder.SourceDelimiters
import DotBackend.Data.JsonSizes
import DotBackend.Data.PosixPath

/-!
# The two gates before a compilation

Generated sources are inspected by the service, and once more by the harness of the compiler when
they are sent to it. The harness asks for normalized paths and for a request of limited size; the
service looks at the parts of a path and at the size of the sources. What passes the one passes the
other just when its paths are tidy and its texts stay small in a JSON text.
-/

namespace DotBackend.Builder

open Data

/-! ## The service -/

/-- What the regular expressions of the policy and `repr` find in a text. -/
structure SourcePatterns where
  /-- `_IMPORT_PATTERN.findall`. -/
  importSpecifiers : String → List String
  /-- Where the first match of a pattern of `_FORBIDDEN_PATTERNS` or `_DESIGN_CONTRACT_PATTERNS`,
  known by its code, starts. -/
  search : String → String → Option Nat
  /-- The text has `export default`. -/
  exportsDefault : String → Bool
  repr : String → String

def allowedSourceSuffixes : List (List Char) :=
  [".ts".toList, ".tsx".toList]

def allowedImports : List String :=
  ["@dot/app-runtime", "@dot/ui", "date-fns", "lucide-react", "motion/react", "react", "recharts"]

/-- The codes of `_FORBIDDEN_PATTERNS`. -/
def forbiddenPatterns : List String :=
  ["network_access", "dynamic_code", "dynamic_import", "unsafe_html", "browser_storage",
    "cookie_access", "service_worker", "direct_host_bridge", "beacon_access", "location_change",
    "node_runtime", "external_url", "css_import", "css_url"]

/-- The codes and messages of `_DESIGN_CONTRACT_PATTERNS`. -/
def designContractPatterns : List (String × String) :=
  [("reserved_primary_action_marker",
      "data-dot-primary-action is SDK-reserved; use PrimaryWorkflowTrigger"),
    ("reserved_workflow_marker",
      "data-dot workflow markers are SDK-reserved; use WorkflowForm or PrimaryWorkflowTrigger"),
    ("custom_class_name", "className is not part of the generated-app design contract; " ++
      "use @dot/ui semantic props"),
    ("inline_style", "inline styles are not allowed; use @dot/ui semantic props"),
    ("embedded_style_element", "embedded style elements are not allowed; use @dot/ui"),
    ("unbranded_interactive_control",
      "native interactive controls must use the matching @dot/ui component"),
    ("imperative_element_creation",
      "imperative element creation can bypass the generated-app design contract"),
    ("raw_color_value", "raw color values are not allowed; use semantic accents or chartTokens"),
    ("raw_color_attribute",
      "visual color attributes must use currentColor, a Dot token, or chartTokens")]

local instance lawfulBEq_text : LawfulBEq (List Char) := inferInstance

/-- `_is_allowed_import`. -/
def isAllowedImport (specifier : String) : Bool :=
  "./".toList.isPrefixOf specifier.toList || "../".toList.isPrefixOf specifier.toList ||
    specifier ∈ allowedImports

/-- `_source_location`. -/
def sourceLocation (path contents : String) (start : Nat) : String :=
  let before := contents.toList.take start
  path ++ ":" ++ toString (before.count '\n' + 1) ++ ":" ++
    toString ((before.rtakeWhile (· ≠ '\n')).length + 1)

/-- An issue if a condition holds. -/
def issueIf (condition : Bool) (issue : ValidationIssue) : List ValidationIssue :=
  if condition then [issue] else []

/-- The checks of one file, given the paths before it. -/
def fileIssues (patterns : SourcePatterns) (paths : List String) (item : SourceFile) :
    List ValidationIssue :=
  let path := item.path.toList
  let suffix := PosixPath.suffix path
  issueIf (path.head? = some '/' ∨ ['.', '.'] ∈ PosixPath.parts path ∨
      ¬"src/".toList.isPrefixOf path ∨ suffix ∉ allowedSourceSuffixes)
    ⟨"invalid_source_path", "source files must be .ts or .tsx files below src/", some item.path⟩ ++
  issueIf (item.path ∈ paths)
    ⟨"duplicate_source_path", "file path is duplicated", some item.path⟩ ++
  issueIf (256000 < Json.utf8Length item.contents.toList)
    ⟨"file_too_large", "individual source files may be at most 256 KB", some item.path⟩ ++
  issueIf (suffix = ".css".toList)
    ⟨"generated_css_not_allowed",
      "generated CSS is not allowed; compose the branded @dot/ui primitives", some item.path⟩ ++
  ((patterns.importSpecifiers item.contents).filter fun specifier =>
    !isAllowedImport specifier).map (fun specifier =>
      ⟨"dependency_not_allowed",
        "dependency " ++ patterns.repr specifier ++ " is not in the approved catalog",
        some item.path⟩) ++
  forbiddenPatterns.filterMap (fun code =>
    (patterns.search code item.contents).map fun start =>
      ⟨code, "source contains forbidden capability: " ++ code,
        some (sourceLocation item.path item.contents start)⟩) ++
  if suffix ∈ allowedSourceSuffixes then
    designContractPatterns.filterMap fun (code, message) =>
      (patterns.search code item.contents).map fun start =>
        ⟨code, message, some (sourceLocation item.path item.contents start)⟩
  else []

/-- The loop over the files. -/
def filesIssues (patterns : SourcePatterns) : List String → List SourceFile → List ValidationIssue
  | _, [] => []
  | paths, item :: rest =>
      fileIssues patterns paths item ++ filesIssues patterns (item.path :: paths) rest

/-- The checks of the entry point. -/
def entrypointIssues (patterns : SourcePatterns) (source : GeneratedSource) :
    List ValidationIssue :=
  match source.files.find? (·.path = source.entrypoint) with
  | none =>
      [⟨"missing_entrypoint", "entrypoint is not present in source files", some source.entrypoint⟩]
  | some item =>
      issueIf (!patterns.exportsDefault item.contents)
        ⟨"missing_default_export", "entrypoint must have a default export",
          some source.entrypoint⟩ ++
      balancedDelimiterIssues item.contents source.entrypoint

def sourceBytes (source : GeneratedSource) : Nat :=
  (source.files.map fun item => Json.utf8Length item.contents.toList).sum

/-- `_source_issues`. -/
def sourceIssues (patterns : SourcePatterns) (source : GeneratedSource) : List ValidationIssue :=
  if source.files = [] then
    [⟨"missing_source", "build produced no source files", none⟩]
  else
    issueIf (32 < source.files.length)
      ⟨"too_many_files", "build may contain at most 32 files", none⟩ ++
    issueIf (512000 < sourceBytes source)
      ⟨"source_too_large", "source may be at most 512 KB", none⟩ ++
    filesIssues patterns [] source.files ++ entrypointIssues patterns source

/-- `inspect_generated_source`. -/
def inspectGeneratedSource (patterns : SourcePatterns) (source : GeneratedSource) :
    List ValidationIssue :=
  sourceIssues patterns source

/-- The request of `EsbuildAppCompiler.compile`. -/
def compileRequest (source : GeneratedSource) : Json :=
  .obj [("protocol_version", .int 1), ("entrypoint", .str source.entrypoint),
    ("files", .arr (source.files.map SourceFile.asDict))]

/-- The text of a file in the request; the members stand in the order of the dictionary. -/
def SourceFile.jsonText (item : SourceFile) : List Char :=
  Json.objectText [("path", Json.quote item.path), ("contents", Json.quote item.contents)]

/-- What is written to the compiler: the request as `json.dumps` prints it. -/
def requestText (source : GeneratedSource) : List Char :=
  Json.objectText [("protocol_version", Json.intText 1),
    ("entrypoint", Json.quote source.entrypoint),
    ("files", '[' :: (Json.joinComma (source.files.map SourceFile.jsonText) ++ [']']))]

/-! ## The harness -/

structure CompilerIssue where
  code : String
  detail : String
  path : Option String
  deriving DecidableEq

def sourceExtensions : List (List Char) :=
  [".ts".toList, ".tsx".toList, ".css".toList]

/-- `readRequest`; `parse` is `JSON.parse`. -/
def readRequest (parse : List Char → Option Json) (input : List Char) :
    Except CompilerIssue Json := do
  require (Json.utf8Length input ≤ 700000)
    ⟨"compiler_input_too_large", "compiler input exceeds 700 KB", none⟩
  match parse input with
  | none => .error ⟨"invalid_compiler_input", "compiler input must be valid JSON", none⟩
  | some value => do
      require (value.get? "protocol_version" = some (.int 1))
        ⟨"invalid_compiler_input", "unsupported compiler protocol", none⟩
      pure value

/-- One round of the loop over the files of a request: the files so far, with their bytes. -/
def validateSourceFile (tree : List (String × String) × Nat) (file : Json) :
    Except CompilerIssue (List (String × String) × Nat) :=
  match file.get? "path", file.get? "contents" with
  | some (.str path), some (.str contents) => do
      let normalized := PosixPath.normalize path.toList
      require (normalized = path.toList ∧ normalized.head? ≠ some '/' ∧
          "src/".toList.isPrefixOf normalized ∧ Char.ofNat 0 ∉ normalized ∧
          PosixPath.extname normalized ∈ sourceExtensions)
        ⟨"invalid_source_path",
          "source paths must be normalized .ts, .tsx, or .css files below src/", some path⟩
      require (path ∉ tree.1.map Prod.fst)
        ⟨"duplicate_source_path", "source path is duplicated", some path⟩
      require (Json.utf8Length contents.toList ≤ 256000)
        ⟨"file_too_large", "source file exceeds 256 KB", some path⟩
      pure (tree.1 ++ [(path, contents)], tree.2 + Json.utf8Length contents.toList)
  | _, _ =>
      .error ⟨"invalid_source_file", "every source file needs a path and contents", none⟩

/-- `validateSourceTree`. -/
def validateSourceTree (request : Json) : Except CompilerIssue (List (String × String)) :=
  match request.get? "files" with
  | some (.arr items) => do
      require (1 ≤ items.length ∧ items.length ≤ 32)
        ⟨"invalid_source_tree", "source tree must contain between 1 and 32 files", none⟩
      let tree ← items.foldlM validateSourceFile ([], 0)
      require (tree.2 ≤ 512000) ⟨"source_too_large", "source tree exceeds 512 KB", none⟩
      match request.get? "entrypoint" with
      | some (.str entrypoint) => do
          require (entrypoint ∈ tree.1.map Prod.fst)
            ⟨"missing_entrypoint", "entrypoint is not present in the source tree", none⟩
          require (".ts".toList.isSuffixOf entrypoint.toList ||
              ".tsx".toList.isSuffixOf entrypoint.toList)
            ⟨"invalid_entrypoint", "entrypoint must be a TypeScript module", none⟩
          pure tree.1
      | _ =>
          .error ⟨"missing_entrypoint", "entrypoint is not present in the source tree", none⟩
  | _ => .error ⟨"invalid_source_tree", "source tree must contain between 1 and 32 files", none⟩

/-- The harness reads what it is sent and accepts the tree. -/
def Inspects (parse : List Char → Option Json) (input : List Char) : Prop :=
  ∃ request files, readRequest parse input = .ok request ∧
    validateSourceTree request = .ok files

/-! ## What the service has checked -/

/-- A file that raised no issue. -/
structure SourceFile.Gated (item : SourceFile) : Prop where
  relative : item.path.toList.head? ≠ some '/'
  notUp : ['.', '.'] ∉ PosixPath.parts item.path.toList
  below : "src/".toList.isPrefixOf item.path.toList = true
  suffix : PosixPath.suffix item.path.toList ∈ allowedSourceSuffixes
  small : Json.utf8Length item.contents.toList ≤ 256000

/-- A path that the harness takes. -/
def SourceFile.Neat (item : SourceFile) : Prop :=
  PosixPath.Tidy item.path.toList ∧ Char.ofNat 0 ∉ item.path.toList

instance (item : SourceFile) : Decidable item.Neat :=
  inferInstanceAs (Decidable (_ ∧ _))

@[simp]
theorem issueIf_eq_nil {condition : Bool} {issue : ValidationIssue} :
    issueIf condition issue = [] ↔ condition = false := by
  cases condition <;> simp [issueIf]

theorem of_fileIssues {patterns : SourcePatterns} {paths : List String} {item : SourceFile}
    (clean : fileIssues patterns paths item = []) : item.Gated ∧ item.path ∉ paths := by
  simp only [fileIssues, List.append_eq_nil_iff, issueIf_eq_nil, decide_eq_false_iff_not, not_or,
    not_not, Nat.not_lt] at clean
  rcases clean with ⟨⟨⟨⟨⟨⟨⟨relative, notUp, below, suffix⟩, fresh⟩, small⟩, _⟩, _⟩, _⟩, _⟩
  exact ⟨⟨relative, notUp, below, suffix, small⟩, fresh⟩

theorem of_filesIssues {patterns : SourcePatterns} {paths : List String} {items : List SourceFile}
    (clean : filesIssues patterns paths items = []) :
    (∀ item ∈ items, item.Gated ∧ item.path ∉ paths) ∧ (items.map SourceFile.path).Nodup := by
  induction items generalizing paths with
  | nil => simp
  | cons item rest ih =>
      rw [filesIssues, List.append_eq_nil_iff] at clean
      rcases ih clean.2 with ⟨others, distinct⟩
      constructor
      · rw [List.forall_mem_cons]
        constructor
        · exact of_fileIssues clean.1
        · intro other otherMem
          exact ⟨(others other otherMem).1, fun inPaths =>
            (others other otherMem).2 (List.mem_cons_of_mem _ inPaths)⟩
      · rw [List.map_cons, List.nodup_cons]
        refine ⟨?_, distinct⟩
        intro isOther
        rcases List.mem_map.mp isOther with ⟨other, otherMem, same⟩
        exact (others other otherMem).2 (by rw [same]; exact List.mem_cons_self)

/-! ## Paths -/

section Paths

variable {item : SourceFile}

theorem SourceFile.Gated.suffix_ne_nil (gated : item.Gated) :
    PosixPath.suffix item.path.toList ≠ [] := by
  intro isNil
  have known := gated.suffix
  rw [isNil] at known
  exact absurd known (by decide)

theorem SourceFile.Gated.parts_ne_nil (gated : item.Gated) :
    PosixPath.parts item.path.toList ≠ [] := by
  intro isNil
  apply gated.suffix_ne_nil
  rw [PosixPath.suffix, PosixPath.name, isNil]
  rfl

/-- The harness takes the path of a file just when it is neat. -/
theorem SourceFile.Gated.accepted_iff (gated : item.Gated) :
    (PosixPath.normalize item.path.toList = item.path.toList ∧
      (PosixPath.normalize item.path.toList).head? ≠ some '/' ∧
      "src/".toList.isPrefixOf (PosixPath.normalize item.path.toList) ∧
      Char.ofNat 0 ∉ PosixPath.normalize item.path.toList ∧
      PosixPath.extname (PosixPath.normalize item.path.toList) ∈ sourceExtensions) ↔
        item.Neat := by
  have normal : PosixPath.normalize item.path.toList = item.path.toList ↔
      PosixPath.Tidy item.path.toList := by
    cases isPath : item.path.toList with
    | nil =>
        have below := gated.below
        rw [isPath] at below
        exact absurd below (by decide)
    | cons c rest =>
        have relative := gated.relative
        have notUp := gated.notUp
        have nonempty := gated.parts_ne_nil
        rw [isPath] at relative notUp nonempty
        exact PosixPath.normalize_eq_self_iff rfl (by simpa using relative) notUp nonempty
  constructor
  · rintro ⟨isNormal, _, _, noNul, _⟩
    rw [isNormal] at noNul
    exact ⟨normal.mp isNormal, noNul⟩
  · rintro ⟨tidy, noNul⟩
    have known : PosixPath.suffix item.path.toList ∈ sourceExtensions :=
      List.mem_append_left [".css".toList] gated.suffix
    rw [normal.mpr tidy, PosixPath.extname_of_suffix tidy gated.suffix_ne_nil]
    exact ⟨rfl, gated.relative, gated.below, noNul, known⟩

/-- The entry point is a module unless its path ends with a slash. -/
theorem SourceFile.Gated.isModule_iff (gated : item.Gated) (neat : item.Neat) :
    (".ts".toList.isSuffixOf item.path.toList || ".tsx".toList.isSuffixOf item.path.toList) =
      true ↔ item.path.toList.getLast? ≠ some '/' := by
  rw [Bool.or_eq_true, List.isSuffixOf_iff_suffix, List.isSuffixOf_iff_suffix]
  constructor
  · rintro (⟨before, isPath⟩ | ⟨before, isPath⟩)
    · simp [← isPath]
    · simp [← isPath]
  · intro notSlash
    have notTrailing : PosixPath.isTrailing item.path.toList = false := by
      rw [PosixPath.isTrailing]
      exact decide_eq_false notSlash
    have ended := PosixPath.suffix_of_tidy neat.1 notTrailing
    have known := gated.suffix
    rw [allowedSourceSuffixes, List.mem_cons, List.mem_singleton] at known
    rcases known with isTs | isTsx
    · exact Or.inl (isTs ▸ ended)
    · exact Or.inr (isTsx ▸ ended)

end Paths

/-! ## Trees -/

/-- A file of the request, and the files with their bytes that it leads to. -/
theorem validateSourceFile_eq_ok {item : SourceFile} {tree result : List (String × String) × Nat}
    (gated : item.Gated) (fresh : item.path ∉ tree.1.map Prod.fst) :
    validateSourceFile tree item.asDict = .ok result ↔ item.Neat ∧
      result = (tree.1 ++ [(item.path, item.contents)],
        tree.2 + Json.utf8Length item.contents.toList) := by
  change (require _ _ >>= fun _ => require _ _ >>= fun _ => require _ _ >>= fun _ => pure _) = _ ↔ _
  simp only [bind_eq_ok, require_eq_ok, pure_eq_ok, decide_eq_true_eq, gated.accepted_iff]
  constructor
  · rintro ⟨_, neat, _, _, _, _, rfl⟩
    exact ⟨neat, rfl⟩
  · rintro ⟨neat, rfl⟩
    exact ⟨(), neat, (), fresh, (), gated.small, rfl⟩

theorem foldlM_validateSourceFile {items : List SourceFile}
    {tree result : List (String × String) × Nat} (gated : ∀ item ∈ items, item.Gated)
    (fresh : ∀ item ∈ items, item.path ∉ tree.1.map Prod.fst)
    (distinct : (items.map SourceFile.path).Nodup) :
    (items.map SourceFile.asDict).foldlM validateSourceFile tree = .ok result ↔
      (∀ item ∈ items, item.Neat) ∧
        result = (tree.1 ++ items.map fun item => (item.path, item.contents),
          tree.2 + (items.map fun item => Json.utf8Length item.contents.toList).sum) := by
  induction items generalizing tree with
  | nil => simp [pure, Except.pure, eq_comm]
  | cons item rest ih =>
      rw [List.forall_mem_cons] at gated fresh
      rw [List.map_cons, List.nodup_cons] at distinct
      have later : ∀ other ∈ rest,
          other.path ∉ (tree.1 ++ [(item.path, item.contents)]).map Prod.fst := by
        intro other otherMem
        rw [List.map_append, List.mem_append, List.map_singleton, List.mem_singleton]
        rintro (isOld | isItem)
        · exact fresh.2 other otherMem isOld
        · exact distinct.1 (List.mem_map.mpr ⟨other, otherMem, isItem⟩)
      simp only [List.map_cons, List.foldlM_cons, bind_eq_ok,
        validateSourceFile_eq_ok gated.1 fresh.1, List.forall_mem_cons, List.sum_cons]
      constructor
      · rintro ⟨_, ⟨neat, rfl⟩, others⟩
        rw [ih gated.2 later distinct.2] at others
        refine ⟨⟨neat, others.1⟩, ?_⟩
        rw [others.2, List.append_assoc, Nat.add_assoc]
        rfl
      · rintro ⟨⟨neat, others⟩, rfl⟩
        refine ⟨_, ⟨neat, rfl⟩, (ih gated.2 later distinct.2).mpr ⟨others, ?_⟩⟩
        rw [List.append_assoc, Nat.add_assoc]
        rfl

/-! ## Sizes -/

/-- How many bytes the request of a source takes up, once its texts are escaped. -/
def requestBytes (source : GeneratedSource) : Nat :=
  46 + Json.literalBytes source.entrypoint + (source.files.map fun item =>
    22 + Json.literalBytes item.path + Json.literalBytes item.contents).sum

theorem utf8Length_jsonText (item : SourceFile) : Json.utf8Length item.jsonText =
    21 + Json.literalBytes item.path + Json.literalBytes item.contents := by
  have keys : Json.literalBytes "path" = 6 ∧ Json.literalBytes "contents" = 10 := by decide
  rw [SourceFile.jsonText, Json.utf8Length_objectText (List.cons_ne_nil _ _)]
  simp only [List.map_cons, List.map_nil, List.sum_cons, List.sum_nil, keys, Json.utf8Length_quote]
  omega

theorem utf8Length_requestText {source : GeneratedSource} (nonempty : source.files ≠ []) :
    Json.utf8Length (requestText source) = requestBytes source := by
  have keys : Json.literalBytes "protocol_version" = 18 ∧ Json.literalBytes "entrypoint" = 12 ∧
      Json.literalBytes "files" = 7 := by decide
  have version : Json.utf8Length (Json.intText 1) = 1 := by decide
  have closed : Json.utf8Length [']'] = 1 := by decide
  have joined := @Json.utf8Length_joinComma (source.files.map SourceFile.jsonText)
    (by simpa using nonempty)
  have perFile : source.files.map ((fun text => Json.utf8Length text + 1) ∘ SourceFile.jsonText) =
      source.files.map fun item =>
        22 + Json.literalBytes item.path + Json.literalBytes item.contents := by
    apply List.map_congr_left
    intro item _
    rw [Function.comp_apply, utf8Length_jsonText]
    omega
  rw [List.map_map, perFile] at joined
  have bracket : Char.utf8Size '[' = 1 := rfl
  rw [requestText, Json.utf8Length_objectText (List.cons_ne_nil _ _), requestBytes, ← joined]
  simp only [List.map_cons, List.map_nil, List.sum_cons, List.sum_nil, keys, version, closed,
    bracket, Json.utf8Length_quote, Json.utf8Length_cons, Json.utf8Length_append]
  omega

/-! ## Both gates -/

/-- What the service lets pass, the harness accepts just when its paths are neat, its entry point
does not end with a slash and its request has at most 700,000 bytes. -/
theorem accepts_inspected_iff {patterns : SourcePatterns} {source : GeneratedSource}
    {parse : List Char → Option Json}
    (parses : parse (requestText source) = some (compileRequest source))
    (clean : inspectGeneratedSource patterns source = []) :
    Inspects parse (requestText source) ↔ requestBytes source ≤ 700000 ∧
      (∀ item ∈ source.files, item.Neat) ∧ source.entrypoint.toList.getLast? ≠ some '/' := by
  rw [inspectGeneratedSource, sourceIssues] at clean
  split at clean
  · cases clean
  · rename_i nonempty
    simp only [List.append_eq_nil_iff, issueIf_eq_nil, decide_eq_false_iff_not, Nat.not_lt] at clean
    rcases clean with ⟨⟨⟨few, small⟩, filesClean⟩, entryClean⟩
    rcases of_filesIssues filesClean with ⟨gated, distinct⟩
    have some_file : 1 ≤ source.files.length := List.length_pos_iff.mpr nonempty
    rw [entrypointIssues] at entryClean
    cases found : source.files.find? (·.path = source.entrypoint) with
    | none =>
        rw [found] at entryClean
        cases entryClean
    | some entry =>
        have isEntry : entry.path = source.entrypoint :=
          by simpa using List.find?_some found
        have entryMem := List.mem_of_find?_eq_some found
        have inTree : source.entrypoint ∈
            (source.files.map fun item => (item.path, item.contents)).map Prod.fst := by
          rw [List.map_map]
          exact List.mem_map.mpr ⟨entry, entryMem, isEntry⟩
        have validated : ∀ result, (source.files.map SourceFile.asDict).foldlM validateSourceFile
            ([], 0) = .ok result ↔ _ := fun result =>
          foldlM_validateSourceFile (fun item itemMem => (gated item itemMem).1)
            (fun _ _ => List.not_mem_nil) distinct
        have read : ∀ request, readRequest parse (requestText source) = .ok request ↔
            requestBytes source ≤ 700000 ∧ request = compileRequest source := by
          intro request
          rw [readRequest, parses, utf8Length_requestText nonempty]
          simp only [bind_eq_ok, require_eq_ok, pure_eq_ok, decide_eq_true_eq]
          constructor
          · rintro ⟨_, fits, _, _, rfl⟩
            exact ⟨fits, rfl⟩
          · rintro ⟨fits, rfl⟩
            exact ⟨(), fits, (), rfl, rfl⟩
        have accepted : (∃ files, validateSourceTree (compileRequest source) = .ok files) ↔
            (∀ item ∈ source.files, item.Neat) ∧
              source.entrypoint.toList.getLast? ≠ some '/' := by
          change (∃ files, (require _ _ >>= fun _ => _ >>= fun tree => require _ _ >>= fun _ =>
            require (decide (source.entrypoint ∈ _)) _ >>= fun _ => require _ _ >>= fun _ =>
              pure _) = Except.ok files) ↔ _
          simp only [bind_eq_ok, require_eq_ok, pure_eq_ok, decide_eq_true_eq, List.length_map,
            validated]
          constructor
          · rintro ⟨_, _, _, _, ⟨neat, rfl⟩, _, _, _, _, _, isModule, _⟩
            rw [← isEntry, (gated entry entryMem).1.isModule_iff (neat entry entryMem)] at isModule
            exact ⟨neat, isEntry ▸ isModule⟩
          · rintro ⟨neat, notSlash⟩
            rw [← isEntry] at notSlash
            have isModule := ((gated entry entryMem).1.isModule_iff (neat entry entryMem)).mpr
              notSlash
            rw [isEntry] at isModule
            refine ⟨_, (), ⟨some_file, few⟩, _, ⟨neat, rfl⟩, (), ?_, (), inTree, (), isModule, rfl⟩
            rw [Nat.zero_add]
            exact small
        rw [Inspects]
        simp only [read]
        constructor
        · rintro ⟨_, files, ⟨fits, rfl⟩, valid⟩
          exact ⟨fits, accepted.mp ⟨files, valid⟩⟩
        · rintro ⟨fits, neat⟩
          rcases accepted.mpr neat with ⟨files, valid⟩
          exact ⟨_, files, ⟨fits, rfl⟩, valid⟩

/-! ## Two sources -/

/-- Patterns that match nothing but a default export at the start of a text. -/
def quietPatterns : SourcePatterns where
  importSpecifiers _ := []
  search _ _ := none
  exportsDefault text := "export default".toList.isPrefixOf text.toList
  repr text := text

/-- An app of one file. -/
def smallSource (path : String) : GeneratedSource :=
  ⟨[⟨path, "export default () => null;\n"⟩], path, []⟩

theorem tidy_source_accepted :
    Inspects (fun _ => some (compileRequest (smallSource "src/app.tsx")))
      (requestText (smallSource "src/app.tsx")) := by
  have clean : inspectGeneratedSource quietPatterns (smallSource "src/app.tsx") = [] := by
    decide
  exact (accepts_inspected_iff rfl clean).mpr (by decide)

/-- A doubled slash passes the inspection of the service, but not the harness. -/
theorem doubled_slash_refused :
    inspectGeneratedSource quietPatterns (smallSource "src//app.tsx") = [] ∧
      ¬Inspects (fun _ => some (compileRequest (smallSource "src//app.tsx")))
        (requestText (smallSource "src//app.tsx")) := by
  constructor
  · decide
  · rintro ⟨request, files, read, valid⟩
    simp only [readRequest, bind_eq_ok, pure_eq_ok] at read
    rcases read with ⟨_, _, _, _, rfl⟩
    have refused : validateSourceTree (compileRequest (smallSource "src//app.tsx")) =
        .error ⟨"invalid_source_path",
          "source paths must be normalized .ts, .tsx, or .css files below src/",
          some "src//app.tsx"⟩ := by decide
    rw [refused] at valid
    cases valid

end DotBackend.Builder
