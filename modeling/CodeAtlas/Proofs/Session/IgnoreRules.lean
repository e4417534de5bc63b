import CodeAtlas.Proofs.Session.Coverage

/-!
# The rules by which files are ignored

The rules of a run over a whole code base are those that the ignore file gives at that moment, and
runs over changes keep them. So an analysis shows the files that are there now and that were not
ignored then, whatever the ignore file says now and whether or not it was named as changed.
-/

namespace CodeAtlas

/-! ## Files that an analysis shows -/

/-- The files that an analysis shows: those with elements, stubs being in no file, and those that
diagnostics name. -/
def Analysis.shownFiles (analysis : Analysis) : List String :=
  (analysis.elements.map Element.filePath).filter (· != "") ++
    analysis.diagnostics.filterMap Diagnostic.filePath

theorem Analysis.mem_shownFiles {analysis : Analysis} {path : String} :
    path ∈ analysis.shownFiles ↔
      (∃ element ∈ analysis.elements, element.filePath = path) ∧ path ≠ "" ∨
        ∃ diagnostic ∈ analysis.diagnostics, diagnostic.filePath = some path := by
  simp [shownFiles]

/-- A diagnostic is about a file, and not one of those that labels give rise to. -/
structure Diagnostic.IsAbout (diagnostic : Diagnostic) (path : String) : Prop where
  /-- It names the file. -/
  filePath_eq : diagnostic.filePath = some path
  /-- It is kept when labels are given. -/
  code_ne : diagnostic.code ≠ "label_unknown_element"

/-- An analysis shows exactly the files that are listed. -/
structure Analysis.Shows (analysis : Analysis) (isListed : String → Prop) : Prop where
  /-- The files that are shown are those that are listed. -/
  shown : ∀ path, path ∈ analysis.shownFiles ↔ isListed path
  /-- The diagnostics that name a file are about that file. -/
  about : ∀ diagnostic ∈ analysis.diagnostics, ∀ path, diagnostic.filePath = some path →
    diagnostic.IsAbout path

/-- What was found in a file is there and in that file. -/
def FileExtraction.IsIn (extraction : FileExtraction) (path : String) : Prop :=
  extraction.elements ≠ [] ∧ ∀ element ∈ extraction.elements, element.filePath = path

/-- Whatever is extracted from a file below a root is in that file. -/
def Workspace.Declares (workspace : Workspace) (root : String) : Prop :=
  ∀ source path language extraction,
    workspace.extract root source path language = .ok extraction → extraction.IsIn path

/-- What became of a file can be seen. -/
structure FileOutcome.Speaks (outcome : FileOutcome) (path : String) : Prop where
  /-- The outcome is that of the file. -/
  filePath_eq : outcome.filePath = path
  /-- What was found is in the file. -/
  found : ∀ extraction, outcome.extraction = some extraction → extraction.IsIn path
  /-- A file in which nothing was found has problems. -/
  spoken : outcome.extraction = none → outcome.diagnostics ≠ []
  /-- Problems are about the file. -/
  named : ∀ problem ∈ outcome.diagnostics, problem.IsAbout path

theorem FileOutcome.speaks_problem {path : String} {problem : Diagnostic}
    (isAbout : problem.IsAbout path) : Speaks ⟨path, none, [problem]⟩ path where
  filePath_eq := rfl
  found _ none := by cases none
  spoken _ := List.cons_ne_nil _ _
  named other member := List.mem_singleton.mp member ▸ isAbout

theorem FileOutcome.isAbout_of_mem_issueDiagnostics {path : String} {extraction : FileExtraction}
    {problem : Diagnostic} (member : problem ∈ issueDiagnostics path extraction) :
    problem.IsAbout path := by
  refine ⟨(named_of_mem_issueDiagnostics member).1, ?_⟩
  unfold issueDiagnostics at member
  split at member
  · cases member
  · rw [List.mem_singleton.mp member]
    exact of_decide_eq_true rfl

theorem FileReader.speaks_outcome {reader : FileReader}
    (declares : reader.workspace.Declares reader.root) (path : String) :
    (reader.outcome path).Speaks path := by
  unfold outcome
  split
  · exact FileOutcome.speaks_problem ⟨rfl, of_decide_eq_true rfl⟩
  · split
    · exact FileOutcome.speaks_problem ⟨rfl, of_decide_eq_true rfl⟩
    · split
      · exact FileOutcome.speaks_problem ⟨rfl, of_decide_eq_true rfl⟩
      case h_2 extraction isExtraction =>
        refine ⟨rfl, ?_, ?_, ?_⟩
        · rintro _ ⟨⟩
          exact declares _ _ _ _ isExtraction
        · exact fun none => by cases none
        · exact fun problem member => FileOutcome.isAbout_of_mem_issueDiagnostics member

theorem Run.speaks_extractAlong {course : Course} {analyzer : Analyzer} {workspace : Workspace}
    {root : String} {options : RunOptions} {files : List String} {outcomes : List FileOutcome}
    (declares : workspace.Declares root)
    (orderly : course.Orderly (batchOptions analyzer options).limit)
    (through : extractAlong course analyzer workspace root options files = .ok outcomes) :
    List.Forall₂ (fun path outcome => outcome.Speaks path) files outcomes := by
  refine (outcomes_extractAlong orderly through).imp fun path outcome isOutcome => ?_
  rcases isOutcome with rfl | rfl
  · exact FileReader.speaks_outcome declares path
  · exact FileOutcome.speaks_problem ⟨rfl, of_decide_eq_true rfl⟩

/-! ## Files that a snapshot lists -/

namespace Snapshot

/-- A snapshot has something of exactly the files that are listed. -/
structure Lists (snapshot : Snapshot) (isListed : String → Prop) : Prop where
  /-- A path has one extraction. -/
  distinctExtractions : snapshot.extractions.Distinct
  /-- A path has one list of problems. -/
  distinctProblems : snapshot.problems.Distinct
  /-- What was found is in the file. -/
  found : ∀ path extraction, snapshot.extractions.get? path = some extraction →
    extraction.IsIn path
  /-- Problems are there and about the file. -/
  named : ∀ path problems, snapshot.problems.get? path = some problems →
    problems ≠ [] ∧ ∀ problem ∈ problems, problem.IsAbout path
  /-- The files that are listed have an extraction or problems, and no others have. -/
  present : ∀ path, snapshot.extractions.get? path ≠ none ∨ snapshot.problems.get? path ≠ none ↔
    isListed path

variable {snapshot : Snapshot} {isListed : String → Prop}

theorem lists_empty (root : String) (rules : Ignore.Rules) :
    Lists ⟨root, rules, .empty, .empty⟩ fun _ => False where
  distinctExtractions := Table.distinct_empty
  distinctProblems := Table.distinct_empty
  found _ _ none := by cases none
  named _ _ none := by cases none
  present _ := ⟨fun some => some.elim (absurd rfl) (absurd rfl), False.elim⟩

theorem Lists.remove (lists : snapshot.Lists isListed) (file : String) :
    (snapshot.remove file).Lists fun path => path ≠ file ∧ isListed path where
  distinctExtractions := lists.distinctExtractions.erase file
  distinctProblems := lists.distinctProblems.erase file
  found path extraction isFound := by
    rw [Snapshot.remove, Table.get?_erase] at isFound
    split at isFound
    · cases isFound
    · exact lists.found path extraction isFound
  named path problems isNamed := by
    rw [Snapshot.remove, Table.get?_erase] at isNamed
    split at isNamed
    · cases isNamed
    · exact lists.named path problems isNamed
  present path := by
    rw [← lists.present path]
    by_cases same : path = file <;> simp [Snapshot.remove, Table.get?_erase, same]

theorem Lists.removeAll (lists : snapshot.Lists isListed) (files : List String) :
    (files.foldl Snapshot.remove snapshot).Lists fun path => path ∉ files ∧ isListed path := by
  induction files generalizing snapshot isListed with
  | nil => simpa using lists
  | cons file files induction =>
    have rest := induction (lists.remove file)
    simpa [and_assoc, and_left_comm] using rest

theorem Lists.add (lists : snapshot.Lists isListed) {outcome : FileOutcome} {file : String}
    (speaks : outcome.Speaks file) :
    (snapshot.add outcome).Lists fun path => path = file ∨ isListed path where
  distinctExtractions := distinct_extractions_add lists.distinctExtractions outcome
  distinctProblems := distinct_problems_add lists.distinctProblems outcome
  found path extraction isFound := by
    rw [get?_extractions_add, speaks.filePath_eq] at isFound
    split at isFound
    case isFalse => exact lists.found path extraction isFound
    case isTrue same =>
      rcases Option.or_eq_some_iff.mp isFound with added | ⟨_, kept⟩
      · exact same ▸ speaks.found extraction added
      · exact lists.found path extraction kept
  named path problems isNamed := by
    rw [get?_problems_add, speaks.filePath_eq] at isNamed
    split at isNamed
    case isFalse => exact lists.named path problems isNamed
    case isTrue added =>
      obtain ⟨rfl, present⟩ := added
      cases isNamed
      exact ⟨present, speaks.named⟩
  present path := by
    rw [get?_extractions_add, get?_problems_add, speaks.filePath_eq, ← lists.present path]
    by_cases same : path = file
    case neg => simp [same]
    cases found : outcome.extraction with
    | some extraction => simp [same]
    | none => simp [same, speaks.spoken found]

theorem Lists.addAll (lists : snapshot.Lists isListed) {files : List String}
    {outcomes : List FileOutcome}
    (speak : List.Forall₂ (fun path outcome => outcome.Speaks path) files outcomes) :
    (outcomes.foldl Snapshot.add snapshot).Lists fun path => path ∈ files ∨ isListed path := by
  induction speak generalizing snapshot isListed with
  | nil => simpa using lists
  | cons first _ induction =>
    have rest := induction (lists.add first)
    simpa [or_assoc, or_left_comm] using rest

end Snapshot

/-! ## Analyses -/

theorem Element.filePath_withLabel (element : Element) (label : Option Label) :
    (element.withLabel label).filePath = element.filePath := by
  cases label <;> rfl

theorem Resolution.filePath_of_mem_stubs {α : Type} {relationships : List (Relationship α)}
    {element : Element} (member : element ∈ stubs relationships) : element.filePath = "" := by
  obtain ⟨entry, _, rfl⟩ := List.mem_map.mp (Text.mem_sortBy.mp member)
  rfl

/-- Relationships without an end are reported without naming a file. -/
theorem DependencyGraph.filePath_of_mem_diagnostics {elements : List Element}
    {relationships : List (Relationship Float)} {diagnostic : Diagnostic}
    (member : diagnostic ∈ diagnostics elements relationships) : diagnostic.filePath = none := by
  obtain ⟨relationship, _, isReport⟩ := List.mem_filterMap.mp member
  split at isReport
  case h_2 => cases isReport
  case h_1 error isError =>
    unfold edgesOf at isError
    split at isError <;> cases isError <;> cases isReport <;> rfl

namespace Analyzer

variable {analyzer : Analyzer} {snapshot : Snapshot} {isListed : String → Prop}

theorem filePath_of_mem_externals (reuse : Option Reuse) {element : Element}
    (member : element ∈ (analyzer.stateOf snapshot reuse).resolution.externals) :
    element.filePath = "" := by
  cases reuse <;> exact Resolution.filePath_of_mem_stubs member

section Listed

variable (lists : snapshot.Lists isListed) (labels : Table String Label) (reuse : Option Reuse)
  (mode : AnalysisMode) (version : Nat) (createdAt : Instant)

include lists

/-- The diagnostics of an analysis that name a file are those about the files of its snapshot. -/
theorem mem_diagnostics_analysisOf {diagnostic : Diagnostic} {path : String}
    (isNamed : diagnostic.filePath = some path) :
    diagnostic ∈ (analyzer.analysisOf labels (analyzer.stateOf snapshot reuse) mode version
      createdAt).diagnostics ↔
      ∃ problems, snapshot.problems.get? path = some problems ∧ diagnostic ∈ problems := by
  rw [(perm_diagnostics_analysisOf ..).mem_iff, List.mem_append]
  constructor
  · rintro (ofFile | ofRelationship)
    · obtain ⟨other, problems, isProblems, member⟩ :=
        (Snapshot.mem_diagnostics lists.distinctProblems).mp ofFile
      have isOther := ((lists.named other problems isProblems).2 diagnostic member).filePath_eq
      obtain rfl : other = path := Option.some.inj (isOther.symm.trans isNamed)
      exact ⟨problems, isProblems, member⟩
    · rw [DependencyGraph.filePath_of_mem_diagnostics ofRelationship] at isNamed
      cases isNamed
  · rintro ⟨problems, isProblems, member⟩
    exact .inl ((Snapshot.mem_diagnostics lists.distinctProblems).mpr
      ⟨path, problems, isProblems, member⟩)

theorem exists_element_analysisOf {path : String} (proper : path ≠ "") :
    (∃ element ∈ (analyzer.analysisOf labels (analyzer.stateOf snapshot reuse) mode version
      createdAt).elements, element.filePath = path) ↔ snapshot.extractions.get? path ≠ none := by
  rw [elements_analysisOf, Element.showLabels]
  simp only [List.mem_map, exists_exists_and_eq_and, Element.filePath_withLabel, Text.mem_sortBy]
  constructor
  · rintro ⟨element, member, rfl⟩
    rcases List.mem_append.mp member with declared | outside
    · obtain ⟨extraction, isExtraction, isElement⟩ := List.mem_flatMap.mp declared
      obtain ⟨other, isFound⟩ := (Snapshot.mem_byPath lists.distinctExtractions).mp isExtraction
      rw [(lists.found other extraction isFound).2 element isElement, isFound]
      exact Option.some_ne_none _
    · exact absurd (filePath_of_mem_externals reuse outside) proper
  · intro isFound
    obtain ⟨extraction, isExtraction⟩ := Option.ne_none_iff_exists'.mp isFound
    obtain ⟨present, inFile⟩ := lists.found path extraction isExtraction
    obtain ⟨element, isElement⟩ := List.exists_mem_of_ne_nil _ present
    have declared := (Snapshot.sublist_elements lists.distinctExtractions isExtraction).subset
      isElement
    exact ⟨element, List.mem_append_left _ declared, inFile element isElement⟩

theorem mem_shownFiles_analysisOf (proper : ¬ isListed "") {path : String} :
    path ∈ (analyzer.analysisOf labels (analyzer.stateOf snapshot reuse) mode version
      createdAt).shownFiles ↔ isListed path := by
  rw [Analysis.mem_shownFiles, ← lists.present path]
  have named : (∃ diagnostic ∈ (analyzer.analysisOf labels (analyzer.stateOf snapshot reuse) mode
      version createdAt).diagnostics, diagnostic.filePath = some path) ↔
      snapshot.problems.get? path ≠ none := by
    constructor
    · rintro ⟨diagnostic, member, isNamed⟩
      obtain ⟨problems, isProblems, _⟩ :=
        (mem_diagnostics_analysisOf lists labels reuse mode version createdAt isNamed).mp member
      rw [isProblems]
      exact Option.some_ne_none _
    · intro isNamed
      obtain ⟨problems, isProblems⟩ := Option.ne_none_iff_exists'.mp isNamed
      obtain ⟨present, about⟩ := lists.named path problems isProblems
      obtain ⟨problem, member⟩ := List.exists_mem_of_ne_nil problems present
      exact ⟨problem, (mem_diagnostics_analysisOf lists labels reuse mode version createdAt
        (about problem member).filePath_eq).mpr ⟨problems, isProblems, member⟩,
        (about problem member).filePath_eq⟩
  rw [named]
  by_cases empty : path = ""
  · have absent := mt (lists.present path).mp (empty ▸ proper)
    simp_all
  · rw [exists_element_analysisOf lists labels reuse mode version createdAt empty]
    simp [empty]

/-- An analysis shows the files that its snapshot lists. -/
theorem shows_analysisOf (proper : ¬ isListed "") :
    (analyzer.analysisOf labels (analyzer.stateOf snapshot reuse) mode version createdAt).Shows
      isListed := by
  refine ⟨fun path => mem_shownFiles_analysisOf lists labels reuse mode version createdAt proper,
    fun diagnostic member path isNamed => ?_⟩
  obtain ⟨problems, isProblems, isProblem⟩ :=
    (mem_diagnostics_analysisOf lists labels reuse mode version createdAt isNamed).mp member
  exact (lists.named path problems isProblems).2 diagnostic isProblem

end Listed
end Analyzer

theorem Analysis.Shows.labelled {analysis : Analysis} {isListed : String → Prop}
    (shows : analysis.Shows isListed) (analyzer : Analyzer) (requests : List LabelRequest)
    (version : Nat) (memory : Memory) :
    ∃ next later, Run.applyLabels analyzer requests version (some analysis) memory =
      (.done next, later) ∧ next.Shows isListed := by
  refine ⟨_, _, rfl, ?_⟩
  have isKept {diagnostic : Diagnostic} {path : String}
      (isNamed : diagnostic.filePath = some path) :
      diagnostic ∈ Diagnostic.sort
          (analysis.diagnostics.filter (·.code != "label_unknown_element") ++
            (Run.splitRequests analysis requests).2.map Run.unknownLabel) ↔
        diagnostic ∈ analysis.diagnostics := by
    rw [Diagnostic.sort, Diagnostic.sortOn, (List.mergeSort_perm _ _).mem_iff, List.mem_append,
      List.mem_filter, List.mem_map]
    constructor
    · rintro (⟨member, _⟩ | ⟨id, _, rfl⟩)
      · exact member
      · cases isNamed
    · exact fun member => .inl ⟨member, bne_iff_ne.mpr (shows.about _ member path isNamed).code_ne⟩
  refine ⟨fun path => ?_, fun diagnostic member path isNamed =>
    shows.about diagnostic ((isKept isNamed).mp member) path isNamed⟩
  rw [← shows.shown path, mem_shownFiles, mem_shownFiles]
  refine or_congr (and_congr_left' ?_) (exists_congr fun diagnostic => and_congr_left isKept)
  simp [Analyzer.label, Element.filePath_withLabel]

/-! ## Code bases that change -/

/-- What a scan leaves out. -/
abbrev Analyzer.scanOptions (analyzer : Analyzer) : ScanOptions :=
  ⟨analyzer.configuration.ignorePatterns, analyzer.configuration.respectGitignore⟩

/-- The files of a code base at one moment, those that are ignored included. -/
structure Codebase (analyzer : Analyzer) (root : String) where
  /-- Where the files are. -/
  workspace : Workspace
  /-- All files, relative to the root. -/
  files : List String
  /-- What a scan finds, with the rules that are in force. -/
  listing : Listing
  /-- A scan succeeds. -/
  scan_eq : workspace.scan root analyzer.scanOptions = .ok listing
  /-- A scan lists the files that its rules do not ignore. -/
  mem_listing : ∀ path, path ∈ listing.files ↔ path ∈ files ∧ listing.rules.ignores path = false
  /-- Files are below the root. -/
  below : ∀ path ∈ files, Run.isBelowRoot path
  /-- Files are there. -/
  holds : ∀ path ∈ files, workspace.holds (Path.joinAll [root, path])
  /-- Every file declares something, if only itself. -/
  declares : workspace.Declares root

namespace Codebase

variable {analyzer : Analyzer} {root : String}

/-- A list names all files that are in one of two code bases only, and it names no folders. -/
structure Covers (old new : Codebase analyzer root) (named : List String) : Prop where
  /-- Each file that has come or gone is named. -/
  differing : ∀ path, ¬ (path ∈ old.files ↔ path ∈ new.files) →
    ∃ name ∈ named, NamesFile root name path
  /-- What is named and there is a file. -/
  noFolders : ∀ name ∈ named, ∀ path, NamesFile root name path → Run.isBelowRoot path →
    new.workspace.holds (Path.joinAll [root, path]) → path ∈ new.files

/-- The code base of files in memory, each at the path that it is looked for. -/
def ofFiles (analyzer : Analyzer) (root : String) (files : Table String MemoryFile)
    (declares : ∀ path file, files.get? path = some file → ∀ source filePath language extraction,
      file.extract source filePath language = .ok extraction → extraction.IsIn filePath)
    (inPlace : ∀ whole ∈ files.keys, ∀ path, Workspace.pathBelow? root whole = some path →
      Run.isBelowRoot path ∧ Path.joinAll [root, path] = whole) : Codebase analyzer root where
  workspace := .ofFiles files
  files := files.keys.filterMap (Workspace.pathBelow? root)
  listing := _
  scan_eq := rfl
  mem_listing path := by
    rw [Tree.mem_listBelow, List.mem_filterMap]
  below path isFile := by
    obtain ⟨whole, isKey, isPath⟩ := List.mem_filterMap.mp isFile
    exact (inPlace whole isKey path isPath).1
  holds path isFile := by
    obtain ⟨whole, isKey, isPath⟩ := List.mem_filterMap.mp isFile
    rw [(inPlace whole isKey path isPath).2]
    exact Table.has_iff_mem_keys.mpr isKey
  declares source path language extraction isExtraction := by
    simp only [Workspace.ofFiles] at isExtraction
    split at isExtraction
    case h_1 file isFile => exact declares _ file isFile _ _ _ _ isExtraction
    case h_2 => cases isExtraction

/-- The files that some rules leave. -/
def Leaves (codebase : Codebase analyzer root) (rules : Ignore.Rules) (path : String) : Prop :=
  path ∈ codebase.files ∧ rules.ignores path = false

theorem not_leaves_empty (codebase : Codebase analyzer root) (rules : Ignore.Rules) :
    ¬ codebase.Leaves rules "" := by
  rintro ⟨isFile, _⟩
  exact absurd (codebase.below "" isFile) (by decide)

theorem mem_listing_iff_leaves (codebase : Codebase analyzer root) (path : String) :
    path ∈ codebase.listing.files ↔ codebase.Leaves codebase.listing.rules path :=
  codebase.mem_listing path

/-- What is listed after a run over changes: what was extracted, and what was listed and has not
been touched. -/
theorem leaves_after {old new : Codebase analyzer root} {named : List String}
    (covers : old.Covers new named) {snapshot : Snapshot} (isRoot : snapshot.root = root)
    (lists : snapshot.Lists (old.Leaves snapshot.rules)) (path : String) :
    path ∈ (Run.plan new.workspace snapshot named).toExtract ∨
      path ∉ (Run.plan new.workspace snapshot named).removed ++
        (Run.plan new.workspace snapshot named).toExtract ∧ old.Leaves snapshot.rules path ↔
      new.Leaves snapshot.rules path := by
  simp only [Run.plan, List.mem_append, List.mem_filter, isRoot]
  by_cases changed : path ∈ Run.changedPaths snapshot named
  case neg =>
    -- A file that is not named and not ignored is in both code bases or in none.
    simp only [changed, false_and, or_self, not_false_eq_true, true_and, false_or]
    refine and_congr_left fun notIgnored => ?_
    by_contra differs
    obtain ⟨name, isName, names⟩ := covers.differing path differs
    have below : Run.isBelowRoot path := by
      by_cases isOld : path ∈ old.files
      · exact old.below path isOld
      · exact new.below path (by simpa [isOld] using differs)
    exact changed (Run.mem_changedPaths_iff.mpr
      ⟨⟨name, isName, isRoot ▸ names.relativePath_eq⟩, below, notIgnored⟩)
  obtain ⟨⟨name, isName, isPath⟩, below, notIgnored⟩ := Run.mem_changedPaths_iff.mp changed
  by_cases there : new.workspace.holds (Path.joinAll [root, path])
  case neg =>
    have gone : path ∉ new.files := fun isNew => there (new.holds path isNew)
    simp [changed, there, Leaves, gone]
  have isNew : path ∈ new.files := by
    subst isPath
    rw [isRoot] at below there ⊢
    exact covers.noFolders name isName _ (names_relativePath below) below there
  by_cases unchanged : Run.isUnchanged new.workspace snapshot path
  case neg => simp [changed, there, unchanged, Leaves, isNew, notIgnored]
  -- A file with the content it had was listed, since something was found in it.
  obtain ⟨extraction, isKnown⟩ := Run.known_of_isUnchanged unchanged
  have listed : old.Leaves snapshot.rules path :=
    (lists.present path).mp (.inl (by simp [isKnown]))
  simp [there, unchanged, listed.1, Leaves, isNew, notIgnored]

end Codebase

/-! ## Runs -/

namespace Run

variable {course : Course} {analyzer : Analyzer} {rootPath : String} {options : RunOptions}
  {found : Findings} {codebase : Codebase analyzer (rootOf rootPath)}

/-- A run over a whole code base lists what the rules in force leave. -/
theorem lists_findAll (orderly : course.Orderly (batchOptions analyzer options).limit)
    (isFound : findAll course analyzer codebase.workspace rootPath options = .ok found) :
    found.snapshot.root = rootOf rootPath ∧ found.snapshot.rules = codebase.listing.rules ∧
      found.snapshot.Lists (codebase.Leaves codebase.listing.rules) := by
  obtain ⟨listing, isListing, isFound⟩ := ok_of_bind isFound
  obtain ⟨outcomes, through, isFound⟩ := ok_of_bind isFound
  cases isFound
  obtain rfl : codebase.listing = listing :=
    Except.ok.inj (codebase.scan_eq.symm.trans isListing)
  have lists := (Snapshot.lists_empty (rootOf rootPath) codebase.listing.rules).addAll
    (speaks_extractAlong codebase.declares orderly through)
  simp only [or_false, codebase.mem_listing_iff_leaves] at lists
  exact ⟨(Tree.root_foldl_add _ _).1, (Tree.root_foldl_add _ _).2, lists⟩

/-- A run over changes lists what the rules of the run before leave. -/
theorem lists_findChanges {old : Codebase analyzer (rootOf rootPath)} {named : List String}
    {state : RunState} (covers : old.Covers codebase named)
    (orderly : course.Orderly (batchOptions analyzer options).limit)
    (isRoot : state.snapshot.root = rootOf rootPath)
    (lists : state.snapshot.Lists (old.Leaves state.snapshot.rules))
    (isFound : findChanges course analyzer codebase.workspace named options (some state) =
      .ok found) :
    found.snapshot.root = rootOf rootPath ∧ found.snapshot.rules = state.snapshot.rules ∧
      found.snapshot.Lists (codebase.Leaves state.snapshot.rules) := by
  obtain ⟨outcomes, through, isFound⟩ := ok_of_bind isFound
  cases isFound
  have declares : codebase.workspace.Declares state.snapshot.root := by
    rw [isRoot]
    exact codebase.declares
  have speak := speaks_extractAlong declares orderly through
  rw [findingsAfter, touchedBy, filePaths_extractAlong orderly through]
  have renewed := (lists.removeAll ((plan codebase.workspace state.snapshot named).removed ++
    (plan codebase.workspace state.snapshot named).toExtract)).addAll speak
  simp only [Codebase.leaves_after covers isRoot lists] at renewed
  refine ⟨(Tree.root_foldl_add _ _).1.trans ((Tree.root_foldl_remove _ _).1.trans isRoot),
    (Tree.root_foldl_add _ _).2.trans (Tree.root_foldl_remove _ _).2, renewed⟩

end Run

namespace Session

variable {analyzer : Analyzer} {session : Session}

section Reflects

variable {root : String} {old codebase : Codebase analyzer root} {rules : Ignore.Rules}

/-- An idle session whose last run went by some rules: what it left and what is published show the
files that these rules leave. -/
structure Reflects (session : Session) (codebase : Codebase analyzer root)
    (rules : Ignore.Rules) : Prop where
  /-- Nothing is left to do. -/
  idle : session.Idle
  /-- The last run has listed what the rules leave. -/
  state : ∃ state, session.shared.state = some state ∧ state.snapshot.root = root ∧
    state.snapshot.rules = rules ∧ state.snapshot.Lists (codebase.Leaves rules)
  /-- What is published shows what the rules leave. -/
  shown : ∃ analysis, session.current = some analysis ∧ analysis.Shows (codebase.Leaves rules)

theorem exists_found (idle : session.Idle) {call : Call} (isRun : call.isRun)
    (through : (session.await analyzer call).2.error? = none) :
    ∃ found, call.find? analyzer session.shared.state = some (.ok found) := by
  obtain ⟨found, isFound⟩ := Call.exists_find? isRun analyzer session.shared.state
  cases found with
  | ok found => exact ⟨found, isFound⟩
  | error error =>
    rw [(await_of_find idle isFound).2.2] at through
    cases through

theorem reflects_of_find (idle : session.Idle) {call : Call} {found : Run.Findings}
    (isFound : call.find? analyzer session.shared.state = some (.ok found))
    (isRoot : found.snapshot.root = root) (isRules : found.snapshot.rules = rules)
    (lists : found.snapshot.Lists (codebase.Leaves rules)) :
    (session.await analyzer call).1.Reflects codebase rules := by
  obtain ⟨published, shared, _⟩ := await_of_find idle isFound
  refine ⟨idle_await idle analyzer call, ⟨_, congrArg Memory.state shared, isRoot, isRules, lists⟩,
    ⟨_, congrArg Published.current published, ?_⟩⟩
  exact Analyzer.shows_analysisOf lists _ _ _ _ _ (codebase.not_leaves_empty rules)

theorem Reflects.failed (reflects : session.Reflects codebase rules) {call : Call}
    (failed : (session.await analyzer call).2.error?.isSome) :
    (session.await analyzer call).1.Reflects codebase rules := by
  have unchanged := alike_of_failed reflects.idle failed
  refine ⟨idle_await reflects.idle analyzer call, ?_, ?_⟩
  · rw [unchanged.shared]
    exact reflects.state
  · rw [current, unchanged.published]
    exact reflects.shown

/-- Labels change neither what the last run has listed nor which files are shown. -/
theorem Reflects.labels (reflects : session.Reflects codebase rules) (input : Option Json) :
    (session.await analyzer (.labels input)).1.Reflects codebase rules := by
  refine ⟨idle_await reflects.idle analyzer _, ?_, ?_⟩
  · rw [state_await_labels reflects.idle]
    exact reflects.state
  cases isRead : (LabelRequest.readAll input).result with
  | error issues =>
    obtain ⟨reply, refused⟩ : ∃ reply, (Call.labels input).order analyzer = .error reply := by
      rw [Call.order, isRead]
      exact ⟨_, rfl⟩
    rw [await_of_refused refused]
    exact reflects.shown
  | ok requests =>
    obtain ⟨order, isOrder, isBuild, _⟩ := order_labels analyzer isRead
    obtain ⟨analysis, isCurrent, shows⟩ := reflects.shown
    obtain ⟨next, later, done, nextShows⟩ :=
      shows.labelled analyzer requests (session.published.version + 1) session.shared
    rw [await_of_order isOrder, isBuild, current, Prod.map_fst, id,
      (perform_of_idle reflects.idle _).1, Line.attempt,
      show session.published.current = some analysis from isCurrent, done]
    exact ⟨next, rfl, nextShows⟩

end Reflects

section History

variable {rootPath : String} {old codebase : Codebase analyzer (Run.rootOf rootPath)}
  {rules : Ignore.Rules}

/-- What may have happened in a session up to the last run that went through: the code base that it
looked at, and the rules of the last run over the whole code base. Calls may be cancelled, fail or
give labels at any moment. -/
inductive History (analyzer : Analyzer) (rootPath : String) :
    Session → Codebase analyzer (Run.rootOf rootPath) → Ignore.Rules → Prop
  /-- A run over the whole code base takes the rules that are in force. -/
  | full {session : Session} (codebase : Codebase analyzer (Run.rootOf rootPath))
      {options : RunOptions} {course : Option Course} (idle : session.Idle)
      (orderly : (Call.full codebase.workspace rootPath options course).Orderly analyzer)
      (through : (session.await analyzer
        (.full codebase.workspace rootPath options course)).2.error? = none) :
      History analyzer rootPath
        (session.await analyzer (.full codebase.workspace rootPath options course)).1 codebase
        codebase.listing.rules
  /-- A run over changes names all files that have come or gone since the last run. -/
  | incremental {session : Session} {old : Codebase analyzer (Run.rootOf rootPath)}
      {rules : Ignore.Rules} (history : History analyzer rootPath session old rules)
      (codebase : Codebase analyzer (Run.rootOf rootPath)) {named : List String}
      {options : RunOptions} {course : Option Course} (covers : old.Covers codebase named)
      (orderly : (Call.incremental codebase.workspace named options course).Orderly analyzer)
      (through : (session.await analyzer
        (.incremental codebase.workspace named options course)).2.error? = none) :
      History analyzer rootPath
        (session.await analyzer (.incremental codebase.workspace named options course)).1 codebase
        rules
  /-- Labels are given. -/
  | labels {session : Session} {codebase : Codebase analyzer (Run.rootOf rootPath)}
      {rules : Ignore.Rules} (history : History analyzer rootPath session codebase rules)
      (input : Option Json) :
      History analyzer rootPath (session.await analyzer (.labels input)).1 codebase rules
  /-- A call fails. -/
  | failed {session : Session} {codebase : Codebase analyzer (Run.rootOf rootPath)}
      {rules : Ignore.Rules} (history : History analyzer rootPath session codebase rules)
      {call : Call} (failed : (session.await analyzer call).2.error?.isSome) :
      History analyzer rootPath (session.await analyzer call).1 codebase rules

/-- After any history the last rules that were taken decide which files are shown. -/
theorem History.reflects (history : History analyzer rootPath session codebase rules) :
    session.Reflects codebase rules := by
  induction history with
  | full codebase idle orderly through =>
    obtain ⟨found, isFound⟩ := exists_found idle rfl through
    obtain ⟨isRoot, isRules, lists⟩ :=
      Run.lists_findAll (orderly_getD orderly) (Option.some.inj isFound)
    exact reflects_of_find idle isFound isRoot isRules lists
  | incremental history codebase covers orderly through reflects =>
    obtain ⟨found, isFound⟩ := exists_found reflects.idle rfl through
    -- The rules are those in the state that the last run left, not those of the new listing.
    obtain ⟨state, isState, isRoot, rfl, lists⟩ := reflects.state
    obtain ⟨isNextRoot, isRules, nextLists⟩ := Run.lists_findChanges covers (orderly_getD orderly)
      isRoot lists (isState ▸ Option.some.inj isFound)
    exact reflects_of_find reflects.idle isFound isNextRoot isRules nextLists
  | labels history input reflects => exact reflects.labels input
  | failed history failed reflects => exact reflects.failed failed

/-- After any history the analysis that is published shows the files of the code base that the rules
of the last run over the whole code base leave. These are the files that a scan lists now exactly if
the rules in force now ignore the same files. -/
theorem History.shows_last_rules (history : History analyzer rootPath session codebase rules) :
    ∃ analysis, session.current = some analysis ∧
      (∀ path, path ∈ analysis.shownFiles ↔
        path ∈ codebase.files ∧ rules.ignores path = false) ∧
      ((∀ path, path ∈ analysis.shownFiles ↔ path ∈ codebase.listing.files) ↔
        ∀ path ∈ codebase.files,
          rules.ignores path = codebase.listing.rules.ignores path) := by
  obtain ⟨analysis, isCurrent, shows⟩ := history.reflects.shown
  refine ⟨analysis, isCurrent, shows.shown, ?_⟩
  simp only [shows.shown, codebase.mem_listing, Codebase.Leaves, and_congr_right_iff]
  refine forall₂_congr fun path isFile => ?_
  cases rules.ignores path <;> cases codebase.listing.rules.ignores path <;> simp

/-- A run over a whole code base that nothing disturbs goes through. -/
theorem History.runFull (unhurried : analyzer.configuration.timeBudget = none)
    (idle : session.Idle) (codebase : Codebase analyzer (Run.rootOf rootPath)) :
    History analyzer rootPath (session.await analyzer (.full codebase.workspace rootPath {} none)).1
      codebase codebase.listing.rules := by
  refine .full codebase idle (fun _ given => by cases given) ?_
  rw [(await_of_find idle (find?_full unhurried codebase.scan_eq _)).2.2]
  rfl

theorem History.runIncremental (unhurried : analyzer.configuration.timeBudget = none)
    (history : History analyzer rootPath session old rules) {named : List String}
    (covers : old.Covers codebase named) :
    History analyzer rootPath
      (session.await analyzer (.incremental codebase.workspace named {} none)).1 codebase
      rules := by
  refine history.incremental codebase covers (fun _ given => by cases given) ?_
  obtain ⟨state, isState, _⟩ := history.reflects.state
  have isFound := find?_incremental unhurried codebase.workspace named state
  rw [← isState] at isFound
  rw [(await_of_find history.reflects.idle isFound).2.2]
  rfl

end History

/-! ## A new rule -/

/-- An analyzer that respects the ignore file. -/
def respectful : Analyzer :=
  { Move.plainAnalyzer with
    configuration := { Move.plainAnalyzer.configuration with respectGitignore := true } }

/-- A file in memory that declares itself. -/
def plainFile (content : String) : MemoryFile where
  content := .ok content
  extract source filePath language := .ok ⟨filePath, language, Extract.contentHash source,
    [Element.sketch filePath filePath []], []⟩

/-- A code base of files that declare themselves. -/
def plainCodebase (files : List (String × String))
    (inPlace : ∀ path ∈ files.map Prod.fst,
      Workspace.pathBelow? (Run.rootOf "/repo") ("/repo/" ++ path) = some path ∧
        Run.isBelowRoot path ∧ Path.joinAll [Run.rootOf "/repo", path] = "/repo/" ++ path) :
    Codebase respectful (Run.rootOf "/repo") :=
  .ofFiles respectful _ ⟨files.map fun entry => ("/repo/" ++ entry.1, plainFile entry.2)⟩
    (by
      rintro path file found source filePath language extraction isExtraction
      obtain ⟨entry, _, same⟩ := List.mem_map.mp (Table.mem_entries_of_get? found)
      rw [← (Prod.mk.inj same).2] at isExtraction
      cases isExtraction
      exact ⟨List.cons_ne_nil _ _, fun element member => List.mem_singleton.mp member ▸ rfl⟩)
    (by
      intro whole isKey path isPath
      obtain ⟨entry, isEntry, rfl⟩ : ∃ entry ∈ files, "/repo/" ++ entry.1 = whole := by
        simpa [Table.keys] using isKey
      obtain ⟨isBelow, rest⟩ := inPlace entry.1 (List.mem_map_of_mem isEntry)
      rw [isBelow] at isPath
      rwa [← Option.some.inj isPath])

/-- A file without an ignore file beside it. -/
def unruled : Codebase respectful (Run.rootOf "/repo") :=
  plainCodebase [("a.ts", "")] (by decide)

/-- The same file after an ignore file that has a rule about it was added. -/
def ruled : Codebase respectful (Run.rootOf "/repo") :=
  plainCodebase [("a.ts", ""), (".gitignore", "/a.ts")] (by decide)

theorem covers_ruled : unruled.Covers ruled [".gitignore"] where
  differing path differs := by
    have old : unruled.files = ["a.ts"] := by decide
    have new : ruled.files = ["a.ts", ".gitignore"] := by decide
    obtain rfl : path = ".gitignore" := by
      rw [old, new] at differs
      by_contra other
      simp [other] at differs
    have isNormal : Path.normalize ".gitignore" = ".gitignore" := by decide
    exact ⟨".gitignore", List.mem_singleton_self _, isNormal⟩
  noFolders name isName path names _ _ := by
    obtain rfl := List.mem_singleton.mp isName
    have isPath : Path.normalize ".gitignore" = path := names
    rw [← isPath]
    decide

/-- A rule about a file is added to the ignore file, which is named as changed. The file is still
shown, although a scan does not list it any more. -/
theorem History.shows_last_rules_new_rule :
    let first := (start.await respectful (.full unruled.workspace "/repo" {} none)).1
    let second := first.await respectful (.incremental ruled.workspace [".gitignore"] {} none)
    History respectful "/repo" second.1 ruled unruled.listing.rules ∧
    ∃ analysis, second.1.current = some analysis ∧ "a.ts" ∈ analysis.shownFiles ∧
      "a.ts" ∉ ruled.listing.files := by
  intro first second
  have history : History respectful "/repo" second.1 ruled unruled.listing.rules :=
    (History.runFull rfl idle_start unruled).runIncremental rfl covers_ruled
  obtain ⟨analysis, isCurrent, shown, _⟩ := history.shows_last_rules
  have isIgnored : ruled.listing.rules.ignores "a.ts" = true := by decide +kernel
  refine ⟨history, analysis, isCurrent, (shown "a.ts").mpr ⟨by decide, rfl⟩, ?_⟩
  rw [ruled.mem_listing, isIgnored]
  simp

end Session
end CodeAtlas
