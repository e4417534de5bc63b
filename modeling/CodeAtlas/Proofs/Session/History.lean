import CodeAtlas.Proofs.Session.Incremental

/-!
# Histories of runs

After a run over a whole tree and any history of labels and of runs over changes that each cover
what differs, a run over changes gives what a run over the whole tree gives. A function that moves
from file to file shows this, and it shows why ids must not hold line breaks.
-/

namespace CodeAtlas

open CodeAtlas.Tree DependencyGraph Boundary Resolution

variable {project : Project}

namespace Session

/-- What happens to a session between runs over the whole tree. -/
inductive Step (project : Project) where
  /-- Labels are given. -/
  | labels (input : Option Json)
  /-- The files have become those of a tree, and a run looks at those that are named. -/
  | change (tree : Tree project) (named : List String)

/-- The session after a step. -/
def step (session : Session) : Step project → Session
  | .labels input => (session.applyLabels project.analyzer input).1
  | .change tree named => (session.runIncremental project.analyzer tree.workspace named {}).1

/-- The tree that was analysed last. -/
def lastTree (tree : Tree project) : List (Step project) → Tree project
  | [] => tree
  | .labels _ :: steps => lastTree tree steps
  | .change next _ :: steps => lastTree next steps

/-- Each run over changes covers what differs from the tree that was analysed before. -/
def Chained (tree : Tree project) : List (Step project) → Prop
  | [] => True
  | .labels _ :: steps => Chained tree steps
  | .change next named :: steps => tree.Leads next named ∧ Chained next steps

/-- A session knows the tree that was analysed last. -/
theorem Knows.steps {session : Session} {tree : Tree project} (knows : session.Knows tree)
    (clear : tree.Clear) {steps : List (Step project)} (chained : Chained tree steps) :
    (steps.foldl step session).Knows (lastTree tree steps) ∧ (lastTree tree steps).Clear := by
  induction steps generalizing session tree with
  | nil => exact ⟨knows, clear⟩
  | cons next steps induction =>
    cases next with
    | labels input => exact induction (knows.applyLabels project.analyzer input) clear chained
    | change next named =>
      exact induction (knows.runIncremental clear chained.1) chained.1.clear chained.2

/-- Builds that yield the same tree give analyses that agree. -/
theorem agree_of_yieldsTree {session : Session} (idle : session.Idle) {left right : AnalysisBuild}
    {tree : Tree project} (leftYields : YieldsTree left session.shared tree)
    (rightYields : YieldsTree right session.shared tree) :
    ∃ first second, (session.perform left).2 = .ok first ∧
      (session.perform right).2 = .ok second ∧ first.Agree second := by
  obtain ⟨state, mode, done, mirrors, sound⟩ :=
    leftYields (session.published.version + 1) session.published.current
  obtain ⟨other, otherMode, otherDone, otherMirrors, otherSound⟩ :=
    rightYields (session.published.version + 1) session.published.current
  have first := (perform_of_idle idle left).2.2
  have second := (perform_of_idle idle right).2.2
  rw [Line.attempt, done] at first
  rw [Line.attempt, otherDone] at second
  refine ⟨_, _, first, second, ?_⟩
  exact sound.agree otherSound mirrors.shows otherMirrors.shows
    (mirrors.root_eq.trans otherMirrors.root_eq.symm) _ _ _ _ _ _ _

/-- After a run over a whole tree and any history of labels and runs over changes, a run over
changes and a run over the whole tree give analyses that agree. -/
theorem runIncremental_agree_runFull (session : Session) {first last : Tree project}
    {steps : List (Step project)} {named : List String} (clear : first.Clear)
    (chained : Chained first steps) (leads : (lastTree first steps).Leads last named) :
    let start := (session.runFull project.analyzer first.workspace project.rootPath {}).1
    let now := steps.foldl step start
    ∃ incremental full,
      (now.runIncremental project.analyzer last.workspace named {}).2 = .ok incremental ∧
      (now.runFull project.analyzer last.workspace project.rootPath {}).2 = .ok full ∧
      incremental.Agree full := by
  intro start now
  obtain ⟨knows, lastClear⟩ := (session.knows_runFull first).steps clear chained
  obtain ⟨state, isState, mirrors, sound⟩ := knows.state
  exact agree_of_yieldsTree knows.idle (yieldsTree_changeRun isState mirrors sound lastClear leads)
    (yieldsTree_fullRun last now.shared)

end Session

/-! ## A function that moves -/

namespace Session.Move

/-- An analyzer without rules. -/
def plainAnalyzer : Analyzer where
  configuration :=
    { languages := [("typescript", [".ts"])]
      ignorePatterns := []
      respectGitignore := false
      concurrency := 4
      timeBudget := none
      resolution := Strengths.standard
      graph := GraphOptions.standard
      boundaries := ⟨1, 40, 20, false, []⟩
      layerRules := []
      findings := ⟨20, 0.8⟩
      metrics := ⟨MetricThresholds.standard, 10⟩ }
  registry := ⟨[(".ts", "typescript")]⟩
  detector := Boundary.plainDetector
  layerTests := []
  clock reading := ⟨reading⟩

/-- The function that calls `save`. -/
def caller : Element := Element.sketch "main" "a.ts" [⟨.calls, "save", 1⟩]

/-- A stub of `save` with an id of its own, which a file declares. -/
def callee (filePath id : String) : Element :=
  { Boundary.stub id with
    name := "save"
    qualifiedName := "save"
    filePath := filePath }

/-- What each file declares: `save` is declared twice in one file and once in another. -/
def declared (moved : String) : String → List Element
  | "a.ts" => [caller]
  | "b.ts" => [callee "b.ts" "s1", callee "b.ts" "s2"]
  | "c.ts" => [callee "c.ts" moved]
  | _ => []

theorem filePath_declared {moved filePath : String} {element : Element}
    (member : element ∈ declared moved filePath) : element.filePath = filePath := by
  unfold declared at member
  split at member <;> simp at member
  · rw [member]
    rfl
  · rcases member with rfl | rfl <;> rfl
  · rw [member]
    rfl

/-- A project of files that declare functions with or without a caller. -/
def movingProject (moved : String) : Project where
  analyzer := plainAnalyzer
  rootPath := "/repo"
  rules := ⟨[]⟩
  extract source filePath language :=
    .ok ⟨filePath, language, Extract.contentHash source, declared moved filePath, []⟩
  unhurried := rfl
  hash_extract := by
    rintro source filePath language _ ⟨⟩
    rfl
  filePath_extract := by
    rintro source filePath language _ ⟨⟩ element member
    exact filePath_declared member

theorem root_movingProject (moved : String) : (movingProject moved).root = "/repo" := by
  have root : Run.rootOf "/repo" = "/repo" := by decide
  exact root

/-- The files of the caller and of another file. -/
def pairOf (moved other : String) : Table String MemoryFile :=
  ⟨["a.ts", other].map fun path =>
    ("/repo/" ++ path, ⟨.ok "", (movingProject moved).extract⟩)⟩

/-- The file of the caller and another file are below the root. -/
def InPlace (other : String) : Prop :=
  ∀ path ∈ ["a.ts", other], Workspace.pathBelow? "/repo" ("/repo/" ++ path) = some path ∧
    Run.isBelowRoot path ∧ Path.joinAll ["/repo", path] = "/repo/" ++ path

instance (other : String) : Decidable (InPlace other) :=
  inferInstanceAs (Decidable (∀ path ∈ ["a.ts", other],
    Workspace.pathBelow? "/repo" ("/repo/" ++ path) = some path ∧
      Run.isBelowRoot path ∧ Path.joinAll ["/repo", path] = "/repo/" ++ path))

/-- The tree of the caller and another file. -/
def pairTree (moved other : String) (inPlace : InPlace other) : Tree (movingProject moved) :=
  .ofFiles _ (pairOf moved other) (fun _ => rfl)
    (by
      intro path file found
      obtain ⟨_, _, same⟩ := List.mem_map.mp (Table.mem_entries_of_get? found)
      rw [← (Prod.mk.inj same).2])
    (by
      intro whole isKey path isPath
      rw [root_movingProject] at isPath ⊢
      obtain ⟨short, isShort, rfl⟩ : ∃ short ∈ ["a.ts", other], whole = "/repo/" ++ short := by
        simpa [pairOf, Table.keys] using isKey
      obtain ⟨isBelow, rest⟩ := inPlace short isShort
      rw [isBelow] at isPath
      rwa [← Option.some.inj isPath])

/-- The tree in which `save` is declared in `b.ts`. -/
def before (moved : String) : Tree (movingProject moved) :=
  pairTree moved "b.ts" (by decide)

/-- The tree in which `save` is declared in `c.ts`. -/
def later (moved : String) : Tree (movingProject moved) :=
  pairTree moved "c.ts" (by decide)

section Pair

variable {moved other path : String} {inPlace : InPlace other}

theorem get?_pairOf (isFile : path ∈ ["a.ts", other]) :
    (pairOf moved other).get? ("/repo/" ++ path) =
      some ⟨.ok "", (movingProject moved).extract⟩ := by
  have isKey : "/repo/" ++ path ∈ (pairOf moved other).keys :=
    List.mem_map.mpr ⟨_, List.mem_map_of_mem isFile, rfl⟩
  obtain ⟨file, found⟩ := Option.ne_none_iff_exists'.mp fun absent =>
    Table.get?_eq_none_iff.mp absent isKey
  obtain ⟨_, _, same⟩ := List.mem_map.mp (Table.mem_entries_of_get? found)
  rw [found, ← (Prod.mk.inj same).2]

theorem joinAll_pairTree (isFile : path ∈ ["a.ts", other]) (inPlace : InPlace other) :
    Path.joinAll [(movingProject moved).root, path] = "/repo/" ++ path := by
  rw [root_movingProject]
  exact (inPlace path isFile).2.2

theorem content_pairTree (isFile : path ∈ ["a.ts", other]) :
    (pairTree moved other inPlace).reader.content path = .ok "" := by
  change (Workspace.ofFiles (pairOf moved other)).read
    (Path.joinAll [(movingProject moved).root, path]) = .ok ""
  simp only [Workspace.ofFiles, joinAll_pairTree isFile inPlace, get?_pairOf isFile,
    Option.map_some]

theorem outcome_pairTree (isFile : path ∈ ["a.ts", other])
    (isTyped : plainAnalyzer.registry.detect path = some "typescript") :
    ((pairTree moved other inPlace).reader.outcome path).extraction =
      some ⟨path, "typescript", Extract.contentHash "", declared moved path, []⟩ := by
  have language : (pairTree moved other inPlace).reader.language? path = some "typescript" := by
    change (plainAnalyzer.registry.detect path).filter (· != "") = some "typescript"
    rw [isTyped]
    rfl
  have extract : (pairTree moved other inPlace).reader.workspace.extract
      (pairTree moved other inPlace).reader.root "" path "typescript" =
        .ok ⟨path, "typescript", Extract.contentHash "", declared moved path, []⟩ := by
    change (Workspace.ofFiles (pairOf moved other)).extract (movingProject moved).root "" path
      "typescript" = _
    simp only [Workspace.ofFiles, joinAll_pairTree isFile inPlace, get?_pairOf isFile]
    rfl
  simp only [FileReader.outcome, language, content_pairTree isFile, extract]
  rfl

variable {one : String} {inOne : InPlace one}
  (files : (pairTree moved one inOne).files = ["a.ts", one])
  (otherFiles : (pairTree moved other inPlace).files = ["a.ts", other])

include files otherFiles

theorem hashesTellApart_pairTree :
    (pairTree moved one inOne).HashesTellApart (pairTree moved other inPlace) := by
  intro path isFile isOther before after isBefore isAfter _
  rw [content_pairTree (files ▸ isFile)] at isBefore
  rw [content_pairTree (otherFiles ▸ isOther)] at isAfter
  exact Except.ok.inj (isBefore.symm.trans isAfter)

theorem covers_pairTree {named : List String}
    (differing : ∀ path ∈ [one, other], ∃ name ∈ named, Run.relativePath "/repo" name = path)
    (noFolders : ∀ name ∈ named,
      Path.joinAll ["/repo", Run.relativePath "/repo" name] ∈ ["/repo/a.ts", "/repo/" ++ other] →
        Run.relativePath "/repo" name ∈ ["a.ts", other]) :
    (pairTree moved one inOne).Covers (pairTree moved other inPlace) named where
  differing path differs := by
    have below : Run.isBelowRoot path := differs.1.elim (Tree.below _ path) (Tree.below _ path)
    have isFile : path ∈ [one, other] := by
      by_contra absent
      refine differs.2 ?_
      have isCaller : path = "a.ts" := by
        have listed := differs.1
        rw [files, otherFiles] at listed
        simp only [List.mem_cons, List.not_mem_nil, or_false, not_or] at listed absent
        tauto
      rw [files, otherFiles, isCaller, content_pairTree (by simp), content_pairTree (by simp)]
      simp
    obtain ⟨name, isName, rfl⟩ := differing path isFile
    rw [root_movingProject]
    exact ⟨name, isName, names_relativePath below⟩
  noFolders name isName path names _ _ there := by
    rw [root_movingProject] at names there
    rw [otherFiles, ← names.relativePath_eq]
    refine noFolders name isName ?_
    rw [names.relativePath_eq]
    have isKey := Table.has_iff_mem_keys.mp there
    simpa [pairOf, Table.keys] using isKey

end Pair

theorem files_before (moved : String) : (before moved).files = ["a.ts", "b.ts"] := by
  have listed : Workspace.listBelow ⟨[]⟩ (Run.rootOf "/repo") ["/repo/a.ts", "/repo/b.ts"] =
      ["a.ts", "b.ts"] := by
    rw [Workspace.listBelow, Text.sort_eq_insertionSort]
    decide
  exact listed

theorem files_later (moved : String) : (later moved).files = ["a.ts", "c.ts"] := by
  have listed : Workspace.listBelow ⟨[]⟩ (Run.rootOf "/repo") ["/repo/a.ts", "/repo/c.ts"] =
      ["a.ts", "c.ts"] := by
    rw [Workspace.listBelow, Text.sort_eq_insertionSort]
    decide
  exact listed

theorem elements_of_files {project : Project} {tree : Tree project} {first second : String}
    {one two : FileExtraction} (files : tree.files = [first, second])
    (isOne : (tree.reader.outcome first).extraction = some one)
    (isTwo : (tree.reader.outcome second).extraction = some two)
    (ordered : Text.notAfter first second) (different : first ≠ second) :
    tree.elements = one.elements ++ two.elements := by
  have entries : tree.snapshot.extractions.entries = [(first, one), (second, two)] := by
    simp [Tree.snapshot, files, Snapshot.ofOutcomes, Snapshot.add, isOne, isTwo, Table.put,
      Table.has, Table.empty, different]
  rw [Tree.elements, Snapshot.elements, Snapshot.byPath, entries,
    Text.sortBy_of_sorted (by simpa using ordered)]
  simp

theorem elements_before (moved : String) :
    (before moved).elements = [caller, callee "b.ts" "s1", callee "b.ts" "s2"] :=
  elements_of_files (files_before moved) (outcome_pairTree (by simp) (by decide))
    (outcome_pairTree (by simp) (by decide)) (by decide) (by decide)

theorem elements_later (moved : String) :
    (later moved).elements = [caller, callee "c.ts" moved] :=
  elements_of_files (files_later moved) (outcome_pairTree (by simp) (by decide))
    (outcome_pairTree (by simp) (by decide)) (by decide) (by decide)

/-- The call of one of some candidates that were found by their qualified name. -/
def callOf (count : Nat) (targetId : String) : Relationship Float where
  sourceId := "main"
  targetId := targetId
  kind := .reference .calls
  strength := Scalar.div Strengths.standard.exact (Scalar.ofNat count)
  bidirectional := false
  evidence := ⟨.exact, decide (1 < count), count, some "save", some 1, 1⟩

theorem resolveElement_caller {symbols : Symbols} {callees : List Element}
    (found : exactMatches symbols ⟨.calls, "save", 1⟩ = callees) (present : callees ≠ [])
    {calls : List (Relationship Float)}
    (mentioned : ((share .exact Strengths.standard.exact callees).foldl
      (fun table candidate => mention caller table (⟨.calls, "save", 1⟩, candidate))
        Table.empty).values = calls)
    (sorted : calls.Pairwise fun left right => Text.notAfter left.id right.id) :
    resolveElement Strengths.standard symbols caller = calls := by
  have candidates : Resolution.candidates Strengths.standard symbols caller
      ⟨.calls, "save", 1⟩ = share .exact Strengths.standard.exact callees := by
    unfold Resolution.candidates
    simp [found, present]
  have all : mentions Strengths.standard symbols caller =
      (share .exact Strengths.standard.exact callees).map (⟨.calls, "save", 1⟩, ·) := by
    change [_].flatMap _ = _
    rw [List.flatMap_singleton, candidates]
  rw [resolveElement, all, List.foldl_map, mentioned]
  exact Text.sortBy_of_sorted sorted

/-- Relationships that are neither containments nor associations stay as they are. -/
theorem relationships_assemble {elements : List Element}
    {bySource : Table String (List (Relationship Float))}
    {relationships : List (Relationship Float)}
    (values : bySource.values.flatten = relationships)
    (loose : ∀ element ∈ elements, element.parentId = none)
    (kinds : ∀ relationship ∈ relationships, relationship.kind ≠ .reference .associates)
    (distinct : (relationships.map Relationship.id).Nodup)
    (sorted : relationships.Pairwise fun left right => Text.notAfter left.id right.id) :
    (assemble elements bySource).relationships = relationships := by
  have contained : containments elements = ([] : List (Relationship Float)) :=
    List.filterMap_eq_nil_iff.mpr fun element member => by rw [loose element member]; rfl
  have all : (byId relationships).values = relationships := by
    have distinctKeys : ((relationships.map fun relationship =>
        (relationship.id, relationship)).map Prod.fst).Nodup := by
      rw [List.map_map]
      exact distinct
    rw [byId, Table.values, Table.ofList_entries_of_nodup distinctKeys, List.map_map]
    exact List.map_id relationships
  have kept (table : Table String (Relationship Float)) :
      relationships.filterMap (fold? table) = relationships := by
    refine (List.filterMap_congr fun relationship member => ?_).trans List.filterMap_some
    exact if_pos (.inl (kinds relationship member))
  simp only [assemble, values, contained, List.append_nil, all, kept]
  exact Text.sortBy_of_sorted sorted

/-- The version of the caller and of callees that refer to nothing. -/
theorem version_of_calls {callees : List Element} {calls : List (Relationship Float)}
    (distinct : DistinctIds (caller :: callees))
    (silent : ∀ element ∈ callees, element.references = [] ∧ element.parentId = none)
    (resolved : resolveElement Strengths.standard (.ofElements (caller :: callees)) caller = calls)
    (kinds : ∀ call ∈ calls, call.kind ≠ .reference .associates)
    (inside : ∀ call ∈ calls, Text.startsWith call.targetId externalBeginning = false)
    (distinctCalls : (calls.map Relationship.id).Nodup)
    (sorted : calls.Pairwise fun left right => Text.notAfter left.id right.id) :
    plainAnalyzer.version (caller :: callees) =
      ⟨GraphOptions.standard, caller :: callees, calls, []⟩ := by
  have none (element : Element) (member : element ∈ callees) :
      resolveElement Strengths.standard (.ofElements (caller :: callees)) element = [] := by
    simp only [resolveElement, mentions, (silent element member).1]
    exact Text.sortBy_of_sorted .nil
  have relationships :
      (resolve Strengths.standard (caller :: callees)).relationships = calls := by
    refine relationships_assemble ?_ ?_ kinds distinctCalls sorted
    · unfold DistinctIds at distinct
      rw [Table.values, Table.ofList_entries_of_nodup (by simpa [Function.comp_def] using distinct)]
      simpa [resolved] using none
    · rintro element (_ | ⟨_, member⟩)
      · rfl
      · exact (silent element member).2
  have externals : (resolve Strengths.standard (caller :: callees)).externals = [] := by
    change stubs (resolve Strengths.standard (caller :: callees)).relationships = []
    have outside : calls.filter (fun call =>
        Text.startsWith call.targetId externalBeginning) = [] := by
      simpa using inside
    rw [relationships, stubs, outside]
    exact Text.sortBy_of_sorted .nil
  change (⟨GraphOptions.standard,
    caller :: callees ++ (resolve Strengths.standard (caller :: callees)).externals,
    (resolve Strengths.standard (caller :: callees)).relationships, []⟩ : Version Float) = _
  rw [externals, relationships, List.append_nil]

theorem version_before (moved : String) : plainAnalyzer.version (before moved).elements =
    ⟨GraphOptions.standard, [caller, callee "b.ts" "s1", callee "b.ts" "s2"],
      [callOf 2 "s1", callOf 2 "s2"], []⟩ := by
  have found : exactMatches (.ofElements [caller, callee "b.ts" "s1", callee "b.ts" "s2"])
      ⟨.calls, "save", 1⟩ = [callee "b.ts" "s1", callee "b.ts" "s2"] := by
    rw [exactMatches_eq, suitable]
    exact Text.sortBy_of_sorted (by decide)
  rw [elements_before]
  exact version_of_calls (by decide) (by simp [callee, Boundary.stub, Element.sketch])
    (resolveElement_caller found (by simp) rfl (by decide)) (by decide)
    (by decide) (by decide) (by decide)

theorem graph_before (moved : String) : (plainAnalyzer.version (before moved).elements).graph =
    ofSorted GraphOptions.standard [caller, callee "b.ts" "s1", callee "b.ts" "s2"]
      [callOf 2 "s1", callOf 2 "s2"] := by
  have ordered : [caller, callee "b.ts" "s1", callee "b.ts" "s2"].Pairwise
      fun left right => Text.notAfter left.id right.id := by decide
  rw [version_before]
  exact fresh_of_sorted _ ordered _

theorem cluster_caller {elements : List Element} {relationships : List (Relationship Float)}
    (alone : Boundary.candidates elements = [caller])
    (untied : structural [caller] relationships = []) :
    cluster plainAnalyzer.detector.limits (Boundary.candidates elements)
      (structural (Boundary.candidates elements) relationships) = ([["main"]], []) := by
  have single : cluster Boundary.plainDetector.limits [caller] ([] : List (Relationship Float)) =
      ([["main"]], []) := by cbv
  rw [alone, untied]
  exact single

theorem cluster_before (moved : String) :
    cluster plainAnalyzer.detector.limits
        (Boundary.candidates (plainAnalyzer.version (before moved).elements).elements)
        (structural (Boundary.candidates (plainAnalyzer.version (before moved).elements).elements)
          (plainAnalyzer.version (before moved).elements).relationships) = ([["main"]], []) := by
  rw [version_before]
  exact cluster_caller rfl rfl

theorem undivided_before (moved : String) : UndividedModules (before moved).elements := by
  rw [elements_before]
  decide

theorem undivided_later (moved : String) : UndividedModules (later moved).elements := by
  have home : '\x00' ∉ caller.moduleName.toList := by decide
  have away : '\x00' ∉ "external".toList := by decide
  rw [elements_later]
  exact List.forall_mem_cons.mpr ⟨home, List.forall_mem_singleton.mpr away⟩

theorem clear_before (moved : String) : (before moved).Clear where
  distinct := by
    change DistinctIds (plainAnalyzer.version _).elements
    rw [version_before]
    decide
  undivided := undivided_before moved
  legible := by
    change (plainAnalyzer.version _).graph.Legible
    rw [graph_before]
    decide

section Later

variable {moved : String} (different : moved ≠ "main")
  (inside : Text.startsWith moved externalBeginning = false)

include different inside

theorem version_later : plainAnalyzer.version (later moved).elements =
    ⟨GraphOptions.standard, [caller, callee "c.ts" moved], [callOf 1 moved], []⟩ := by
  have found : exactMatches (.ofElements [caller, callee "c.ts" moved]) ⟨.calls, "save", 1⟩ =
      [callee "c.ts" moved] := by
    rw [exactMatches_eq, suitable]
    exact Text.sortBy_of_sorted (List.pairwise_singleton _ _)
  have distinct : DistinctIds [caller, callee "c.ts" moved] := by
    simpa [DistinctIds, caller, callee, Boundary.stub, Element.sketch] using different.symm
  rw [elements_later]
  exact version_of_calls distinct (by simp [callee, Boundary.stub, Element.sketch])
    (resolveElement_caller found (by simp) rfl (List.pairwise_singleton _ _)) (by simp [callOf])
    (by simpa [callOf] using inside) (List.nodup_singleton _) (List.pairwise_singleton _ _)

theorem graph_later (after : Text.notAfter "main" moved) :
    (plainAnalyzer.version (later moved).elements).graph =
      ofSorted GraphOptions.standard [caller, callee "c.ts" moved] [callOf 1 moved] := by
  have ordered : [caller, callee "c.ts" moved].Pairwise
      fun left right => Text.notAfter left.id right.id := List.pairwise_pair.mpr after
  rw [version_later different inside]
  exact fresh_of_sorted _ ordered _

theorem cluster_later :
    cluster plainAnalyzer.detector.limits
        (Boundary.candidates (plainAnalyzer.version (later moved).elements).elements)
        (structural (Boundary.candidates (plainAnalyzer.version (later moved).elements).elements)
          (plainAnalyzer.version (later moved).elements).relationships) = ([["main"]], []) := by
  rw [version_later different inside]
  exact cluster_caller rfl rfl

/-- Digests and the ids of boundaries are the same in both trees, and so is what they stand for. -/
theorem toldApart_move (sameEnds : SameEnds (plainAnalyzer.version (before moved).elements).graph
      (plainAnalyzer.version (later moved).elements).graph) :
    plainAnalyzer.ToldApart (before moved).elements (later moved).elements where
  sameEnds := sameEnds
  keys := by
    rw [version_before, version_later different inside]
    exact fun _ => rfl
  ids := by
    have old : (plainAnalyzer.boundariesOf (before moved).elements).clusters = [["main"]] :=
      congrArg Prod.fst (cluster_before moved)
    have new : (plainAnalyzer.boundariesOf (later moved).elements).clusters = [["main"]] :=
      congrArg Prod.fst (cluster_later different inside)
    rw [old, new]
    simp [IdsTellApart]

end Later

/-- A label is given while `save` moves to another file and back. -/
theorem runIncremental_agree_runFull_moved_callee :
    let project := movingProject "s3"
    let home := before "s3"
    let away := later "s3"
    let label := Json.obj [("elementId", .str "main"), ("label", .str "entry"),
      ("confidence", .num 1)]
    let steps : List (Step project) :=
      [.labels (some (.arr [label])), .change away ["b.ts", "/repo/c.ts"]]
    let named := ["./c.ts", "b.ts", "b.ts", "../x.ts", "/elsewhere/y.ts", "a.ts"]
    let session := (start.runFull project.analyzer home.workspace project.rootPath {}).1
    let now := steps.foldl step session
    home.Clear ∧ Chained home steps ∧ (lastTree home steps).Leads home named ∧
      ∃ incremental full,
        (now.runIncremental project.analyzer home.workspace named {}).2 = .ok incremental ∧
        (now.runFull project.analyzer home.workspace project.rootPath {}).2 = .ok full ∧
        incremental.Agree full := by
  intro project home away label steps named session now
  have different : "s3" ≠ "main" := by decide
  have inside : Text.startsWith "s3" externalBeginning = false := by decide
  have graph := graph_later different inside (by decide)
  have awayClear : away.Clear := by
    refine ⟨?_, undivided_later "s3", ?_⟩
    · change DistinctIds (plainAnalyzer.version _).elements
      rw [version_later different inside]
      decide
    · change (plainAnalyzer.version _).graph.Legible
      rw [graph]
      decide
  have apart : plainAnalyzer.ToldApart home.elements away.elements := by
    refine toldApart_move different inside ?_
    rw [graph_before, graph]
    decide
  have forth : home.Leads away ["b.ts", "/repo/c.ts"] :=
    ⟨covers_pairTree (files_before _) (files_later _) (by decide) (by decide),
      hashesTellApart_pairTree (files_before _) (files_later _), awayClear, apart⟩
  have back : away.Leads home named :=
    ⟨covers_pairTree (files_later _) (files_before _) (by decide) (by decide),
      hashesTellApart_pairTree (files_later _) (files_before _), clear_before _, apart.symm⟩
  have chained : Chained home steps := ⟨forth, trivial⟩
  exact ⟨clear_before _, chained, back,
    runIncremental_agree_runFull start (clear_before _) chained back⟩

/-- An id that makes one call look like the calls of `s1` and `s2`. -/
def brokenId : String := "s1\nrel:main|calls|s2"

theorem graph_brokenId : (plainAnalyzer.version (later brokenId).elements).graph =
    ofSorted GraphOptions.standard [caller, callee "c.ts" brokenId] [callOf 1 brokenId] :=
  graph_later (by decide) (by decide) (by decide)

theorem bare_of_before {state : RunState} (sound : plainAnalyzer.Sound state)
    (isBefore : state.snapshot.elements = (before brokenId).elements) :
    state.graph.bare = ofSorted GraphOptions.standard
      [caller, callee "b.ts" "s1", callee "b.ts" "s2"] [callOf 2 "s1", callOf 2 "s2"] := by
  rw [sound.graph.bare_eq, isBefore, graph_before]

/-- The caller seems untouched by the change. -/
theorem isUntouched_caller {state : RunState} (sound : plainAnalyzer.Sound state)
    (isBefore : state.snapshot.elements = (before brokenId).elements) {changedIds : List String}
    (unmarked : "main" ∉ changedIds) (detection : Detection Float) :
    isUntouched
      (after state.graph changedIds (plainAnalyzer.version (later brokenId).elements).graph)
      ⟨detection, state.graph, changedIds⟩ ["main"] := by
  have bare := bare_of_before sound isBefore
  have changes : "main" ∉ changesFrom state.graph
      (plainAnalyzer.version (later brokenId).elements).graph := by
    change "main" ∉ changesFrom state.graph.bare _
    rw [bare, graph_brokenId]
    unfold changesFrom isChangedFrom
    simp only [signature_eq_insertionSort]
    decide
  have cycles : (plainAnalyzer.version (later brokenId).elements).graph.isInCycle "main" =
      state.graph.isInCycle "main" := by
    change _ = state.graph.bare.isInCycle "main"
    rw [bare, graph_brokenId]
    decide
  change (["main"].all fun id => !(distinct (changesFrom state.graph
      (plainAnalyzer.version (later brokenId).elements).graph ++ changedIds)).contains id &&
        !changedIds.contains id &&
        (plainAnalyzer.version (later brokenId).elements).graph.isInCycle id ==
          state.graph.isInCycle id) = true
  simp [changes, unmarked, cycles]

theorem covers_brokenId : (before brokenId).Covers (later brokenId) ["b.ts", "c.ts"] :=
  covers_pairTree (files_before _) (files_later _) (by decide) (by decide)

theorem hashes_brokenId : (before brokenId).HashesTellApart (later brokenId) :=
  hashesTellApart_pairTree (files_before _) (files_later _)

theorem distinctIds_brokenId :
    DistinctIds (plainAnalyzer.version (later brokenId).elements).elements := by
  rw [version_later (by decide) (by decide)]
  decide

theorem caller_unmarked {snapshot : Snapshot} (mirrors : Mirrors snapshot (before brokenId)) :
    "main" ∉ (later brokenId).changedIds snapshot ["b.ts", "c.ts"] := by
  intro marked
  obtain ⟨element, isElement, isMain, name, isName, isFile⟩ :=
    named_of_mem_changedIds mirrors covers_brokenId marked
  rw [root_movingProject] at isFile
  rw [elements_before, elements_later] at isElement
  have elsewhere : ∀ name ∈ ["b.ts", "c.ts"], Run.relativePath "/repo" name ≠ "a.ts" := by
    decide
  have isCaller : element = caller := by
    simp only [List.mem_cons, List.not_mem_nil, or_false] at isElement
    rcases isElement with (isCaller | rfl | rfl) | (isCaller | rfl)
    · exact isCaller
    · exact absurd isMain (by decide)
    · exact absurd isMain (by decide)
    · exact isCaller
    · exact absurd isMain (by decide)
  exact elsewhere name isName (isFile.trans (congrArg Element.filePath isCaller))

theorem externalDependencyIds_fullRun {session : Session} (idle : session.Idle) {full : Analysis}
    (isFull : (session.perform (fullRun (later brokenId))).2 = .ok full) :
    full.boundaries.map Boundary.externalDependencyIds = [[brokenId]] := by
  obtain ⟨state, mode, done, mirrors, sound⟩ := yieldsTree_fullRun (later brokenId) session.shared
    (session.published.version + 1) session.published.current
  have result := (perform_of_idle idle (fullRun (later brokenId))).2.2
  rw [Line.attempt, done] at result
  rw [← Except.ok.inj (result.symm.trans isFull)]
  change state.detection.boundaries.map Boundary.externalDependencyIds = _
  have externals : (score (plainAnalyzer.version (later brokenId).elements).graph
      ["main"]).externalDependencyIds = [brokenId] := by
    rw [graph_brokenId, score, Text.sort_eq_insertionSort]
    decide
  rw [sound.detection, mirrors.elements_eq, ← externals]
  exact externalDependencyIds_of_single (cluster_later (by decide) (by decide))

theorem externalDependencyIds_changeRun {session : Session}
    (knows : session.Knows (before brokenId)) {incremental : Analysis}
    (isIncremental : (session.perform (changeRun (later brokenId) ["b.ts", "c.ts"])).2 =
      .ok incremental) :
    incremental.boundaries.map Boundary.externalDependencyIds = [["s1", "s2"]] := by
  obtain ⟨state, isState, mirrors, sound⟩ := knows.state
  obtain ⟨analysis, memory, done, boundaries⟩ := boundaries_changeRun isState mirrors sound
    covers_brokenId hashes_brokenId (clear_before brokenId).distinct distinctIds_brokenId
    (List.forall_mem_append.mpr ⟨undivided_before brokenId, undivided_later brokenId⟩)
    (session.published.version + 1) session.published.current
  have result := (perform_of_idle knows.idle (changeRun (later brokenId) ["b.ts", "c.ts"])).2.2
  rw [Line.attempt, done] at result
  have externals : (score state.graph ["main"]).externalDependencyIds = ["s1", "s2"] := by
    change (score state.graph.bare ["main"]).externalDependencyIds = _
    rw [bare_of_before sound mirrors.elements_eq, score, Text.sort_eq_insertionSort]
    decide
  have untouched := isUntouched_caller sound mirrors.elements_eq (caller_unmarked mirrors)
  rw [← Except.ok.inj (result.symm.trans isIncremental), boundaries, ← externals]
  exact externalDependencyIds_of_isUntouched (cluster_later (by decide) (by decide))
    (cluster_before brokenId) (untouched _)

/-- Where ids hold line breaks, a run over changes can miss that a function calls another one: the
calls of `main` have one signature before and after the change. -/
theorem runIncremental_agree_runFull_line_breaks :
    let project := movingProject brokenId
    let home := before brokenId
    let away := later brokenId
    let named := ["b.ts", "c.ts"]
    let now := (start.runFull project.analyzer home.workspace project.rootPath {}).1
    DistinctIds (project.analyzer.version home.elements).elements ∧
      DistinctIds (project.analyzer.version away.elements).elements ∧
      UndividedModules home.elements ∧ UndividedModules away.elements ∧
      home.Covers away named ∧ home.HashesTellApart away ∧
      project.analyzer.ToldApart home.elements away.elements ∧
      ¬ ∃ incremental full,
        (now.runIncremental project.analyzer away.workspace named {}).2 = .ok incremental ∧
        (now.runFull project.analyzer away.workspace project.rootPath {}).2 = .ok full ∧
        incremental.Agree full := by
  intro project home away named now
  have apart : plainAnalyzer.ToldApart home.elements away.elements := by
    refine toldApart_move (by decide) (by decide) ?_
    rw [graph_before, graph_brokenId]
    decide
  refine ⟨(clear_before brokenId).distinct, distinctIds_brokenId, undivided_before brokenId,
    undivided_later brokenId, covers_brokenId, hashes_brokenId, apart, ?_⟩
  rintro ⟨incremental, full, isIncremental, isFull, agree⟩
  have knows := start.knows_runFull home
  have stale := externalDependencyIds_changeRun knows isIncremental
  rw [agree.boundaries, externalDependencyIds_fullRun knows.idle isFull] at stale
  exact absurd stale (by decide)

end Session.Move
end CodeAtlas
