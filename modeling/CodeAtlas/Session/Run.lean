import CodeAtlas.Session.Analyzer

/-!
# Runs

A run looks at the files of a code base, all of them or those that have changed, and publishes an
analysis. Labels are kept across runs. What fails publishes nothing and leaves nothing behind.
-/

namespace CodeAtlas

/-- What runs on one code base share. -/
structure Memory where
  /-- What the last run left. -/
  state : Option RunState := none
  /-- The labels of elements. -/
  labels : Table String Label := .empty
  /-- The number of readings of the clock. -/
  readings : Nat := 0

/-- How a run is made. -/
structure RunOptions where
  /-- Whether the run is cancelled before it starts. -/
  cancelled : Bool := false
  /-- The file whose extraction cancels the run. -/
  abortOn : Option String := none
  /-- The time for extraction in milliseconds, if not the configured one. -/
  timeBudget : Option Float := none

/-- The files of a run over changes. -/
structure ChangePlan where
  /-- The files that are gone. -/
  removed : List String
  /-- The files that have to be extracted. -/
  toExtract : List String

/-- A build of analyses. -/
abbrev AnalysisBuild := Build Memory AnalysisError Analysis

namespace Run

/-- How the files of a run are extracted. A budget below zero is used up from the start. -/
def batchOptions (analyzer : Analyzer) (options : RunOptions) : Batch.Options :=
  let budget := options.timeBudget.or analyzer.configuration.timeBudget
  { limit := Number.toNat analyzer.configuration.concurrency
    abortedBefore := options.cancelled
    abortOn := options.abortOn
    late := (budget.map fun time => decide (time < 0)).getD false }

/-- What looks at the files below a root. -/
def readerOf (analyzer : Analyzer) (workspace : Workspace) (root : String) : FileReader :=
  ⟨workspace, analyzer.registry, root⟩

/-- Extracts files below a root. -/
def extract (analyzer : Analyzer) (workspace : Workspace) (root : String) (options : RunOptions)
    (files : List String) : Batch.Ending :=
  Batch.extract (readerOf analyzer workspace root) (batchOptions analyzer options) files

/-- Ends a run: its analysis is made at the next reading of the clock. -/
def conclude (analyzer : Analyzer) (memory : Memory) (snapshot : Snapshot) (mode : AnalysisMode)
    (version : Nat) (reuse : Option Reuse) : Built AnalysisError Analysis × Memory :=
  let state := analyzer.stateOf snapshot reuse
  let analysis :=
    analyzer.analysisOf memory.labels state mode version (analyzer.clock memory.readings)
  (.done analysis,
    { memory with state := some (Analyzer.remember state), readings := memory.readings + 1 })

/-- The absolute form of a root. -/
def rootOf (path : String) : String := Path.resolve "/" path

/-- A run over a whole code base. -/
def full (analyzer : Analyzer) (workspace : Workspace) (rootPath : String)
    (options : RunOptions) : AnalysisBuild := fun version _ memory =>
  let root := rootOf rootPath
  let configuration := analyzer.configuration
  match workspace.scan root ⟨configuration.ignorePatterns, configuration.respectGitignore⟩ with
  | .error error => (.failed error, memory)
  | .ok listing =>
    match (extract analyzer workspace root options listing.files).result with
    | .error error => (.failed error, memory)
    | .ok outcomes =>
      conclude analyzer memory (.ofOutcomes root listing.rules outcomes) .full version none

/-- Whether a normal path leads to a place below the root. -/
def isBelowRoot (path : String) : Bool :=
  path != "" && path != "." && path != ".." && !Text.startsWith path "../"
    && !Path.isAbsolute path

/-- The normal form of a path, relative to the root. -/
def relativePath (root path : String) : String :=
  Path.normalize (if Path.isAbsolute path then Path.relative root path else path)

/-- The paths of changed files, relative to the root, each once and sorted. Paths outside the root
and ignored ones are left out. -/
def changedPaths (snapshot : Snapshot) (files : List String) : List String :=
  let paths := files.map (relativePath snapshot.root)
  Text.sort (distinct (paths.filter fun path =>
    isBelowRoot path && !snapshot.rules.ignores path))

/-- Whether a file has the content it had. -/
def isUnchanged (workspace : Workspace) (snapshot : Snapshot) (path : String) : Bool :=
  match snapshot.extractions.get? path with
  | none => false
  | some known =>
    match workspace.read (Path.joinAll [snapshot.root, path]) with
    | .ok content => Extract.contentHash content == known.contentHash
    | .error _ => false

/-- What has to be done about files that may have changed. -/
def plan (workspace : Workspace) (snapshot : Snapshot) (files : List String) : ChangePlan :=
  let isThere (path : String) : Bool := workspace.holds (Path.joinAll [snapshot.root, path])
  let paths := changedPaths snapshot files
  { removed := paths.filter fun path => !isThere path
    toExtract := paths.filter fun path => isThere path && !isUnchanged workspace snapshot path }

/-- The ids of the elements of files. -/
def idsIn (snapshot : Snapshot) (files : List String) : List String :=
  files.flatMap fun path =>
    ((snapshot.extractions.get? path).map fun extraction =>
      extraction.elements.map Element.id).getD []

/-- The extraction of the files of a run over changes. -/
def extractChanges (analyzer : Analyzer) (workspace : Workspace) (snapshot : Snapshot)
    (files : List String) (options : RunOptions) : Batch.Ending :=
  extract analyzer workspace snapshot.root options (plan workspace snapshot files).toExtract

/-- A run over files that may have changed since the run before. -/
def incremental (analyzer : Analyzer) (workspace : Workspace) (files : List String)
    (options : RunOptions) : AnalysisBuild := fun version _ memory =>
  match memory.state with
  | none =>
    (.failed (.configuration "No previous analysis; run a full analysis first" []), memory)
  | some state =>
    match (extractChanges analyzer workspace state.snapshot files options).result with
    | .error error => (.failed error, memory)
    | .ok outcomes =>
      let touched := (plan workspace state.snapshot files).removed
        ++ outcomes.map FileOutcome.filePath
      let snapshot := outcomes.foldl Snapshot.add (touched.foldl Snapshot.remove state.snapshot)
      let found := outcomes.flatMap fun outcome =>
        (outcome.extraction.map FileExtraction.elements).getD []
      let changedIds := distinct (idsIn state.snapshot touched ++ found.map Element.id)
      conclude analyzer memory snapshot .incremental version
        (some ⟨state, touched, changedIds⟩)

/-- The warning about a label for an element that is not there. -/
def unknownLabel (elementId : String) : Diagnostic :=
  { severity := .warning
    code := "label_unknown_element"
    message := "No element " ++ elementId ++ " to label"
    elementId := some elementId }

/-- The requests for elements that an analysis has, and the ids of the others. -/
def splitRequests (analysis : Analysis) (requests : List LabelRequest) :
    List LabelRequest × List String :=
  let ids := analysis.elements.map Element.id
  (requests.filter fun request => ids.contains request.elementId,
    (requests.filter fun request => !ids.contains request.elementId).map LabelRequest.elementId)

/-- Gives labels to elements of the current analysis. -/
def applyLabels (analyzer : Analyzer) (requests : List LabelRequest) : AnalysisBuild :=
  fun version current memory =>
    match current with
    | none =>
      (.failed (.configuration "No analysis to label; run a full analysis first" []), memory)
    | some analysis =>
      let (known, unknown) := splitRequests analysis requests
      let labels := memory.labels.putAll (known.map fun request =>
        (request.elementId, request.label))
      let warnings := unknown.map unknownLabel
      let kept := analysis.diagnostics.filter (·.code != "label_unknown_element")
      (.done
        { analysis with
          version := version
          mode := .labels
          createdAt := analyzer.clock memory.readings
          elements := Analyzer.label labels analysis.elements
          diagnostics := Diagnostic.sort (kept ++ warnings) },
        { memory with labels := labels, readings := memory.readings + 1 })

end Run
end CodeAtlas
