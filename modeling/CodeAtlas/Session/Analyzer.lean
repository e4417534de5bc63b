import CodeAtlas.Analysis.Basic
import CodeAtlas.Batch.Schedule
import CodeAtlas.Boundary.Detection
import CodeAtlas.Configuration
import CodeAtlas.Label
import CodeAtlas.Resolution.Basic

/-!
# Analyzers

An analyzer is a configuration with its rule tables made ready. It turns what the files of a code
base declare into an analysis. An analysis that follows an earlier one takes over what the changes
between them leave valid.
-/

namespace CodeAtlas

/-- A configuration that is ready to be used. -/
structure Analyzer where
  /-- The configuration. -/
  configuration : Configuration
  /-- The languages by extension. -/
  registry : LanguageRegistry
  /-- The detector of boundaries. -/
  detector : Boundary.Detector
  /-- The layer rules. -/
  layerTests : List LayerTest
  /-- The instant that each reading of the clock gives, the first reading being number zero. -/
  clock : Nat → Instant

/-- What the files of a code base declare. -/
structure Snapshot where
  /-- The root of the code base. -/
  root : String
  /-- The rules by which files were listed. -/
  rules : Ignore.Rules
  /-- What was found in each file. -/
  extractions : Table String FileExtraction
  /-- The problems with each file that has some. -/
  problems : Table String (List Diagnostic)

/-- What a run leaves for the run after it. -/
structure RunState where
  /-- What the files declare. -/
  snapshot : Snapshot
  /-- The relationships. -/
  resolution : Resolution Float
  /-- The graph. -/
  graph : DependencyGraph Float
  /-- The boundaries. -/
  detection : Boundary.Detection Float

/-- An earlier run and what has changed since. -/
structure Reuse where
  /-- What the earlier run left. -/
  state : RunState
  /-- The files that may have changed. -/
  changedFiles : List String
  /-- The ids of elements that may have changed. -/
  changedIds : List String

namespace Snapshot

/-- The values of a table of files in the order of their paths. -/
def byPath {β : Type} (table : Table String β) : List β :=
  (Text.sortBy Prod.fst table.entries).map Prod.snd

/-- Adds what became of a file. -/
def add (snapshot : Snapshot) (outcome : FileOutcome) : Snapshot :=
  { snapshot with
    extractions := match outcome.extraction with
      | some extraction => snapshot.extractions.put outcome.filePath extraction
      | none => snapshot.extractions
    problems := if outcome.diagnostics.isEmpty then snapshot.problems
      else snapshot.problems.put outcome.filePath outcome.diagnostics }

/-- Removes a file. -/
def remove (snapshot : Snapshot) (filePath : String) : Snapshot :=
  { snapshot with
    extractions := snapshot.extractions.erase filePath
    problems := snapshot.problems.erase filePath }

/-- The snapshot of files by what became of them. -/
def ofOutcomes (root : String) (rules : Ignore.Rules) (outcomes : List FileOutcome) : Snapshot :=
  outcomes.foldl add ⟨root, rules, .empty, .empty⟩

/-- The elements that the files declare. -/
def elements (snapshot : Snapshot) : List Element :=
  (byPath snapshot.extractions).flatMap FileExtraction.elements

/-- The problems with files. -/
def diagnostics (snapshot : Snapshot) : List Diagnostic := (byPath snapshot.problems).flatten

/-- The share of each language. -/
def languageCounts (snapshot : Snapshot) : Table String LanguageCount :=
  (byPath snapshot.extractions).foldl (fun counts extraction =>
    counts.update extraction.language fun count =>
      let count := count.getD ⟨0, 0⟩
      ⟨count.files + 1, count.elements + extraction.elements.length⟩) .empty

end Snapshot

namespace Analyzer

/-- The limits of boundary detection. -/
def limitsOf (settings : BoundarySettings) : Boundary.Limits :=
  ⟨Number.toNat settings.minSize, Number.toNat settings.maxSize,
    Number.toNat settings.maxIterations⟩

/-- Makes the rule tables of a configuration ready. -/
def compileRules (configuration : Configuration) :
    Except Pattern.CompileError (Classifier × List LayerTest) := do
  let settings := configuration.boundaries
  let classifier ← Classifier.compile settings.rules settings.useEnclosingScope
  let tests ← Layer.compile configuration.layerRules
  pure (classifier, tests)

/-- Makes a configuration ready, given the languages for which there is an extractor. -/
def create (configuration : Configuration) (supported : List String) (clock : Nat → Instant) :
    Except AnalysisError Analyzer := do
  let registry ← LanguageRegistry.create configuration.languages supported
  match compileRules configuration with
  | .error error => .error (.configuration "Invalid configuration" [error.message])
  | .ok (classifier, tests) =>
    .ok ⟨configuration, registry, ⟨classifier, limitsOf configuration.boundaries⟩, tests, clock⟩

/-- The relationships of elements. -/
def resolve (analyzer : Analyzer) (elements : List Element) (reuse : Option Reuse) :
    Resolution Float :=
  let strengths := analyzer.configuration.resolution
  match reuse with
  | some reuse => Resolution.update strengths reuse.state.resolution elements reuse.changedFiles
  | none => Resolution.resolve strengths elements

/-- The graph, the boundaries and the relationships behind a snapshot. -/
def stateOf (analyzer : Analyzer) (snapshot : Snapshot) (reuse : Option Reuse) : RunState :=
  let resolution := analyzer.resolve snapshot.elements reuse
  let elements := snapshot.elements ++ resolution.externals
  let graph := DependencyGraph.build analyzer.configuration.graph elements
    resolution.relationships (reuse.map fun reuse => (reuse.state.graph, reuse.changedIds))
  let detection := analyzer.detector.detect elements resolution.relationships graph
    (reuse.map fun reuse => ⟨reuse.state.detection, reuse.state.graph, reuse.changedIds⟩)
  ⟨snapshot, resolution, graph, detection⟩

/-- The elements of a run with stubs. -/
def elementsOf (state : RunState) : List Element :=
  state.snapshot.elements ++ state.resolution.externals

/-- Gives elements the labels they have. -/
def label (labels : Table String Label) (elements : List Element) : List Element :=
  elements.map fun element => element.withLabel (labels.get? element.id)

/-- The analysis of a run. -/
def analysisOf (analyzer : Analyzer) (labels : Table String Label) (state : RunState)
    (mode : AnalysisMode) (version : Nat) (createdAt : Instant) : Analysis :=
  let configuration := analyzer.configuration
  let elements := elementsOf state
  let boundaries := state.detection.boundaries
  let layers := Layer.detect analyzer.layerTests elements state.graph
  let findings := configuration.findings
  { version := version
    rootPath := state.snapshot.root
    mode := mode
    createdAt := createdAt
    elements := Text.sortBy Element.id (label labels elements)
    relationships := state.resolution.relationships
    boundaries := boundaries
    unassigned := state.detection.unassigned
    layers := layers
    antiPatterns := AntiPattern.detect
      ⟨Number.toNat findings.godObjectMethods, findings.highCoupling⟩ state.snapshot.elements
      state.graph boundaries layers
    languageCounts := state.snapshot.languageCounts
    metrics := Metrics.report configuration.metrics.thresholds
      (Number.toNat configuration.metrics.topN) state.graph boundaries
    diagnostics := Diagnostic.sort (state.snapshot.diagnostics
      ++ DependencyGraph.diagnostics elements state.resolution.relationships)
    graph := state.graph }

/-- A run with the counts that its metrics have asked for remembered. -/
def remember (state : RunState) : RunState :=
  { state with graph := (Metrics.innerIds state.graph).foldl DependencyGraph.remember state.graph }

end Analyzer
end CodeAtlas
