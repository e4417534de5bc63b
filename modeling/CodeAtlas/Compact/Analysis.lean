import CodeAtlas.Analysis.Difference
import CodeAtlas.Compact.Report
import CodeAtlas.Graph.Reuse

/-!
# Analyses in compact form

An analysis is written as a model with the parts that are not derived from it. The graph and the
metrics follow from the model; whatever else is left out is empty. Metrics and differences can also
be written by themselves.
-/

namespace CodeAtlas
namespace Compact

open Json.Access

/-- An integer. -/
def integer (value : Json) : Int :=
  if number value < 0 then -Int.ofNat (Number.toNat (-number value)) else Int.ofNat (natural value)

/-- The share of each language. -/
def languageCounts (value : Json) : Table String LanguageCount :=
  .ofList ((members value).map fun (language, count) =>
    (language, ⟨natural (get count "files"), natural (get count "elements")⟩))

/-- An analysis. -/
def analysis (value : Json) : Analysis :=
  let model := written value
  let graph := DependencyGraph.build (graphOptions [value]) model.elements model.relationships none
  let boundaries := boundaries (get value "boundaries")
  { version := naturalOr (get value "version") 1
    rootPath := ((get value "rootPath").text?).getD "/repo"
    mode := (AnalysisMode.ofName? (textAt value "mode")).getD .full
    createdAt := ⟨0⟩
    elements := model.elements
    relationships := model.relationships
    boundaries := boundaries
    unassigned := texts (get value "unassigned")
    layers := layerReport (get value "layers")
    antiPatterns := (items (get value "antiPatterns")).map finding
    languageCounts := languageCounts (get value "languageCounts")
    metrics := Metrics.report (thresholds (get value "thresholds"))
      (naturalOr (get value "topN") 10) graph boundaries
    diagnostics := (items (get value "diagnostics")).map diagnostic
    graph := graph }

/-- The size of a code base. -/
def size (value : Json) : SizeMetrics Float :=
  { files := natural (get value "files")
    linesOfCode := integer (get value "linesOfCode")
    averageFileLines := number (get value "averageFileLines")
    elementsByKind := .ofList ((members (get value "elementsByKind")).map fun (kind, count) =>
      (kind, natural count))
    documentation := number (get value "documentation") }

/-- The summary of a graph. -/
def summary (value : Json) : GraphSummary Float :=
  { nodeCount := natural (get value "nodeCount")
    edgeCount := natural (get value "edgeCount")
    dependencyEdgeCount := natural (get value "dependencyEdgeCount")
    density := number (get value "density")
    cycleCount := natural (get value "cycleCount")
    averageAfferent := number (get value "averageAfferent")
    averageEfferent := number (get value "averageEfferent")
    averageInstability := number (get value "averageInstability")
    maxDepth := natural (get value "maxDepth") }

/-- A check against a threshold. -/
def thresholdCheck (value : Json) : ThresholdCheck Float :=
  { name := textAt value "name"
    value := number (get value "value")
    limit := number (get value "limit")
    direction := if textAt value "direction" = "min" then .least else .most
    breached := textAt value "severity" = "warning" }

/-- A ranked node. -/
def rankedNode (value : Json) : RankedNode Float := ⟨textAt value "id", number (get value "value")⟩

/-- The scores of a boundary. -/
def boundaryMetrics (value : Json) : BoundaryMetrics Float :=
  { id := textAt value "id"
    name := textAt value "name"
    kind := boundaryKind (get value "type")
    size := natural (get value "size")
    cohesion := number (get value "cohesion")
    coupling := number (get value "coupling")
    complexity := number (get value "complexity") }

/-- The metrics of an analysis. -/
def metricsReport (value : Json) : MetricsReport Float :=
  { summary := summary (get value "summary")
    size := size (get value "size")
    cycles := (items (get value "cycles")).map fun cycle =>
      ⟨textAt cycle "id", texts (get cycle "memberIds")⟩
    boundaries := (items (get value "boundaries")).map boundaryMetrics
    topImpact := (items (get value "topImpact")).map rankedNode
    topInstability := (items (get value "topInstability")).map rankedNode
    thresholds := (items (get value "thresholds")).map thresholdCheck }

/-- The difference of ids. -/
def idDifference (value : Json) : IdDifference :=
  ⟨texts (get value "added"), texts (get value "removed"), texts (get value "changed")⟩

/-- The difference between two analyses. -/
def difference (value : Json) : Difference :=
  { fromVersion := natural (get value "fromVersion")
    toVersion := natural (get value "toVersion")
    elements := idDifference (get value "elements")
    relationships := idDifference (get value "relationships")
    boundaries := idDifference (get value "boundaries") }

end Compact
end CodeAtlas
