import CodeAtlas.Analysis.Difference
import CodeAtlas.Number.Shortest

/-!
# Reports

Analyses, metrics, boundaries, elements and differences as texts for a reader. Scores have two
places, shares are percentages.
-/

namespace CodeAtlas
namespace Report

/-- A score. -/
def score (value : Float) : String := Number.fixed 2 value

/-- A share as a percentage. -/
def percent (value : Float) : String := Number.fixed 0 (value * 100) ++ "%"

/-- Lines as a text. -/
def page (lines : List String) : String := Text.join "\n" lines

/-- The languages of an analysis, sorted. -/
def languages (counts : Table String LanguageCount) : List String :=
  (Text.sortBy Prod.fst counts.entries).map fun (language, count) =>
    let files := count.files
    let elements := count.elements
    s!"{language} ({files} files, {elements} elements)"

/-- The summary of an analysis. -/
def analysis (result : Analysis) : String :=
  let languages := languages result.languageCounts
  let serious := (result.diagnostics.filter (·.severity != .info)).length
  let count {β : Type} (title : String) (values : List β) : String :=
    s!"**{title}:** " ++ toString values.length
  let unassigned := result.unassigned.length
  page
    (["## Analysis v" ++ toString result.version ++ " (" ++ result.mode.name ++ ")", "",
      "**Root:** " ++ result.rootPath,
      count "Elements" result.elements,
      count "Relationships" result.relationships,
      count "Boundaries" result.boundaries ++ s!" ({unassigned} unassigned)",
      "**Cycles:** " ++ toString result.metrics.summary.cycleCount,
      count "Anti-patterns" result.antiPatterns]
      ++ (if languages.isEmpty then [] else ["**Languages:** " ++ Text.join ", " languages])
      ++ (if serious = 0 then [] else [s!"**Diagnostics:** {serious} warning(s) or error(s)"]))

/-- The size of a code base. -/
def size (metrics : SizeMetrics Float) : String :=
  let kinds := (Text.sortBy Prod.fst metrics.elementsByKind.entries).map fun (kind, count) =>
    s!"{kind} {count}"
  let files := metrics.files
  let lines := metrics.linesOfCode
  s!"Files {files}, {lines} lines (" ++ Number.fixed 1 metrics.averageFileLines
    ++ " per file), documented " ++ percent metrics.documentation
    ++ (if kinds.isEmpty then "" else "; " ++ Text.join ", " kinds)

/-- A check against a threshold. -/
def check (check : ThresholdCheck Float) : String :=
  "- " ++ (if check.breached then "WARN" else "ok") ++ " " ++ check.name ++ ": "
    ++ score check.value ++ " (" ++ check.direction.name ++ " " ++ score check.limit ++ ")"

/-- The metrics of an analysis. -/
def metrics (report : MetricsReport Float) : String :=
  let summary := report.summary
  let nodes := summary.nodeCount
  let edges := summary.edgeCount
  let dependencies := summary.dependencyEdgeCount
  let cycles := summary.cycleCount
  let depth := summary.maxDepth
  page
    (["## Metrics", "",
      s!"Nodes {nodes}, edges {edges} ({dependencies} dependency), density "
        ++ score summary.density,
      "Average afferent " ++ score summary.averageAfferent ++ ", efferent "
        ++ score summary.averageEfferent ++ ", instability " ++ score summary.averageInstability,
      s!"Cycles {cycles}, max depth {depth}",
      size report.size, "", "### Thresholds"]
      ++ report.thresholds.map check
      ++ (if report.topImpact.isEmpty then []
        else ["", "### Highest impact"]
          ++ report.topImpact.map fun node => "- " ++ node.id ++ ": " ++ percent node.value))

/-- A boundary. -/
def boundary (boundary : Boundary Float) : String :=
  "- **" ++ boundary.name ++ "** [" ++ boundary.kind.name ++ "] "
    ++ toString boundary.memberIds.length ++ " members, cohesion " ++ score boundary.cohesion
    ++ ", coupling " ++ score boundary.coupling ++ ", complexity "
    ++ Number.text boundary.complexity

/-- A list of boundaries. -/
def boundaries (list : List (Boundary Float)) : String :=
  if list.isEmpty then
    "No boundaries found."
  else
    page (["## Boundaries (" ++ toString list.length ++ ")", ""] ++ list.map boundary)

/-- The metrics of a node. -/
def nodeMetrics (metrics : NodeMetrics Float) : String :=
  let afferent := metrics.afferent
  let efferent := metrics.efferent
  s!"**Metrics:** Ca {afferent}, Ce {efferent}, I " ++ score metrics.instability ++ ", impact "
    ++ percent metrics.impact

/-- A section of lines, if there are any. -/
def linesUnder (title : String) (lines : List String) : List String :=
  if lines.isEmpty then [] else ["", "### " ++ title] ++ lines

/-- A relationship seen from one of its ends. -/
def relationship (arrow otherId : String) (relationship : Relationship Float) : String :=
  "- " ++ relationship.kind.name ++ " " ++ arrow ++ " " ++ otherId ++ " ("
    ++ score relationship.strength ++ ")"

/-- An element with its boundary, its metrics and its relationships. -/
def describe (result : Analysis) (element : Element) : String :=
  let outgoing := result.relationships.filter (·.sourceId = element.id)
  let incoming := result.relationships.filter (·.targetId = element.id)
  let home := result.boundaries.find? (·.memberIds.contains element.id)
  page
    (["## " ++ element.qualifiedName, "", "**Kind:** " ++ element.kind.name,
      if element.filePath = "" then "**External**"
      else "**File:** " ++ element.filePath ++ ":" ++ toString element.startLine]
      ++ (home.map fun boundary =>
        "**Boundary:** " ++ boundary.name ++ " [" ++ boundary.kind.name ++ "]").toList
      ++ ((result.graph.metrics? element.id).map nodeMetrics).toList
      ++ linesUnder "Outgoing" (outgoing.map fun edge => relationship "→" edge.targetId edge)
      ++ linesUnder "Incoming" (incoming.map fun edge => relationship "←" edge.sourceId edge))

/-- The element with an id. -/
def element? (result : Analysis) (id : String) : Option String :=
  (result.elements.find? (·.id = id)).map (describe result)

/-- The numbers of ids in a difference. -/
def idDifference (title : String) (difference : IdDifference) : String :=
  title ++ ": +" ++ toString difference.added.length ++ " -"
    ++ toString difference.removed.length ++ " ~" ++ toString difference.changed.length

/-- The difference between two analyses. -/
def difference (difference : Difference) : String :=
  page
    ["## Changes v" ++ toString difference.fromVersion ++ " → v" ++ toString difference.toVersion,
     "", idDifference "Elements" difference.elements,
     idDifference "Relationships" difference.relationships,
     idDifference "Boundaries" difference.boundaries]

end Report
end CodeAtlas
