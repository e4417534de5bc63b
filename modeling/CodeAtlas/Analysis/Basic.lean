import CodeAtlas.AntiPattern
import CodeAtlas.Instant
import CodeAtlas.Metrics
import CodeAtlas.Publication

/-!
# Analyses

An analysis is the outcome of one run over a code base: its elements and relationships, the graph of
these, and all that is derived from the graph. Analyses of one code base carry increasing versions.
-/

namespace CodeAtlas

/-- How an analysis came about. -/
inductive AnalysisMode where
  /-- By a run over the whole code base. -/
  | full
  /-- By a run over what has changed. -/
  | incremental
  /-- By labels given to elements. -/
  | labels
  deriving DecidableEq, Repr

namespace AnalysisMode

/-- The word for a mode. -/
def name : AnalysisMode → String
  | full => "full"
  | incremental => "incremental"
  | labels => "labels"

/-- Reads the word for a mode. -/
def ofName? (word : String) : Option AnalysisMode :=
  [full, incremental, labels].find? (·.name = word)

end AnalysisMode

/-- How much of a code base is in one language. -/
structure LanguageCount where
  /-- The number of files. -/
  files : Nat
  /-- The number of elements. -/
  elements : Nat
  deriving DecidableEq, Repr

/-- The outcome of one run over a code base. -/
structure Analysis where
  /-- The version. -/
  version : Nat
  /-- The root of the code base. -/
  rootPath : String
  /-- How the analysis came about. -/
  mode : AnalysisMode
  /-- When the analysis was made. -/
  createdAt : Instant
  /-- The elements with stubs, in the order of their ids. -/
  elements : List Element
  /-- The relationships in the order of their ids. -/
  relationships : List (Relationship Float)
  /-- The boundaries in the order of their ids. -/
  boundaries : List (Boundary Float)
  /-- The elements in no boundary, sorted. -/
  unassigned : List String
  /-- The layers. -/
  layers : LayerReport
  /-- The findings. -/
  antiPatterns : List AntiPattern
  /-- The share of each language. -/
  languageCounts : Table String LanguageCount
  /-- The metrics. -/
  metrics : MetricsReport Float
  /-- The problems, sorted. -/
  diagnostics : List Diagnostic
  /-- The graph. -/
  graph : DependencyGraph Float

instance : Versioned Analysis := ⟨Analysis.version⟩

namespace LanguageCount

/-- The shares of languages as a structured value. -/
def tableToJson (counts : Table String LanguageCount) : Json :=
  .obj (counts.entries.map fun (language, count) =>
    (language, .obj [("files", .nat count.files), ("elements", .nat count.elements)]))

end LanguageCount

namespace Analysis

/-- The parts of an analysis by name, apart from its graph. -/
def parts (analysis : Analysis) : List (String × (Unit → Json)) :=
  [("version", fun _ => .nat analysis.version),
   ("rootPath", fun _ => .str analysis.rootPath),
   ("mode", fun _ => .str analysis.mode.name),
   ("createdAt", fun _ => .str analysis.createdAt.text),
   ("elements", fun _ => .arr (analysis.elements.map Element.toJson)),
   ("relationships", fun _ => .arr (analysis.relationships.map Relationship.toJson)),
   ("boundaries", fun _ => .arr (analysis.boundaries.map Boundary.toJson)),
   ("unassigned", fun _ => .texts analysis.unassigned),
   ("layers", fun _ => analysis.layers.toJson),
   ("antiPatterns", fun _ => .arr (analysis.antiPatterns.map AntiPattern.toJson)),
   ("languageCounts", fun _ => LanguageCount.tableToJson analysis.languageCounts),
   ("metrics", fun _ => analysis.metrics.toJson),
   ("diagnostics", fun _ => .arr (analysis.diagnostics.map Diagnostic.toJson))]

/-- A part of an analysis by name. -/
def part? (analysis : Analysis) (name : String) : Option Json :=
  (analysis.parts.find? (·.1 = name)).map fun part => part.2 ()

end Analysis
end CodeAtlas
