import CodeAtlas.Boundary.Score

/-!
# Metrics

The metrics of an analysis: the summary of the graph, the size of the code base, the scores of the
boundaries, the nodes that rank highest, and checks of the averages against thresholds.
-/

namespace CodeAtlas

/-- The size of a code base. -/
structure SizeMetrics (α : Type) where
  /-- The number of files. -/
  files : Nat
  /-- The number of lines of all files. -/
  linesOfCode : Int
  /-- The average number of lines of a file. -/
  averageFileLines : α
  /-- The number of elements of each kind that occurs. -/
  elementsByKind : Table String Nat
  /-- The share of types, functions and methods that are documented. -/
  documentation : α

/-- The scores of a boundary. -/
structure BoundaryMetrics (α : Type) where
  /-- The identity of the boundary. -/
  id : String
  /-- The name of the boundary. -/
  name : String
  /-- The part of a service that it is. -/
  kind : BoundaryKind
  /-- The number of members. -/
  size : Nat
  /-- The cohesion of the boundary. -/
  cohesion : α
  /-- The coupling of the boundary. -/
  coupling : α
  /-- The complexity of the boundary. -/
  complexity : α

/-- A node with the value it is ranked by. -/
structure RankedNode (α : Type) where
  /-- The id of the node. -/
  id : String
  /-- The value. -/
  value : α

/-- Whether a threshold is an upper or a lower bound. -/
inductive Direction where
  | most
  | least
  deriving DecidableEq, Repr

/-- The word for a direction. -/
def Direction.name : Direction → String
  | most => "max"
  | least => "min"

/-- The outcome of a check against a threshold. -/
structure ThresholdCheck (α : Type) where
  /-- What is checked. -/
  name : String
  /-- The value. -/
  value : α
  /-- The threshold. -/
  limit : α
  /-- Whether the threshold is an upper or a lower bound. -/
  direction : Direction
  /-- Whether the value is beyond the threshold. -/
  breached : Bool

/-- The thresholds of the checks. -/
structure MetricThresholds (α : Type) where
  /-- An upper bound. -/
  averageInstability : α
  /-- An upper bound. -/
  averageCoupling : α
  /-- A lower bound. -/
  averageCohesion : α
  /-- An upper bound. -/
  cycleCount : α
  /-- An upper bound. -/
  density : α

/-- The thresholds unless others are given. -/
def MetricThresholds.standard : MetricThresholds Float := ⟨0.7, 0.5, 0.2, 0, 0.3⟩

/-- The metrics of an analysis. -/
structure MetricsReport (α : Type) where
  /-- The summary of the graph. -/
  summary : GraphSummary α
  /-- The size of the code base. -/
  size : SizeMetrics α
  /-- The cycle groups. -/
  cycles : List CycleGroup
  /-- The scores of the boundaries. -/
  boundaries : List (BoundaryMetrics α)
  /-- The nodes with the highest impact. -/
  topImpact : List (RankedNode α)
  /-- The nodes with the highest instability. -/
  topInstability : List (RankedNode α)
  /-- The checks against thresholds. -/
  thresholds : List (ThresholdCheck α)

namespace Metrics

/-- The kinds of elements that can be documented. -/
def documentable : List ElementKind :=
  [.classType, .interface, .structType, .enumeration, .function, .method]

/-- Whether an element is documented. -/
def isDocumented (element : Element) : Bool :=
  match element.fact? "docstring" with
  | some (.str _) => true
  | _ => false

/-- The number of lines from the first to the last of an element. -/
def span (element : Element) : Int :=
  (element.endLine : Int) - (element.startLine : Int) + 1

variable {α : Type} [Scalar α]

/-- The size of a code base; stubs do not count. -/
def size (elements : List Element) : SizeMetrics α :=
  let inner := elements.filter fun element => !element.isExternal
  let files := inner.filter (·.kind == .file)
  let lines := (files.map span).foldl (· + ·) 0
  let described := inner.filter fun element => documentable.contains element.kind
  { files := files.length
    linesOfCode := lines
    averageFileLines := if files.isEmpty then Scalar.zero
      else Scalar.div (Scalar.ofInt lines) (Scalar.ofNat files.length)
    elementsByKind := ⟨(Table.group (fun element => element.kind.name) inner).entries.map
      fun (kind, found) => (kind, found.length)⟩
    documentation := Scalar.ratio (described.filter isDocumented).length described.length }

/-- Checks a value against a threshold. -/
def check (name : String) (direction : Direction) (limit value : α) : ThresholdCheck α :=
  let breached := match direction with
    | .most => Scalar.lt limit value
    | .least => Scalar.lt value limit
  ⟨name, value, limit, direction, breached⟩

/-- Checks the average of a score of the boundaries; without boundaries nothing is beyond. -/
def checkAverage (name : String) (direction : Direction) (limit : α) (values : List α) :
    ThresholdCheck α :=
  if values.isEmpty then ⟨name, Scalar.zero, limit, direction, false⟩
  else check name direction limit (Scalar.average values)

/-- The checks of a summary and of boundaries. -/
def checks (limits : MetricThresholds α) (summary : GraphSummary α)
    (boundaries : List (Boundary α)) : List (ThresholdCheck α) :=
  [check "average_instability" .most limits.averageInstability summary.averageInstability,
   checkAverage "average_coupling" .most limits.averageCoupling (boundaries.map Boundary.coupling),
   checkAverage "average_cohesion" .least limits.averageCohesion
    (boundaries.map Boundary.cohesion),
   check "cycle_count" .most limits.cycleCount (Scalar.ofNat summary.cycleCount),
   check "density" .most limits.density summary.density]

/-- Whether a node ranks before another: by value, then by id. -/
def ranksBefore (left right : RankedNode α) : Bool :=
  Scalar.lt right.value left.value
    || (!Scalar.lt left.value right.value && Text.before left.id right.id)

/-- The first nodes by a value. -/
def top (count : Nat) (value : String → α) (ids : List String) : List (RankedNode α) :=
  ((ids.map fun id => (⟨id, value id⟩ : RankedNode α)).mergeSort
    fun left right => !ranksBefore right left).take count

/-- The ids of the nodes that are no stubs. -/
def innerIds (graph : DependencyGraph α) : List String :=
  (graph.nodes.filter fun node => !node.isExternal).map Element.id

/-- The scores of a boundary. -/
def ofBoundary (boundary : Boundary α) : BoundaryMetrics α :=
  ⟨boundary.id, boundary.name, boundary.kind, boundary.memberIds.length, boundary.cohesion,
    boundary.coupling, boundary.complexity⟩

/-- The metrics of a graph with boundaries. -/
def report (limits : MetricThresholds α) (count : Nat) (graph : DependencyGraph α)
    (boundaries : List (Boundary α)) : MetricsReport α :=
  let summary := graph.summary
  { summary := summary
    size := size graph.nodes
    cycles := graph.cycles
    boundaries := boundaries.map ofBoundary
    topImpact := top count graph.impact (innerIds graph)
    topInstability := top count graph.instability (innerIds graph)
    thresholds := checks limits summary boundaries }

end Metrics

/-! ## Structured values -/

/-- A cycle group as a structured value. -/
def CycleGroup.toJson (cycle : CycleGroup) : Json :=
  .obj [("id", .str cycle.id), ("memberIds", .texts cycle.memberIds)]

/-- The metrics of a node as a structured value. -/
def NodeMetrics.toJson (metrics : NodeMetrics Float) : Json :=
  .obj
    [("afferent", .nat metrics.afferent), ("efferent", .nat metrics.efferent),
     ("instability", .num metrics.instability), ("impact", .num metrics.impact)]

/-- The metrics of a graph as a structured value. -/
def GraphSummary.toJson (summary : GraphSummary Float) : Json :=
  .obj
    [("nodeCount", .nat summary.nodeCount), ("edgeCount", .nat summary.edgeCount),
     ("dependencyEdgeCount", .nat summary.dependencyEdgeCount), ("density", .num summary.density),
     ("cycleCount", .nat summary.cycleCount), ("averageAfferent", .num summary.averageAfferent),
     ("averageEfferent", .num summary.averageEfferent),
     ("averageInstability", .num summary.averageInstability), ("maxDepth", .nat summary.maxDepth)]

/-- The size of a code base as a structured value. -/
def SizeMetrics.toJson (size : SizeMetrics Float) : Json :=
  .obj
    [("files", .nat size.files), ("linesOfCode", .num (Float.ofInt size.linesOfCode)),
     ("averageFileLines", .num size.averageFileLines),
     ("elementsByKind", .obj (size.elementsByKind.entries.map fun (kind, count) =>
       (kind, .nat count))),
     ("documentation", .num size.documentation)]

/-- A check as a structured value. -/
def ThresholdCheck.toJson (check : ThresholdCheck Float) : Json :=
  .obj
    [("name", .str check.name), ("value", .num check.value), ("limit", .num check.limit),
     ("direction", .str check.direction.name),
     ("severity", .str (if check.breached then "warning" else "ok"))]

/-- A ranked node as a structured value. -/
def RankedNode.toJson (node : RankedNode Float) : Json :=
  .obj [("id", .str node.id), ("value", .num node.value)]

/-- The scores of a boundary as a structured value. -/
def BoundaryMetrics.toJson (metrics : BoundaryMetrics Float) : Json :=
  .obj
    [("id", .str metrics.id), ("name", .str metrics.name), ("type", .str metrics.kind.name),
     ("size", .nat metrics.size), ("cohesion", .num metrics.cohesion),
     ("coupling", .num metrics.coupling), ("complexity", .num metrics.complexity)]

/-- The metrics of an analysis as a structured value. -/
def MetricsReport.toJson (report : MetricsReport Float) : Json :=
  .obj
    [("summary", report.summary.toJson), ("size", report.size.toJson),
     ("cycles", .arr (report.cycles.map CycleGroup.toJson)),
     ("boundaries", .arr (report.boundaries.map BoundaryMetrics.toJson)),
     ("topImpact", .arr (report.topImpact.map RankedNode.toJson)),
     ("topInstability", .arr (report.topInstability.map RankedNode.toJson)),
     ("thresholds", .arr (report.thresholds.map ThresholdCheck.toJson))]

end CodeAtlas
