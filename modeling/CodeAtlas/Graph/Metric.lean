import CodeAtlas.Graph.Basic
import CodeAtlas.Graph.Search
import CodeAtlas.Digest.Sha1

/-!
# Graph metrics

Counts and ratios over the dependencies of a graph: how many nodes depend on a node and how many it
depends on, which share of the graph it reaches, which nodes lie in cycles, and how complex a set of
nodes is.
-/

namespace CodeAtlas

/-- The metrics of one node. -/
structure NodeMetrics (α : Type) where
  /-- The number of nodes that depend on it. -/
  afferent : Nat
  /-- The number of nodes it depends on. -/
  efferent : Nat
  /-- The share of the latter in both. -/
  instability : α
  /-- The share of all nodes that it reaches. -/
  impact : α

/-- A group of nodes that lie on common cycles. -/
structure CycleGroup where
  /-- The identity of the group. -/
  id : String
  /-- The members in the order of their ids. -/
  memberIds : List String
  deriving DecidableEq, Repr

/-- The metrics of a whole graph. -/
structure GraphSummary (α : Type) where
  /-- The number of nodes. -/
  nodeCount : Nat
  /-- The number of edges. -/
  edgeCount : Nat
  /-- The number of dependency edges. -/
  dependencyEdgeCount : Nat
  /-- The share of ordered pairs that are joined by a dependency. -/
  density : α
  /-- The number of cycle groups. -/
  cycleCount : Nat
  /-- The average number of nodes that depend on a node. -/
  averageAfferent : α
  /-- The average number of nodes that a node depends on. -/
  averageEfferent : α
  /-- The average instability. -/
  averageInstability : α
  /-- The length of the longest chain of components. -/
  maxDepth : Nat

/-- The first twelve digits of the digest of texts, a line each. -/
def shortDigest (texts : List String) : String :=
  String.ofList ((Digest.sha1 (Text.join "\n" texts)).toList.take 12)

namespace DependencyGraph

variable {α : Type}

/-- The number of nodes that depend on the node with an id. -/
def afferent (graph : DependencyGraph α) (id : String) : Nat :=
  ((graph.index? id).map fun node => (graph.before node).length).getD 0

/-- The number of nodes that the node with an id depends on. -/
def efferent (graph : DependencyGraph α) (id : String) : Nat :=
  ((graph.index? id).map fun node => (graph.next node).length).getD 0

/-- The number of other nodes that a node reaches. -/
def countReached (graph : DependencyGraph α) (node : Nat) : Nat :=
  (Search.reached graph.next graph.size [node]).length - 1

/-- The number of other nodes that the node with an id reaches, remembered or counted. -/
def reachOf (graph : DependencyGraph α) (id : String) : Nat :=
  match graph.index? id with
  | none => 0
  | some node => (graph.reach.get? id).getD (graph.countReached node)

/-- Remembers how many nodes the node with an id reaches. -/
def remember (graph : DependencyGraph α) (id : String) : DependencyGraph α :=
  if graph.has id then { graph with reach := graph.reach.put id (graph.reachOf id) } else graph

/-- Whether a node has a dependency edge to itself. -/
def hasLoop (graph : DependencyGraph α) (node : Nat) : Bool :=
  graph.edges.any fun edge => edge.dependency && edge.source == node && edge.target == node

/-- The component of a node. -/
def componentOf (graph : DependencyGraph α) (node : Nat) : List Nat :=
  (graph.components.find? (·.contains node)).getD []

/-- The ids of the nodes of each component. -/
def componentIds (graph : DependencyGraph α) : List (List String) :=
  graph.components.map fun nodes => nodes.map graph.idAt

/-- Whether a component holds a cycle. -/
def isCyclic (graph : DependencyGraph α) (nodes : List Nat) : Bool :=
  decide (1 < nodes.length) || nodes.head?.any graph.hasLoop

/-- The cycle groups in the order of their ids. -/
def cycles (graph : DependencyGraph α) : List CycleGroup :=
  Text.sortBy CycleGroup.id ((graph.components.filter graph.isCyclic).map fun nodes =>
    let ids := nodes.map graph.idAt
    ⟨"cycle-" ++ shortDigest ids, ids⟩)

/-- Whether the node with an id lies in a cycle. -/
def isInCycle (graph : DependencyGraph α) (id : String) : Bool :=
  match graph.index? id with
  | none => false
  | some node => graph.hasLoop node || decide (1 < (graph.componentOf node).length)

/-- The depth of a component above those already measured. -/
def depthAbove (graph : DependencyGraph α) (depths : List (List Nat × Nat)) (nodes : List Nat) :
    Nat :=
  let steps := (nodes.flatMap graph.next).filterMap fun target =>
    if nodes.contains target then
      none
    else
      (depths.find? (·.1.contains target)).map (·.2 + 1)
  steps.foldl max 0

/-- The length of the longest chain of components that depend on each other. -/
def maxDepth (graph : DependencyGraph α) : Nat :=
  let depths := graph.components.foldl
    (fun depths nodes => depths ++ [(nodes, graph.depthAbove depths nodes)])
    ([] : List (List Nat × Nat))
  (depths.map (·.2)).foldl max 0

variable [Scalar α]

/-- The share of the nodes that the node with an id depends on among all it is joined to. -/
def instability (graph : DependencyGraph α) (id : String) : α :=
  Scalar.ratio (graph.efferent id) (graph.afferent id + graph.efferent id)

/-- The share of all nodes that the node with an id reaches. -/
def impact (graph : DependencyGraph α) (id : String) : α :=
  Scalar.ratio (graph.reachOf id) graph.size

/-- The metrics of the node with an id. -/
def metrics? (graph : DependencyGraph α) (id : String) : Option (NodeMetrics α) :=
  if graph.has id then
    some ⟨graph.afferent id, graph.efferent id, graph.instability id, graph.impact id⟩
  else
    none

/-- The weighted sum of the dependency edges of members, their distinct targets and the members in
cycles. -/
def complexity (graph : DependencyGraph α) (memberIds : List String) : α :=
  let members := distinct (memberIds.filterMap graph.index?)
  let edges := members.flatMap fun node => (graph.edgesFrom node).filter (·.dependency)
  let targets := distinct (edges.map (·.target))
  let cyclic := members.filter fun node => graph.isInCycle (graph.idAt node)
  Scalar.add
    (Scalar.add (Scalar.mul graph.weights.edges (Scalar.ofNat edges.length))
      (Scalar.mul graph.weights.fanOut (Scalar.ofNat targets.length)))
    (Scalar.mul graph.weights.cycleMembers (Scalar.ofNat cyclic.length))

/-- The sum of a count over all nodes. -/
def total (graph : DependencyGraph α) (count : String → Nat) : Nat :=
  (graph.nodes.map fun node => count node.id).foldl (· + ·) 0

/-- The metrics of a graph. -/
def summary (graph : DependencyGraph α) : GraphSummary α :=
  let pairs := (graph.dependsOn.toList.map List.length).foldl (· + ·) 0
  { nodeCount := graph.size
    edgeCount := graph.edges.length
    dependencyEdgeCount := (graph.edges.filter (·.dependency)).length
    density := if graph.size < 2 then Scalar.zero
      else Scalar.ratio pairs (graph.size * (graph.size - 1))
    cycleCount := graph.cycles.length
    averageAfferent := Scalar.ratio (graph.total graph.afferent) graph.size
    averageEfferent := Scalar.ratio (graph.total graph.efferent) graph.size
    averageInstability := Scalar.average (graph.nodes.map fun node => graph.instability node.id)
    maxDepth := graph.maxDepth }

end DependencyGraph
end CodeAtlas
