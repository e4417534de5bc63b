import CodeAtlas.Graph.Component
import CodeAtlas.Relationship
import CodeAtlas.Table
import CodeAtlas.Error

/-!
# Dependency graphs

A graph has the elements as nodes, numbered in the order of their ids, and an edge for each
direction of a relationship whose two ends are there. Edges of some kinds are dependencies. A graph
knows its components and remembers how many nodes can be reached from those it has been asked about.
-/

namespace CodeAtlas

/-- An edge of a graph. -/
structure GraphEdge (α : Type) where
  /-- The identity of the edge. -/
  id : String
  /-- The relationship that the edge comes from. -/
  relationshipId : String
  /-- The number of the node that the edge leaves. -/
  source : Nat
  /-- The number of the node that the edge enters. -/
  target : Nat
  /-- The kind of relationship. -/
  kind : RelationshipKind
  /-- How sure the relationship is. -/
  strength : α
  /-- Whether the edge is a dependency. -/
  dependency : Bool

/-- The weights of the parts of complexity. -/
structure ComplexityWeights (α : Type) where
  /-- For each dependency edge. -/
  edges : α
  /-- For each distinct target. -/
  fanOut : α
  /-- For each member in a cycle. -/
  cycleMembers : α

/-- The weights unless others are given. -/
def ComplexityWeights.standard : ComplexityWeights Float := ⟨1, 2, 3⟩

/-- How a graph is built. -/
structure GraphOptions (α : Type) where
  /-- The kinds of relationships that are dependencies. -/
  dependencyKinds : List RelationshipKind
  /-- The weights of the parts of complexity. -/
  weights : ComplexityWeights α

/-- The options unless others are given: every reference is a dependency. -/
def GraphOptions.standard : GraphOptions Float :=
  ⟨RelationshipKind.references, ComplexityWeights.standard⟩

/-- A graph of elements. -/
structure DependencyGraph (α : Type) where
  /-- The nodes in the order of their ids. -/
  nodes : List Element
  /-- The edges in the order of the relationships. -/
  edges : List (GraphEdge α)
  /-- The weights of the parts of complexity. -/
  weights : ComplexityWeights α
  /-- The distinct other nodes that each node depends on, in ascending order. -/
  dependsOn : Array (List Nat)
  /-- The distinct other nodes that depend on each node, in ascending order. -/
  dependedOnBy : Array (List Nat)
  /-- The groups of nodes that reach each other, each after those it depends on. -/
  components : List (List Nat)
  /-- How many other nodes some nodes reach, by id. -/
  reach : Table String Nat
  /-- The ids that differ from an earlier graph. -/
  changed : List String

namespace DependencyGraph

variable {α : Type}

/-- The number of the last node with an id. -/
def lastIndex? (nodes : List Element) (id : String) : Option Nat :=
  (nodes.zipIdx.reverse.find? (·.1.id = id)).map (·.2)

/-- The edges of a relationship between two nodes: one, or one for each direction. -/
def edgesBetween (kinds : List RelationshipKind) (relationship : Relationship α)
    (source target : Nat) : List (GraphEdge α) :=
  let forward : GraphEdge α :=
    { id := relationship.id
      relationshipId := relationship.id
      source := source
      target := target
      kind := relationship.kind
      strength := relationship.strength
      dependency := kinds.contains relationship.kind }
  if relationship.bidirectional then
    [forward, { forward with
      id := relationship.id ++ ":reverse", source := target, target := source }]
  else
    [forward]

/-- The edges of a relationship, or the end that is missing. -/
def edgesOf (kinds : List RelationshipKind) (nodes : List Element)
    (relationship : Relationship α) : Except AnalysisError (List (GraphEdge α)) :=
  match lastIndex? nodes relationship.sourceId, lastIndex? nodes relationship.targetId with
  | none, _ => .error (.missingElement relationship.id relationship.sourceId)
  | some _, none => .error (.missingElement relationship.id relationship.targetId)
  | some source, some target => .ok (edgesBetween kinds relationship source target)

/-- The distinct other nodes that dependency edges lead to from a node. -/
def targetsOf (edges : List (GraphEdge α)) (size node : Nat) : List Nat :=
  let found := edges.filter fun edge => edge.dependency && edge.source == node
  (List.range size).filter fun other => other != node && found.any (·.target == other)

/-- Adds a node to the lists of others. -/
def addTo (lists : Array (List Nat)) (node : Nat) (others : List Nat) : Array (List Nat) :=
  others.foldl (fun lists other => lists.modify other (· ++ [node])) lists

/-- The other direction of lists of numbers: each node is added to the lists of those it leads to,
one node after another. -/
def transpose (lists : Array (List Nat)) (size : Nat) : Array (List Nat) :=
  (List.range size).foldl (fun reversed node => addTo reversed node ((lists[node]?).getD []))
    (Array.replicate size [])

/-- The graph of nodes and edges, compared with no earlier one. -/
def ofEdges (nodes : List Element) (edges : List (GraphEdge α)) (weights : ComplexityWeights α) :
    DependencyGraph α :=
  let size := nodes.length
  let dependsOn := ((List.range size).map (targetsOf edges size)).toArray
  { nodes := nodes
    edges := edges
    weights := weights
    dependsOn := dependsOn
    dependedOnBy := transpose dependsOn size
    components := Tour.components (fun node => (dependsOn[node]?).getD []) size
    reach := Table.empty
    changed := [] }

/-- The outcomes of all relationships over the sorted elements. -/
def outcomes (options : GraphOptions α) (nodes : List Element)
    (relationships : List (Relationship α)) : List (Except AnalysisError (List (GraphEdge α))) :=
  relationships.map (edgesOf options.dependencyKinds nodes)

/-- The graph of elements and relationships, compared with no earlier one. -/
def fresh (options : GraphOptions α) (elements : List Element)
    (relationships : List (Relationship α)) : DependencyGraph α :=
  let nodes := Text.sortBy Element.id elements
  ofEdges nodes
    ((outcomes options nodes relationships).flatMap fun outcome => outcome.toOption.getD [])
    options.weights

/-- The diagnostics of relationships that have an end outside the elements. -/
def diagnostics (elements : List Element) (relationships : List (Relationship α)) :
    List Diagnostic :=
  let nodes := Text.sortBy Element.id elements
  relationships.filterMap fun relationship =>
    match edgesOf [] nodes relationship with
    | .error error => some (error.diagnostic .warning)
    | .ok _ => none

/-- The number of nodes. -/
def size (graph : DependencyGraph α) : Nat := graph.nodes.length

/-- The id of a node. -/
def idAt (graph : DependencyGraph α) (node : Nat) : String :=
  ((graph.nodes[node]?).map Element.id).getD ""

/-- The number of the node with an id. -/
def index? (graph : DependencyGraph α) (id : String) : Option Nat := lastIndex? graph.nodes id

/-- Whether a graph has a node with an id. -/
def has (graph : DependencyGraph α) (id : String) : Bool := (graph.index? id).isSome

/-- The edges that leave a node. -/
def edgesFrom (graph : DependencyGraph α) (node : Nat) : List (GraphEdge α) :=
  graph.edges.filter (·.source == node)

/-- The edges that enter a node. -/
def edgesInto (graph : DependencyGraph α) (node : Nat) : List (GraphEdge α) :=
  graph.edges.filter (·.target == node)

/-- The edges that leave the node with an id. -/
def outgoing (graph : DependencyGraph α) (id : String) : List (GraphEdge α) :=
  ((graph.index? id).map graph.edgesFrom).getD []

/-- The edges that enter the node with an id. -/
def incoming (graph : DependencyGraph α) (id : String) : List (GraphEdge α) :=
  ((graph.index? id).map graph.edgesInto).getD []

/-- The nodes that a node depends on. -/
def next (graph : DependencyGraph α) (node : Nat) : List Nat := (graph.dependsOn[node]?).getD []

/-- The nodes that depend on a node. -/
def before (graph : DependencyGraph α) (node : Nat) : List Nat :=
  (graph.dependedOnBy[node]?).getD []

/-- The ids of the other nodes that the node with an id depends on, sorted. -/
def dependenciesOf (graph : DependencyGraph α) (id : String) : List String :=
  match graph.index? id with
  | some node => (graph.next node).map graph.idAt
  | none => []

end DependencyGraph

/-- An edge at a position as a structured value. -/
def GraphEdge.toJson (edge : GraphEdge Float) (index : Nat) : Json :=
  .obj
    [("index", .nat index), ("id", .str edge.id), ("relationshipId", .str edge.relationshipId),
     ("source", .nat edge.source), ("target", .nat edge.target), ("kind", .str edge.kind.name),
     ("strength", .num edge.strength), ("dependency", .bool edge.dependency)]

end CodeAtlas
